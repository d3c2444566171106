import OpenWallet.Monitor.BtcChain
import OpenWallet.Monitor.Tasks

/-!
No deposit below a stored BTC height is missing from `txutxo`, whatever fails, whichever tasks
run in between, and wherever a process ends.
-/

namespace OpenWallet.Monitor

open Lib Prog

namespace Btc

/-- What `txutxo` owes for the block at a height. -/
def Due (c : Chain) (watch : String → Prop) (n : ℕ) (l : List Stmt) : Prop :=
  ∀ txid ∈ c.block (c.hash n), ∀ o ∈ (c.tx txid).vout, ∀ address ∈ o.addresses.getD [],
    watch address → ∃ r, .txutxo r ∈ l ∧ r.txid = txid ∧ r.address = address

lemma Due.mono {c : Chain} {watch : String → Prop} (n : ℕ) (l l' : List Stmt) (hl : l ⊆ l')
    (h : Due c watch n l) : Due c watch n l' := by
  intro txid ht o ho address ha hw
  obtain ⟨r, hr, hk⟩ := h txid ht o ho address ha hw
  exact ⟨r, hl hr, hk⟩

lemma Done.due {c : Chain} {x : Weather} (hc : c.Honest x) {t₀ : ℕ} {node : NodeInfo}
    {S : List (String × ℤ)} {V : String → Bool → Prop} {watch : String → Prop} {w : World}
    {n : ℕ} (hS : ∀ address, watch address → watched S address)
    (h : Done x t₀ node S V w n) :
    Due c watch n (otc.total w) := by
  intro txid ht o ho address ha hw
  obtain ⟨vin, -, hrow⟩ := (h.honest hc txid ht).honest hc
  obtain ⟨k, hk⟩ := List.getElem?_of_mem ho
  obtain ⟨slot, hslot⟩ := List.getElem?_of_mem ha
  obtain ⟨src, -, hr⟩ := hrow k o hk slot address hslot (Or.inl (hS address hw))
  exact ⟨_, hr, row_txid .., row_address ..⟩

/-! ### The invariant -/

section

variable {c : Chain} {cat : Catalog} {coin_id : ℤ} {h₀ : ℕ}

/-- The database: nothing due below a stored height is missing. -/
structure Kept (c : Chain) (cat : Catalog) (coin_id : ℤ) (h₀ : ℕ) (w : World) : Prop where
  tables : w.db.cat = cat
  covered : otc.Covered (Due c (Owned cat "BTC")) coin_id h₀ w.db.log

/-- The process: no height waits in the buffer, and the addresses it watches are none or all. -/
structure Sane (c : Chain) (cat : Catalog) (coin_id : ℤ) (h₀ : ℕ) (w : World) : Prop
    extends Kept c cat coin_id h₀ w where
  clean : ∀ n, ¬ otc.Marked coin_id n w.vars.vect_sql_
  watch : w.vars.s_address_id_btc = [] ∨
    ∀ address, Owned cat "BTC" address → watched w.vars.s_address_id_btc address

lemma Kept.of_db {w w' : World} (h : Kept c cat coin_id h₀ w) (hw : w'.db = w.db) :
    Kept c cat coin_id h₀ w' := ⟨by rw [hw]; exact h.tables, by rw [hw]; exact h.covered⟩

lemma Sane.of_still {w w' : World} (h : Sane c cat coin_id h₀ w) (hdb : w'.db = w.db)
    (hbuf : w'.vars.vect_sql_ = w.vars.vect_sql_)
    (hbtc : w'.vars.s_address_id_btc = w.vars.s_address_id_btc) : Sane c cat coin_id h₀ w' where
  toKept := h.toKept.of_db hdb
  clean := by rw [hbuf]; exact h.clean
  watch := by rw [hbtc]; exact h.watch

variable {x : Weather} (hcoin : coinId cat "BTC" = some (some coin_id))

include hcoin

lemma Sane.other {coin : String} (hne : coin ≠ "BTC") {G : Grounds} {w : World} {b : At}
    (h : Sane c cat coin_id h₀ w) {pre_height : ℕ} {node : NodeInfo} {s : ℕ}
    (hb : Begun w coin G.coin_id pre_height node) (hs : Steps x G ⟨w, s, ⊥⟩ b) :
    Sane c cat coin_id h₀ b.w := by
  have hkey : coin_id ≠ G.coin_id := by
    rintro rfl
    have hcur := hb.current.1
    rw [h.tables] at hcur
    exact hne (coinId_inj hcur hcoin)
  obtain ⟨hcov, hclean⟩ := Scanner.Steps.covered_other Due.mono hs hkey h.covered h.clean
  have hf := hs.frame
  exact ⟨⟨hf.cat.trans h.tables, hcov⟩, hclean, by rw [hf.btc]; exact h.watch⟩

lemma Sane.returned {coin : String} (hne : coin ≠ "BTC") {s : ℕ → ℕ}
    {G : NodeInfo → ℤ → ℕ → Grounds} (hG : ∀ n c h, (G n c h).coin_id = c)
    {T : NodeInfo → ℕ → World → Prop} {w w' : World} (h : Sane c cat coin_id h₀ w)
    (hr : Returned x coin s G T w w') : Sane c cat coin_id h₀ w' := by
  rcases hr with ⟨rfl, -⟩ | ⟨_, _, _, _, hb, ⟨_, _, hs, -⟩, -⟩
  · exact h
  · exact h.other hcoin hne (by rwa [hG]) hs

lemma Sane.broken {coin : String} (hne : coin ≠ "BTC") {s : ℕ → ℕ}
    {G : NodeInfo → ℤ → ℕ → Grounds} (hG : ∀ n c h, (G n c h).coin_id = c) {w w' : World}
    (h : Sane c cat coin_id h₀ w) (hr : Broken x coin s G w w') : Kept c cat coin_id h₀ w' := by
  rcases hr with ⟨hdb, -⟩ | ⟨_, _, _, _, hb, b, hs, hdb, -⟩
  · exact h.toKept.of_db hdb
  · exact (h.other hcoin hne (by rwa [hG]) hs).toKept.of_db hdb

lemma Sane.own (hc : c.Honest x) {w : World} {b : At} (h : Sane c cat coin_id h₀ w)
    (hne : w.vars.s_address_id_btc ≠ []) {coin_id' : ℤ} {pre_height height : ℕ} {node : NodeInfo}
    (hb : Begun w "BTC" coin_id' pre_height node)
    (hs : Steps x (grounds x w.wire.length node w.vars.s_address_id_btc Either coin_id' height)
      ⟨w, pre_height, ⊥⟩ b) : Sane c cat coin_id h₀ b.w := by
  obtain ⟨hcur, hmax, -⟩ := hb.current
  rw [h.tables, hcoin] at hcur
  obtain rfl : coin_id = coin_id' := by simpa using hcur
  have hwatch := h.watch.resolve_left hne
  have hdone : ∀ n w₁,
      Done x w.wire.length node w.vars.s_address_id_btc Either w₁ n →
      Due c (Owned cat "BTC") n (otc.total w₁) := fun n w₁ => Done.due hc hwatch
  have hstart : (scanner x (grounds x w.wire.length node w.vars.s_address_id_btc Either coin_id
      height)).Sound (Due c (Owned cat "BTC")) h₀ ⟨w, pre_height, ⊥⟩ := by
    refine ⟨h.covered, fun n h1 h2 => ?_, h.clean⟩
    have hm := marked_iff.mpr (Db.maxHeight_eq_some.mp hmax).1
    exact Due.mono _ _ _ (List.subset_append_left _ _) (h.covered _ hm n h1 h2)
  have hsound := Scanner.Steps.sound Due.mono ?_ ?_ hs hstart
  · have hf := hs.frame
    exact ⟨⟨hf.cat.trans h.tables, hsound.covered⟩, hsound.clean, by rw [hf.btc]; exact h.watch⟩
  · rintro n w₁ (⟨hd, -⟩ | hf)
    · exact hdone n w₁ hd
    · exact hf.elim
  · rintro n s w₁ w₂ ⟨hd, -⟩
    exact hdone n w₁ hd

lemma wp_scanBTC_sane (hc : c.Honest x) {w : World} (h : Sane c cat coin_id h₀ w)
    (hne : w.vars.s_address_id_btc ≠ []) :
    wp (env x) scanBTC (fun _ => Sane c cat coin_id h₀) (Kept c cat coin_id h₀) w := by
  refine wp_mono (wp_scanBTC w Either fun _ _ _ _ _ _ _ _ _ _ _ _ => trivial) ?_ ?_
  · rintro - w' (⟨rfl, -⟩ | ⟨_, _, _, _, hb, ⟨_, _, hs, -⟩, -⟩)
    · exact h
    · exact h.own hcoin hc hne hb hs
  · rintro w' (⟨hdb, -⟩ | ⟨_, _, _, _, hb, b, hs, hdb, -⟩)
    · exact h.toKept.of_db hdb
    · exact (h.own hcoin hc hne hb hs).toKept.of_db hdb

lemma wp_task_sane (hc : c.Honest x) (t : Task) {w : World} (h : Sane c cat coin_id h₀ w) :
    wp (env x) t.run (fun _ => Sane c cat coin_id h₀) (Kept c cat coin_id h₀) w := by
  have hIJ : ∀ w, Sane c cat coin_id h₀ w → Kept c cat coin_id h₀ w := fun w h => h.toKept
  have ht : Timeless (Sane c cat coin_id h₀) := fun w ts h => h.of_still rfl rfl rfl
  have hJ : ∀ w', w'.db = w.db → w'.wire = w.wire → Kept c cat coin_id h₀ w' :=
    fun w' hdb _ => h.toKept.of_db hdb
  cases t with
  | ScanBTC =>
    refine wp_scanTask (fun _ h => h) hIJ ht hJ (fun l hl => ?_) fun w₁ h₁ hne => wp_scanBTC_sane hcoin hc h₁ hne
    rw [foldl_btc]
    refine ⟨h.toKept.of_db rfl, h.clean, ?_⟩
    rw [h.tables] at hl
    rcases hl with rfl | hl
    · simpa using h.watch
    · refine Or.inr fun address ha => ?_
      rw [watched, lookup_isSome_iff, List.map_append, List.mem_append, List.map_reverse,
        List.mem_reverse]
      exact Or.inl ((hl address).mpr ha)
  | ScanETH =>
    refine wp_scanTask (fun _ h => h) hIJ ht hJ (fun l hl => ?_) fun w₁ h₁ hne => ?_
    · rw [foldl_eth]
      exact h.of_still rfl rfl rfl
    · exact wp_mono (Eth.wp_scanETH w₁)
        (fun _ w' hr => h₁.returned hcoin (by decide) (fun _ _ _ => rfl) hr)
        fun w' hr => h₁.broken hcoin (by decide) (fun _ _ _ => rfl) hr
  | ScanXRP =>
    rw [Task.run, ScanXRP, wp_bind]
    refine wp_mono (Xrp.wp_scanXRP w) (fun _ w' hr => wp_SetTimeout hIJ ht ?_)
      fun w' hr => h.broken hcoin (by decide) (fun _ _ _ => rfl) hr
    rcases hr with ⟨rfl, -⟩ | hr
    · exact h
    · exact h.returned hcoin (by decide) (fun _ _ _ => rfl) hr
  | ScanEOS =>
    rw [Task.run, ScanEOS, wp_bind]
    refine wp_mono (Eos.wp_scanEOS w) (fun _ w' hr => wp_SetTimeout hIJ ht ?_)
      fun w' hr => h.broken hcoin (by decide) (fun _ _ _ => rfl) hr
    rcases hr with ⟨rfl, -⟩ | hr
    · exact h
    · exact h.returned hcoin (by decide) (fun _ _ _ => rfl) hr
  | ScanOMNI_USDT =>
    refine wp_scanTask (fun _ h => h) hIJ ht hJ (fun l hl => ?_) fun w₁ h₁ hne => ?_
    · rw [foldl_omni]
      exact h.of_still rfl rfl rfl
    · exact wp_mono (Omni.wp_scanOMNI_USDT w₁)
        (fun _ w' hr => h₁.returned hcoin (by decide) (fun _ _ _ => rfl) hr)
        fun w' hr => h₁.broken hcoin (by decide) (fun _ _ _ => rfl) hr
  | ReCallback =>
    rw [Task.run, ReCallback, wp_bind]
    exact wp_mono (wp_reCallback w)
      (fun _ w' hs => wp_SetTimeout hIJ ht (h.of_still hs.db hs.buf hs.btc))
      fun w' hdb => h.toKept.of_db hdb

end

/-- **No deposit is lost below a stored height.** In every run over a chain that only grows, from
a database whose last BTC height is `h₀`, the outputs to the addresses of the coin in all blocks
after `h₀` up to a stored height have their rows, in every state of the run. -/
theorem lossless {c : Chain} {x : Weather} (hc : c.Honest x) {callback_url : String}
    {w₀ w : World} {b : Bool} (hr : Reach x callback_url Free w₀ b w) {coin_id : ℤ} {h₀ : ℕ}
    (hcoin : coinId w₀.db.cat "BTC" = some (some coin_id))
    (hstart : w₀.db.maxHeight coin_id = some h₀) {h : ℕ} (hh : h ∈ w.db.heights coin_id)
    {n : ℕ} (hn : h₀ < n) (hn' : n ≤ h) {txid : String} (ht : txid ∈ c.block (c.hash n))
    {o : Vout} (ho : o ∈ (c.tx txid).vout) {address : String}
    (ha : address ∈ o.addresses.getD []) (howned : Owned w₀.db.cat "BTC" address) :
    ∃ r ∈ w.db.txutxo, r.txid = txid ∧ r.address = address := by
  have hbegin : Kept c w₀.db.cat coin_id h₀ w₀ := by
    refine ⟨rfl, fun m hm n h1 h2 => ?_⟩
    have hle := (Db.maxHeight_eq_some.mp hstart).2 m (marked_iff.mp hm)
    omega
  have hkept : Kept c w₀.db.cat coin_id h₀ w := by
    refine (hr.inv (I := Sane c w₀.db.cat coin_id h₀) (fun w h => h.toKept) hbegin ?_
      fun t w _ h => wp_task_sane hcoin hc t h).1
    intro w hw
    refine wp_mono (wp_start callback_url _) (fun _ w' hs => ?_)
      fun w' hdb => hw.of_db (by rw [hdb])
    refine ⟨hw.of_db (by rw [hs.db]), ?_, Or.inl (by rw [hs.btc]; rfl)⟩
    rw [hs.buf]
    rintro n ⟨s, hs, -⟩
    cases hs
  obtain ⟨r, hr, hk⟩ := hkept.covered h (marked_iff.mpr hh) n hn hn' txid ht o ho address ha howned
  exact ⟨r, Db.mem_txutxo.mpr hr, hk⟩

theorem lossless_oneTx : ∃ r ∈ (play (fun _ => oneTx.node 1) "receiver" [.ScanBTC]
    (smallWorld [(1, 0)])).2.db.txutxo, r.txid = "txid" ∧ r.address = "A" := by
  have hc : oneTx.Honest (.clear fun _ => oneTx.node 1) :=
    honest_of_node (fun _ => 1) fun _ _ _ _ _ => Or.inr rfl
  have hstart : (smallWorld [(1, 0)]).db.maxHeight 1 = some 0 := by decide +kernel
  have hmem : (⟨1, 1, some "A", none⟩ : AccountRow) ∈ smallCatalog.account :=
    List.mem_cons_self
  exact lossless hc (reach_play _ "receiver" [.ScanBTC] _ fun _ _ _ _ => trivial) (h := 1) (n := 1)
    (o := ⟨1, some ["A"]⟩) rfl hstart (by decide +kernel) (by decide) le_rfl List.mem_cons_self
    List.mem_cons_self List.mem_cons_self ⟨_, rfl, _, hmem, rfl, rfl⟩

end Btc

end OpenWallet.Monitor
