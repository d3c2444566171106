import OpenWallet.Monitor.Consistency

/-!
Payments are credited and notified once. A notice goes out when its row is appended, long before
the row is committed, so a pass that breaks off leaves rows and notices behind that the next one
repeats. Where every call finds the buffer empty, nothing was left behind.
-/

namespace OpenWallet.Monitor

open Lib Prog

/-! ### Notices and their rows -/

section

variable {x : Weather} {G : Grounds} {proper : Stmt → Prop} {note : Stmt → Json → Prop} {t₀ : ℕ}

variable (proper note t₀) in
/-- Every entry is proper, no notice has gone out twice since the exchange number `t₀`, and each
has its entry. -/
structure Posted (w : World) : Prop where
  since : t₀ ≤ w.wire.length
  proper : ∀ s ∈ otc.total w, proper s
  once : (w.wire.drop t₀).Pairwise fun e e' => isNotice e.1.data → e'.1.data ≠ e.1.data
  entry : ∀ e ∈ w.wire.drop t₀, isNotice e.1.data → ∃ s ∈ otc.total w, note s e.1.data

lemma Posted.append {w w' : World} {l : List Stmt} (h : Posted proper note t₀ w)
    (ht : otc.total w' = otc.total w ++ l) (hw : w'.wire = w.wire)
    (hnew : ∀ s ∈ l, proper s) : Posted proper note t₀ w' where
  since := by rw [hw]; exact h.since
  proper s hs := by
    rw [ht] at hs
    exact (List.mem_append.mp hs).elim (h.proper s) (hnew s)
  once := by rw [hw]; exact h.once
  entry e he hn := by
    rw [hw] at he
    obtain ⟨s, hs, hnote⟩ := h.entry e he hn
    exact ⟨s, by rw [ht]; exact List.mem_append_left _ hs, hnote⟩

/-- An exchange comes after the exchanges, where it is no notice or the first of its entry. -/
lemma Posted.exchange {w w' : World} {e : Request × Answer} (h : Posted proper note t₀ w)
    (ht : otc.total w' = otc.total w) (hw : w'.wire = w.wire ++ [e])
    (hentry : isNotice e.1.data → ∃ s ∈ otc.total w, note s e.1.data)
    (hne : ∀ e' ∈ w.wire.drop t₀, isNotice e'.1.data → e.1.data ≠ e'.1.data) :
    Posted proper note t₀ w' := by
  have hdrop : w'.wire.drop t₀ = w.wire.drop t₀ ++ [e] := by
    rw [hw, List.drop_append_of_le_length h.since]
  refine ⟨?_, by rw [ht]; exact h.proper, ?_, ?_⟩
  · rw [hw, List.length_append]
    exact h.since.trans (Nat.le_add_right _ _)
  · rw [hdrop, List.pairwise_append]
    refine ⟨h.once, List.pairwise_singleton _ _, fun e' he' e'' he'' hn => ?_⟩
    rw [List.mem_singleton.mp he'']
    exact hne e' he' hn
  · intro e' he' hn
    rw [hdrop, List.mem_append, List.mem_singleton] at he'
    rw [ht]
    rcases he' with he' | rfl
    · exact h.entry e' he' hn
    · exact hentry hn

variable (hblock : ∀ r, proper (.block r))
  (hcredit : ∀ n s b w q, G.credit n s b w → s.place = some (G.coin_id, n, q) →
    proper s ∧ ∀ j, b = some j → note s j)
  (hsame : ∀ s s' j, proper s → proper s' → note s j → note s' j → s.place = s'.place)

include hblock hcredit hsame

lemma step_posted {a b : At} (h : (scanner x G).Step a b) (ha : (scanner x G).Neat a)
    (hp : Posted proper note t₀ a.w) : Posted proper note t₀ b.w := by
  have hb := h.neat ha
  cases h with
  | quiet h =>
    cases h with
    | @sent r a _ hquiet =>
      refine hp.exchange (e := (r, a)) rfl rfl (by simp [hquiet]) fun e' _ hn heq => ?_
      rw [← heq, hquiet] at hn
      cases hn
    | track => exact hp.append (l := []) (by simp [Store.total, otc, World.track]) rfl (by simp)
  | room => exact hp
  | skip => exact hp
  | @store w w' i p s h =>
    obtain ⟨-, -, ⟨hash, rfl⟩, rfl⟩ := h
    refine hp.append (l := [.block ⟨G.coin_id, hash, i + 1⟩]) ?_ rfl ?_
    · simp [Store.total, otc, World.flush, World.push, Db.commit]
    · simpa using hblock _
  | @credit w w' i p q r s h hplace hpq hqr =>
    cases h with
    | push hc =>
      obtain ⟨hs, -⟩ := hcredit _ _ _ _ _ hc hplace
      exact hp.append (l := [s]) (by simp [Store.total, otc, World.push]) rfl (by simpa using hs)
    | @notify j a hc ha =>
      obtain ⟨hs, hnote⟩ := hcredit _ _ _ _ _ hc hplace
      have hpush : Posted proper note t₀ (w.push s) :=
        hp.append (l := [s]) (by simp [Store.total, otc, World.push]) rfl (by simpa using hs)
      have hmem : s ∈ otc.total (w.push s) := by simp [Store.total, otc, World.push]
      refine hpush.exchange (e := (⟨w.vars.callback_url_, "", j⟩, a))
        (by simp [Store.total, otc]) (by rw [notify_wire]; rfl)
        (fun _ => ⟨s, hmem, hnote j rfl⟩) fun e' he' hn heq => ?_
      -- an entry with the same notice would be an earlier one at the same place
      obtain ⟨s', hs', hnote'⟩ := hp.entry e' he' hn
      rw [← heq] at hnote'
      have hsp := hsame s s' j hs (hp.proper s' hs') (hnote j rfl) hnote'
      have honce : ((otc.total w ++ [s]).filterMap Stmt.place).Nodup := by
        have h1 := hb.once
        simpa [Store.total, otc, World.push] using h1
      rw [List.filterMap_append, List.nodup_append] at honce
      have hplace' : s.place = some (G.coin_id, i + 1, q) := hplace
      refine honce.2.2 _ (List.mem_filterMap.mpr ⟨s', hs', hsp ▸ hplace'⟩) (G.coin_id, i + 1, q)
        (by simp [hplace']) rfl

/-- A pass that begins with an empty buffer sends no notice a second time. -/
lemma Steps.posted {a b : At} (h : Steps x G a b) (ha : (scanner x G).Neat a)
    (hp : Posted proper note t₀ a.w) : Posted proper note t₀ b.w := by
  induction h with
  | refl => exact hp
  | tail hs hstep ih =>
    exact step_posted hblock hcredit hsame hstep (Scanner.Steps.neat hs ha) ih

end

namespace Btc

/-- The row is for an address of an output of the chain, at the place it names. -/
def Chain.Has (c : Chain) (r : Txutxo) : Prop :=
  (c.block (c.hash r.src.height))[r.src.tx]? = some r.txid ∧
  ∃ o as, (c.tx r.txid).vout[r.src.out]? = some o ∧ o.addresses = some as ∧
    as[r.src.slot]? = some r.address

/-- No transaction is in the chain twice. -/
def Chain.Distinct (c : Chain) : Prop :=
  ∀ (n j n' j' : ℕ) (txid : String), (c.block (c.hash n))[j]? = some txid →
    (c.block (c.hash n'))[j']? = some txid → n = n' ∧ j = j'

/-- No output lists an address twice. -/
def Chain.Single (c : Chain) : Prop :=
  ∀ txid, ∀ o ∈ (c.tx txid).vout, ∀ as, o.addresses = some as → as.Nodup

/-- The notice names the output and the address of the row. -/
def noted (r : Txutxo) (j : Json) : Prop :=
  ∃ value, j = callback "address" value "BTC" r.src.out r.address r.txid false

lemma Chain.Has.src_eq {c : Chain} {r r' : Txutxo} (hd : c.Distinct) (h1 : c.Single)
    (hr : c.Has r) (hr' : c.Has r') (hcoin : r.src.coin_id = r'.src.coin_id)
    (htxid : r.txid = r'.txid) (hout : r.src.out = r'.src.out)
    (haddress : r.address = r'.address) : r.src = r'.src := by
  obtain ⟨ht, o, as, ho, has, ha⟩ := hr
  obtain ⟨ht', o', as', ho', has', ha'⟩ := hr'
  rw [← htxid] at ht' ho'
  rw [← hout, ho] at ho'
  obtain rfl : o = o' := Option.some.inj ho'
  rw [has] at has'
  obtain rfl : as = as' := Option.some.inj has'
  obtain ⟨hn, hj⟩ := hd _ _ _ _ _ ht ht'
  have hnodup := h1 _ o (List.mem_of_getElem? ho) as has
  have hslot : r.src.slot = r'.src.slot := by
    rw [haddress] at ha
    obtain ⟨hlt, -⟩ := List.getElem?_eq_some_iff.mp ha
    exact (List.getElem?_inj hlt hnodup).mp (ha.trans ha'.symm)
  exact Src.ext hcoin hn hj hout hslot

lemma Pays.has {c : Chain} {x : Weather} (hc : c.Honest x) {t₀ : ℕ} {node : NodeInfo}
    {w : World} {i : ℕ} {src : Src} {txid value address : String} {number : ℤ}
    (h : Pays x t₀ node w i src txid number value address) (r : Txutxo) (hsrc : r.src = src)
    (htxid : r.txid = txid) (haddress : r.address = address) :
    c.Has r ∧ number = src.out := by
  subst hsrc htxid haddress
  obtain ⟨ht, hnumber, o, as, ho, has, ha, -⟩ := h.honest hc
  exact ⟨⟨h.height ▸ ht, o, as, ho, has, ha⟩, hnumber⟩

end Btc

namespace Xrp

/-- The row is for a payment of the chain, at the place it names. -/
def Chain.Has (c : Chain) (r : Txutxo) : Prop :=
  (c.ledger r.src.height)[r.src.tx]? = some r.txid ∧ r.src.out = 0 ∧ r.src.slot = 0

/-- No transaction is in the chain twice. -/
def Chain.Distinct (c : Chain) : Prop :=
  ∀ (n j n' j' : ℕ) (hash : String), (c.ledger n)[j]? = some hash → (c.ledger n')[j']? = some hash →
    n = n' ∧ j = j'

/-- The notice names the payment of the row. -/
def noted (r : Txutxo) (j : Json) : Prop :=
  ∃ amount address, j = callback "toAddress" amount "XRP" 0 address r.txid false

lemma Chain.Has.src_eq {c : Chain} {r r' : Txutxo} (hd : c.Distinct) (hr : c.Has r)
    (hr' : c.Has r') (hcoin : r.src.coin_id = r'.src.coin_id) (htxid : r.txid = r'.txid) :
    r.src = r'.src := by
  obtain ⟨ht, hout, hslot⟩ := hr
  obtain ⟨ht', hout', hslot'⟩ := hr'
  rw [← htxid] at ht'
  obtain ⟨hn, hj⟩ := hd _ _ _ _ _ ht ht'
  exact Src.ext hcoin hn hj (hout.trans hout'.symm) (hslot.trans hslot'.symm)

end Xrp

/-! ### Runs -/

section

variable {cb : Btc.Chain} {cx : Xrp.Chain} {cat : Catalog} {btc xrp : ℤ} {t₀ : ℕ}

variable (cb cx btc xrp) in
/-- A row of either coin is a row of its chain. -/
def Proper (s : Stmt) : Prop :=
  ∀ r, s = .txutxo r → (r.src.coin_id = btc → cb.Has r) ∧ (r.src.coin_id = xrp → cx.Has r)

variable (btc xrp) in
/-- The notice of a row. -/
def Noted (s : Stmt) (j : Json) : Prop :=
  ∃ r, s = .txutxo r ∧
    (r.src.coin_id = btc ∧ Btc.noted r j ∨ r.src.coin_id = xrp ∧ Xrp.noted r j)

lemma place_of_noted (hbd : cb.Distinct) (hb1 : cb.Single) (hxd : cx.Distinct) {s s' : Stmt}
    {j : Json} (hs : Proper cb cx btc xrp s) (hs' : Proper cb cx btc xrp s')
    (hn : Noted btc xrp s j) (hn' : Noted btc xrp s' j) : s.place = s'.place := by
  obtain ⟨r, rfl, hn⟩ := hn
  obtain ⟨r', rfl, hn'⟩ := hn'
  obtain ⟨hrb, hrx⟩ := hs r rfl
  obtain ⟨hrb', hrx'⟩ := hs' r' rfl
  suffices r.src = r'.src by simp [Stmt.place, this]
  rcases hn with ⟨hc, value, rfl⟩ | ⟨hc, amount, address, rfl⟩ <;>
    rcases hn' with ⟨hc', value', hj⟩ | ⟨hc', amount', address', hj⟩ <;>
    simp only [callback, Json.obj.injEq, List.cons.injEq, Prod.mk.injEq, Json.str.injEq,
      Json.int.injEq, Nat.cast_inj, String.reduceEq, false_and, and_false, true_and, and_true]
      at hj
  · obtain ⟨haddress, -, hout, htxid⟩ := hj
    exact (hrb hc).src_eq hbd hb1 (hrb' hc') (hc.trans hc'.symm) htxid hout haddress
  · exact (hrx hc).src_eq hxd (hrx' hc') (hc.trans hc'.symm) hj.2.2

/-- No output has two rows for an address, no XRP payment has two rows, and a notice that was
acknowledged with another code than 1 is not posted again. -/
structure AtMostOnce (btc xrp : ℤ) (t₀ : ℕ) (w : World) : Prop where
  btc : ((w.db.txutxo.filter (·.src.coin_id = btc)).map
    fun r => (r.txid, r.src.out, r.address)).Nodup
  xrp : ((w.db.txutxo.filter (·.src.coin_id = xrp)).map (·.txid)).Nodup
  acked : (w.wire.drop t₀).Pairwise fun e e' => isNotice e.1.data →
    (∃ k, code e.2 = .ok k ∧ k ≠ 1) → e'.1.data ≠ e.1.data

variable (cb cx btc xrp t₀) in
/-- What is left of a process. -/
structure Settled (w : World) : Prop where
  tidy : otc.Tidy w.db.log
  proper : ∀ s ∈ w.db.log, Proper cb cx btc xrp s
  once : (w.wire.drop t₀).Pairwise fun e e' => isNotice e.1.data → e'.1.data ≠ e.1.data

variable (cb cx cat btc xrp t₀) in
structure Accounted (w : World) : Prop where
  tables : w.db.cat = cat
  tidy : otc.Tidy w.db.log
  posted : Posted (Proper cb cx btc xrp) (Noted btc xrp) t₀ w

lemma Accounted.settled {w : World} (h : Accounted cb cx cat btc xrp t₀ w) :
    Settled cb cx btc xrp t₀ w :=
  ⟨h.tidy, fun s hs => h.posted.proper s (List.mem_append_left _ hs), h.posted.once⟩

lemma nodup_map_of_src {β : Type} {rows : List Txutxo} {f : Txutxo → β}
    (h : (rows.map (·.src)).Nodup) (hf : ∀ r ∈ rows, ∀ r' ∈ rows, f r = f r' → r.src = r'.src) :
    (rows.map f).Nodup := by
  rw [List.Nodup, List.pairwise_map] at h ⊢
  exact h.imp_of_mem fun hr hr' hne heq => hne (hf _ hr _ hr' heq)

lemma Settled.atMostOnce (hbd : cb.Distinct) (hb1 : cb.Single) (hxd : cx.Distinct) {w : World}
    (h : Settled cb cx btc xrp t₀ w) : AtMostOnce btc xrp t₀ w := by
  have hrow : ∀ c, ∀ r ∈ w.db.txutxo.filter (·.src.coin_id = c), r.src.coin_id = c ∧
      (r.src.coin_id = btc → cb.Has r) ∧ (r.src.coin_id = xrp → cx.Has r) := by
    intro c r hr
    obtain ⟨hr, hc⟩ := List.mem_filter.mp hr
    exact ⟨by simpa using hc, h.proper _ (Db.mem_txutxo.mp hr) r rfl⟩
  have hsrc : ∀ c, ((w.db.txutxo.filter (·.src.coin_id = c)).map (·.src)).Nodup := fun c =>
    (consistent_iff.mpr h.tidy).txutxo_once.sublist (List.filter_sublist.map _)
  refine ⟨nodup_map_of_src (hsrc btc) ?_, nodup_map_of_src (hsrc xrp) ?_,
    h.once.imp fun h hn _ => h hn⟩
  · intro r hr r' hr' heq
    simp only [Prod.mk.injEq] at heq
    obtain ⟨hc, hp, -⟩ := hrow btc r hr
    obtain ⟨hc', hp', -⟩ := hrow btc r' hr'
    exact (hp hc).src_eq hbd hb1 (hp' hc') (hc.trans hc'.symm) heq.1 heq.2.1 heq.2.2
  · intro r hr r' hr' heq
    obtain ⟨hc, -, hp⟩ := hrow xrp r hr
    obtain ⟨hc', -, hp'⟩ := hrow xrp r' hr'
    exact (hp hc).src_eq hxd (hp' hc') (hc.trans hc'.symm) heq

/-- A pass over the rows of the chains, from an empty buffer. -/
lemma Accounted.pass {x : Weather} (hbd : cb.Distinct) (hb1 : cb.Single) (hxd : cx.Distinct)
    {coin : String} {G : Grounds} {w : World} {b : At} {coin_id : ℤ} {pre_height : ℕ}
    {node : NodeInfo} (h : Accounted cb cx cat btc xrp t₀ w) (hbuf : w.vars.vect_sql_ = [])
    (hb : Begun w coin coin_id pre_height node) (hG : G.coin_id = coin_id)
    (hcredit : ∀ n s b w q, G.credit n s b w → s.place = some (G.coin_id, n, q) →
      Proper cb cx btc xrp s ∧ ∀ j, b = some j → Noted btc xrp s j)
    (hs : Steps x G ⟨w, pre_height, ⊥⟩ b) : Accounted cb cx cat btc xrp t₀ b.w := by
  have hneat : (scanner x G).Neat ⟨w, pre_height, ⊥⟩ := neat_begun h.tidy hbuf hb hG le_rfl
  refine ⟨hs.frame.cat.trans h.tables, (Scanner.Steps.neat hs hneat).tidy, ?_⟩
  exact hs.posted (fun r r' h => by cases h) hcredit
    (fun s s' j => place_of_noted hbd hb1 hxd) hneat h.posted

lemma Accounted.of_db {w w' : World} (h : Accounted cb cx cat btc xrp t₀ w)
    (hdb : w'.db = w.db) (hwire : w'.wire = w.wire) : Settled cb cx btc xrp t₀ w' := by
  obtain ⟨htidy, hproper, honce⟩ := h.settled
  exact ⟨by rwa [hdb], by rwa [hdb], by rwa [hwire]⟩

variable {x : Weather} (hb : cb.Honest x) (hx : cx.Honest x) (hbd : cb.Distinct)
  (hb1 : cb.Single) (hxd : cx.Distinct) (hbtc : coinId cat "BTC" = some (some btc))
  (hxrp : coinId cat "XRP" = some (some xrp))

include hb hbd hb1 hxd hbtc hxrp

lemma wp_scanBTC_once {w : World} (h : Accounted cb cx cat btc xrp t₀ w)
    (hbuf : w.vars.vect_sql_ = []) :
    wp (env x) Btc.scanBTC (fun _ => Accounted cb cx cat btc xrp t₀) (Settled cb cx btc xrp t₀)
      w := by
  have hpass : ∀ {coin_id pre_height node height b}, Begun w "BTC" coin_id pre_height node →
      Steps x (Btc.grounds x w.wire.length node w.vars.s_address_id_btc Btc.Either coin_id height)
        ⟨w, pre_height, ⊥⟩ b → Accounted cb cx cat btc xrp t₀ b.w := by
    intro coin_id pre_height node height b hbegun hs
    have hcoin := hbegun.current.1
    rw [h.tables, hbtc] at hcoin
    obtain rfl : btc = coin_id := by simpa using hcoin
    refine h.pass hbd hb1 hxd hbuf hbegun rfl ?_ hs
    rintro n s b w' q ⟨src, txid, vin, number, value, address, hpay, -, rfl, rfl, -⟩ hplace
    have hsrc := Btc.row_src w.vars.s_address_id_btc src txid vin number value address
    have htxid := Btc.row_txid w.vars.s_address_id_btc src txid vin number value address
    have haddress := Btc.row_address w.vars.s_address_id_btc src txid vin number value address
    generalize Btc.row w.vars.s_address_id_btc src txid vin number value address = r at *
    obtain ⟨hhas, rfl⟩ := hpay.has hb r hsrc htxid haddress
    simp only [Stmt.place, Option.some.injEq, Prod.mk.injEq] at hplace
    obtain ⟨hc, -, -⟩ : r.src.coin_id = btc ∧ _ := hplace
    refine ⟨?_, ?_⟩
    · rintro _ ⟨⟩
      refine ⟨fun _ => hhas, fun hc' => absurd (hc.symm.trans hc') ?_⟩
      rintro rfl
      exact absurd (coinId_inj hbtc hxrp) (by decide)
    · rintro _ ⟨⟩
      exact ⟨r, rfl, Or.inl ⟨hc, value, by rw [hsrc, htxid, haddress]⟩⟩
  refine wp_mono (Btc.wp_scanBTC w Btc.Either fun _ _ _ _ _ _ _ _ _ _ _ _ => trivial) ?_ ?_
  · rintro - w' (⟨rfl, -⟩ | ⟨_, _, _, _, hbegun, ⟨_, _, hs, -⟩, -⟩)
    · exact h
    · exact hpass hbegun hs
  · rintro w' (⟨hdb, hwire⟩ | ⟨_, _, _, _, hbegun, b, hs, hdb, hwire⟩)
    · exact h.of_db hdb hwire
    · exact (hpass hbegun hs).of_db hdb hwire

omit hb in
include hx in
lemma wp_scanXRP_once {w : World} (h : Accounted cb cx cat btc xrp t₀ w)
    (hbuf : w.vars.vect_sql_ = []) :
    wp (env x) Xrp.scanXRP (fun _ => Accounted cb cx cat btc xrp t₀) (Settled cb cx btc xrp t₀)
      w := by
  have hpass : ∀ {coin_id pre_height node height b}, Begun w "XRP" coin_id pre_height node →
      Steps x (Xrp.grounds x w.wire.length node w.vars.xrp_base_address_ coin_id height)
        ⟨w, pre_height, ⊥⟩ b → Accounted cb cx cat btc xrp t₀ b.w := by
    intro coin_id pre_height node height b hbegun hs
    have hcoin := hbegun.current.1
    rw [h.tables, hxrp] at hcoin
    obtain rfl : xrp = coin_id := by simpa using hcoin
    refine h.pass hbd hb1 hxd hbuf hbegun rfl ?_ hs
    rintro n s b w' q ⟨src, txs, hash, hash', p, hlist, ht, hread, hheight, hout, hslot, rfl, rfl⟩
      hplace
    obtain rfl := hlist.honest hx
    obtain rfl : p.hash = hash := by rw [((hread.honest hx).2 p rfl).2]
    simp only [Stmt.place, Option.some.injEq, Prod.mk.injEq] at hplace
    obtain ⟨hc, -, -⟩ : src.coin_id = xrp ∧ _ := hplace
    refine ⟨?_, ?_⟩
    · rintro _ ⟨⟩
      refine ⟨fun hc' => absurd (hc'.symm.trans hc) ?_, fun _ => ⟨?_, hout, hslot⟩⟩
      · rintro rfl
        exact absurd (coinId_inj hbtc hxrp) (by decide)
      · simpa [Xrp.row, hheight] using ht
    · rintro _ ⟨⟩
      exact ⟨_, rfl, Or.inr ⟨hc, p.amount, w.vars.xrp_base_address_, rfl⟩⟩
  refine wp_mono (Xrp.wp_scanXRP w) ?_ ?_
  · rintro - w' (⟨rfl, -⟩ | ⟨rfl, -⟩ | ⟨_, _, _, _, hbegun, ⟨_, _, hs, -⟩, -⟩)
    · exact h
    · exact h
    · exact hpass hbegun hs
  · rintro w' (⟨hdb, hwire⟩ | ⟨_, _, _, _, hbegun, b, hs, hdb, hwire⟩)
    · exact h.of_db hdb hwire
    · exact (hpass hbegun hs).of_db hdb hwire

end

/-- Only `scanBTC` and `scanXRP` are called. -/
def Both (p : Scan Unit) (_ : World) : Prop := p = Btc.scanBTC ∨ p = Xrp.scanXRP

/-- And each call finds the buffer empty. -/
def BothReady (p : Scan Unit) (w : World) : Prop := Both p w ∧ w.vars.vect_sql_ = []

/-- **Payments are credited and notified at most once** in every run of `scanBTC` and `scanXRP` in
one process in which each call finds the buffer empty, over chains in which no transaction is
there twice and no output lists an address twice, whichever calls of the nodes fail. -/
theorem at_most_once {cb : Btc.Chain} {cx : Xrp.Chain} {x : Weather} (hb : cb.Honest x)
    (hx : cx.Honest x) (hbd : cb.Distinct) (hb1 : cb.Single) (hxd : cx.Distinct)
    {w₀ w : World} {b : Bool} (hr : Session x BothReady w₀ b w) {btc xrp : ℤ}
    (hbtc : coinId w₀.db.cat "BTC" = some (some btc))
    (hxrp : coinId w₀.db.cat "XRP" = some (some xrp)) (hdb : Consistent w₀.db)
    (hrows : ∀ r ∈ w₀.db.txutxo,
      (r.src.coin_id = btc → cb.Has r) ∧ (r.src.coin_id = xrp → cx.Has r))
    (hbuf : w₀.vars.vect_sql_ = []) : AtMostOnce btc xrp w₀.wire.length w := by
  have hbegin : Accounted cb cx w₀.db.cat btc xrp w₀.wire.length w₀ := by
    refine ⟨rfl, consistent_iff.mp hdb, le_rfl, ?_, by simp, by simp⟩
    rintro s hs r rfl
    have hmem : .txutxo r ∈ w₀.db.log := by simpa [Store.total, otc, hbuf] using hs
    exact hrows r (Db.mem_txutxo.mpr hmem)
  refine ((hr.inv (I := Accounted cb cx w₀.db.cat btc xrp w₀.wire.length)
    (fun w h => h.settled) hbegin ?_).1).atMostOnce hbd hb1 hxd
  rintro p w ⟨rfl | rfl, hempty⟩ h
  · exact wp_scanBTC_once hb hbd hb1 hxd hbtc hxrp h hempty
  · exact wp_scanXRP_once hx hbd hb1 hxd hbtc hxrp h hempty

lemma oneTx_distinct : Btc.oneTx.Distinct := by
  have hat : ∀ (n j : ℕ) txid, (Btc.oneTx.block (Btc.oneTx.hash n))[j]? = some txid →
      n = 1 ∧ j = 0 := by
    intro n j txid h
    by_cases hn : n = 1
    · cases j <;> simp_all [Btc.oneTx]
    · simp [Btc.oneTx, hn] at h
  intro n j n' j' txid h h'
  obtain ⟨rfl, rfl⟩ := hat n j txid h
  obtain ⟨rfl, rfl⟩ := hat n' j' txid h'
  exact ⟨rfl, rfl⟩

lemma oneTx_single : Btc.oneTx.Single := by
  intro txid o ho as has
  obtain rfl : o = ⟨1, some ["A"]⟩ := by simpa [Btc.oneTx] using ho
  obtain rfl : ["A"] = as := Option.some.inj has
  exact List.nodup_singleton "A"

lemma onePayment_distinct : Xrp.onePayment.Distinct := by
  have hat : ∀ (n j : ℕ) hash, (Xrp.onePayment.ledger n)[j]? = some hash → n = 1 ∧ j = 0 := by
    intro n j hash h
    by_cases hn : n = 1
    · cases j <;> simp_all [Xrp.onePayment]
    · simp [Xrp.onePayment, hn] at h
  intro n j n' j' hash h h'
  obtain ⟨rfl, rfl⟩ := hat n j hash h
  obtain ⟨rfl, rfl⟩ := hat n' j' hash h'
  exact ⟨rfl, rfl⟩

/-- The BTC scan breaks off after the first of two blocks, and the next scan starts over: the
output of the first block gets a second row. -/
theorem twice_interrupted : ¬ ∀ (cb : Btc.Chain) (cx : Xrp.Chain) (x : Weather), cb.Honest x →
    cx.Honest x → cb.Distinct → cb.Single → cx.Distinct → ∀ (w₀ w : World) (b : Bool),
    Session x Both w₀ b w → ∀ btc xrp, coinId w₀.db.cat "BTC" = some (some btc) →
    coinId w₀.db.cat "XRP" = some (some xrp) → Consistent w₀.db →
    (∀ r ∈ w₀.db.txutxo, (r.src.coin_id = btc → cb.Has r) ∧ (r.src.coin_id = xrp → cx.Has r)) →
    w₀.vars.vect_sql_ = [] → AtMostOnce btc xrp w₀.wire.length w := by
  intro h
  have hboth : ∀ pre p post, [Btc.scanBTC, Btc.scanBTC] = pre ++ p :: post → Both p
      (calls (interrupted 2 5) pre (true, smallProcess [(1, 0), (3, 0)])).2 := by
    intro pre p post hps
    have hp : p ∈ [Btc.scanBTC, Btc.scanBTC] := by simp [hps]
    exact Or.inl (by simpa using hp)
  have hone := h _ _ _ (interrupted_btc 2 5) (interrupted_xrp 2 5) oneTx_distinct oneTx_single
    onePayment_distinct _ _ _ (session_calls _ _ _ hboth) 1 3 rfl rfl ⟨nofun, nofun, .nil, .nil⟩
    nofun rfl
  exact absurd hone.btc (by decide +kernel)

/-- Where nothing breaks off, the same process credits each payment once. -/
theorem once_uninterrupted : AtMostOnce 1 3 0 (calls (interrupted 2 100)
    [Btc.scanBTC, Xrp.scanXRP] (true, smallProcess [(1, 0), (3, 0)])).2 := by
  refine at_most_once (interrupted_btc 2 100) (interrupted_xrp 2 100) oneTx_distinct oneTx_single
    onePayment_distinct (session_calls (interrupted 2 100) [Btc.scanBTC, Xrp.scanXRP]
      (smallProcess [(1, 0), (3, 0)]) fun pre p post hps => ?_) rfl rfl
    ⟨nofun, nofun, .nil, .nil⟩ nofun rfl
  rcases pre with _ | ⟨p₁, _ | ⟨p₂, pre⟩⟩
  · obtain ⟨rfl, -⟩ := List.cons_eq_cons.mp hps
    exact ⟨Or.inl rfl, rfl⟩
  · obtain ⟨rfl, rfl, -⟩ : p₁ = Btc.scanBTC ∧ p = Xrp.scanXRP ∧ post = [] := by
      simpa [eq_comm] using hps
    have hbuf : (calls (interrupted 2 100) [Btc.scanBTC]
        (true, smallProcess [(1, 0), (3, 0)])).2.vars.vect_sql_ = [] := by decide +kernel
    exact ⟨Or.inr rfl, hbuf⟩
  · simp at hps

end OpenWallet.Monitor
