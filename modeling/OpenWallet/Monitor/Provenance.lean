import OpenWallet.Monitor.Consistency
import OpenWallet.Monitor.Settled

/-!
Where rows and notices come from. Whatever fails and however often the process is started, a row
that is written and a notice that is sent rest on what a node has answered before, about a
transaction of a listed block, and on addresses that the table of accounts has for the coin.
-/

namespace OpenWallet.Monitor

open Lib Prog

/-- The addresses of a map are those of accounts of the coin, as `spell` writes them. -/
def Watches (cat : Catalog) (coin : String) (spell : String → String) (S : List (String × ℤ)) :
    Prop :=
  ∀ a, (S.lookup a).isSome → ∃ address, Owned cat coin address ∧ a = spell address

/-- The answers of nodes so far are evidence for the row, and for the notice that goes with it. -/
inductive Evident (x : Weather) (cat : Catalog) (w : World) : Stmt → Option Json → Prop
  | btc {node : NodeInfo} {S : List (String × ℤ)} {src : Src} {txid : String} {vin : Bool}
      {number : ℤ} {value address : String} :
      Watches cat "BTC" id S → Btc.Pays x 0 node w src.height src txid number value address →
      (Btc.watched S address ∨ vin = true) →
      Evident x cat w (.txutxo (Btc.row S src txid vin number value address))
        (some (callback "address" value "BTC" number address txid false))
  | eth {node : NodeInfo} {C S : List (String × ℤ)} {src : Src} {txs : List Json}
      {json_tran : Json} {txid : String} {c : Eth.Credit} {s : Stmt} {b : Option Json} :
      Watches cat "ETH" Text.toupper S → Eth.Listed x 0 node w src.height (some txs) →
      txs[src.tx]? = some json_tran → Eth.credit C S json_tran = .ok (some (txid, some c)) →
      ((∃ coin_id, s = .txaccount (c.txaccount coin_id src)) ∧ b = some c.notice ∨
        s = .txutxo (c.txutxo src) ∧ b = none) → Evident x cat w s b
  | xrp {node : NodeInfo} {base : String} {src : Src} {txs : List Json} {hash h : String}
      {p : Xrp.Payment} :
      Xrp.Listed x 0 node w src.height (some txs) → txs[src.tx]? = some (.str hash) →
      Xrp.Read x 0 node base w hash (some (h, some p)) →
      Evident x cat w (.txutxo (Xrp.row base src p))
        (some (callback "toAddress" p.amount "XRP" 0 base p.hash false))
  | eos {node : NodeInfo} {base : String} {src : Src} {txs acts : List Json}
      {json_transaction json_action : Json} {trx quantity : String} {flag : Option ℕ} :
      Eos.Listed x 0 node w src.height (some txs) → txs[src.tx]? = some json_transaction →
      Eos.id? json_transaction = some (.str trx) → Eos.Read x 0 node w trx (some acts) →
      acts[src.out]? = some json_action →
      Eos.action base json_action = .ok (some (quantity, flag)) →
      Evident x cat w (.txutxo (Eos.row base src trx quantity flag))
        (some (callback "toAddress" quantity "EOS" 0 base trx false))
  | omni {node : NodeInfo} {S : List (String × ℤ)} {src : Src} {txs : List Json}
      {txid address amount : String} {flag : ℕ} :
      Watches cat "USDT" id S → Omni.Listed x 0 node w src.height (some txs) →
      txs[src.tx]? = some (.str txid) →
      Omni.Read x 0 node S w txid (some (address, amount, flag)) →
      Evident x cat w (.txutxo (Omni.row src txid address amount flag))
        (some (callback "address" amount "OMNI_USDT" 0 address txid true))

section

variable {x : Weather} {cat : Catalog} {w w' : World} {s : Stmt} {b : Option Json}

/-- Answers stay evidence. -/
lemma Evident.mono (h : Evident x cat w s b) (hw : w.wire <+: w'.wire) : Evident x cat w' s b := by
  cases h with
  | btc hS hpays hkept => exact .btc hS (hpays.mono hw) hkept
  | eth hS hlist ht hc hs => exact .eth hS (hlist.mono hw) ht hc hs
  | xrp hlist ht hread => exact .xrp (hlist.mono hw) ht (hread.mono hw)
  | eos hlist ht hid hread hj ha => exact .eos (hlist.mono hw) ht hid (hread.mono hw) hj ha
  | omni hS hlist ht hread => exact .omni hS (hlist.mono hw) ht (hread.mono hw)

variable {t₀ n height : ℕ} {node : NodeInfo} {C S : List (String × ℤ)} {base : String} {coin_id : ℤ}

lemma Btc.evident (hS : Watches cat "BTC" id S)
    (h : (Btc.grounds x t₀ node S Btc.Either coin_id height).credit n s b w) :
    Evident x cat w s b := by
  obtain ⟨src, txid, vin, number, value, address, hpays, -, rfl, rfl, hkept, -⟩ := h
  obtain ⟨hh, ⟨txs, ⟨hash, h1, h2⟩, ht⟩, vouts, json_vout, addresses, hread, hout⟩ := hpays
  exact .btc hS ⟨rfl, ⟨txs, hh ▸ ⟨hash, h1.ever, h2.ever⟩, ht⟩, vouts, json_vout, addresses,
    hread.ever, hout⟩ hkept

lemma Eth.evident (hS : Watches cat "ETH" Text.toupper S)
    (h : (Eth.grounds x t₀ node C S coin_id height).credit n s b w) : Evident x cat w s b := by
  obtain ⟨src, txs, json_tran, txid, c, hlist, ht, hc, rfl, hs⟩ := h
  exact .eth hS hlist.ever ht hc (hs.imp_left fun ⟨hs, hb⟩ => ⟨⟨coin_id, hs⟩, hb⟩)

lemma Xrp.evident (h : (Xrp.grounds x t₀ node base coin_id height).credit n s b w) :
    Evident x cat w s b := by
  obtain ⟨src, txs, hash, h, p, hlist, ht, hread, rfl, -, -, rfl, rfl⟩ := h
  exact .xrp hlist.ever ht hread.ever

lemma Eos.evident (h : (Eos.grounds x t₀ node base coin_id height).credit n s b w) :
    Evident x cat w s b := by
  obtain ⟨src, txs, json_transaction, trx, acts, json_action, quantity, flag, hlist, ht, hid,
    hread, hj, ha, rfl, rfl, rfl⟩ := h
  exact .eos hlist.ever ht hid hread.ever hj ha

lemma Omni.evident (hS : Watches cat "USDT" id S)
    (h : (Omni.grounds x t₀ node S coin_id height).credit n s b w) : Evident x cat w s b := by
  obtain ⟨src, txs, txid, address, amount, flag, hlist, ht, hread, rfl, rfl, rfl⟩ := h
  exact .omni hS hlist.ever ht hread.ever

lemma Watches.load {coin : String} {spell : String → String} {l : List (String × ℤ)}
    (h : Watches cat coin spell S) (hl : Loaded cat coin l) :
    Watches cat coin spell ((l.map fun r => (spell r.1, r.2)).reverse ++ S) := by
  intro a ha
  rw [lookup_isSome_iff, List.map_append, List.mem_append, List.map_reverse, List.mem_reverse,
    List.map_map] at ha
  rcases ha with ha | ha
  · obtain ⟨r, hr, rfl⟩ := List.mem_map.mp ha
    rcases hl with rfl | hl
    · cases hr
    · exact ⟨r.1, (hl r.1).mp (List.mem_map_of_mem hr), rfl⟩
  · exact h a (lookup_isSome_iff.mpr ha)

end

section

variable (x : Weather) (w₀ w : World)

/-- A row was there at the beginning, or there is evidence for it; stored heights are no rows. -/
def Rested (s : Stmt) : Prop :=
  s ∈ w₀.db.log ∨ (∃ r, s = .block r) ∨ ∃ b, Evident x w₀.db.cat w s b

/-- There is evidence for the row of a notice. -/
def Noticed (j : Json) : Prop := ∃ s, Evident x w₀.db.cat w s (some j)

structure Grounded : Prop extends Rests (Rested x w₀) (Noticed x w₀) w₀.wire.length w where
  since : w₀.wire.length ≤ w.wire.length
  cat : w.db.cat = w₀.db.cat

/-- What holds in a process: the rows in the buffer and the notices that wait are no exception. -/
structure Live : Prop extends Backed (Rested x w₀) (Noticed x w₀) w₀.wire.length w where
  cat : w.db.cat = w₀.db.cat
  queue : ∀ j ∈ w.vars.s_json_callback, Noticed x w₀ w j
  btc : Watches w₀.db.cat "BTC" id w.vars.s_address_id_btc
  eth : Watches w₀.db.cat "ETH" Text.toupper w.vars.s_address_id_eth
  omni : Watches w₀.db.cat "USDT" id w.vars.s_address_id_omni_usdt

end

section

variable {x : Weather} {w₀ w w' : World}

lemma Rested.mono {s : Stmt} (h : Rested x w₀ w s) (hw : w.wire <+: w'.wire) : Rested x w₀ w' s :=
  h.imp_right fun h => h.imp_right fun ⟨b, h⟩ => ⟨b, h.mono hw⟩

lemma Noticed.mono {j : Json} (h : Noticed x w₀ w j) (hw : w.wire <+: w'.wire) :
    Noticed x w₀ w' j := by
  obtain ⟨s, h⟩ := h
  exact ⟨s, h.mono hw⟩

lemma Live.grounded (h : Live x w₀ w) (hdb : w'.db = w.db) (hwire : w'.wire = w.wire) :
    Grounded x w₀ w' :=
  ⟨h.toBacked.rests (fun _ _ _ hw h => h.mono hw) (fun _ _ _ hw h => h.mono hw) hdb hwire,
    hwire ▸ h.since, hdb ▸ h.cat⟩

/-- The members of the process that rows and notices do not rest on may change. -/
lemma Live.same (h : Live x w₀ w) (hdb : w'.db = w.db) (hwire : w'.wire = w.wire)
    (hbuf : w'.vars.vect_sql_ = w.vars.vect_sql_)
    (hqueue : ∀ j ∈ w'.vars.s_json_callback, Noticed x w₀ w j)
    (hbtc : Watches w₀.db.cat "BTC" id w'.vars.s_address_id_btc)
    (heth : Watches w₀.db.cat "ETH" Text.toupper w'.vars.s_address_id_eth)
    (homni : Watches w₀.db.cat "USDT" id w'.vars.s_address_id_omni_usdt) : Live x w₀ w' := by
  have hw : w.wire <+: w'.wire := by rw [hwire]
  refine ⟨⟨hwire ▸ h.since, fun s hs => (h.rows s ?_).mono hw, fun e he hn => ?_⟩, hdb ▸ h.cat,
    fun j hj => (hqueue j hj).mono hw, hbtc, heth, homni⟩
  · simpa [Store.total, otc, hdb, hbuf] using hs
  · rw [hwire] at he
    exact (h.notices e he hn).mono hw

variable {G : Grounds} {a b : At}

lemma step_queue (hG : ∀ n s b w, G.credit n s b w → Evident x w₀.db.cat w s b)
    (hst : (scanner x G).Step a b) (h : ∀ j ∈ a.w.vars.s_json_callback, Noticed x w₀ a.w j) :
    ∀ j ∈ b.w.vars.s_json_callback, Noticed x w₀ b.w j := by
  have hw := (step_frame hst).wire
  have hkeep : b.w.vars.s_json_callback = a.w.vars.s_json_callback →
      ∀ j ∈ b.w.vars.s_json_callback, Noticed x w₀ b.w j := by
    intro heq j hj
    rw [heq] at hj
    exact (h j hj).mono hw
  cases hst with
  | quiet hq => cases hq <;> exact hkeep rfl
  | room | skip => exact hkeep rfl
  | store hs =>
    obtain ⟨-, -, -, rfl⟩ := hs
    exact hkeep rfl
  | @credit w w' i p q r s hc _ _ _ =>
    cases hc with
    | push => exact hkeep rfl
    | @notify c answer hc _ =>
      intro j hj
      have hmem : j ∈ w.vars.s_json_callback ++ [c] := by
        unfold World.notify at hj
        split at hj
        · exact hj
        · exact List.mem_append_left _ hj
      rcases List.mem_append.mp hmem with hj | hj
      · exact (h j hj).mono hw
      · obtain rfl := List.mem_singleton.mp hj
        exact Noticed.mono ⟨s, hG _ _ _ _ hc⟩ hw

lemma Live.pass (hG : ∀ n s b w, G.credit n s b w → Evident x w₀.db.cat w s b)
    (hs : Steps x G a b) (h : Live x w₀ a.w) : Live x w₀ b.w := by
  have hf := Steps.frame hs
  refine ⟨Steps.backed (fun _ _ _ hw h => h.mono hw) (fun _ _ _ hw h => h.mono hw)
    (fun _ r => Or.inr (Or.inl ⟨r, rfl⟩)) (fun n s b w hc => ⟨?_, fun j hj => ?_⟩) hs h.toBacked,
    hf.cat.trans h.cat, ?_, ?_, ?_, ?_⟩
  · exact Or.inr (Or.inr ⟨b, hG n s b w hc⟩)
  · exact ⟨s, hj ▸ hG n s b w hc⟩
  · clear hf
    induction hs with
    | refl => exact h.queue
    | tail _ hst ih => exact step_queue hG hst ih
  · rw [hf.btc]
    exact h.btc
  · rw [hf.eth]
    exact h.eth
  · rw [hf.omni]
    exact h.omni

/-! ### The other programs -/

lemma Live.sent {j : Json} (h : Live x w₀ w) (hj : Noticed x w₀ w j) (url : String) (a : Answer) :
    Live x w₀ (w.sent ⟨url, "", j⟩ a) := by
  have hw : w.wire <+: (w.sent ⟨url, "", j⟩ a).wire := (frame_sent _ _ _).wire
  refine ⟨?_, h.cat, fun j hj => (h.queue j hj).mono hw, h.btc, h.eth, h.omni⟩
  refine h.toBacked.step (fun _ _ _ hw h => h.mono hw) (fun _ _ _ hw h => h.mono hw) []
    [(⟨url, "", j⟩, a)] (by simp [Store.total, otc, World.sent]) rfl (by simp) ?_
  intro e he _
  rw [List.mem_singleton] at he
  rw [he]
  exact hj

lemma Live.wp_reCallback (h : Live x w₀ w) :
    wp (env x) reCallback (fun _ => Live x w₀) (Grounded x w₀) w :=
  wp_reCallback_kept (fun _ _ h => h.grounded) h
    (fun _ j a h₁ hw hj => h₁.sent ((h.queue j hj).mono hw) _ a)
    fun _ _ h₁ hw hsub => h₁.same rfl rfl rfl (fun j hj => (h.queue j (hsub j hj)).mono hw)
      h₁.btc h₁.eth h₁.omni

/-- The base address is what it was, or an address of the table of accounts. -/
def Based (cat : Catalog) (base base' : String) : Prop :=
  base' = base ∨ ∃ a ∈ cat.account, a.address = some base'

/-- What a start keeps: no notice is put by, and nothing is posted. -/
lemma wp_start_keeps {I D : World → Prop} (hD : ∀ w, I w → D w)
    (hI : ∀ w v, I w → v.s_json_callback = w.vars.s_json_callback →
      Based w.db.cat w.vars.xrp_base_address_ v.xrp_base_address_ →
      Based w.db.cat w.vars.eos_base_address_ v.eos_base_address_ → I { w with vars := v })
    (callback_url : String) (h : I w) : wp (env x) (start callback_url) (fun _ => I) D w := by
  have hsame : ∀ w v, I w → v.s_json_callback = w.vars.s_json_callback →
      v.xrp_base_address_ = w.vars.xrp_base_address_ →
      v.eos_base_address_ = w.vars.eos_base_address_ → I { w with vars := v } :=
    fun w v h hq hx he => hI w v h hq (.inl hx) (.inl he)
  rw [start, wp_bind]
  simp only [init, wp_bind]
  refine wp_mono (wp_initNodes hD (fun w _ h => hsame w _ h rfl rfl rfl) h) ?_ fun _ h => h
  intro _ w₁ h
  refine wp_initBase (hD _ h) fun address haddress => ?_
  have h' := hI w₁ { w₁.vars with xrp_base_address_ := address } h rfl (.inr haddress) (.inl rfl)
  rw [wp_modify]
  refine ⟨fun _ => hD _ h, wp_holds (hD _ h') (wp_initBase (hD _ h') fun address haddress => ?_)⟩
  have h'' := hI _ { w₁.vars with
    xrp_base_address_ := _, eos_base_address_ := address } h' rfl (.inl rfl) (.inr haddress)
  rw [wp_modify]
  refine ⟨fun _ => hD _ h', wp_holds (hD _ h'') ?_⟩
  refine wp_mono (wp_initContract hD (fun w _ h => hsame w _ h rfl rfl rfl) h'') ?_ fun _ h => h
  intro _ w₂ h
  refine wp_mono (wp_initTxids_keeps hD (fun w _ h => hsame w _ h rfl rfl rfl) h) ?_ fun _ h => h
  intro _ w₃ h
  rw [wp_modify]
  exact ⟨fun _ => hD _ h, hsame w₃ _ h rfl rfl rfl⟩

lemma Grounded.wp_start (callback_url : String) (h : Grounded x w₀ w) :
    wp (env x) (start callback_url) (fun _ => Live x w₀) (Grounded x w₀)
      { w with vars := .fresh } := by
  have hsilent := wp_start_keeps (x := x) (w := { w with vars := .fresh }) (I := fun w' =>
    w'.wire = w.wire ∧ w'.vars.s_json_callback = []) (D := fun w' => w'.wire = w.wire)
    (fun _ h => h.1) (fun _ _ h hq _ _ => ⟨h.1, hq.trans h.2⟩) callback_url ⟨rfl, rfl⟩
  refine wp_mono (wp_and (Monitor.wp_start callback_url _) hsilent)
    (fun _ w' hs => ?_) fun w' hs => ?_
  · obtain ⟨hstart, hsilent⟩ := hs
    have hw : w.wire <+: w'.wire := by rw [hsilent.1]
    refine ⟨⟨?_, fun s hs => ?_, fun e he hn => ?_⟩, ?_, ?_, ?_, ?_, ?_⟩
    · rw [hsilent.1]
      exact h.since
    · refine (h.rows s ?_).mono hw
      have hbuf : w'.vars.vect_sql_ = [] := hstart.buf
      simpa [Store.total, otc, hstart.db, hbuf] using hs
    · rw [hsilent.1] at he
      exact (h.notices e he hn).mono hw
    · rw [hstart.db]
      exact h.cat
    · rw [hsilent.2]
      simp
    all_goals
      intro a ha
      simp only [hstart.btc, hstart.eth, hstart.omni, Vars.fresh, List.lookup_nil] at ha
      cases ha
  · obtain ⟨hdb, hwire⟩ := hs
    refine ⟨⟨fun s hs => ?_, fun e he hn => ?_⟩, ?_, ?_⟩
    · rw [hdb] at hs
      exact (h.rows s hs).mono (by rw [hwire])
    · rw [hwire] at he
      exact (h.notices e he hn).mono (by rw [hwire])
    · rw [hwire]
      exact h.since
    · rw [hdb]
      exact h.cat

variable (x w₀) in
lemma keeps_live : Keeps x (Live x w₀) (Grounded x w₀) where
  le _ h := h.grounded rfl rfl
  timers _ _ h := h.same rfl rfl rfl h.queue h.btc h.eth h.omni
  idle _ _ h := h.grounded
  loadBTC w l h hl := by
    rw [h.cat] at hl
    have hload := h.btc.load hl
    simp only [id_eq, Prod.mk.eta, List.map_id'] at hload
    exact h.same rfl rfl rfl h.queue hload h.eth h.omni
  loadETH w l h hl := by
    rw [h.cat] at hl
    exact h.same rfl rfl rfl h.queue h.btc (h.eth.load hl) h.omni
  loadOMNI w l h hl := by
    rw [h.cat] at hl
    have hload := h.omni.load hl
    simp only [id_eq, Prod.mk.eta, List.map_id'] at hload
    exact h.same rfl rfl rfl h.queue h.btc h.eth hload
  scanBTC _ h _ := wp_scanBTC_kept (fun _ _ h => h.grounded) h fun _ _ _ _ _ =>
    Live.pass fun _ _ _ _ => Btc.evident h.btc
  scanETH _ h _ := wp_scanETH_kept (fun _ _ h => h.grounded) h fun _ _ _ _ _ =>
    Live.pass fun _ _ _ _ => Eth.evident h.eth
  scanXRP _ h := wp_scanXRP_kept (fun _ _ h => h.grounded) h fun _ _ _ _ _ =>
    Live.pass fun _ _ _ _ => Xrp.evident
  scanEOS _ h := wp_scanEOS_kept (fun _ _ h => h.grounded) h fun _ _ _ _ _ =>
    Live.pass fun _ _ _ _ => Eos.evident
  scanOMNI _ h _ := wp_scanOMNI_kept (fun _ _ h => h.grounded) h fun _ _ _ _ _ =>
    Live.pass fun _ _ _ _ => Omni.evident h.omni
  reCallback _ h := h.wp_reCallback

/-- **Nothing is invented.** In every run of the monitor, with its tasks in any order, whatever node,
receiver or lookup fails, wherever a process ends and however often one is started, there is
evidence in the answers of the nodes for each row that a statement has been made for and written,
and for each notice that has been sent. -/
theorem nothing_invented {callback_url : String} {b : Bool}
    (hr : Reach x callback_url Free w₀ b w) :
    (∀ s ∈ w.db.log, s ∈ w₀.db.log ∨ (∃ r, s = .block r) ∨ ∃ b, Evident x w₀.db.cat w s b) ∧
      ∀ e ∈ w.wire.drop w₀.wire.length, isNotice e.1.data →
        ∃ s, Evident x w₀.db.cat w s (some e.1.data) := by
  have hbegin : Grounded x w₀ w₀ :=
    ⟨⟨fun s hs => Or.inl hs, fun e he => by simp at he⟩, le_rfl, rfl⟩
  have hgrounded := (hr.inv (fun _ h => h.grounded rfl rfl) hbegin
    (fun w h => h.wp_start callback_url) fun t w _ h => (keeps_live x w₀).task t h).1
  exact ⟨hgrounded.rows, hgrounded.notices⟩

end

/-- BTC and XRP with a transaction each: there is evidence for the row that is written. -/
theorem nothing_invented_small : ∃ r, r ∈ (play (interrupted 2 100) "receiver"
      [.ScanBTC, .ScanXRP] (smallWorld [(1, 0), (3, 0)])).2.db.txutxo ∧
    ∃ b, Evident (.clear (interrupted 2 100)) (smallWorld [(1, 0), (3, 0)]).db.cat
      (play (interrupted 2 100) "receiver" [.ScanBTC, .ScanXRP]
        (smallWorld [(1, 0), (3, 0)])).2 (.txutxo r) b := by
  have hrows : (play (interrupted 2 100) "receiver" [.ScanBTC, .ScanXRP]
      (smallWorld [(1, 0), (3, 0)])).2.db.txutxo ≠ [] := by decide +kernel
  obtain ⟨r, hr⟩ := List.exists_mem_of_ne_nil _ hrows
  refine ⟨r, hr, ?_⟩
  have hrest := (nothing_invented (reach_play (interrupted 2 100) "receiver" [.ScanBTC, .ScanXRP]
    (smallWorld [(1, 0), (3, 0)]) fun _ _ _ _ => trivial)).1 _ (Db.mem_txutxo.mp hr)
  rcases hrest with h | ⟨_, h⟩ | h
  · have hnone : (smallWorld [(1, 0), (3, 0)]).db.txutxo = [] := by decide +kernel
    have hmem := Db.mem_txutxo.mpr h
    rw [hnone] at hmem
    cases hmem
  · cases h
  · exact h

end OpenWallet.Monitor
