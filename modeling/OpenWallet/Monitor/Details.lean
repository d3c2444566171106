import OpenWallet.Monitor.Consistency
import OpenWallet.Monitor.EosSound

/-!
What the stored heights of XRP, EOS and OMNI stand for. These scanners list a block and then ask
for its transactions one by one; a request for a transaction that fails ends the work on its block
and not the scan, and a block that is not listed is passed over. So a stored height stands for all
the blocks below it as long as every transaction asked for is answered and every block that is
answered is listed.
-/

namespace OpenWallet.Monitor

open Lib Prog

/-- No height waits in the buffer, and the addresses of OMNI are watched all or none. -/
structure Fit (cat : Catalog) (w : World) : Prop where
  clean : ∀ c n, ¬ otc.Marked c n w.vars.vect_sql_
  tables : w.db.cat = cat
  watch : w.vars.s_address_id_omni_usdt = [] ∨
    ∀ address, Owned cat "USDT" address → (w.vars.s_address_id_omni_usdt.lookup address).isSome

section

variable {x : Weather} {cat : Catalog} {w w' : World}

lemma Fit.pass {G : Grounds} {a b : At} (hs : Steps x G a b) (h : Fit cat a.w) : Fit cat b.w := by
  obtain ⟨new, htrail⟩ := Scanner.Steps.trail hs h.clean
  exact ⟨htrail.clean, hs.frame.cat.trans h.tables, by rw [hs.frame.omni]; exact h.watch⟩

lemma Fit.of_still (h : Fit cat w) (hs : Still w w') : Fit cat w' :=
  ⟨by rw [hs.buf]; exact h.clean, by rw [hs.db]; exact h.tables, by rw [hs.omni]; exact h.watch⟩

lemma Fit.load (h : Fit cat w) {l : List (String × ℤ)} (hl : Loaded w.db.cat "USDT" l) :
    Fit cat { w with vars := { w.vars with
      s_address_id_omni_usdt := l.reverse ++ w.vars.s_address_id_omni_usdt } } := by
  refine ⟨h.clean, h.tables, ?_⟩
  rw [h.tables] at hl
  rcases hl with rfl | hl
  · simpa using h.watch
  · refine Or.inr fun address ha => ?_
    rw [lookup_isSome_iff, List.map_append, List.mem_append, List.map_reverse, List.mem_reverse]
    exact Or.inl ((hl address).mpr ha)

variable (x cat) in
lemma keeps_fit : Keeps x (Fit cat) fun w => w.db.cat = cat where
  le _ h := h.tables
  timers _ _ h := ⟨h.clean, h.tables, h.watch⟩
  idle _ _ h hdb _ := by rw [hdb]; exact h.tables
  loadBTC _ _ h _ := ⟨h.clean, h.tables, h.watch⟩
  loadETH _ _ h _ := ⟨h.clean, h.tables, h.watch⟩
  loadOMNI _ _ h hl := h.load hl
  scanBTC _ h _ := wp_scanBTC_kept (fun _ _ h hdb _ => hdb ▸ h.tables) h
    fun _ _ _ _ _ => Fit.pass
  scanETH _ h _ := wp_scanETH_kept (fun _ _ h hdb _ => hdb ▸ h.tables) h
    fun _ _ _ _ _ => Fit.pass
  scanXRP _ h := wp_scanXRP_kept (fun _ _ h hdb _ => hdb ▸ h.tables) h fun _ _ _ _ _ => Fit.pass
  scanEOS _ h := wp_scanEOS_kept (fun _ _ h hdb _ => hdb ▸ h.tables) h fun _ _ _ _ _ => Fit.pass
  scanOMNI _ h _ := wp_scanOMNI_kept (fun _ _ h hdb _ => hdb ▸ h.tables) h
    fun _ _ _ _ _ => Fit.pass
  reCallback w h := wp_mono (wp_reCallback w) (fun _ _ hs => h.of_still hs)
    fun w' hdb => by rw [hdb]; exact h.tables

end

/-- Each height that a call has stored stands for blocks like these, from the start of the scan
on. -/
def Stands (coin : String) (start : ℕ → ℕ) (whole : NodeInfo → ℕ → Prop) (w w' : World) : Prop :=
  ∃ new, w'.db.log = w.db.log ++ new ∧ ∀ r, .block r ∈ new → ∃ pre_height node,
    Begun w coin r.coin_id pre_height node ∧
      ∀ n, start pre_height < n → n ≤ r.height → whole node n

section

variable {x : Weather} {w w' : World}

lemma Broken.stands {coin : String} {start : ℕ → ℕ} {G : NodeInfo → ℤ → ℕ → Grounds}
    {whole : NodeInfo → ℕ → Prop} (hr : Broken x coin start G w w')
    (hG : ∀ node coin_id height, (G node coin_id height).coin_id = coin_id)
    (hclean : ∀ c n, ¬ otc.Marked c n w.vars.vect_sql_)
    (hwhole : ∀ coin_id node height n c, c.wire <+: w'.wire → otc.total c ⊆ w'.db.log →
      (G node coin_id height).done n c ∨ (G node coin_id height).skip n c → whole node n) :
    Stands coin start whole w w' := by
  rcases hr with ⟨hdb, -⟩ | ⟨coin_id, pre_height, node, height, hb, b, hs, hdb, hwire⟩
  · exact ⟨[], by simp [hdb], by simp⟩
  obtain ⟨new, htrail⟩ := Scanner.Steps.trail hs hclean
  refine ⟨new, by rw [hdb]; exact htrail.log, fun r hr => ?_⟩
  obtain ⟨hcoin, hleft⟩ := htrail.marked r.coin_id r.height ⟨_, hr, rfl⟩
  replace hcoin : r.coin_id = coin_id := hcoin.trans (hG _ _ _)
  rw [hcoin]
  refine ⟨pre_height, node, hb, fun n h1 h2 => ?_⟩
  obtain ⟨c, hc, hsub⟩ := hleft n h1 h2
  have hgrounds : (G node coin_id height).done n c.w ∨ (G node coin_id height).skip n c.w := by
    rcases hc.left with (⟨hd, -⟩ | hsk) | ⟨s, c', hd, -⟩
    · exact Or.inl hd
    · exact Or.inr hsk
    · exact Or.inl hd
  have hafter : c.w.wire <+: w'.wire := by
    rw [hwire]
    exact (Steps.frame hc.after).wire
  exact hwhole coin_id node height n c.w hafter (by rw [hdb]; exact hsub) hgrounds

lemma Heard.mem {t₀ : ℕ} {r : Request} {a : Answer} (h : Heard x t₀ w r a)
    (hw : w.wire <+: w'.wire) : (r, a) ∈ w'.wire.drop t₀ := by
  obtain ⟨t, ht, hr, -⟩ := h.mono hw
  refine List.mem_of_getElem? (i := t - t₀) ?_
  rw [List.getElem?_drop, Nat.add_sub_cancel' ht, hr]

end

namespace Xrp

/-- A transaction that is asked for is answered with success, and so is a ledger, unless the
request fails. -/
def Answered (e : Request × Answer) : Prop :=
  (∀ hash, e.1.data = tx hash → ∃ j result, reply e.2 = .ok (.ok j) ∧
    j.find? "result" = some result ∧ result.find? "status" = some (.str "success")) ∧
  ∀ (i : ℕ) j, e.1.data = ledger i → reply e.2 = .ok (.ok j) → ∃ result, Success j result

/-- The result is that of a payment of XRP with the base address for an end. -/
def Moves (base : String) (result : Json) (hash amount : String) : Prop :=
  result.find? "validated" = some (.bool true) ∧ ∃ t : Tx, t.Shows hash result ∧
    t.type = "Payment" ∧ t.amount = some amount ∧ (base = t.account ∨ base = t.destination)

/-- The transaction has been answered with success, and its payment has a row. -/
def Found (x : Weather) (t₀ : ℕ) (node : NodeInfo) (base : String) (w : World) (json_tx : Json) :
    Prop :=
  ∃ hash j result, json_tx = .str hash ∧
    Told x t₀ w node.node_url node.node_auth (tx hash) j ∧ j.find? "result" = some result ∧
    result.find? "status" = some (.str "success") ∧ ∀ hash' amount, Moves base result hash' amount →
      ∃ r ∈ w.db.txutxo, r.txid = hash' ∧ r.address = base ∧ r.amount = amount

/-- The ledger has been listed, and each of its transactions found. -/
def Whole (x : Weather) (t₀ : ℕ) (node : NodeInfo) (base : String) (w : World) (n : ℕ) : Prop :=
  ∃ txs, Listed x t₀ node w n (some txs) ∧ ∀ json_tx ∈ txs, Found x t₀ node base w json_tx

section

variable {x : Weather} {t₀ : ℕ} {node : NodeInfo} {base : String} {w w' : World}

lemma validated_of_success {j result : Json} (h : Success j result) : validated j = .ok true := by
  simp [validated, Json.field_of_find? h.1, Json.field_of_find? h.2.1, Json.field_of_find? h.2.2]

lemma payment_of_moves {j result : Json} {hash amount : String} (hr : j.find? "result" = some result)
    (hstatus : result.find? "status" = some (.str "success"))
    (h : Moves base result hash amount) :
    ∃ flag, payment base j = .ok (some (hash, some ⟨hash, amount, flag⟩)) := by
  obtain ⟨hval, t, ⟨htype, ⟨a, ha, hshows⟩, haccount, hdestination, hhash⟩, hpay, hamount, hend⟩ := h
  rw [hpay] at htype
  simp only [hamount] at hshows
  subst hshows
  refine ⟨if base = t.destination then 0 else 1, ?_⟩
  have hne : ¬ (base ≠ t.account ∧ base ≠ t.destination) := by tauto
  simp [payment, validated_of_success ⟨hr, hstatus, hval⟩, Json.field_of_find? hr,
    Json.field_of_find? htype, Json.field_of_find? ha, Json.field_of_find? haccount,
    Json.field_of_find? hdestination, Json.field_of_find? hhash, Json.is_object, hne]

lemma TxDone.found (hans : ∀ e ∈ w'.wire.drop t₀, Answered e) (hw : w.wire <+: w'.wire)
    (hl : otc.total w ⊆ w'.db.log) {json_tx : Json} (h : TxDone x t₀ node base w json_tx) :
    Found x t₀ node base w' json_tx := by
  obtain ⟨hash, r, rfl, ⟨j, ⟨a, ha, hr⟩, hp⟩, hrow⟩ := h
  obtain ⟨j', result, hr', hresult, hstatus⟩ := (hans _ (ha.mem hw)).1 hash rfl
  obtain rfl : j = j' := by simpa [hr] using hr'
  refine ⟨hash, j, result, rfl, ⟨a, ha.mono hw, hr⟩, hresult, hstatus, fun hash' amount hm => ?_⟩
  obtain ⟨flag, hpay⟩ := payment_of_moves hresult hstatus hm
  obtain rfl : some (hash', some ⟨hash', amount, flag⟩) = r := Except.ok.inj (hpay.symm.trans hp)
  obtain ⟨src, hsrc⟩ := hrow _ _ rfl
  exact ⟨_, Db.mem_txutxo.mpr (hl hsrc), rfl, rfl, rfl⟩

lemma whole_of_left (hans : ∀ e ∈ w'.wire.drop t₀, Answered e) (hw : w.wire <+: w'.wire)
    (hl : otc.total w ⊆ w'.db.log) {n : ℕ}
    (h : Done x t₀ node base w n ∨ Listed x t₀ node w n none) : Whole x t₀ node base w' n := by
  rcases h with ⟨txs, hlist, hall | ⟨t, -, hash, rfl, a, ha, hne⟩⟩ | ⟨j, ⟨a, ha, hr⟩, htxs⟩
  · exact ⟨txs, hlist.mono hw, fun t ht => (hall t ht).found hans hw hl⟩
  · obtain ⟨j, _, hr, -⟩ := (hans _ (ha.mem hw)).1 hash rfl
    exact absurd hr (hne j)
  · obtain ⟨result, hsucc⟩ := (hans _ (ha.mem hw)).2 n j rfl hr
    simp only [transactions, validated_of_success hsucc, ok_bind, if_true, bind_eq_ok, pure_eq_ok,
      Except.ok.injEq, reduceCtorEq, and_false, exists_false] at htxs

end

end Xrp

/-! ### EOS -/

namespace Eos

/-- A transaction that is asked for is answered without an error, and a block with its
transactions, each with an identifier, unless the request fails. -/
def Answered (e : Request × Answer) : Prop :=
  (∀ trx, e.1.data = get_transaction trx → ∃ j, reply e.2 = .ok (.ok j)) ∧
  ∀ (i : ℕ) j, e.1.data = get_block i → reply e.2 = .ok (.ok j) →
    ∃ txs, j.find? "transactions" = some (.arr txs) ∧ ∀ t ∈ txs, ∃ trx, id? t = some (.str trx)

/-- The action is a transfer of this amount with the base address for an end. -/
def Moves (base : String) (json_action : Json) (amount : String) : Prop :=
  Genuine base json_action ∧ ∃ d, json_action.find? "data" = some d ∧
    d.find? "quantity" = some (.str (amount ++ " EOS"))

/-- The transaction has been answered, and each transfer in it has a row. -/
def Found (x : Weather) (t₀ : ℕ) (node : NodeInfo) (base : String) (w : World)
    (json_transaction : Json) : Prop :=
  ∃ trx j, id? json_transaction = some (.str trx) ∧
    Told x t₀ w ("http://" ++ node.node_url ++ "/v1/history/get_transaction") node.node_auth
      (get_transaction trx) j ∧
    ∀ acts, ((j.find? "trx").bind (·.find? "trx")).bind (·.find? "actions") = some (.arr acts) →
      ∀ a ∈ acts, ∀ amount, Moves base a amount →
        ∃ r ∈ w.db.txutxo, r.txid = trx ∧ r.address = base ∧ r.amount = amount

/-- The block has been listed, and each of its transactions found. -/
def Whole (x : Weather) (t₀ : ℕ) (node : NodeInfo) (base : String) (w : World) (n : ℕ) : Prop :=
  ∃ txs, Listed x t₀ node w n (some txs) ∧
    ∀ json_transaction ∈ txs, Found x t₀ node base w json_transaction

section

variable {x : Weather} {t₀ : ℕ} {node : NodeInfo} {base : String} {w w' : World}

lemma action_of_moves {json_action : Json} {amount : String} (h : Moves base json_action amount) :
    ∃ flag, action base json_action = .ok (some (amount, flag)) := by
  obtain ⟨⟨f, t, htr, -⟩, d, hd, hq⟩ := h
  obtain ⟨d', amount', hd', hf, ht, hspace, hq'⟩ := htr.data
  rw [hd] at hd'
  obtain rfl := Option.some.inj hd'
  have hamount : amount.toList = amount' := by
    rw [hq] at hq'
    have htext := congrArg String.toList (Json.str.inj (Option.some.inj hq'))
    simpa using htext
  have hbefore : Text.before " EOS".toList (amount ++ " EOS").toList = some amount' := by
    rw [String.toList_append, hamount]
    simpa using @Text.before_append ' ' "EOS".toList amount' [] hspace
  refine ⟨if base = t then some 0 else if base = f then some 1 else none, ?_⟩
  simp only [action, hd, hf, Option.isNone_some, Bool.false_eq_true, false_and, if_false,
    Json.field_of_find? hf, Json.field_of_find? ht, Json.field_of_find? hq, ok_bind,
    Json.getStr_str, hbefore, pure_eq_ok]
  rw [← hamount, String.ofList_toList]

lemma not_failed {a : Answer} {j : Json} (h : reply a = .ok (.ok j)) : failed j = false := by
  cases a with
  | down | garbage => cases h
  | body b =>
    simp only [reply, bind_eq_ok, pure_eq_ok, Except.ok.injEq] at h
    obtain ⟨j', hj', error, herror, h⟩ := h
    split at h
    · next hnull =>
      obtain rfl : j' = j := by simpa using h
      cases hfind : j'.find? "error" with
      | none => simp [failed, hfind]
      | some v =>
        obtain rfl : v = error := by
          have hv := Json.field_of_find? hfind
          have htouched := Json.field_touch "error" hj'
          rw [hv, herror] at htouched
          exact Except.ok.inj htouched
        cases v <;> simp_all [failed, Json.is_null]
    · cases h

lemma TxDone.found (hw : w.wire <+: w'.wire) (hl : otc.total w ⊆ w'.db.log)
    {json_transaction : Json} {trx : String}
    (htrx : id? json_transaction = some (.str trx))
    (h : TxDone x t₀ node base w json_transaction) :
    Found x t₀ node base w' json_transaction := by
  obtain ⟨acts, ⟨j, ⟨a, ha, hr⟩, hacts⟩, hrow⟩ := h trx htrx
  refine ⟨trx, j, htrx, ⟨a, ha.mono hw, hr⟩, fun as has a ha amount hm => ?_⟩
  obtain ⟨flag, haction⟩ := action_of_moves hm
  obtain rfl : acts = some as := by
    simpa [actions, not_failed hr, has, eq_comm] using hacts
  obtain ⟨src, hsrc⟩ := hrow as rfl a ha amount flag haction
  exact ⟨_, Db.mem_txutxo.mpr (hl hsrc), rfl, rfl, rfl⟩

lemma whole_of_left (hans : ∀ e ∈ w'.wire.drop t₀, Answered e) (hw : w.wire <+: w'.wire)
    (hl : otc.total w ⊆ w'.db.log) {n : ℕ}
    (h : Done x t₀ node base w n ∨ Listed x t₀ node w n none) : Whole x t₀ node base w' n := by
  have hlisted : ∀ j a, Heard x t₀ w ⟨"http://" ++ node.node_url ++ "/v1/chain/get_block",
      node.node_auth, get_block n⟩ a → reply a = .ok (.ok j) →
      ∃ txs, transactions j = .ok (some txs) ∧ ∀ t ∈ txs, ∃ trx, id? t = some (.str trx) := by
    intro j a ha hr
    obtain ⟨txs, htxs, hid⟩ := (hans _ (ha.mem hw)).2 n j rfl hr
    exact ⟨txs, by simp [transactions, not_failed hr, htxs], hid⟩
  rcases h with ⟨txs, hlist, hall | ⟨t, -, trx, -, a, ha, hne⟩⟩ | ⟨j, ⟨a, ha, hr⟩, htxs⟩
  · refine ⟨txs, hlist.mono hw, fun t ht => ?_⟩
    obtain ⟨j, ⟨a, ha, hr⟩, htxs⟩ := hlist
    obtain ⟨txs', htxs', hid⟩ := hlisted j a ha hr
    obtain rfl : txs = txs' := by simpa [htxs] using htxs'
    obtain ⟨trx, htrx⟩ := hid t ht
    exact (hall t ht).found hw hl htrx
  · obtain ⟨j, hr⟩ := (hans _ (ha.mem hw)).1 trx rfl
    exact absurd hr (hne j)
  · obtain ⟨txs, htxs', -⟩ := hlisted j a ha hr
    rw [htxs] at htxs'
    cases htxs'

end

end Eos

namespace Omni

/-- A transaction that is asked for is answered without an error, and a block with a list, unless
the request fails. -/
def Answered (e : Request × Answer) : Prop :=
  (∀ txid, e.1.data = omni_gettransaction txid → ∃ j, reply e.2 = .ok (.ok j)) ∧
  ∀ (i : ℕ) j, e.1.data = omni_listblocktransactions i → reply e.2 = .ok (.ok j) →
    ∃ txs, j.find? "result" = some (.arr txs)

/-- The result is that of a valid transfer of this amount. -/
structure Moves (result : Json) («from» «to» amount : String) : Prop where
  valid : result.find? "valid" = some (.bool true)
  sendingaddress : result.find? "sendingaddress" = some (.str «from»)
  referenceaddress : result.find? "referenceaddress" = some (.str «to»)
  amount : result.find? "amount" = some (.str amount)

/-- The transaction has been answered, and if it is a transfer that touches one of the addresses,
it has a row for one of its ends. -/
def Found (x : Weather) (t₀ : ℕ) (node : NodeInfo) (watch : String → Prop) (w : World)
    (json_tx : Json) : Prop :=
  ∃ txid j, json_tx = .str txid ∧
    Told x t₀ w node.node_url node.node_auth (omni_gettransaction txid) j ∧
    ∀ result f t amount, j.find? "result" = some result → Moves result f t amount →
      watch f ∨ watch t →
        ∃ r ∈ w.db.txutxo, r.txid = txid ∧ (r.address = f ∨ r.address = t) ∧ r.amount = amount

/-- The block has been listed, and each of its transactions found. -/
def Whole (x : Weather) (t₀ : ℕ) (node : NodeInfo) (watch : String → Prop) (w : World) (n : ℕ) :
    Prop :=
  ∃ j txs, Told x t₀ w node.node_url node.node_auth (omni_listblocktransactions n) j ∧
    j.find? "result" = some (.arr txs) ∧ ∀ json_tx ∈ txs, Found x t₀ node watch w json_tx

section

variable {x : Weather} {t₀ : ℕ} {node : NodeInfo} {S : List (String × ℤ)} {watch : String → Prop}
  {w w' : World}

lemma classify_of_watched {f t : String} (h : (S.lookup f).isSome ∨ (S.lookup t).isSome) :
    ∃ flag address, classify S f t = some (flag, address) ∧ (address = f ∨ address = t) := by
  unfold classify
  by_cases hf : (S.lookup f).isSome <;> by_cases ht : (S.lookup t).isSome <;> simp_all

lemma detail_of_moves {j result : Json} {f t amount : String} (hr : j.find? "result" = some result)
    (h : Moves result f t amount) (hS : (S.lookup f).isSome ∨ (S.lookup t).isSome) :
    ∃ address flag, detail S j = .ok (some (address, amount, flag)) ∧
      (address = f ∨ address = t) := by
  obtain ⟨flag, address, hclass, hend⟩ := classify_of_watched hS
  have hfull : result.empty = false := by
    have hvalid := h.valid
    cases result with
    | obj kvs => cases kvs <;> simp_all [Json.empty]
    | _ => simp [Json.find?] at hvalid
  refine ⟨address, flag, ?_, hend⟩
  simp [detail, Json.field_of_find? hr, hfull, transfer, Json.field_of_find? h.valid,
    Json.field_of_find? h.sendingaddress, Json.field_of_find? h.referenceaddress,
    Json.field_of_find? h.amount, hclass]

lemma TxDone.found (hS : ∀ address, watch address → (S.lookup address).isSome)
    (hw : w.wire <+: w'.wire) (hl : otc.total w ⊆ w'.db.log) {json_tx : Json}
    (h : TxDone x t₀ node S w json_tx) : Found x t₀ node watch w' json_tx := by
  obtain ⟨txid, kept, rfl, ⟨j, ⟨a, ha, hr⟩, hkept⟩, hrow⟩ := h
  refine ⟨txid, j, rfl, ⟨a, ha.mono hw, hr⟩, fun result f t amount hresult hm hwatch => ?_⟩
  obtain ⟨address, flag, hdetail, hend⟩ :=
    detail_of_moves hresult hm (hwatch.imp (hS f) (hS t))
  obtain rfl : kept = some (address, amount, flag) := by simpa [hkept] using hdetail
  obtain ⟨src, hsrc⟩ := hrow address amount flag rfl
  exact ⟨_, Db.mem_txutxo.mpr (hl hsrc), rfl, hend, rfl⟩

lemma whole_of_left (hS : ∀ address, watch address → (S.lookup address).isSome)
    (hans : ∀ e ∈ w'.wire.drop t₀, Answered e) (hw : w.wire <+: w'.wire)
    (hl : otc.total w ⊆ w'.db.log) {n : ℕ}
    (h : Done x t₀ node S w n ∨ Listed x t₀ node w n none) : Whole x t₀ node watch w' n := by
  have hlisted : ∀ j a, Heard x t₀ w ⟨node.node_url, node.node_auth,
      omni_listblocktransactions n⟩ a → reply a = .ok (.ok j) →
      ∃ txs, j.find? "result" = some (.arr txs) ∧
        transactions j = .ok (if txs.isEmpty then none else some txs) := by
    intro j a ha hr
    obtain ⟨txs, htxs⟩ := (hans _ (ha.mem hw)).2 n j rfl hr
    refine ⟨txs, htxs, ?_⟩
    cases txs <;> simp [transactions, Json.field_of_find? htxs]
  rcases h with ⟨txs, ⟨j, ⟨a, ha, hr⟩, htxs⟩, hall | ⟨t, -, txid, rfl, a', ha', hne⟩⟩ |
    ⟨j, ⟨a, ha, hr⟩, htxs⟩
  · obtain ⟨txs', hresult, htxs'⟩ := hlisted j a ha hr
    refine ⟨j, txs', ⟨a, ha.mono hw, hr⟩, hresult, fun t ht => (hall t ?_).found hS hw hl⟩
    cases txs' with
    | nil => simp at ht
    | cons t' txs' =>
      obtain rfl : txs = t' :: txs' := by simpa [htxs] using htxs'
      exact ht
  · obtain ⟨j, hr⟩ := (hans _ (ha'.mem hw)).1 txid rfl
    exact absurd hr (hne j)
  · obtain ⟨txs', hresult, htxs'⟩ := hlisted j a ha hr
    refine ⟨j, txs', ⟨a, ha.mono hw, hr⟩, hresult, fun t ht => ?_⟩
    cases txs' with
    | nil => simp at ht
    | cons t' txs' => simp [htxs] at htxs'

end

end Omni

/-! ### The tasks -/

/-- What the exchanges of a call are. -/
def Meets (good : Request × Answer → Prop) (w w' : World) : Prop :=
  ∀ e ∈ w'.wire.drop w.wire.length, good e

section

variable (x : Weather) (w w' : World)

/-- The heights that a call has stored for XRP stand for whole ledgers. -/
def Xrp.Stored : Prop :=
  Stands "XRP" id (fun node => Whole x w.wire.length node w.vars.xrp_base_address_ w') w w'

/-- The heights that a call has stored for EOS stand for whole blocks. -/
def Eos.Stored : Prop :=
  Stands "EOS" (fun _ => start)
    (fun node => Whole x w.wire.length node w.vars.eos_base_address_ w') w w'

/-- The heights that a call has stored for OMNI stand for whole blocks. -/
def Omni.Stored (cat : Catalog) : Prop :=
  Stands "USDT" id (fun node => Whole x w.wire.length node (Owned cat "USDT") w') w w'

end

section

variable {x : Weather} {cat : Catalog} {w : World}

lemma wp_timed {D : World → Prop} {scan : Scan Unit} {name : String} {second : ℕ} (ht : Timeless D)
    (hscan : wp (env x) scan (fun _ => D) D w) :
    wp (env x) (do scan; SetTimeout name second) (fun _ => D) D w := by
  rw [wp_bind]
  exact wp_mono hscan (fun _ w' h => wp_SetTimeout (fun _ h => h) ht h) fun _ h => h

lemma Xrp.wp_stored (hfit : Fit cat w) :
    wp (env x) Task.ScanXRP.run (fun _ w' => Meets Answered w w' → Stored x w w')
      (fun w' => Meets Answered w w' → Stored x w w') w := by
  have hbroken : ∀ w', Broken x "XRP" id
      (fun node => grounds x w.wire.length node w.vars.xrp_base_address_) w w' →
      Meets Answered w w' → Stored x w w' :=
    fun w' hr hans => hr.stands (fun _ _ _ => rfl) hfit.clean
      fun _ _ _ _ _ hw hl h => whole_of_left hans hw hl h
  refine wp_timed (fun _ _ h => h) (wp_mono (wp_scanXRP w) (fun _ w' hr => ?_) hbroken)
  rcases hr with ⟨rfl, -⟩ | hr
  · exact hbroken _ (Or.inl ⟨rfl, rfl⟩)
  · exact hbroken w' hr.broken

lemma Eos.wp_stored (hfit : Fit cat w) :
    wp (env x) Task.ScanEOS.run (fun _ w' => Meets Answered w w' → Stored x w w')
      (fun w' => Meets Answered w w' → Stored x w w') w := by
  have hbroken : ∀ w', Broken x "EOS" (fun _ => start)
      (fun node => grounds x w.wire.length node w.vars.eos_base_address_) w w' →
      Meets Answered w w' → Stored x w w' :=
    fun w' hr hans => hr.stands (fun _ _ _ => rfl) hfit.clean
      fun _ _ _ _ _ hw hl h => whole_of_left hans hw hl h
  refine wp_timed (fun _ _ h => h) (wp_mono (wp_scanEOS w) (fun _ w' hr => ?_) hbroken)
  rcases hr with ⟨rfl, -⟩ | hr
  · exact hbroken _ (Or.inl ⟨rfl, rfl⟩)
  · exact hbroken w' hr.broken

lemma Omni.wp_stored (hfit : Fit cat w) :
    wp (env x) Task.ScanOMNI_USDT.run (fun _ w' => Meets Answered w w' → Stored x w w' cat)
      (fun w' => Meets Answered w w' → Stored x w w' cat) w := by
  have hidle : ∀ w', w'.db = w.db → w'.wire = w.wire → Meets Answered w w' → Stored x w w' cat :=
    fun w' hdb _ _ => ⟨[], by simp [hdb], by simp⟩
  refine wp_scanTask (K := fun w₁ => Fit cat w₁ ∧ w₁.db = w.db ∧ w₁.wire = w.wire ∧
      w₁.vars.map_coinid_node_ = w.vars.map_coinid_node_) (fun w₁ h => hidle w₁ h.2.1 h.2.2.1)
    (fun _ h => h) (fun _ _ h => h) hidle (fun l hl => ?_) fun w₁ ⟨hfit₁, hdb, hwire, hnodes⟩ hne => ?_
  · rw [foldl_omni]
    exact ⟨hfit.load hl, rfl, rfl, rfl⟩
  have hbroken : ∀ w', Broken x "USDT" id
      (fun node => grounds x w₁.wire.length node w₁.vars.s_address_id_omni_usdt) w₁ w' →
      Meets Answered w w' → Stored x w w' cat := by
    intro w' hr hans
    rw [Meets, ← hwire] at hans
    have hstored : Stored x w₁ w' cat := hr.stands (fun _ _ _ => rfl) hfit₁.clean
      fun _ _ _ _ _ hw hl h => whole_of_left (hfit₁.watch.resolve_left hne) hans hw hl h
    obtain ⟨new, hlog, hnew⟩ := hstored
    rw [hdb] at hlog
    refine ⟨new, hlog, fun r hr => ?_⟩
    obtain ⟨pre_height, node, hb, hall⟩ := hnew r hr
    rw [hwire] at hall
    exact ⟨pre_height, node, ⟨hdb ▸ hb.current, hnodes ▸ hb.node⟩, hall⟩
  exact wp_mono (wp_scanOMNI_USDT w₁) (fun _ w' hr => hbroken w' hr.broken) hbroken

end

/-- **A stored height of XRP, EOS or OMNI stands for every block below it**, from the start of
the scan that stores it, in every call of the three scanners in any run in which every transaction
that is asked for is answered without an error, and every block that is answered is listed: the
blocks have been fetched, the transactions in them answered, and the transfers that touch a watched
address have their rows. -/
theorem stored_of_answered {x : Weather} {callback_url : String} {w₀ w : World}
    (hr : Reach x callback_url Free w₀ true w) :
    (∀ o w', Exec (env x) Task.ScanXRP.run w o w' → Meets Xrp.Answered w w' →
      Xrp.Stored x w w') ∧
    (∀ o w', Exec (env x) Task.ScanEOS.run w o w' → Meets Eos.Answered w w' →
      Eos.Stored x w w') ∧
    ∀ o w', Exec (env x) Task.ScanOMNI_USDT.run w o w' → Meets Omni.Answered w w' →
      Omni.Stored x w w' w₀.db.cat := by
  have hfit : Fit w₀.db.cat w := by
    refine (hr.inv (I := Fit w₀.db.cat) (J := fun w => w.db.cat = w₀.db.cat)
      (fun w h => h.tables) rfl (fun w hw => ?_) fun t w _ h => (keeps_fit x _).task t h).2 rfl
    refine wp_mono (wp_start callback_url _) (fun _ w' hs => ⟨?_, ?_, ?_⟩) fun w' hdb => ?_
    · rw [hs.buf]
      rintro c n ⟨s, hs, -⟩
      cases hs
    · rw [hs.db]
      exact hw
    · rw [hs.omni]
      exact Or.inl rfl
    · rw [hdb]
      exact hw
  refine ⟨fun o w' hx => ?_, fun o w' hx => ?_, fun o w' hx => ?_⟩
  · exact (alive_post (fun _ h => h) (exec_post hx (Xrp.wp_stored hfit))).1
  · exact (alive_post (fun _ h => h) (exec_post hx (Eos.wp_stored hfit))).1
  · exact (alive_post (fun _ h => h) (exec_post hx (Omni.wp_stored hfit))).1

/-- Where every request is answered, the stored ledger is whole. -/
theorem stored_answered : Xrp.Stored (.clear (interrupted 1 100))
    (play (interrupted 1 100) "receiver" [] (smallWorld [(3, 0)])).2
    (play (interrupted 1 100) "receiver" [.ScanXRP] (smallWorld [(3, 0)])).2 := by
  refine (stored_of_answered (reach_play (interrupted 1 100) "receiver" [] (smallWorld [(3, 0)])
    fun _ _ _ _ => trivial)).1 _ _ (exec_serve (interrupted 1 100) Task.ScanXRP.run _) ?_
  have hwire : (play (interrupted 1 100) "receiver" [.ScanXRP] (smallWorld [(3, 0)])).2.wire =
      [⟨"node", "auth", Xrp.ledgerValidated⟩, ⟨"node", "auth", Xrp.ledger 1⟩,
        ⟨"node", "auth", Xrp.tx "paid"⟩,
        ⟨"receiver", "", callback "toAddress" "1" "XRP" 0 "R" "paid" false⟩].map
          fun r => (r, interrupted 1 100 0 r) := rfl
  change ∀ e ∈ (play (interrupted 1 100) "receiver" [.ScanXRP] (smallWorld [(3, 0)])).2.wire, _
  rw [hwire]
  simp only [List.map_cons, List.map_nil, List.forall_mem_cons]
  refine ⟨?_, ⟨?_, fun i j hi hr => ?_⟩, ⟨fun hash hhash => ?_, ?_⟩, ?_, by simp⟩
  · simp [Xrp.Answered, Xrp.ledgerValidated, Xrp.tx, Xrp.ledger, structRpc]
  · simp [Xrp.ledger, Xrp.tx, structRpc]
  · have hone : (1 : ℤ) = i := by simpa [Xrp.ledger, structRpc] using hi
    obtain rfl : 1 = i := by omega
    cases hr
    exact ⟨_, rfl, rfl, rfl⟩
  · obtain rfl : "paid" = hash := by simpa [Xrp.tx, structRpc] using hhash
    exact ⟨_, _, rfl, rfl, rfl⟩
  · simp [Xrp.ledger, Xrp.tx, structRpc]
  · simp [Xrp.Answered, callback, Xrp.tx, Xrp.ledger, structRpc]

/-- The ledger is stored although its payment could not be read. -/
theorem not_stored_lost : ¬ ∀ (x : Weather) (callback_url : String) (w₀ w : World),
    Reach x callback_url Free w₀ true w → ∀ o w', Exec (env x) Task.ScanXRP.run w o w' →
      Xrp.Stored x w w' := by
  intro h
  have hstored := h _ _ _ _ (reach_play (interrupted 1 2) "receiver" [] (smallWorld [(3, 0)])
    fun _ _ _ _ => trivial) _ _ (exec_serve (interrupted 1 2) Task.ScanXRP.run _)
  obtain ⟨new, hlog, hnew⟩ := hstored
  obtain rfl : [.block ⟨3, "", 1⟩] = new := by
    change [.block ⟨3, "", 0⟩, .block ⟨3, "", 1⟩] = [.block ⟨3, "", 0⟩] ++ new at hlog
    simpa using hlog
  obtain ⟨pre_height, node, hb, hall⟩ := hnew _ (List.mem_singleton_self _)
  obtain rfl : 0 = pre_height := Option.some.inj hb.current.2.1
  obtain ⟨txs, hlist, hfound⟩ := hall 1 one_pos le_rfl
  obtain rfl := hlist.honest (interrupted_xrp 1 2)
  obtain ⟨hash, j, -, hstr, ⟨a, ⟨t, -, hwire, rfl⟩, hr⟩, -⟩ :=
    hfound (.str "paid") (List.mem_singleton_self _)
  obtain rfl : "paid" = hash := Json.str.inj hstr
  -- the request for the payment is the third one, which fails
  have ht := congrArg (Option.map fun e : Request × Answer => e.1.data.find? "method") hwire
  rw [← List.getElem?_map] at ht
  change [some (.str "ledger"), some (.str "ledger"), some (.str "tx")][t]? =
    some (some (Json.str "tx")) at ht
  obtain rfl : t = 2 := by
    rcases t with _ | _ | _ | t <;> simp at ht ⊢
  cases hr

end OpenWallet.Monitor
