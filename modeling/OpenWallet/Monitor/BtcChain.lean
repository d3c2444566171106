import OpenWallet.Monitor.BtcPass

/-!
A Bitcoin chain that only grows, and a node that tells the truth about it. The node may fail a
call at any time and answer any call late; what it does say about a block or a transaction of
the chain is so.
-/

namespace OpenWallet.Monitor.Btc

open Lib Prog

/-- An input spends an output by transaction and index; a coinbase spends none. -/
structure Vin where
  txid : Option String
  vout : ℕ

structure Vout where
  value : Double
  addresses : Option (List String)

/-- A transaction; the number of an output fits an `int`. -/
structure Tx where
  vin : List Vin
  vout : List Vout
  small : vout.length < 2 ^ 31

/-- The blocks by height, what is in them, and the transactions by identifier. -/
structure Chain where
  hash : ℕ → String
  block : String → List String
  tx : String → Tx

def Vin.Shows (i : Vin) (j : Json) : Prop :=
  j.find? "txid" = i.txid.map .str ∧ j.find? "vout" = i.txid.map fun _ => .int i.vout

def Vout.Shows (o : Vout) (k : ℕ) (j : Json) : Prop :=
  j.find? "n" = some (.int k) ∧ (∃ v, j.find? "value" = some v ∧ v.getDouble = .ok o.value) ∧
    ∃ s, j.find? "scriptPubKey" = some s ∧
      s.find? "addresses" = o.addresses.map fun as => .arr (as.map .str)

def Tx.Shows (t : Tx) (j : Json) : Prop :=
  (∃ vins, j.find? "vin" = some (.arr vins) ∧ List.Forall₂ Vin.Shows t.vin vins) ∧
    ∃ vouts, j.find? "vout" = some (.arr vouts) ∧
      List.Forall₂ (fun o j => o.1.Shows o.2 j) t.vout.zipIdx vouts

/-- What the node answers to a request without an error is true of the chain. -/
structure Chain.Honest (c : Chain) (x : Weather) : Prop where
  blockhash : ∀ t url auth i a j, x.net t ⟨url, auth, getblockhash i⟩ a →
    reply a = .ok (.ok j) → j.find? "result" = some (.str (c.hash i))
  block : ∀ t url auth h a j, x.net t ⟨url, auth, getblock h⟩ a → reply a = .ok (.ok j) →
    ∃ r, j.find? "result" = some r ∧ r.find? "tx" = some (.arr ((c.block h).map .str))
  tx : ∀ t url auth txid a j, x.net t ⟨url, auth, getrawtransaction txid⟩ a →
    reply a = .ok (.ok j) → ∃ r, j.find? "result" = some r ∧ (c.tx txid).Shows r

lemma Vout.Shows.vout {o : Vout} {k : ℕ} {j : Json} (h : o.Shows k j) (hk : k < 2 ^ 31) :
    Btc.vout j = .ok (o.addresses.map fun as =>
      ((k : ℤ), Text.to_string (10000000 * o.value), as.map .str)) := by
  obtain ⟨hn, ⟨v, hv, hval⟩, s, hs, has⟩ := h
  cases ha : o.addresses with
  | none => simp [Btc.vout, Json.field_of_find? hs, has, ha]
  | some as =>
    simp [Btc.vout, Json.field_of_find? hs, has, ha, Json.field_of_find? hn,
      Json.getInt_natCast hk, Json.field_of_find? hv, hval]

section

variable {c : Chain} {x : Weather} (hc : c.Honest x) {t₀ : ℕ} {node : NodeInfo} {w : World}

include hc

lemma Listed.honest {i : ℕ} {txs : List Json} (h : Listed x t₀ node w i txs) :
    txs = (c.block (c.hash i)).map .str := by
  obtain ⟨hash, ⟨j, ⟨a, ⟨t, -, -, hn⟩, hr⟩, hh⟩, j', ⟨a', ⟨t', -, -, hn'⟩, hr'⟩, ht⟩ := h
  have hres := hc.blockhash _ _ _ _ _ _ hn hr
  obtain rfl : c.hash i = hash := by
    simpa [blockHash, Json.field_of_find? hres] using hh
  obtain ⟨r, hres', htx⟩ := hc.block _ _ _ _ _ _ hn' hr'
  simpa [blockTxs, Json.field_of_find? hres', Json.field_of_find? htx, eq_comm] using ht

lemma Read.honest {txid : String} {vouts : List Json} (h : Read x t₀ node w txid vouts) :
    List.Forall₂ (fun o j => o.1.Shows o.2 j) (c.tx txid).vout.zipIdx vouts := by
  obtain ⟨j, ⟨a, ⟨t, -, -, hn⟩, hr⟩, hv⟩ := h
  obtain ⟨r, hres, -, vouts', hvouts, hshow⟩ := hc.tx _ _ _ _ _ _ hn hr
  obtain rfl : vouts' = vouts := by
    simpa [txVouts, Json.field_of_find? hres, Json.field_of_find? hvouts] using hv
  exact hshow

lemma Inputs.honest {txid : String} {vins : List Json} (h : Inputs x t₀ node w txid vins) :
    List.Forall₂ Vin.Shows (c.tx txid).vin vins := by
  obtain ⟨j, ⟨a, ⟨t, -, -, hn⟩, hr⟩, hv⟩ := h
  obtain ⟨r, hres, ⟨vins', hvins, hshow⟩, -⟩ := hc.tx _ _ _ _ _ _ hn hr
  obtain rfl : vins' = vins := by
    simpa [txVins, Json.field_of_find? hres, Json.field_of_find? hvins] using hv
  exact hshow

/-- The outputs of a transaction that is done with have their rows. -/
lemma TxDone.honest {S : List (String × ℤ)} {V : String → Bool → Prop} {txid : String}
    (h : TxDone x t₀ node S V w (.str txid)) : ∃ vin, V txid vin ∧
      ∀ (k : ℕ) o, (c.tx txid).vout[k]? = some o → ∀ (n : ℕ) address,
        (o.addresses.getD [])[n]? = some address → (watched S address ∨ vin = true) →
        ∃ src, src.slot = n ∧ .txutxo (row S src txid vin k
          (Text.to_string (10000000 * o.value)) address) ∈ otc.total w := by
  obtain ⟨txid', vin, vouts, hj, hv, hread, hout⟩ := h
  obtain rfl : txid = txid' := Json.str.inj hj
  refine ⟨vin, hv, fun k o hk n address ha hw => ?_⟩
  have hmem : (o, k) ∈ (c.tx txid).vout.zipIdx := by
    rw [List.mem_zipIdx_iff_getElem?]
    exact hk
  obtain ⟨j, hj, hshow⟩ := forall₂_mem_left (hread.honest hc) hmem
  cases has : o.addresses with
  | none => simp [has] at ha
  | some as =>
    have hvout := hshow.vout ((List.getElem?_eq_some_iff.mp hk).1.trans (c.tx txid).small)
    rw [has] at hvout ha
    exact hout j hj _ _ _ hvout n (.str address) (by simpa using ha) address rfl hw

lemma Pays.honest {i : ℕ} {src : Src} {txid value address : String} {number : ℤ}
    (h : Pays x t₀ node w i src txid number value address) :
    (c.block (c.hash i))[src.tx]? = some txid ∧ number = src.out ∧
      ∃ o as, (c.tx txid).vout[src.out]? = some o ∧ o.addresses = some as ∧
        as[src.slot]? = some address ∧ value = Text.to_string (10000000 * o.value) := by
  obtain ⟨-, ⟨txs, hlist, ht⟩, vouts, j, addresses, hread, hk, hv, ha⟩ := h
  obtain rfl := hlist.honest hc
  obtain ⟨⟨o, k⟩, ho, hshow⟩ := forall₂_getElem? (hread.honest hc).flip hk
  obtain ⟨ho', rfl⟩ : (c.tx txid).vout[src.out]? = some o ∧ src.out = k := by
    simpa [List.getElem?_zipIdx] using ho
  have hlt : src.out < 2 ^ 31 := (List.getElem?_eq_some_iff.mp ho').1.trans (c.tx txid).small
  rw [Vout.Shows.vout hshow hlt] at hv
  cases has : o.addresses with
  | none => simp [has] at hv
  | some as =>
    obtain ⟨rfl, rfl, rfl⟩ : (src.out : ℤ) = number ∧
        Text.to_string (10000000 * o.value) = value ∧ as.map .str = addresses := by
      simpa [has] using hv
    exact ⟨by simpa using ht, rfl, o, as, ho', has, by simpa using ha, rfl⟩

lemma Done.honest {S : List (String × ℤ)} {V : String → Bool → Prop} {n : ℕ}
    (h : Done x t₀ node S V w n) :
    ∀ txid ∈ c.block (c.hash n), TxDone x t₀ node S V w (.str txid) := by
  obtain ⟨txs, hlist, hdone⟩ := h
  obtain rfl := hlist.honest hc
  exact fun txid ht => hdone _ (List.mem_map_of_mem ht)

end

def Vin.json (i : Vin) : Json :=
  .obj (match i.txid with
    | none => []
    | some txid => [("txid", .str txid), ("vout", .int i.vout)])

def Vout.json (o : Vout) (k : ℕ) : Json :=
  .obj [("n", .int k), ("value", .float o.value), ("scriptPubKey", .obj (match o.addresses with
    | none => []
    | some as => [("addresses", .arr (as.map .str))]))]

def Tx.json (t : Tx) : Json :=
  .obj [("vin", .arr (t.vin.map Vin.json)),
    ("vout", .arr (t.vout.zipIdx.map fun o => o.1.json o.2))]

lemma Vin.shows_json (i : Vin) : i.Shows i.json := by
  cases h : i.txid with
  | none => simp [Vin.Shows, Vin.json, h]
  | some txid =>
    simp only [Vin.Shows, Vin.json, h]
    exact ⟨rfl, rfl⟩

lemma Vout.shows_json (o : Vout) (k : ℕ) : o.Shows k (o.json k) := by
  refine ⟨rfl, ⟨_, rfl, rfl⟩, _, rfl, ?_⟩
  cases o.addresses <;> rfl

lemma forall₂_map {α : Type} {R : α → Json → Prop} {f : α → Json} (h : ∀ a, R a (f a))
    (l : List α) : List.Forall₂ R l (l.map f) := by
  rw [List.forall₂_map_right_iff]
  exact List.forall₂_same.mpr fun a _ => h a

lemma Tx.shows_json (t : Tx) : t.Shows t.json :=
  ⟨⟨_, rfl, forall₂_map Vin.shows_json _⟩, _, rfl, forall₂_map (fun o => o.1.shows_json o.2) _⟩

/-- What a node at a height answers. Requests that name no method go to the receiver of the
notices, which acknowledges them. -/
def Chain.node (c : Chain) (height : ℕ) (r : Request) : Answer :=
  match r.data.find? "method", r.data.find? "params" with
  | some (.str "getblockcount"), _ => .body (.obj [("result", .int height)])
  | some (.str "getblockhash"), some (.arr [.int i]) =>
    if i ≤ height then .body (.obj [("result", .str (c.hash i.toNat))])
    else .body (.obj [("error", .int (-8))])
  | some (.str "getblock"), some (.arr [.str hash]) =>
    .body (.obj [("result", .obj [("tx", .arr ((c.block hash).map .str))])])
  | some (.str "getrawtransaction"), some (.arr [.str txid, _]) =>
    .body (.obj [("result", (c.tx txid).json)])
  | _, _ => .body (.obj [("code", .int 0)])

def Asks (d : Json) : Prop :=
  (∃ i : ℕ, d = getblockhash i) ∨ (∃ hash, d = getblock hash) ∨ ∃ txid, d = getrawtransaction txid

lemma honest_of_node {c : Chain} {net : ℕ → Request → Answer} (height : ℕ → ℕ)
    (h : ∀ t url auth d, Asks d → net t ⟨url, auth, d⟩ = .down ∨
      net t ⟨url, auth, d⟩ = c.node (height t) ⟨url, auth, d⟩) : c.Honest (.clear net) where
  blockhash := by
    rintro t url auth i a j rfl hr
    rcases h t url auth _ (Or.inl ⟨i, rfl⟩) with hn | hn <;> rw [hn] at hr
    · cases hr
    · change reply (if (i : ℤ) ≤ height t then _ else _) = _ at hr
      split at hr
      · rw [reply_result] at hr
        cases hr
        rfl
      · cases hr
  block := by
    rintro t url auth hash a j rfl hr
    rcases h t url auth _ (Or.inr (Or.inl ⟨hash, rfl⟩)) with hn | hn <;> rw [hn] at hr
    · cases hr
    · change reply (.body (.obj [("result", _)])) = _ at hr
      rw [reply_result] at hr
      cases hr
      exact ⟨_, rfl, rfl⟩
  tx := by
    rintro t url auth txid a j rfl hr
    rcases h t url auth _ (Or.inr (Or.inr ⟨txid, rfl⟩)) with hn | hn <;> rw [hn] at hr
    · cases hr
    · change reply (.body (.obj [("result", _)])) = _ at hr
      rw [reply_result] at hr
      cases hr
      exact ⟨_, rfl, (c.tx txid).shows_json⟩

/-- One transaction, in the first block, which pays the address "A". -/
def oneTx : Chain where
  hash n := if n = 1 then "first" else "later"
  block hash := if hash = "first" then ["txid"] else []
  tx _ := ⟨[], [⟨1, some ["A"]⟩], by decide⟩

end OpenWallet.Monitor.Btc
