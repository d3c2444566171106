import OpenWallet.Monitor.XrpPass

/-!
A chain of validated ledgers that only grows, and a node that tells the truth about it where it
answers with success.
-/

namespace OpenWallet.Monitor.Xrp

open Lib Prog

/-- A transaction; an amount in another currency than XRP is an object, and is left out here. -/
structure Tx where
  type : String
  amount : Option String
  account : String
  destination : String

/-- The transactions of the ledgers by index, and what they say by hash. -/
structure Chain where
  ledger : ℕ → List String
  tx : String → Tx

def Tx.Shows (t : Tx) (hash : String) (j : Json) : Prop :=
  j.find? "TransactionType" = some (.str t.type) ∧
  (∃ a, j.find? "Amount" = some a ∧ match t.amount with
    | some amount => a = .str amount
    | none => a.is_object) ∧
  j.find? "Account" = some (.str t.account) ∧
  j.find? "Destination" = some (.str t.destination) ∧ j.find? "hash" = some (.str hash)

/-- The result of a response that is a success. -/
def Success (j r : Json) : Prop :=
  j.find? "result" = some r ∧ r.find? "status" = some (.str "success") ∧
    r.find? "validated" = some (.bool true)

/-- What the node answers with success is true of the chain. -/
structure Chain.Honest (c : Chain) (x : Weather) : Prop where
  ledger : ∀ t url auth i a j r, x.net t ⟨url, auth, Xrp.ledger i⟩ a → reply a = .ok (.ok j) →
    Success j r → ∃ l, r.find? "ledger" = some l ∧
      l.find? "transactions" = some (.arr ((c.ledger i).map .str))
  tx : ∀ t url auth hash a j r, x.net t ⟨url, auth, Xrp.tx hash⟩ a → reply a = .ok (.ok j) →
    Success j r → (c.tx hash).Shows hash r

lemma success_of_validated {j : Json} (h : validated j = .ok true) : ∃ r, Success j r := by
  simp only [validated, bind_eq_ok, Json.getStr_eq_ok] at h
  obtain ⟨r, hr, v, hv, s, rfl, h⟩ := h
  split at h
  · simp at h
  · next hs =>
    obtain rfl : s = "success" := by simpa using hs
    obtain ⟨b, hb, h⟩ := bind_eq_ok.mp h
    refine ⟨r, ?_, Json.find?_of_field hv (by simp), ?_⟩
    · exact Json.find?_of_field hr (by rintro rfl; simp at hv)
    · obtain rfl : b = .bool true := by cases b <;> simp_all [Json.getBool]
      exact Json.find?_of_field hb (by simp)

section

variable {c : Chain} {x : Weather} (hc : c.Honest x) {t₀ : ℕ} {node : NodeInfo} {w : World}

include hc

lemma Listed.honest {i : ℕ} {txs : List Json} (h : Listed x t₀ node w i (some txs)) :
    txs = (c.ledger i).map .str := by
  obtain ⟨j, ⟨a, ⟨t, -, -, hn⟩, hr⟩, h⟩ := h
  simp only [transactions, bind_eq_ok] at h
  obtain ⟨b, hb, h⟩ := h
  cases b with
  | false => simp at h
  | true =>
    obtain ⟨r, hsucc⟩ := success_of_validated hb
    obtain ⟨l, hl, htx⟩ := hc.ledger _ _ _ _ _ _ _ hn hr hsucc
    simpa [Json.field_of_find? hsucc.1, Json.field_of_find? hl, Json.field_of_find? htx,
      eq_comm] using h

/-- The payment that is read is the one of the chain that was asked for. -/
lemma Read.honest {base hash h : String} {p : Option Payment}
    (hr : Read x t₀ node base w hash (some (h, p))) :
    h = hash ∧ ∀ p', p = some p' → (c.tx hash).amount = some p'.amount ∧
      p' = ⟨hash, p'.amount, if base = (c.tx hash).destination then 0 else 1⟩ := by
  obtain ⟨j, ⟨a, ⟨t, -, -, hn⟩, hr⟩, hp⟩ := hr
  simp only [payment, bind_eq_ok] at hp
  obtain ⟨b, hb, hp⟩ := hp
  cases b with
  | false => simp at hp
  | true =>
    obtain ⟨r, hsucc⟩ := success_of_validated hb
    obtain ⟨htype, ⟨json_amount, hamount, hshows⟩, haccount, hdestination, hhash⟩ :=
      hc.tx _ _ _ _ _ _ _ hn hr hsucc
    simp only [Bool.not_true, Bool.false_eq_true, if_false, bind_eq_ok, pure_eq_ok,
      Json.getStr_eq_ok, Json.field_of_find? hsucc.1, Except.ok.injEq, exists_eq_left'] at hp
    obtain ⟨_, -, _, -, hp⟩ := hp
    split at hp
    · simp at hp
    simp only [bind_eq_ok, Json.field_of_find? hamount, Except.ok.injEq, exists_eq_left'] at hp
    split at hp
    · simp at hp
    next hobj =>
    simp only [bind_eq_ok, Json.getStr_eq_ok, Json.field_of_find? haccount,
      Json.field_of_find? hdestination, Json.field_of_find? hhash, Except.ok.injEq,
      exists_eq_left', Json.str.injEq] at hp
    obtain ⟨amount, rfl, hp⟩ := hp
    have hamount : (c.tx hash).amount = some amount := by
      cases hchain : (c.tx hash).amount with
      | none => simp [hchain, hobj] at hshows
      | some amount' =>
        rw [hchain] at hshows
        exact congrArg some (Json.str.inj hshows).symm
    split at hp
    · cases hp
      exact ⟨rfl, by simp⟩
    · cases hp
      exact ⟨rfl, by rintro _ ⟨⟩; exact ⟨hamount, rfl⟩⟩

end

def Tx.json (t : Tx) (hash : String) : Json :=
  .obj [("status", .str "success"), ("validated", .bool true),
    ("TransactionType", .str t.type),
    ("Amount", match t.amount with
      | some amount => .str amount
      | none => .obj []),
    ("Account", .str t.account), ("Destination", .str t.destination), ("hash", .str hash)]

/-- What a node with a last validated ledger answers. -/
def Chain.node (c : Chain) (height : ℕ) (r : Request) : Answer :=
  let success (kvs : List (String × Json)) : Answer := .body (.obj [("result",
    .obj ([("status", .str "success"), ("validated", .bool true)] ++ kvs))])
  match r.data.find? "method", r.data.find? "params" with
  | some (.str "ledger"), some (.arr [.obj [("ledger_index", _)]]) =>
    success [("ledger_index", .int height)]
  | some (.str "ledger"), some (.arr [.obj [_, ("ledger_index", .int i), _]]) =>
    if i ≤ height then
      success [("ledger", .obj [("transactions", .arr ((c.ledger i.toNat).map .str))])]
    else .body (.obj [("result", .obj [("status", .str "error")])])
  | some (.str "tx"), some (.arr [.obj [_, ("transaction", .str hash)]]) =>
    .body (.obj [("result", (c.tx hash).json hash)])
  | _, _ => .body (.obj [("code", .int 0)])

/-- The requests about ledgers and transactions. -/
def Asks (d : Json) : Prop := (∃ i : ℕ, d = Xrp.ledger i) ∨ ∃ hash, d = Xrp.tx hash

lemma honest_of_node {c : Chain} {net : ℕ → Request → Answer} (height : ℕ → ℕ)
    (h : ∀ t url auth d, Asks d → net t ⟨url, auth, d⟩ = .down ∨
      net t ⟨url, auth, d⟩ = c.node (height t) ⟨url, auth, d⟩) : c.Honest (.clear net) where
  ledger := by
    rintro t url auth i a j r rfl hr hsucc
    rcases h t url auth _ (Or.inl ⟨i, rfl⟩) with hn | hn <;> rw [hn] at hr
    · cases hr
    · change reply (if (i : ℤ) ≤ height t then _ else _) = _ at hr
      split at hr
      · rw [reply_result] at hr
        cases hr
        obtain ⟨hres, -, -⟩ := hsucc
        cases hres
        exact ⟨_, rfl, rfl⟩
      · rw [reply_result] at hr
        cases hr
        obtain ⟨hres, hstatus, -⟩ := hsucc
        cases hres
        simp at hstatus
  tx := by
    rintro t url auth hash a j r rfl hr hsucc
    rcases h t url auth _ (Or.inr ⟨hash, rfl⟩) with hn | hn <;> rw [hn] at hr
    · cases hr
    · change reply (.body (.obj [("result", _)])) = _ at hr
      rw [reply_result] at hr
      cases hr
      obtain ⟨hres, -, -⟩ := hsucc
      cases hres
      refine ⟨rfl, ⟨_, rfl, ?_⟩, rfl, rfl, rfl⟩
      cases (c.tx hash).amount <;> rfl

/-- One payment, in the first ledger, to the address "R". -/
def onePayment : Chain where
  ledger n := if n = 1 then ["paid"] else []
  tx _ := ⟨"Payment", some "1", "S", "R"⟩

end OpenWallet.Monitor.Xrp
