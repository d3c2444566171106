import OpenWallet.Monitor.Bookkeeping
import OpenWallet.Monitor.Calldata
import OpenWallet.Monitor.Tasks
import OpenWallet.Monitor.XrpChain

/-!
What the XRP and ETH scanners credit, and what the chain says of it. A payment of XRP is taken at
the amount it asked for, whether it went through and whatever it delivered, and the receipts of ETH
are never asked for; so what is credited is settled exactly as long as the nodes show no deposit
that failed or moved something else.
-/

namespace OpenWallet.Monitor

open Lib Prog

namespace Xrp

/-- The result is that of a payment of XRP to the base address, by what the scanner looks at. -/
structure Deposits (base : String) (result : Json) (hash amount : String) : Prop where
  status : result.find? "status" = some (.str "success")
  validated : result.find? "validated" = some (.bool true)
  type : result.find? "TransactionType" = some (.str "Payment")
  amount : result.find? "Amount" = some (.str amount)
  account : ∃ account, result.find? "Account" = some (.str account)
  destination : result.find? "Destination" = some (.str base)
  hash : result.find? "hash" = some (.str hash)

/-- The payment has gone through, and this is what it has delivered. -/
def Delivers (result : Json) (amount : String) : Prop :=
  ∃ m, result.find? "meta" = some m ∧ m.find? "TransactionResult" = some (.str "tesSUCCESS") ∧
    m.find? "delivered_amount" = some (.str amount)

section

variable {base hash amount : String} {json_response result : Json}

lemma payment_of_deposits (hr : json_response.find? "result" = some result)
    (h : Deposits base result hash amount) :
    payment base json_response = .ok (some (hash, some ⟨hash, amount, 0⟩)) := by
  obtain ⟨account, haccount⟩ := h.account
  simp [payment, Xrp.validated, Json.field_of_find? hr, Json.field_of_find? h.status,
    Json.field_of_find? h.validated, Json.field_of_find? h.type, Json.field_of_find? h.amount,
    Json.field_of_find? haccount, Json.field_of_find? h.destination,
    Json.field_of_find? h.hash, Json.is_object]

lemma deposits_of_payment {p : Payment}
    (h : payment base json_response = .ok (some (hash, some p))) :
    ∃ result, json_response.find? "result" = some result ∧
      (p.flag = 0 → Deposits base result p.hash p.amount) := by
  simp only [payment, bind_eq_ok] at h
  obtain ⟨b, hb, h⟩ := h
  cases b with
  | false => simp at h
  | true =>
    obtain ⟨result, hsucc⟩ := success_of_validated hb
    refine ⟨result, hsucc.1, ?_⟩
    simp only [Bool.not_true, Bool.false_eq_true, if_false, bind_eq_ok, pure_eq_ok,
      Json.getStr_eq_ok, Json.field_of_find? hsucc.1, Except.ok.injEq, exists_eq_left'] at h
    obtain ⟨_, htype, type, rfl, h⟩ := h
    split at h
    · simp at h
    next hpayment =>
    obtain ⟨json_amount, hamount, h⟩ := bind_eq_ok.mp h
    split at h
    · simp at h
    simp only [bind_eq_ok, Json.getStr_eq_ok] at h
    obtain ⟨amount, rfl, _, haccount, account, rfl, _, hdestination, destination, rfl, _, hhash,
      hash, rfl, h⟩ := h
    split at h
    · cases h
    cases h
    intro hflag
    have hbase : base = destination := by
      by_contra hne
      simp [hne] at hflag
    subst hbase
    obtain rfl : type = "Payment" := by simpa using hpayment
    exact ⟨hsucc.2.1, hsucc.2.2, Json.find?_of_field htype (by simp),
      Json.find?_of_field hamount (by simp), ⟨account, Json.find?_of_field haccount (by simp)⟩,
      Json.find?_of_field hdestination (by simp), Json.find?_of_field hhash (by simp)⟩

end

section

variable (x : Weather) (base : String)

/-- The node has answered for the payment at a place of a ledger with this result. -/
def Shown (w : World) (src : Src) (p : Payment) (result : Json) : Prop :=
  ∃ node txs hash h json_response, Listed x 0 node w src.height (some txs) ∧
    txs[src.tx]? = some (.str hash) ∧
    Told x 0 w node.node_url node.node_auth (tx hash) json_response ∧
    payment base json_response = .ok (some (h, some p)) ∧
    json_response.find? "result" = some result

/-- A payment is taken as the ledger has it: where it is taken for a deposit it has gone through,
and has delivered its amount. -/
def Taken (w : World) (src : Src) (p : Payment) : Prop :=
  ∃ result, Shown x base w src p result ∧ (p.flag = 0 → Delivers result p.amount)

/-- Each new row is of a payment taken as the ledger has it, and so is each new notice. -/
structure Settled (w₀ w : World) : Prop where
  rows : ∀ r ∈ w.db.txutxo, r ∈ w₀.db.txutxo ∨ ∃ p, Taken x base w r.src p ∧ r = row base r.src p
  notices : ∀ e ∈ w.wire.drop w₀.wire.length, isNotice e.1.data → ∃ src p, Taken x base w src p ∧
    e.1.data = callback "toAddress" p.amount "XRP" 0 base p.hash false

/-- The node returns no other results of transactions than these. -/
def Results (A : Json → Prop) : Prop :=
  ∀ t url auth hash a json_response result, x.net t ⟨url, auth, tx hash⟩ a →
    reply a = .ok (.ok json_response) → json_response.find? "result" = some result → A result

variable {x base}

lemma Taken.mono {w w' : World} {src : Src} {p : Payment} (h : Taken x base w src p)
    (hw : w.wire <+: w'.wire) : Taken x base w' src p := by
  obtain ⟨result, ⟨node, txs, hash, h', j, h1, h2, h3, h4, h5⟩, h6⟩ := h
  exact ⟨result, ⟨node, txs, hash, h', j, h1.mono hw, h2, h3.mono hw, h4, h5⟩, h6⟩

variable (x base) in
/-- What a row is to rest on in a session. -/
def RowRests (w₀ w : World) (s : Stmt) : Prop :=
  ∀ r, s = .txutxo r → r ∈ w₀.db.txutxo ∨ ∃ p, Taken x base w r.src p ∧ r = row base r.src p

variable (x base) in
/-- What a notice is to rest on. -/
def NoticeRests (w : World) (j : Json) : Prop :=
  ∃ src p, Taken x base w src p ∧ j = callback "toAddress" p.amount "XRP" 0 base p.hash false

variable {w₀ w : World}

lemma taken_of_credit {A : Json → Prop} (hx : Results x A)
    (hA : ∀ result, A result → ∀ hash amount, Deposits base result hash amount →
      Delivers result amount) {t₀ : ℕ} {node : NodeInfo} {coin_id : ℤ} {height n : ℕ} {s : Stmt}
    {b : Option Json} (h : (grounds x t₀ node base coin_id height).credit n s b w) :
    RowRests x base w₀ w s ∧ ∀ j, b = some j → NoticeRests x base w j := by
  obtain ⟨src, txs, hash, h, p, hlist, ht, hread, rfl, -, -, rfl, rfl⟩ := h
  obtain ⟨j, ⟨a, ⟨t, ht₀, hw, hnet⟩, hreply⟩, hp⟩ := hread
  obtain ⟨result, hresult, hdeposits⟩ := deposits_of_payment hp
  have htold : Told x 0 w node.node_url node.node_auth (tx hash) j :=
    ⟨a, ⟨t, Nat.zero_le t, hw, hnet⟩, hreply⟩
  have htaken : Taken x base w src p :=
    ⟨result, ⟨node, txs, hash, h, j, hlist.ever, ht, htold, hp, hresult⟩, fun h0 =>
      hA result (hx _ _ _ _ _ _ _ hnet hreply hresult) _ _ (hdeposits h0)⟩
  refine ⟨?_, ?_⟩
  · rintro r ⟨⟩
    exact Or.inr ⟨p, htaken, rfl⟩
  · rintro j ⟨⟩
    exact ⟨src, p, htaken, rfl⟩

lemma session_settled {A : Json → Prop} (hx : Results x A)
    (hA : base = "" ∨ ∀ result, A result → ∀ hash amount, Deposits base result hash amount →
      Delivers result amount) {b : Bool} (hbase : w₀.vars.xrp_base_address_ = base)
    (hbuf : w₀.vars.vect_sql_ = []) (hr : Session x (fun p _ => p = scanXRP) w₀ b w) :
    Settled x base w₀ w := by
  have hP : ∀ w w' s, w.wire <+: w'.wire → RowRests x base w₀ w s → RowRests x base w₀ w' s := by
    intro w w' s hw h r hr
    exact (h r hr).imp_right fun ⟨p, ht, hrow⟩ => ⟨p, ht.mono hw, hrow⟩
  have hN : ∀ w w' j, w.wire <+: w'.wire → NoticeRests x base w j → NoticeRests x base w' j :=
    fun w w' j hw ⟨src, p, ht, hdata⟩ => ⟨src, p, ht.mono hw, hdata⟩
  have hbegin : Backed (RowRests x base w₀) (NoticeRests x base) w₀.wire.length w₀ :=
    backed_self hbuf fun s hs r hsr => Or.inl (Db.mem_txutxo.mpr (hsr ▸ hs))
  have hrests := Xrp.session_rests hP hN (fun _ _ r h => by cases h)
    (fun hne t₀ node coin_id height n s b w h => taken_of_credit hx (hA.resolve_left hne) h)
    hbase hbegin hr
  exact ⟨fun r hr => hrests.rows _ (Db.mem_txutxo.mp hr) r rfl, hrests.notices⟩

end

/-! ### A ledger with one transaction -/

/-- A node whose first ledger has one transaction, with this result. -/
def oneResult (result : Json) (_ : ℕ) (r : Request) : Answer :=
  let success (kvs : List (String × Json)) : Answer := .body (.obj [("result",
    .obj ([("status", .str "success"), ("validated", .bool true)] ++ kvs))])
  match r.data.find? "method", r.data.find? "params" with
  | some (.str "tx"), _ => .body (.obj [("result", result)])
  | some (.str "ledger"), some (.arr [.obj [("ledger_index", _)]]) =>
    success [("ledger_index", .int 1)]
  | some (.str "ledger"), _ =>
    success [("ledger", .obj [("transactions", .arr [.str "tx"])])]
  | _, _ => .body (.obj [("code", .int 0)])

def process (base : String) : World :=
  let w := smallProcess [(3, 0)]
  { w with vars := { w.vars with xrp_base_address_ := base } }

lemma run_oneResult {base hash amount : String} {result : Json} (hbase : base ≠ "")
    (h : Deposits base result hash amount) :
    ∃ w', run (serve (oneResult result)) scanXRP (process base) = (.done (), w') ∧
      .txutxo (row base ⟨3, 1, 0, 0, 0⟩ ⟨hash, amount, 0⟩) ∈ w'.db.log := by
  let net := serve (oneResult result)
  let Q : Outcome Exn Unit × World → Prop := fun r => ∃ w', r = (.done (), w') ∧
    .txutxo (row base ⟨3, 1, 0, 0, 0⟩ ⟨hash, amount, 0⟩) ∈ w'.db.log
  have hrange : List.range' (0 + 1) (1 - 0) = [1] := rfl
  change Q (run net scanXRP (process base))
  unfold scanXRP
  refine run_bind_done net rfl ?_
  rw [if_neg (by exact hbase)]
  -- the height, the node and the tip
  refine run_bind_done net (a := some (3, 0)) (rfl : _ = (_, process base)) ?_
  refine run_bind_done net rfl ?_
  refine run_bind_done net (a := .ok (.obj [("result", .obj [("status", .str "success"),
    ("validated", .bool true), ("ledger_index", .int 1)]), ("error", .null)])) rfl ?_
  refine run_bind_done net (a := 1) rfl ?_
  simp only [hrange, loop, bind_assoc, scanBlock]
  -- the ledger
  refine run_bind_done net (a := .ok (.obj [("result", .obj [("status", .str "success"),
    ("validated", .bool true), ("ledger", .obj [("transactions", .arr [.str "tx"])])]),
    ("error", .null)])) rfl ?_
  simp only [bind_assoc, liftM_eq]
  refine run_bind_done net (a := some [.str "tx"]) rfl ?_
  simp only [List.zipIdx, bind_assoc, loop, scanTx]
  -- the transaction
  refine run_bind_done net (a := "tx") rfl ?_
  refine run_bind_done net (a := .ok (.obj [("result", result), ("error", .null)])) rfl ?_
  simp only [bind_assoc, liftM_eq]
  refine run_bind_done net rfl ?_
  have hp := @payment_of_deposits base hash amount (.obj [("result", result), ("error", .null)])
    result rfl h
  refine run_bind_done net (run_lift_of net _ hp) ?_
  exact ⟨_, rfl, List.mem_of_getElem? (i := 1) rfl⟩

lemma shown_oneResult {base : String} {result result' : Json} {w : World} {src : Src} {p : Payment}
    (h : Shown (.clear (oneResult result)) base w src p result') : result' = result := by
  obtain ⟨node, txs, hash, h, j, -, -, ⟨answer, ⟨t, -, -, hnet⟩, hr⟩, -, hresult⟩ := h
  obtain rfl : answer = .body (.obj [("result", result)]) := hnet
  cases hr
  exact (Option.some.inj hresult).symm

lemma results_oneResult {A : Json → Prop} {result : Json} (h : A result) :
    Results (.clear (oneResult result)) A := by
  intro t url auth hash answer j result' hnet hr hresult
  obtain rfl : answer = .body (.obj [("result", result)]) := hnet
  cases hr
  exact Option.some.inj hresult ▸ h

lemma exec_oneResult {base hash amount : String} {result : Json} (hbase : base ≠ "")
    (h : Deposits base result hash amount) :
    ∃ w, Exec (env (.clear (oneResult result))) scanXRP (process base) (.done ()) w ∧
      (Settled (.clear (oneResult result)) base (process base) w → Delivers result amount) := by
  obtain ⟨w, hrun, hrow⟩ := run_oneResult hbase h
  have hx := exec_serve (oneResult result) scanXRP (process base)
  rw [hrun] at hx
  refine ⟨w, hx, fun hsettled => ?_⟩
  obtain hold | ⟨p, ⟨result', hs, hdelivers⟩, hp⟩ := hsettled.rows _ (Db.mem_txutxo.mpr hrow)
  · cases hold
  · obtain ⟨rfl, rfl, hflag⟩ : hash = p.hash ∧ amount = p.amount ∧ 0 = p.flag := by
      simpa [row] using hp
    exact shown_oneResult hs ▸ hdelivers hflag.symm

/-- What is credited is settled, in every session of a process, exactly if every payment of XRP to
the base address has gone through and delivered its amount. -/
lemma settled_iff (base : String) (A : Json → Prop) :
    (∀ x, Results x A → ∀ w₀ w b, w₀.vars.xrp_base_address_ = base → w₀.vars.vect_sql_ = [] →
      Session x (fun p _ => p = scanXRP) w₀ b w → Settled x base w₀ w) ↔
    base = "" ∨ ∀ result, A result → ∀ hash amount, Deposits base result hash amount →
      Delivers result amount := by
  refine ⟨fun h => ?_, fun hA x hx w₀ w b hbase hbuf hr => session_settled hx hA hbase hbuf hr⟩
  by_cases hbase : base = ""
  · exact Or.inl hbase
  refine Or.inr fun result ha hash amount hd => ?_
  obtain ⟨w, hx, hdelivers⟩ := exec_oneResult hbase hd
  exact hdelivers (h _ (results_oneResult ha) _ w true rfl rfl (.call .begin rfl hx))

/-- A payment that asked for a million drops and delivered one. -/
def partialPayment : Json :=
  .obj [("status", .str "success"), ("validated", .bool true), ("TransactionType", .str "Payment"),
    ("Amount", .str "1000000"), ("Account", .str "S"), ("Destination", .str "R"),
    ("hash", .str "tx"), ("meta", .obj [("TransactionResult", .str "tesSUCCESS"),
      ("delivered_amount", .str "1")])]

/-- A payment that was put into a ledger, and failed. -/
def failedPayment : Json :=
  .obj [("status", .str "success"), ("validated", .bool true), ("TransactionType", .str "Payment"),
    ("Amount", .str "1000000"), ("Account", .str "S"), ("Destination", .str "R"),
    ("hash", .str "tx"), ("meta", .obj [("TransactionResult", .str "tecUNFUNDED_PAYMENT")])]

end Xrp

namespace Eth

/-! ### Transfers to watched addresses -/

/-- The outcome of a mined transaction: its status, and what it has moved to its receiver. -/
structure Receipt where
  status : ℕ
  delivered : ℤ

/-- The transaction is a deposit by what the scanner looks at: a transfer to a watched address, or
a call of the watched contract for one from an address that is not watched. The amount of a call is
in the forty digits before its last one. -/
inductive Deposits (C S : List (String × ℤ)) (json_tran : Json) (txid : String) (amount : ℤ) : Prop
  | native {«from» «to» value : String} {f : ℤ} (tran : Native json_tran txid «from» «to» value)
    (watched : watched S (Text.toupper «to»)) (fee : fee json_tran = .ok f)
    (amount : Text.mpz value = .ok amount)
  | token {«from» contract input : String} {token_id f : ℤ}
    (hash : json_tran.field "hash" = .ok (.str txid))
    (from_eq : json_tran.field "from" = .ok (.str «from»))
    (to_eq : json_tran.field "to" = .ok (.str contract))
    (value_eq : json_tran.field "value" = .ok (.str "0x0"))
    (contract : C.lookup (Text.toupper contract) = some token_id) (fee : fee json_tran = .ok f)
    (input_eq : json_tran.field "input" = .ok (.str input))
    (method : String.ofList (input.toList.take 10) = "0xa9059cbb")
    (length : 135 ≤ input.toList.length)
    (outside : Eth.watched S (Text.toupper «from») = false)
    (watched : Eth.watched S (Text.toupper (recipient input)))
    (amount : Text.mpz ("0x" ++ String.ofList (window input)) = .ok amount)

section

variable {C S : List (String × ℤ)} {json_tran : Json} {txid : String} {amount : ℤ} {c : Credit}

lemma recipient_eq (input : String) :
    recipient input = "0x" ++ String.ofList ((input.toList.drop 34).take 40) := by
  rw [recipient, word₁, List.drop_take, List.drop_drop]

lemma credit_of_deposits (h : Deposits C S json_tran txid amount) :
    ∃ c, credit C S json_tran = .ok (some (txid, some c)) ∧ c.flag = 0 ∧ c.txid = txid ∧
      c.value = toString amount := by
  cases h with
  | @native f t value fee hn hto hfee hamount =>
    have hsome : ¬(!watched S (Text.toupper f) ∧ !watched S (Text.toupper t)) := by simp [hto]
    simp only [credit, native, hn.to_eq, hn.from_eq, hn.value_eq, hn.hash, ok_bind,
      Json.is_null_str, Bool.false_eq_true, or_self, if_false, Json.getStr_str,
      if_neg hn.value_ne, if_neg hsome, hfee, hamount, pure_eq_ok]
    exact ⟨_, rfl, by rw [hto]; rfl, rfl, rfl⟩
  | @token f contract input token_id fee hhash hfrom hto hvalue hcontract hfee hinput hmethod hlen
      hout hwatched hamount =>
    have hcut : Text.substr input 0 10 = .ok "0xa9059cbb" :=
      Text.substr_eq_ok.mpr ⟨Nat.zero_le _, by rw [List.drop_zero, hmethod]⟩
    have hto' : Text.substr input 34 40 =
        .ok (String.ofList ((input.toList.drop 34).take 40)) :=
      Text.substr_eq_ok.mpr ⟨by omega, rfl⟩
    have hwindow : Text.substr input (input.toList.length - 41) 40 =
        .ok (String.ofList (window input)) := Text.substr_eq_ok.mpr ⟨by omega, rfl⟩
    rw [recipient_eq] at hwatched
    have hsome : ¬(!watched S (Text.toupper f) ∧ !watched S (Text.toupper
        ("0x" ++ String.ofList ((input.toList.drop 34).take 40)))) := by simp [hwatched]
    simp only [credit, erc20, hto, hfrom, hvalue, hhash, ok_bind, Json.is_null_str,
      Bool.false_eq_true, or_self, if_false, if_true, Json.getStr_str, hcontract, hfee, hinput,
      hcut, ne_eq, not_true_eq_false, false_or, if_neg (Nat.not_lt.mpr hlen), hto', if_neg hsome,
      hwindow, hamount, pure_eq_ok]
    exact ⟨_, rfl, by rw [hout, hwatched]; rfl, rfl, rfl⟩

lemma deposits_of_credit {h : String} (hc : credit C S json_tran = .ok (some (h, some c)))
    (hflag : c.flag = 0) :
    ∃ amount, Deposits C S json_tran c.txid amount ∧ c.value = toString amount := by
  simp only [credit, bind_eq_ok] at hc
  obtain ⟨_, -, _, -, hc⟩ := hc
  split at hc
  · cases hc
  simp only [bind_eq_ok, Json.getStr_eq_ok] at hc
  obtain ⟨_, hvalue, value, rfl, _, hfrom, f, rfl, _, hhash, txid, rfl, hc⟩ := hc
  split at hc
  · next hzero =>
    subst hzero
    simp only [bind_eq_ok, pure_eq_ok, Except.ok.injEq, Option.some.injEq, Prod.mk.injEq] at hc
    obtain ⟨_, hc, -, rfl⟩ := hc
    simp only [erc20, bind_eq_ok, Json.getStr_eq_ok] at hc
    obtain ⟨_, hto, contract, rfl, hc⟩ := hc
    split at hc
    · cases hc
    next token_id hcontract =>
    simp only [bind_eq_ok, Json.getStr_eq_ok, Text.substr_eq_ok] at hc
    obtain ⟨fee, hfee, _, hinput, input, rfl, _, ⟨-, rfl⟩, hc⟩ := hc
    split at hc
    · cases hc
    next hmethod =>
    simp only [bind_eq_ok, Text.substr_eq_ok] at hc
    obtain ⟨_, ⟨-, rfl⟩, hc⟩ := hc
    split at hc
    · cases hc
    next hsome =>
    simp only [bind_eq_ok, Text.substr_eq_ok, pure_eq_ok, Except.ok.injEq, Option.some.injEq] at hc
    obtain ⟨_, ⟨-, rfl⟩, amount, hamount, rfl⟩ := hc
    push Not at hmethod
    have hends : watched S (Text.toupper f) = false ∧ watched S (Text.toupper (recipient input)) := by
      rw [recipient_eq]
      dsimp only at hflag
      split_ifs at hflag with hboth hwatched
      exact ⟨by simpa [hwatched] using hboth, hwatched⟩
    exact ⟨amount, .token hhash hfrom hto hvalue hcontract hfee hinput hmethod.1 hmethod.2 hends.1
      hends.2 hamount, rfl⟩
  · next hne =>
    simp only [bind_eq_ok, pure_eq_ok, Except.ok.injEq, Option.some.injEq, Prod.mk.injEq] at hc
    obtain ⟨_, hc, -, rfl⟩ := hc
    simp only [native, bind_eq_ok, Json.getStr_eq_ok] at hc
    obtain ⟨_, hto, t, rfl, hc⟩ := hc
    split at hc
    · cases hc
    simp only [bind_eq_ok, pure_eq_ok, Except.ok.injEq, Option.some.injEq] at hc
    obtain ⟨fee, hfee, amount, hamount, rfl⟩ := hc
    have hwatched : watched S (Text.toupper t) := by
      dsimp only at hflag
      split_ifs at hflag with hwatched
      exact hwatched
    exact ⟨amount, .native ⟨hhash, hfrom, hto, hvalue, hne⟩ hwatched hfee hamount, rfl⟩

end

section

variable (x : Weather) (receipt : String → Receipt) (C S : List (String × ℤ))

/-- The node has shown the transaction at a place of a block, and this is what is kept of it. -/
def Shown (w : World) (src : Src) (json_tran : Json) (c : Credit) : Prop :=
  ∃ node txs txid, Listed x 0 node w src.height (some txs) ∧ txs[src.tx]? = some json_tran ∧
    credit C S json_tran = .ok (some (txid, some c))

/-- A transaction is taken as it went: where it is taken for a deposit it has gone through, and has
moved the amount. -/
def Taken (w : World) (src : Src) (c : Credit) : Prop :=
  ∃ json_tran, Shown x C S w src json_tran c ∧
    (c.flag = 0 → (receipt c.txid).status = 1 ∧ c.value = toString (receipt c.txid).delivered)

/-- Each new row is of a transaction taken as it went, and so is each new notice. -/
structure Settled (w₀ w : World) : Prop where
  rows : ∀ r ∈ w.db.txutxo, r ∈ w₀.db.txutxo ∨
    ∃ c, Taken x receipt C S w r.src c ∧ r = c.txutxo r.src
  notices : ∀ e ∈ w.wire.drop w₀.wire.length, isNotice e.1.data → ∃ src c,
    Taken x receipt C S w src c ∧ e.1.data = c.notice

/-- The node returns no other transactions in blocks than these. -/
def Trans (A : Json → Prop) : Prop :=
  ∀ t url auth number a json_response json_trans, x.net t ⟨url, auth, getBlockByNumber number⟩ a →
    reply a = .ok (.ok json_response) → transactions json_response = .ok (some json_trans) →
    ∀ json_tran ∈ json_trans, A json_tran

variable {x receipt C S}

lemma Listed.ever {t₀ : ℕ} {node : NodeInfo} {w : World} {i : ℕ} {txs : Option (List Json)}
    (h : Listed x t₀ node w i txs) : Listed x 0 node w i txs := by
  obtain ⟨hex_height, ⟨number, h1, h2⟩, h3⟩ := h
  exact ⟨hex_height, ⟨number, h1.ever, h2⟩, h3.ever⟩

lemma Taken.mono {w w' : World} {src : Src} {c : Credit} (h : Taken x receipt C S w src c)
    (hw : w.wire <+: w'.wire) : Taken x receipt C S w' src c := by
  obtain ⟨json_tran, ⟨node, txs, txid, h1, h2⟩, h3⟩ := h
  exact ⟨json_tran, ⟨node, txs, txid, h1.mono hw, h2⟩, h3⟩

variable (x receipt C S) in
/-- What a row is to rest on in a session. -/
def RowRests (w₀ w : World) (s : Stmt) : Prop := ∀ r, s = .txutxo r →
  r ∈ w₀.db.txutxo ∨ ∃ c, Taken x receipt C S w r.src c ∧ r = c.txutxo r.src

variable (x receipt C S) in
/-- What a notice is to rest on. -/
def NoticeRests (w : World) (j : Json) : Prop :=
  ∃ src c, Taken x receipt C S w src c ∧ j = c.notice

variable {w₀ w : World}

lemma taken_of_credit {A : Json → Prop} (hx : Trans x A)
    (hA : ∀ json_tran, A json_tran → ∀ txid amount, Deposits C S json_tran txid amount →
      receipt txid = ⟨1, amount⟩) {t₀ : ℕ} {node : NodeInfo} {coin_id : ℤ} {height n : ℕ}
    {s : Stmt} {b : Option Json} (h : (grounds x t₀ node C S coin_id height).credit n s b w) :
    RowRests x receipt C S w₀ w s ∧ ∀ j, b = some j → NoticeRests x receipt C S w j := by
  obtain ⟨src, txs, json_tran, txid, c, hlist, ht, hc, rfl, hrow⟩ := h
  have htaken : Taken x receipt C S w src c := by
    refine ⟨json_tran, ⟨node, txs, txid, hlist.ever, ht, hc⟩, fun hflag => ?_⟩
    obtain ⟨amount, hdeposits, hvalue⟩ := deposits_of_credit hc hflag
    obtain ⟨hex_height, -, j, ⟨a, ⟨t, -, -, hnet⟩, hreply⟩, htxs⟩ := hlist
    have hreceipt := hA json_tran (hx _ _ _ _ _ _ _ hnet hreply htxs _
      (List.mem_of_getElem? ht)) _ _ hdeposits
    rw [hreceipt]
    exact ⟨rfl, hvalue⟩
  rcases hrow with ⟨rfl, rfl⟩ | ⟨rfl, rfl⟩
  · refine ⟨nofun, ?_⟩
    rintro j ⟨⟩
    exact ⟨src, c, htaken, rfl⟩
  · refine ⟨?_, nofun⟩
    rintro r ⟨⟩
    exact Or.inr ⟨c, htaken, rfl⟩

lemma session_settled {A : Json → Prop} (hx : Trans x A)
    (hA : ∀ json_tran, A json_tran → ∀ txid amount, Deposits C S json_tran txid amount →
      receipt txid = ⟨1, amount⟩) {b : Bool} (hC : w₀.vars.s_ethcontranct_tokenid = C)
    (hS : w₀.vars.s_address_id_eth = S) (hbuf : w₀.vars.vect_sql_ = [])
    (hr : Session x (fun p _ => p = scanETH) w₀ b w) : Settled x receipt C S w₀ w := by
  have hP : ∀ w w' s, w.wire <+: w'.wire → RowRests x receipt C S w₀ w s →
      RowRests x receipt C S w₀ w' s := by
    intro w w' s hw h r hr
    exact (h r hr).imp_right fun ⟨c, ht, hrow⟩ => ⟨c, ht.mono hw, hrow⟩
  have hN : ∀ w w' j, w.wire <+: w'.wire → NoticeRests x receipt C S w j →
      NoticeRests x receipt C S w' j :=
    fun w w' j hw ⟨src, c, ht, hdata⟩ => ⟨src, c, ht.mono hw, hdata⟩
  have hbegin : Backed (RowRests x receipt C S w₀) (NoticeRests x receipt C S) w₀.wire.length w₀ :=
    backed_self hbuf fun s hs r hsr => Or.inl (Db.mem_txutxo.mpr (hsr ▸ hs))
  have hrests := Eth.session_rests hP hN (fun _ _ r h => by cases h)
    (fun t₀ node coin_id height n s b w h => taken_of_credit hx hA h) hC hS hbegin hr
  exact ⟨fun r hr => hrests.rows _ (Db.mem_txutxo.mp hr) r rfl, hrests.notices⟩

end

/-! ### A block with one transaction -/

/-- A node with 500 as the number of the pending block, and one transaction in each block. -/
def oneTran (json_tran : Json) (_ : ℕ) (r : Request) : Answer :=
  match r.data.find? "method" with
  | some (.str "eth_getBlockByNumber") => .body (.obj [("result",
      .obj [("number", .str "0x1f4"), ("transactions", .arr [json_tran])])])
  | _ => .body (.obj [("code", .int 0)])

/-- A process before that block. -/
def process (C S : List (String × ℤ)) : World :=
  let w := smallProcess [(2, 499)]
  { w with vars := { w.vars with s_ethcontranct_tokenid := C, s_address_id_eth := S } }

lemma run_oneTran {C S : List (String × ℤ)} {json_tran : Json} {txid : String} {c : Credit}
    (hc : credit C S json_tran = .ok (some (txid, some c))) :
    ∃ w', run (serve (oneTran json_tran)) scanETH (process C S) = (.done (), w') ∧
      .txutxo (c.txutxo ⟨2, 500, 0, 0, 0⟩) ∈ w'.db.log := by
  let net := serve (oneTran json_tran)
  let Q : Outcome Exn Unit × World → Prop := fun r => ∃ w', r = (.done (), w') ∧
    .txutxo (c.txutxo ⟨2, 500, 0, 0, 0⟩) ∈ w'.db.log
  let block : Json := .obj [("result", .obj [("number", .str "0x1f4"),
    ("transactions", .arr [json_tran])]), ("error", .null)]
  have hrange : List.range' (499 + 1) (500 - 499) = [500] := rfl
  have hnumber : Text.readHex "0x1f4" = (500, "") := by decide
  change Q (run net scanETH (process C S))
  unfold scanETH
  -- the height, the node and the pending block
  refine run_bind_done net (a := some (2, 499)) (rfl : _ = (_, process C S)) ?_
  refine run_bind_done net rfl ?_
  refine run_bind_done net (a := .ok block) rfl ?_
  refine run_bind_done net (a := some "0x1f4") rfl ?_
  simp only [hnumber, hrange, loop, bind_assoc, scanBlock]
  -- the block
  refine run_bind_done net (a := .ok block) rfl ?_
  simp only [bind_assoc, liftM_eq]
  refine run_bind_done net (a := some [json_tran]) rfl ?_
  simp only [scanTrans, List.zipIdx, bind_assoc, loop, scanTran]
  -- the transaction
  refine run_bind_done net rfl ?_
  simp only [liftM_eq]
  refine run_bind_done net (run_lift_of net _ hc) ?_
  exact ⟨_, rfl, List.mem_of_getElem? (i := 2) rfl⟩

lemma trans_oneTran {A : Json → Prop} {json_tran : Json} (h : A json_tran) :
    Trans (.clear (oneTran json_tran)) A := by
  intro t url auth number answer j txs hnet hr htxs json_tran' hmem
  obtain rfl : answer = .body (.obj [("result", .obj [("number", .str "0x1f4"),
    ("transactions", .arr [json_tran])])]) := hnet
  cases hr
  obtain rfl : txs = [json_tran] := (Option.some.inj (Except.ok.inj htxs)).symm
  rwa [List.mem_singleton.mp hmem]

lemma exec_oneTran (receipt : String → Receipt) {C S : List (String × ℤ)} {json_tran : Json}
    {txid : String} {amount : ℤ} (h : Deposits C S json_tran txid amount) :
    ∃ w, Exec (env (.clear (oneTran json_tran))) scanETH (process C S) (.done ()) w ∧
      (Settled (.clear (oneTran json_tran)) receipt C S (process C S) w →
        receipt txid = ⟨1, amount⟩) := by
  obtain ⟨c, hc, hflag, rfl, hvalue⟩ := credit_of_deposits h
  obtain ⟨w, hrun, hrow⟩ := run_oneTran hc
  have hx := exec_serve (oneTran json_tran) scanETH (process C S)
  rw [hrun] at hx
  refine ⟨w, hx, fun hsettled => ?_⟩
  obtain hold | ⟨c', ⟨json_tran', -, htaken⟩, hc'⟩ := hsettled.rows _ (Db.mem_txutxo.mpr hrow)
  · cases hold
  obtain ⟨htxid, -, hval, hflag'⟩ : c.txid = c'.txid ∧ c.address = c'.address ∧
      c.value = c'.value ∧ c.flag = c'.flag := by
    simpa [Credit.txutxo] using hc'
  obtain ⟨hstatus, hdelivered⟩ := htaken (hflag'.symm.trans hflag)
  rw [← htxid] at hstatus hdelivered
  have hamount : (receipt c.txid).delivered = amount :=
    Numeral.int_toString_injective ((hdelivered.symm.trans hval.symm).trans hvalue)
  rw [← hstatus, ← hamount]

/-- What is credited is settled, in every session of a process, exactly if every deposit has gone
through and moved its amount. -/
lemma settled_iff (receipt : String → Receipt) (C S : List (String × ℤ)) (A : Json → Prop) :
    (∀ x, Trans x A → ∀ w₀ w b, w₀.vars.s_ethcontranct_tokenid = C →
      w₀.vars.s_address_id_eth = S → w₀.vars.vect_sql_ = [] →
      Session x (fun p _ => p = scanETH) w₀ b w → Settled x receipt C S w₀ w) ↔
    ∀ json_tran, A json_tran → ∀ txid amount, Deposits C S json_tran txid amount →
      receipt txid = ⟨1, amount⟩ := by
  refine ⟨fun h json_tran ha txid amount hd => ?_,
    fun hA x hx w₀ w b hC hS hbuf hr => session_settled hx hA hC hS hbuf hr⟩
  obtain ⟨w, hx, hmoved⟩ := exec_oneTran receipt hd
  exact hmoved (h _ (trans_oneTran ha) _ w true rfl rfl rfl (.call .begin rfl hx))

/-- A receipt of a transaction that failed. -/
def failed (_ : String) : Receipt := ⟨0, 0⟩

end Eth

/-- **What is credited is settled**, in every session of either scanner, if and only if every
payment of XRP to the base address has gone through and delivered its amount, and every deposit of
ETH or of the watched token has gone through and moved its amount. -/
theorem credits_settled_iff (base : String) (A : Json → Prop) (receipt : String → Eth.Receipt)
    (C S : List (String × ℤ)) (B : Json → Prop) :
    ((∀ x, Xrp.Results x A → ∀ w₀ w b, w₀.vars.xrp_base_address_ = base → w₀.vars.vect_sql_ = [] →
        Session x (fun p _ => p = Xrp.scanXRP) w₀ b w → Xrp.Settled x base w₀ w) ∧
      ∀ x, Eth.Trans x B → ∀ w₀ w b, w₀.vars.s_ethcontranct_tokenid = C →
        w₀.vars.s_address_id_eth = S → w₀.vars.vect_sql_ = [] →
        Session x (fun p _ => p = Eth.scanETH) w₀ b w → Eth.Settled x receipt C S w₀ w) ↔
    (base = "" ∨ ∀ result, A result → ∀ hash amount, Xrp.Deposits base result hash amount →
        Xrp.Delivers result amount) ∧
      ∀ json_tran, B json_tran → ∀ txid amount, Eth.Deposits C S json_tran txid amount →
        receipt txid = ⟨1, amount⟩ :=
  and_congr (Xrp.settled_iff base A) (Eth.settled_iff receipt C S B)

/-- A partial payment is credited in full, and payments that failed are credited. -/
theorem credits_not_settled :
    (∃ w, Exec (env (.clear (Xrp.oneResult Xrp.partialPayment))) Xrp.scanXRP (Xrp.process "R")
      (.done ()) w ∧
      ¬ Xrp.Settled (.clear (Xrp.oneResult Xrp.partialPayment)) "R" (Xrp.process "R") w) ∧
    (∃ w, Exec (env (.clear (Xrp.oneResult Xrp.failedPayment))) Xrp.scanXRP (Xrp.process "R")
      (.done ()) w ∧
      ¬ Xrp.Settled (.clear (Xrp.oneResult Xrp.failedPayment)) "R" (Xrp.process "R") w) ∧
    ∃ w, Exec (env (.clear (Eth.oneTran (Eth.transfer "0xc" "0xa")))) Eth.scanETH
      (Eth.process [] [("0XA", 2)]) (.done ()) w ∧
      ¬ Eth.Settled (.clear (Eth.oneTran (Eth.transfer "0xc" "0xa"))) Eth.failed [] [("0XA", 2)]
        (Eth.process [] [("0XA", 2)]) w := by
  have hpartial : Xrp.Deposits "R" Xrp.partialPayment "tx" "1000000" :=
    ⟨rfl, rfl, rfl, rfl, ⟨_, rfl⟩, rfl, rfl⟩
  have hfailed : Xrp.Deposits "R" Xrp.failedPayment "tx" "1000000" :=
    ⟨rfl, rfl, rfl, rfl, ⟨_, rfl⟩, rfl, rfl⟩
  have htransfer : Eth.Deposits [] [("0XA", 2)] (Eth.transfer "0xc" "0xa") "0x1" 1 :=
    .native (Eth.native_transfer "0xc" "0xa") (by decide) (f := 1) (by decide) (by decide)
  obtain ⟨w₁, hx₁, h₁⟩ := Xrp.exec_oneResult (by decide) hpartial
  obtain ⟨w₂, hx₂, h₂⟩ := Xrp.exec_oneResult (by decide) hfailed
  obtain ⟨w₃, hx₃, h₃⟩ := Eth.exec_oneTran Eth.failed htransfer
  refine ⟨⟨w₁, hx₁, fun h => ?_⟩, ⟨w₂, hx₂, fun h => ?_⟩, w₃, hx₃, fun h => ?_⟩
  · obtain ⟨m, hm, -, hdelivered⟩ := h₁ h
    cases hm
    have heq : some (Json.str "1") = some (Json.str "1000000") := hdelivered
    simp at heq
  · obtain ⟨m, hm, hresult, -⟩ := h₂ h
    cases hm
    simp at hresult
  · exact absurd (congrArg Eth.Receipt.status (h₃ h)) (by decide)

end OpenWallet.Monitor
