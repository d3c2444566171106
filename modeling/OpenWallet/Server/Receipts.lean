import OpenWallet.Lib.Answers
import OpenWallet.Server.Payments

/-!
What a transfer that is reported as a success has sent. The calls of the server are taken
together with those that the Python wallet makes of its node, and every call may be answered in
any way.
-/

namespace OpenWallet.Server

open Lib Prog
open Monitor (NodeInfo)

/-- A call of the server, or one of the Python wallet. -/
inductive Joint
  | server (o : Op)
  | eth (o : Web3.Op)

abbrev Joint.Ans : Joint → Type
  | .server o => Server.Ans o
  | .eth o => Web3.Ans o

abbrev Hist := List (Event Joint.Ans)

def ethEvent (e : Event Web3.Ans) : Event Joint.Ans := ⟨.eth e.1, e.2⟩

/-- A method of the Python wallet is called. An exception that leaves it gives no object. -/
def python {α : Type} (k : PyResp → Prog Joint.Ans Exn α) : Web3.Py PyResp → Prog Joint.Ans Exn α
  | ret a => k a
  | raise _ => k .null
  | .call o f => .call (.eth o) fun r => python k (f r)

/-- A program of the server in which signing is what the Python wallet does. -/
def signing {α : Type} (web3 : Web3.Package) : Srv α → Prog Joint.Ans Exn α
  | ret a => ret a
  | raise e => raise e
  | .call (.offlineSign privkey «to» amount fee) k =>
    python (fun r => signing web3 (k r)) (Web3.offlineSign web3 privkey «to» amount fee)
  | .call (.offlineSignERC20 privkey «to» contractAddr amount fee decimals) k =>
    python (fun r => signing web3 (k r))
      (Web3.offlineSignERC20 web3 privkey «to» contractAddr amount fee decimals)
  | .call o k => .call (.server o) fun r => signing web3 (k r)

/-- The method of a call of a node. -/
def method (r : Request) : Option Json := r.data.find? "method"

/-- `json_reply["result"].get<std::string>()` -/
def resultText (json_reply : Json) : Except Exn String := do
  (← json_reply.field "result").getStr

/-- `json_reply["result"][key].get<std::string>()` -/
def resultField (json_reply : Json) (key : String) : Except Exn String := do
  (← (← json_reply.field "result").field key).getStr

/-- `json_reply["result"]["tx_json"]["hash"].get<std::string>()` -/
def resultHash (json_reply : Json) : Except Exn String := do
  (← (← (← json_reply.field "result").field "tx_json").field "hash").getStr

/-- The node has accepted a broadcast, and this is the identifier of the transaction. A reply with
an error has no text as its result. -/
def Accepted (txid : String) : Event Joint.Ans → Prop
  | ⟨.server (.curl r), .body json_reply⟩ =>
    (method r = some (.str "sendrawtransaction") ∧ resultText json_reply = .ok txid) ∨
    (method r = some (.str "submit") ∧ resultField json_reply "status" ≠ .ok "error" ∧
      resultField json_reply "engine_result" = .ok "tesSUCCESS" ∧
      resultHash json_reply = .ok txid) ∨
    ((∃ node, r.url = curl_base_chain node ++ "push_transaction") ∧
      json_reply.find? "error" = none ∧
      (json_reply.field "transaction_id" >>= Json.getStr) = .ok txid) ∨
    (method r = some (.str "omni_funded_send") ∧ resultText json_reply = .ok txid)
  | ⟨.eth (.sendRawTransaction _), .ok data⟩ => data = txid
  | _ => False

/-- The response has the identifier of a transaction whose broadcast was accepted. -/
def Receipt (h : Hist) (json_response : Json) : Prop :=
  ∃ txid, json_response.find? "txid" = some (.str txid) ∧ ∃ e ∈ h, Accepted txid e

section

variable {web3 : Web3.Package} {α β : Type} {h : Hist} {P : Hist → α → Prop} {P' : Hist → β → Prop}

lemma python_bind (p : Web3.Py PyResp) (k : PyResp → Prog Joint.Ans Exn α)
    (f : α → Prog Joint.Ans Exn β) : python k p >>= f = python (fun r => k r >>= f) p := by
  induction p with
  | ret | raise => rfl
  | call o g ih => exact congrArg (Prog.call (Joint.eth o)) (funext ih)

lemma signing_bind (p : Srv α) (f : α → Srv β) :
    signing web3 (p >>= f) = signing web3 p >>= fun a => signing web3 (f a) := by
  induction p with
  | ret | raise => rfl
  | call o k ih =>
    cases o with
    | offlineSign | offlineSignERC20 =>
      simp only [call_bind, signing, python_bind, ih]
    | _ => exact congrArg (Prog.call (Joint.server _)) (funext ih)

variable (web3) in
/-- After the calls `h`, the program of the server returns only values in `P`. What it throws is
reported as a failure. -/
abbrev Comes (P : Hist → α → Prop) (h : Hist) (p : Srv α) : Prop :=
  Always P (fun _ _ => True) h (signing web3 p)

section

variable {f : PyResp → Srv β} {Q : List (Event Web3.Ans) → PyResp → Prop} {privkey «to» : String}
  {amount fee : Double} {contractAddr : String} {decimals : ℤ}

end

end

section

variable {S : Hist → Prop} {h : Hist} {j : Json}

end

section

variable {web3 : Web3.Package} {h : Hist} {node : NodeInfo} {json_request : Json}

end

section

variable {web3 : Web3.Package} {h h' : Hist} {node : NodeInfo} {json_request : Json}

end

/-! ### The Python wallet -/

section

variable {web3 : Web3.Package} {hp l : List (Event Web3.Ans)} {fee : Double}

variable {privkey «to» contractAddr : String} {amount : Double} {decimals : ℤ}

end

/-! ### Ether and its tokens -/

section

variable {web3 : Web3.Package} {h : Hist} {json_request : Json}

end

/-! ### USDT on Omni -/

section

variable {web3 : Web3.Package} {h h' : Hist} {node : NodeInfo} {tokenInfo : TokenInfo}
  {json_request : Json} {«from» «to» : String} {balance fee total : Double}

lemma method_call (strMethod : String) (params : Json) :
    method (call node strMethod params) = some (.str strMethod) := rfl

end

/-! ### `ClientRpc::transfer` -/

section

variable {web3 : Web3.Package} {v : Vars} {coin_name : String} {is_token : Bool}
  {json_request : Json} {h : Hist} {expires : String → String}

end

end OpenWallet.Server
