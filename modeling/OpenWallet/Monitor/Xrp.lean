import OpenWallet.Monitor.Syncer

/-!
`Syncer::scanXRP`: the payments into and out of one base address, ledger by ledger.
-/

namespace OpenWallet.Monitor.Xrp

open Lib Prog

/-- What is kept of a payment. -/
structure Payment where
  hash : String
  amount : String
  flag : ℕ

/-- A response that is no success, or not of a validated ledger, is passed over. -/
def validated (json_response : Json) : Except Exn Bool := do
  let result ← json_response.field "result"
  let status ← (← result.field "status").getStr
  if status ≠ "success" then pure false
  else (← result.field "validated").getBool

/-- The hash of the payment of XRP a `tx` response holds, and what is kept of it where the base
address is one of its ends. -/
def payment (xrp_base_address_ : String) (json_response : Json) :
    Except Exn (Option (String × Option Payment)) := do
  if !(← validated json_response) then
    return none
  let result ← json_response.field "result"
  let transaction_type ← (← result.field "TransactionType").getStr
  if transaction_type ≠ "Payment" then
    return none
  let json_amount ← result.field "Amount"
  if json_amount.is_object then
    return none
  let amount ← json_amount.getStr
  let account ← (← result.field "Account").getStr
  let destination ← (← result.field "Destination").getStr
  let hash ← (← result.field "hash").getStr
  if xrp_base_address_ ≠ account ∧ xrp_base_address_ ≠ destination then
    return some (hash, none)
  return some (hash, some ⟨hash, amount, if xrp_base_address_ = destination then 0 else 1⟩)

/-- One transaction; a failed request ends the loop over the ledger, and only that. -/
def scanTx (node : NodeInfo) (coin_id : ℤ) (height : ℕ) (json_tx : Json) (j : ℕ)
    (hash : String) : Scan (Flow × String) := do
  let tx ← json_tx.getStr
  match ← callRpc node.node_url node.node_auth (structRpc "tx"
      (.arr [.obj [("binary", .bool false), ("transaction", .str tx)]])) with
  | .ok json_response =>
    let v ← get
    match ← payment v.xrp_base_address_ json_response with
    | none => pure (.next, hash)
    | some (hash, none) => pure (.next, hash)
    | some (hash, some p) =>
      push_back (.txutxo ⟨p.hash, 0, v.xrp_base_address_, p.amount, some p.flag,
        ⟨coin_id, height, j, 0, 0⟩⟩)
      callbackTransaction (callback "toAddress" p.amount "XRP" 0 v.xrp_base_address_ p.hash
        false)
      pure (.next, hash)
  | _ => pure (.brk, hash)

/-- The transactions of a ledger response that is a success. -/
def transactions (json_response : Json) : Except Exn (Option (List Json)) := do
  if ← validated json_response then
    let result ← json_response.field "result"
    return some (← (← (← result.field "ledger").field "transactions").elems)
  else return none

def scanBlock (node : NodeInfo) (coin_id : ℤ) (height i : ℕ) : Scan Flow := do
  match ← callRpc node.node_url node.node_auth (structRpc "ledger" (.arr [.obj
      [("binary", .bool true), ("ledger_index", .int i), ("transactions", .bool true)]])) with
  | .ok json_response =>
    match ← transactions json_response with
    | none => pure .next
    | some json_txs =>
      let r ← loop (fun (json_tx, j) hash => scanTx node coin_id i json_tx j hash)
        json_txs.zipIdx ""
      if i % 100 = 0 ∨ i = height then
        push_back (.block ⟨coin_id, r.2, i⟩)
        refreshDB
      pure .next
  | _ => pure .brk

/-- The last ledger; nothing is scanned on a response that is no success. -/
def ledgerIndex (json_response : Json) : Except Exn ℕ := do
  if ← validated json_response then
    (← (← json_response.field "result").field "ledger_index").getUInt64
  else return 0

def scanXRP : Scan Unit := do
  let v ← get
  if v.xrp_base_address_ = "" then pure ()
  else
    match ← getCurrentHeight "XRP" with
    | none => pure ()
    | some (coin_id, pre_height) =>
      let v ← get
      match v.map_coinid_node_.lookup coin_id with
      | none => pure ()
      | some node_xrp =>
        match ← callRpc node_xrp.node_url node_xrp.node_auth
            (structRpc "ledger" (.arr [.obj [("ledger_index", .str "validated")]])) with
        | .ok json_response =>
          let height ← ledgerIndex json_response
          let _ ← loop (fun i (_ : Unit) => do
            let fl ← scanBlock node_xrp coin_id height i
            pure (fl, ())) (List.range' (pre_height + 1) (height - pre_height)) ()
        | _ => pure ()

end OpenWallet.Monitor.Xrp
