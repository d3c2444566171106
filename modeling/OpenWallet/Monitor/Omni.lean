import OpenWallet.Monitor.Syncer

/-!
`Syncer::scanOMNI_USDT`: the valid Omni transactions that touch a watched address.
-/

namespace OpenWallet.Monitor.Omni

open Lib Prog

/-- Which of two ends a row is written for, and its flag: both watched is a transfer inside
the wallet, the receiver alone a deposit, the sender alone a withdrawal. -/
def classify (s_address_id : List (String × ℤ)) («from» «to» : String) : Option (ℕ × String) :=
  if (s_address_id.lookup «from»).isSome ∧ (s_address_id.lookup «to»).isSome then
    some (2, «from»)
  else if (s_address_id.lookup «to»).isSome then some (0, «to»)
  else if (s_address_id.lookup «from»).isSome then some (1, «from»)
  else none

/-- The address, the amount and the flag kept of a transaction. -/
def transfer (s_address_id : List (String × ℤ)) (json_txinfo : Json) :
    Except Exn (Option (String × String × ℕ)) := do
  if !(← (← json_txinfo.field "valid").getBool) then
    return none
  let sendingaddress ← (← json_txinfo.field "sendingaddress").getStr
  let referenceaddress ← (← json_txinfo.field "referenceaddress").getStr
  let amount ← (← json_txinfo.field "amount").getStr
  match classify s_address_id sendingaddress referenceaddress with
  | none => return none
  | some (flag, address) => return some (address, amount, flag)

/-- What is kept of an `omni_gettransaction` response. -/
def detail (s_address_id : List (String × ℤ)) (json_response : Json) :
    Except Exn (Option (String × String × ℕ)) := do
  let json_txinfo ← json_response.field "result"
  if json_txinfo.empty then return none
  else transfer s_address_id json_txinfo

/-- One transaction; a failed request ends the loop over the block, and only that. -/
def scanTx (node : NodeInfo) (coin_id : ℤ) (height : ℕ) (json_tx : Json) (j : ℕ) :
    Scan (Flow × String) := do
  let txid ← json_tx.getStr
  match ← callRpc node.node_url node.node_auth
      (structRpc "omni_gettransaction" (.arr [.str txid])) with
  | .ok json_response =>
    let v ← get
    match ← detail v.s_address_id_omni_usdt json_response with
    | none => pure (.next, txid)
    | some (address, amount, flag) =>
      push_back (.txutxo ⟨txid, 0, address, amount, some flag, ⟨coin_id, height, j, 0, 0⟩⟩)
      callbackTransaction (callback "address" amount "OMNI_USDT" 0 address txid true)
      pure (.next, txid)
  | _ => pure (.brk, txid)

/-- The transactions of a block that has some. -/
def transactions (json_response : Json) : Except Exn (Option (List Json)) := do
  let json_txs ← json_response.field "result"
  if json_txs.empty then return none
  else return some (← json_txs.elems)

/-- One block; a block without Omni transactions is left before the checkpoint. -/
def scanBlock (node : NodeInfo) (coin_id : ℤ) (height i : ℕ) (txid : String) :
    Scan (Flow × String) := do
  match ← callRpc node.node_url node.node_auth
      (structRpc "omni_listblocktransactions" (.arr [.int i])) with
  | .ok json_response =>
    match ← transactions json_response with
    | none => pure (.next, txid)
    | some json_txs =>
      let r ← loop (fun (json_tx, j) _ => scanTx node coin_id i json_tx j) json_txs.zipIdx txid
      if i % 100 = 0 ∨ i = height then
        push_back (.block ⟨coin_id, r.2, i⟩)
        refreshDB
      pure (.next, r.2)
  | _ => pure (.brk, txid)

/-- The number of blocks; nothing is scanned on a response without one. -/
def blockCount (json_response : Json) : Except Exn ℕ := do
  let result ← json_response.field "result"
  if result.empty then return 0
  else result.getUInt64

def scanOMNI_USDT : Scan Unit := do
  match ← getCurrentHeight "USDT" with
  | none => pure ()
  | some (coin_id, pre_height) =>
    let v ← get
    match v.map_coinid_node_.lookup coin_id with
    | none => pure ()
    | some node_btc =>
      match ← callRpc node_btc.node_url node_btc.node_auth
          (structRpc "getblockcount" (.arr [])) with
      | .ok json_response =>
        let height ← blockCount json_response
        let _ ← loop (fun i txid => scanBlock node_btc coin_id height i txid)
          (List.range' (pre_height + 1) (height - pre_height)) ""
      | _ => pure ()

end OpenWallet.Monitor.Omni
