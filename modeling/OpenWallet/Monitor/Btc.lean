import OpenWallet.Monitor.Syncer

/-!
`Syncer::scanBTC`: block by block from the stored height, every transaction by its own request.
-/

namespace OpenWallet.Monitor.Btc

open Lib Prog

/-- Whether an input spends a transaction the scanner remembers. -/
def scanVins (json_vins : Json) : Scan Bool := do
  let r ← loop (fun json_vin vin => do
    match json_vin.find? "txid" with
    | none => pure (.next, vin)
    | some json_txid =>
      let pre_txid ← json_txid.getStr
      let v ← get
      if (v.s_txid_address.lookup pre_txid).isSome then pure (.brk, true)
      else pure (.next, vin)) (← json_vins.elems) false
  pure r.2

/-- What is done for one address of one output. The row of a watched address carries the
position of the address where the other one carries the number of the output. -/
def scanAddress (src : Src) (txid : String) (vin : Bool) (number : ℤ) (value : String)
    (json_address : Json) (n : ℕ) : Scan Unit := do
  let address ← json_address.getStr
  let v ← get
  if (v.s_address_id_btc.lookup address).isSome then
    if !vin then
      modify fun v => { v with s_txid_address := (txid, address) :: v.s_txid_address }
    push_back (.txutxo ⟨txid, n, address, value, some (if vin then 2 else 0), src⟩)
    callbackTransaction (callback "address" value "BTC" number address txid false)
  else if vin then
    push_back (.txutxo ⟨txid, number, address, value, some 1, src⟩)
    callbackTransaction (callback "address" value "BTC" number address txid false)

/-- The number, the value as it is stored, and the addresses of an output that has some. -/
def vout (json_vout : Json) : Except Exn (Option (ℤ × String × List Json)) := do
  let json_script ← json_vout.field "scriptPubKey"
  match json_script.find? "addresses" with
  | none => return none
  | some json_addresses =>
    let number ← (← json_vout.field "n").getInt
    let value ← (← json_vout.field "value").getDouble
    return some (number, Text.to_string (10000000 * value), ← json_addresses.elems)

def scanVout (coin_id : ℤ) (height j : ℕ) (txid : String) (vin : Bool) (json_vout : Json)
    (k : ℕ) : Scan Unit := do
  match ← vout json_vout with
  | none => pure ()
  | some (number, value, addresses) =>
    forEach (fun (json_address, n) =>
      scanAddress ⟨coin_id, height, j, k, n⟩ txid vin number value json_address n)
      addresses.zipIdx

/-- One transaction of a block; a failed request ends the loop, and with it the scan. -/
def scanTx (node : NodeInfo) (coin_id : ℤ) (height : ℕ) (json_tx : Json) (j : ℕ) :
    Scan Flow := do
  let txid ← json_tx.getStr
  match ← callRpc node.node_url node.node_auth
      (structRpc "getrawtransaction" (.arr [.str txid, .bool true])) with
  | .ok json_response =>
    let result ← json_response.field "result"
    let json_vins ← result.field "vin"
    let json_vouts ← result.field "vout"
    let vin ← scanVins json_vins
    forEach (fun (json_vout, k) => scanVout coin_id height j txid vin json_vout k)
      (← json_vouts.elems).zipIdx
    pure .next
  | _ => pure .brk

def scanBlock (node : NodeInfo) (coin_id : ℤ) (height i : ℕ) : Scan Flow := do
  match ← callRpc node.node_url node.node_auth (structRpc "getblockhash" (.arr [.int i])) with
  | .ok json_response =>
    let block_hash ← (← json_response.field "result").getStr
    match ← callRpc node.node_url node.node_auth
        (structRpc "getblock" (.arr [.str block_hash])) with
    | .ok json_response =>
      let json_txs ← (← json_response.field "result").field "tx"
      let r ← loop (fun (json_tx, j) (_ : Unit) => do
        let fl ← scanTx node coin_id i json_tx j
        pure (fl, ())) (← json_txs.elems).zipIdx ()
      match r.1 with
      | .brk => pure .brk
      | .next =>
        if i % 100 = 0 ∨ i = height then
          push_back (.block ⟨coin_id, block_hash, i⟩)
          refreshDB
        pure .next
    | _ => pure .brk
  | _ => pure .brk

def scanBTC : Scan Unit := do
  match ← getCurrentHeight "BTC" with
  | none => pure ()
  | some (coin_id, pre_height) =>
    let v ← get
    match v.map_coinid_node_.lookup coin_id with
    | none => pure ()
    | some node_btc =>
      match ← callRpc node_btc.node_url node_btc.node_auth
          (structRpc "getblockcount" (.arr [])) with
      | .ok json_response =>
        let height ← (← json_response.field "result").getUInt64
        let _ ← loop (fun i (_ : Unit) => do
          let fl ← scanBlock node_btc coin_id height i
          pure (fl, ())) (List.range' (pre_height + 1) (height - pre_height)) ()
      | _ => pure ()

end OpenWallet.Monitor.Btc
