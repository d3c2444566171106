import OpenWallet.Monitor.Syncer

/-!
`Syncer::scanEOS`: the actions of every transaction of every block. The scan always starts at
the block after 56264; the line that started it after the stored height is commented out.
-/

namespace OpenWallet.Monitor.Eos

open Lib Prog

/-- The block the scan starts after. -/
def start : ℕ := 56264

/-- The quantity and the flag kept of an action. The flag stays unset where neither end is
the base address. -/
def action (eos_base_address_ : String) (json_action : Json) :
    Except Exn (Option (String × Option ℕ)) := do
  match json_action.find? "data" with
  | none => return none
  | some json_data =>
    if (json_data.find? "from").isNone ∧ (json_data.find? "to").isNone then
      return none
    let «from» ← (← json_data.field "from").getStr
    let «to» ← (← json_data.field "to").getStr
    let quantity ← (← json_data.field "quantity").getStr
    let flag := if eos_base_address_ = «to» then some 0
      else if eos_base_address_ = «from» then some 1 else none
    match Text.before " EOS".toList quantity.toList with
    | none => return none
    | some cs => return some (String.ofList cs, flag)

/-- Whether a response carries an error that is not empty. -/
def failed (json_response : Json) : Bool :=
  match json_response.find? "error" with
  | some json_error => !json_error.empty
  | none => false

/-- The actions of a `get_transaction` response, where it has some. -/
def actions (json_response : Json) : Except Exn (Option (List Json)) := do
  if failed json_response then return none
  match ((json_response.find? "trx").bind (·.find? "trx")).bind (·.find? "actions") with
  | none => return none
  | some json_actions => return some (← json_actions.elems)

def scanAction (coin_id : ℤ) (height j : ℕ) (trx : String) (json_action : Json) (k : ℕ) :
    Scan Unit := do
  let v ← get
  match ← action v.eos_base_address_ json_action with
  | none => pure ()
  | some (quantity, flag) =>
    push_back (.txutxo ⟨trx, 0, v.eos_base_address_, quantity, flag,
      ⟨coin_id, height, j, k, 0⟩⟩)
    callbackTransaction (callback "toAddress" quantity "EOS" 0 v.eos_base_address_ trx false)

/-- The identifier of a transaction of a block. -/
def id? (json_transaction : Json) : Option Json :=
  (json_transaction.find? "trx").bind (·.find? "id")

/-- One transaction; a failed request ends the loop over the block, and only that. -/
def scanTrx (node : NodeInfo) (coin_id : ℤ) (height : ℕ) (json_transaction : Json) (j : ℕ)
    (trx : String) : Scan (Flow × String) := do
  match id? json_transaction with
  | none => pure (.next, trx)
  | some json_id =>
    let trx ← json_id.getStr
    match ← callRpc ("http://" ++ node.node_url ++ "/v1/history/get_transaction")
        node.node_auth (.obj [("id", .str trx)]) with
    | .ok json_response =>
      match ← actions json_response with
      | none => pure (.next, trx)
      | some json_actions =>
        forEach (fun (json_action, k) => scanAction coin_id height j trx json_action k)
          json_actions.zipIdx
        pure (.next, trx)
    | _ => pure (.brk, trx)

/-- The transactions of a `get_block` response, where it has some. -/
def transactions (json_response : Json) : Except Exn (Option (List Json)) := do
  if failed json_response then return none
  match json_response.find? "transactions" with
  | none => return none
  | some json_transactions => return some (← json_transactions.elems)

def scanBlock (node : NodeInfo) (coin_id : ℤ) (height i : ℕ) : Scan Flow := do
  match ← callRpc ("http://" ++ node.node_url ++ "/v1/chain/get_block") node.node_auth
      (.obj [("block_num_or_id", .int i)]) with
  | .ok json_response =>
    match ← transactions json_response with
    | none => pure .next
    | some json_transactions =>
      let r ← loop (fun (json_transaction, j) trx =>
        scanTrx node coin_id i json_transaction j trx) json_transactions.zipIdx ""
      if i % 100 = 0 ∨ i = height then
        push_back (.block ⟨coin_id, r.2, i⟩)
        refreshDB
      pure .next
  | _ => pure .brk

/-- The last irreversible block; nothing is scanned on a response without one. -/
def lastIrreversible (json_response : Json) : Except Exn ℕ :=
  match json_response.find? "last_irreversible_block_num" with
  | none => return 0
  | some json_num => json_num.getUInt64

/-- The loop over the blocks after `start`. -/
def scanFrom (start : ℕ) (node : NodeInfo) (coin_id : ℤ) (last_irreversible_block_num : ℕ) :
    Scan Unit := do
  let _ ← loop (fun i (_ : Unit) => do
    let fl ← scanBlock node coin_id last_irreversible_block_num i
    pure (fl, ())) (List.range' (start + 1) (last_irreversible_block_num - start)) ()

def scanEOS : Scan Unit := do
  let v ← get
  if v.eos_base_address_ = "" then pure ()
  else
    match ← getCurrentHeight "EOS" with
    | none => pure ()
    | some (coin_id, _pre_height) =>
      let v ← get
      match v.map_coinid_node_.lookup coin_id with
      | none => pure ()
      | some node =>
        match ← callRpc ("http://" ++ node.node_url ++ "/v1/chain/get_info") node.node_auth
            (.obj []) with
        | .ok json_response =>
          let last_irreversible_block_num ← lastIrreversible json_response
          scanFrom start node coin_id last_irreversible_block_num
        | _ => pure ()

end OpenWallet.Monitor.Eos
