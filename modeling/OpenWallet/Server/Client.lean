import OpenWallet.Server.World

/-!
`ClientRpc::init` and `ClientRpc::getNewAddress`, which fills the pool of accounts of a coin,
with what they call: the creation of addresses by a node, by the Python wallet and by a node
that only proposes a wallet, and the key store.
-/

namespace OpenWallet.Server

open Lib Prog
open Monitor (NodeInfo)

/-- A transfer that fails leaves the response as it was, which is null. -/
def CallNodeRPC (strMethod : String) (params : Json) (url auth : String) : Srv (Bool × Json) := do
  match ← curl ⟨url, auth, structRpc strMethod params⟩ with
  | .down => pure (false, .null)
  | .garbage => raise .parseError
  | .body json_response => pure (true, json_response)

structure Account where
  address : String
  publicKey : String
  privateKey : String

/-- `ETHAPI::getResult` inside the `try` of `createAccount`: an exception is a failure, and
leaves the members that were assigned before it. -/
def getResult (pyResp : PyResp) (response : Account) : Bool × Account :=
  match pyResp with
  | .null | .garbage => (false, response)
  | .reply json_reply data =>
    match json_reply.field "code" >>= Json.getInt with
    | .ok 0 =>
      match json_reply.field "data" >>= Json.getStr, data with
      | .ok _, some json_account =>
        match json_account.field "address" >>= Json.getStr with
        | .error _ => (false, response)
        | .ok address =>
          let response := { response with address := address }
          match json_account.field "publicKey" >>= Json.getStr with
          | .error _ => (false, response)
          | .ok publicKey =>
            let response := { response with publicKey := publicKey }
            match json_account.field "privateKey" >>= Json.getStr with
            | .error _ => (false, response)
            | .ok privateKey => (true, { response with privateKey := privateKey })
      | _, _ => (false, response)
    | _ => (false, response)

/-- `ETHAPI::createAccount` -/
def createAccount (response : Account) : Srv (Bool × Account) := do
  return getResult (← pyCreateAccount) response

/-- The result, and what the address and the key hold afterwards. -/
def createAddressOffline (node : NodeInfo) (address privkey : String) :
    Srv (Bool × String × String) := do
  if node.node_id = 2 then
    -- a failure sets the result to false, and the last line sets it to true again
    let (_, account) ← createAccount ⟨"", "", ""⟩
    return (true, account.address, account.privateKey)
  else if node.node_id = 3 then
    let (ok, json_reply) ← CallNodeRPC "wallet_propose" (.arr []) node.node_url node.node_auth
    if !ok then
      return (false, address, privkey)
    let result ← json_reply.field "result"
    let address ← (← result.field "account_id").getStr
    let privkey ← (← result.field "master_seed").getStr
    return (true, address, privkey)
  else
    return (false, address, privkey)

def createAddressLocalChain (node : NodeInfo) (address : String) : Srv (Bool × String) := do
  if node.node_id = 1 ∨ node.node_id = 5 then
    let (ok, json_reply) ← CallNodeRPC "getnewaddress" (.arr [.str "", .str "legacy"])
      node.node_url node.node_auth
    if !ok then
      return (false, address)
    let address ← (← json_reply.field "result").getStr
    return (true, address)
  else
    return (false, address)

def setPrivateKey (address private_key : String) : Srv Bool := do
  if !(← openWallet) then
    return false
  putWallet address private_key

/-! ### `ClientRpc::getNewAddress` -/

/-- `int account_id = max_account_id + i + 1` -/
def newId (max_account_id i : ℕ) : ℤ := Int.bmod (max_account_id + i + 1) (2 ^ 32)

def newRow (coin_id : ℤ) (max_account_id i : ℕ) (address tag : String) : AccountRow :=
  ⟨newId max_account_id i, coin_id, some address, some tag⟩

/-- `max_xrp_tag_ ++` and `max_eos_tag_ ++` -/
def next (tag : ℕ) : ℕ := (tag + 1) % 2 ^ 32

/-- The loops for BTC and USDT. -/
def newLocal (tag : String) (node : NodeInfo) (coin_id : ℤ) (max_account_id address_quantity : ℕ) :
    Srv (List AccountRow) := do
  let r ← loop (fun i (address, vect_sql) => do
    let (ok, address) ← createAddressLocalChain node address
    if ok then
      pure (.next, address, vect_sql ++ [newRow coin_id max_account_id i address tag])
    else pure (.next, address, vect_sql)) (List.range address_quantity) ("", [])
  return r.2.2

def newETH (node : NodeInfo) (coin_id : ℤ) (max_account_id address_quantity : ℕ) :
    Srv (List AccountRow) := do
  let r ← loop (fun i (address, privkey, vect_sql) => do
    let (ok, address, privkey) ← createAddressOffline node address privkey
    if ok then
      if !(← setPrivateKey address privkey) then
        pure (.next, address, privkey, vect_sql)
      else
        pure (.next, address, privkey,
          vect_sql ++ [newRow coin_id max_account_id i address "ETH"])
    else pure (.next, address, privkey, vect_sql)) (List.range address_quantity) ("", "", [])
  return r.2.2.2

def newXRP (node : NodeInfo) (coin_id : ℤ) (max_account_id address_quantity : ℕ) :
    Srv (List AccountRow) := do
  let r ← loop (fun i (address, privkey, vect_sql) => do
    let v ← get
    if v.max_xrp_tag_ = 0 then
      let (ok, address, privkey) ← createAddressOffline node address privkey
      if !ok then
        return (.brk, address, privkey, vect_sql)
      if !(← setPrivateKey address privkey) then
        return (.brk, address, privkey, vect_sql)
      modify fun v => { v with xrp_base_address_ := address, max_xrp_tag_ := next v.max_xrp_tag_ }
      let v ← get
      return (.next, address, privkey, vect_sql ++
        [newRow coin_id max_account_id i v.xrp_base_address_ (toString v.max_xrp_tag_)])
    else
      if v.xrp_base_address_ = "" then
        return (.brk, address, privkey, vect_sql)
      modify fun v => { v with max_xrp_tag_ := next v.max_xrp_tag_ }
      let v ← get
      return (.next, address, privkey, vect_sql ++
        [newRow coin_id max_account_id i v.xrp_base_address_ (toString v.max_xrp_tag_)]))
    (List.range address_quantity) ("", "", [])
  return r.2.2.2

def newEOS (coin_id : ℤ) (max_account_id address_quantity : ℕ) : Srv (List AccountRow) := do
  let r ← loop (fun i vect_sql => do
    let v ← get
    if v.eos_base_address_ = "" then
      return (.brk, vect_sql)
    modify fun v => { v with max_eos_tag_ := next v.max_eos_tag_ }
    let v ← get
    return (.next, vect_sql ++
      [newRow coin_id max_account_id i v.eos_base_address_ (toString v.max_eos_tag_)]))
    (List.range address_quantity) []
  return r.2

/-- The rows for the node of the coin; no batch is run for a node that is none of these. -/
def newRows (node : NodeInfo) (coin_id : ℤ) (max_account_id address_quantity : ℕ) :
    Srv (Option (List AccountRow)) := do
  if node.node_id = 1 then
    return some (← newLocal "BTC" node coin_id max_account_id address_quantity)
  else if node.node_id = 2 then
    return some (← newETH node coin_id max_account_id address_quantity)
  else if node.node_id = 3 then
    return some (← newXRP node coin_id max_account_id address_quantity)
  else if node.node_id = 4 then
    return some (← newEOS coin_id max_account_id address_quantity)
  else if node.node_id = 5 then
    return some (← newLocal "USDT" node coin_id max_account_id address_quantity)
  else
    return none

/-- The three numbers of the count query. -/
def countsOf (json_data : Json) : Except Exn (ℕ × ℕ × ℕ) := do
  let count_user ← (← (← json_data.idx 0).idx 0).getUInt64
  let count_account ← (← (← json_data.idx 1).idx 0).getUInt64
  let max_account_id ← (← (← json_data.idx 2).idx 0).getUInt64
  return (count_user, count_account, max_account_id)

/-- `count_account - count_user`, of two `size_t` -/
def unassigned (count_account count_user : ℕ) : ℕ :=
  (count_account + (2 ^ 64 - count_user)) % 2 ^ 64

def getNewAddress (coin_name : String) (address_quantity : ℕ) : Srv Bool := do
  if !(← openDB) then
    return false
  let v ← get
  match v.s_coinName_coinid_.lookup coin_name with
  | none => return false
  | some coin_id =>
    match v.s_coinid_NodeInfo_.lookup coin_id with
    | none => return false
    | some node =>
      let json_data ← getData (.counts coin_id) [.INT]
      if json_data.size ≤ 2 then
        closeDB
        return false
      let (count_user, count_account, max_account_id) ← countsOf json_data
      if unassigned count_account count_user ≥ address_quantity then
        closeDB
        return true
      match ← newRows node coin_id max_account_id address_quantity with
      | none => pure ()
      | some vect_sql => batchRefreshDB vect_sql
      closeDB
      return true

def initNodes : Srv Unit := do
  let json_datas ← getData .nodes [.INT, .STRING, .STRING, .STRING, .STRING, .STRING, .INT]
  forEach (fun row => do
    let coin_id ← (← row.idx 6).getInt
    let node_id ← (← row.idx 0).getInt
    let short_name ← (← row.idx 1).getStr
    let node_url ← (← row.idx 2).getStr
    let node_auth ← (← row.idx 3).getStr
    let wallet_url ← (← row.idx 4).getStr
    let wallet_auth ← (← row.idx 5).getStr
    modify fun v => { v with
      s_coinName_coinid_ := (short_name, coin_id) :: v.s_coinName_coinid_
      s_coinid_NodeInfo_ := (coin_id, ⟨node_id, node_url, node_auth, wallet_url, wallet_auth⟩) ::
        v.s_coinid_NodeInfo_ }) (← json_datas.elems)

def initTokens : Srv Unit := do
  let json_datas ← getData .tokens [.INT, .INT, .STRING, .STRING, .INT]
  forEach (fun row => do
    let token_id ← (← row.idx 1).getInt
    let coin_id ← (← row.idx 0).getInt
    let short_name ← (← row.idx 2).getStr
    let contract ← (← row.idx 3).getStr
    let decimal ← (← row.idx 4).getInt
    modify fun v => { v with
      s_tokenid_TokenInfo_ := (token_id, ⟨coin_id, token_id, short_name, contract, decimal⟩) ::
        v.s_tokenid_TokenInfo_
      s_tokenid_coinid_ := (token_id, coin_id) :: v.s_tokenid_coinid_
      s_tokenName_tokenid_ := (short_name, token_id) :: v.s_tokenName_tokenid_ })
    (← json_datas.elems)

/-- The tag and the address of the last account of a coin, if it has one. -/
def lastAccount (coin_id : ℤ) : Srv (Option (ℕ × String)) := do
  let json_datas ← getData (.lastAccount coin_id) [.STRING, .STRING]
  if json_datas.size > 0 then
    let row ← json_datas.idx 0
    let tag ← Text.stoul (← (← row.idx 0).getStr)
    let address ← (← row.idx 1).getStr
    return some (tag % 2 ^ 32, address)
  else return none

def initXRP : Srv Unit := do
  let v ← get
  match v.s_coinName_coinid_.lookup "XRP" with
  | none => pure ()
  | some coin_id =>
    match ← lastAccount coin_id with
    | none => pure ()
    | some (tag, address) =>
      if tag > 0 then
        modify fun v => { v with max_xrp_tag_ := tag, xrp_base_address_ := address }
      else
        modify fun v => { v with max_xrp_tag_ := 0, xrp_base_address_ := "" }

def initEOS : Srv Bool := do
  let v ← get
  match v.s_coinName_coinid_.lookup "EOS" with
  | none => return true
  | some coin_id =>
    match ← lastAccount coin_id with
    | none => return false
    | some (tag, address) =>
      modify fun v => { v with max_eos_tag_ := tag, eos_base_address_ := address }
      return true

def init (g_json_config : Json) : Srv Bool := do
  if !(← openDB) then
    return false
  let fee_address_omni ← g_json_config.field "fee_address_omni"
  if fee_address_omni.is_null then
    return false
  let fee_address_omni ← fee_address_omni.getStr
  modify fun v => { v with fee_address_omni_ := fee_address_omni }
  let eos_public_key ← g_json_config.field "eos_public_key"
  if eos_public_key.is_null then
    return false
  let eos_public_key ← eos_public_key.getStr
  modify fun v => { v with eos_public_key_ := eos_public_key }
  initNodes
  initTokens
  initXRP
  let ret ← initEOS
  closeDB
  return ret

end OpenWallet.Server
