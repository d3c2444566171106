import OpenWallet.Monitor.Syncer

/-!
`Syncer::scanETH`: the native transfers and the calls of the watched contract in every block up
to the pending one.
-/

namespace OpenWallet.Monitor.Eth

open Lib Prog

/-- What is kept of a transaction: the parts of its two rows and of its notification. -/
structure Credit where
  token_id : ℤ
  coinCode : String
  txid : String
  vin : String
  vout : String
  value : String
  fee : String
  flag : ℕ
  address : String
  type : Bool

def watched (s_address_id_eth : List (String × ℤ)) (address : String) : Bool :=
  (s_address_id_eth.lookup address).isSome

def fee (json_tran : Json) : Except Exn ℤ := do
  let gas ← (← json_tran.field "gas").getStr
  let gas_price ← (← json_tran.field "gasPrice").getStr
  return (← Text.mpz gas) * (← Text.mpz gas_price)

/-- A call of the watched contract. The receiver is cut out of the input at a fixed place, the
amount at a place counted from the end. -/
def erc20 (contracts S : List (String × ℤ)) (txid «from» : String) (json_tran : Json) :
    Except Exn (Option Credit) := do
  let contract := Text.toupper (← (← json_tran.field "to").getStr)
  match contracts.lookup contract with
  | none => return none
  | some token_id =>
    let fee ← fee json_tran
    let input ← (← json_tran.field "input").getStr
    let method ← Text.substr input 0 10
    if method ≠ "0xa9059cbb" ∨ input.toList.length < 135 then
      return none
    let «to» := Text.toupper ("0x" ++ (← Text.substr input 34 40))
    if !watched S «from» ∧ !watched S «to» then
      return none
    let (flag, address) := if watched S «from» ∧ watched S «to» then (2, «from»)
      else if watched S «to» then (0, «to») else (1, «from»)
    let amount ← Text.mpz ("0x" ++ (← Text.substr input (input.toList.length - 41) 40))
    return some ⟨token_id, "ERC20_USDT", txid, «from», «to», toString amount, toString fee, flag,
      address, true⟩

/-- A native transfer. The second test is no `else` of the first, so that a transfer inside
the wallet is classified as a deposit. -/
def native (S : List (String × ℤ)) (txid «from» value : String) (json_tran : Json) :
    Except Exn (Option Credit) := do
  let «to» := Text.toupper (← (← json_tran.field "to").getStr)
  if !watched S «from» ∧ !watched S «to» then
    return none
  let (flag, address) := if watched S «to» then (0, «to») else (1, «from»)
  let fee ← fee json_tran
  let amount ← Text.mpz value
  return some ⟨0, "ETH", txid, «from», «to», toString amount, toString fee, flag, address, false⟩

/-- The hash of a transaction with both ends, and what is kept of it. -/
def credit (contracts S : List (String × ℤ)) (json_tran : Json) :
    Except Exn (Option (String × Option Credit)) := do
  if (← json_tran.field "to").is_null ∨ (← json_tran.field "from").is_null then
    return none
  let value ← (← json_tran.field "value").getStr
  let «from» ← (← json_tran.field "from").getStr
  let txid ← (← json_tran.field "hash").getStr
  let «from» := Text.toupper «from»
  if value = "0x0" then return some (txid, ← erc20 contracts S txid «from» json_tran)
  else return some (txid, ← native S txid «from» value json_tran)

def Credit.txaccount (c : Credit) (coin_id : ℤ) (src : Src) : Txaccount :=
  ⟨coin_id, c.token_id, c.txid, c.vin, c.vout, c.value, c.fee, src⟩

def Credit.txutxo (c : Credit) (src : Src) : Txutxo :=
  ⟨c.txid, 0, c.address, c.value, some c.flag, src⟩

def Credit.notice (c : Credit) : Json :=
  callback "address" c.value c.coinCode 0 c.address c.txid c.type

def scanTran (coin_id : ℤ) (height : ℕ) (json_tran : Json) (j : ℕ) (txid : String) :
    Scan String := do
  let v ← get
  match ← credit v.s_ethcontranct_tokenid v.s_address_id_eth json_tran with
  | none => pure txid
  | some (txid, none) => pure txid
  | some (txid, some c) =>
    callbackTransaction c.notice
    push_back (.txaccount (c.txaccount coin_id ⟨coin_id, height, j, 0, 0⟩))
    push_back (.txutxo (c.txutxo ⟨coin_id, height, j, 0, 0⟩))
    pure txid

def scanTrans (coin_id : ℤ) (height : ℕ) (json_trans : List Json) : Scan (Flow × String) :=
  loop (fun (json_tran, j) txid => do
    let txid ← scanTran coin_id height json_tran j txid
    pure (.next, txid)) json_trans.zipIdx ""

def getBlockByNumber (number : String) : Json :=
  structRpc "eth_getBlockByNumber" (.arr [.str number, .bool true])

/-- The transactions of a response with a result; a result that is null has none. -/
def transactions (json_response : Json) : Except Exn (Option (List Json)) := do
  match json_response.find? "result" with
  | none => return none
  | some result => return some (← (← result.field "transactions").elems)

/-- One block, by the text of its number. -/
def scanBlock (node : NodeInfo) (coin_id : ℤ) (height i : ℕ) (hex_height : String) :
    Scan Flow := do
  match ← callRpc node.node_url node.node_auth (getBlockByNumber ("0x" ++ hex_height)) with
  | .ok json_response =>
    match ← transactions json_response with
    | none => pure .next
    | some json_trans =>
      let r ← scanTrans coin_id i json_trans
      if i % 500 = 0 ∧ i = height then
        push_back (.block ⟨coin_id, r.2, i⟩)
        refreshDB
      pure .next
  | _ => pure .brk

/-- The number of the pending block, as it is written. -/
def pendingNumber (json_response : Json) : Except Exn (Option String) := do
  match json_response.find? "result" with
  | none => return none
  | some result => return some (← (← result.field "number").getStr)

def scanETH : Scan Unit := do
  match ← getCurrentHeight "ETH" with
  | none => pure ()
  | some (coin_id, pre_height) =>
    let v ← get
    match v.map_coinid_node_.lookup coin_id with
    | none => pure ()
    | some node_eth =>
      match ← callRpc node_eth.node_url node_eth.node_auth (getBlockByNumber "pending") with
      | .ok json_response =>
        match ← pendingNumber json_response with
        | none => pure ()
        | some hex_number =>
          let height := (Text.readHex hex_number).1
          -- what the number leaves in the stream comes out in front of the first height
          let _ ← loop (fun i ss => do
            let (hex_height, ss) := Text.word (ss ++ Text.hex i)
            let fl ← scanBlock node_eth coin_id height i hex_height
            pure (fl, ss)) (List.range' (pre_height + 1) (height - pre_height))
            (Text.readHex hex_number).2
      | _ => pure ()

end OpenWallet.Monitor.Eth
