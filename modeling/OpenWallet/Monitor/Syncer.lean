import OpenWallet.Monitor.World

/-!
What the scanners of `Syncer` share: reading rows, calling a node, notifying the callback
receiver, the SQL buffer, and `init`.
-/

namespace OpenWallet.Monitor

open Lib Prog

inductive DataType
  | INT
  | STRING

/-- A cell arrives as a C string, or as a null pointer. -/
def Cell.convert : DataType → Cell → Except Exn Json
  | _, .null => .error .logicError
  | .INT, .int z => if -2 ^ 31 ≤ z ∧ z < 2 ^ 31 then .ok (.int z) else .error .outOfRange
  | .INT, .text s => (Text.stoi s).map .int
  | .STRING, .int z => .ok (.str (toString z))
  | .STRING, .text s => .ok (.str s)

def rowData (col_type : List DataType) (row : List Cell) : Except Exn Json := do
  return .arr (← (col_type.zip row).mapM fun c => c.2.convert c.1)

/-- The rows as JSON; a failed query leaves `json_data` as it was, which is null. -/
def getData (q : Query) (col_type : List DataType) : Scan Json := do
  match ← Prog.op (Op.getData q) with
  | none => pure .null
  | some [] => pure .null
  | some (row :: rows) => lift (.arr <$> (row :: rows).mapM (rowData col_type))

/-- `RPC_OK`, `RPC_NODEDOWN` or `RPC_INTERNAL`, with the response. -/
inductive Reply
  | ok (json_response : Json)
  | nodedown
  | internal (json_response : Json)

/-- What `CurlPost` makes of an answer. Looking at `error` adds the key to the response. -/
def reply : Answer → Except Exn Reply
  | .down => .ok .nodedown
  | .garbage => .error .parseError
  | .body j => do
    let json_response ← j.touch "error"
    let error ← j.field "error"
    pure (if error.is_null then .ok json_response else .internal json_response)

def callRpc (url auth : String) (json_post : Json) : Scan Reply := do
  let answer ← curl ⟨url, auth, json_post⟩
  reply answer

/-- The `code` of the receiver, read also off a response that is an error or was never
written. -/
def code (answer : Answer) : Except Exn ℤ := do
  let json_response := match ← reply answer with
    | .ok j | .internal j => j
    | .nodedown => .null
  (← json_response.field "code").getInt

def callbackTransaction (json_params : Json) : Scan Unit := do
  let v ← get
  let answer ← curl ⟨v.callback_url_, "", json_params⟩
  let code ← code answer
  if code = 1 then
    modify fun v => { v with s_json_callback := v.s_json_callback ++ [json_params] }

def reCallback : Scan Unit := do
  let v ← get
  let r ← loop (fun json_params json_callback => do
    let answer ← curl ⟨v.callback_url_, "", json_params⟩
    let code ← code answer
    pure (.next, if code = 1 then json_callback ++ [json_params] else json_callback))
    v.s_json_callback []
  modify fun v => { v with s_json_callback := r.2 }

/-- The notification of a row. The scanners of a shared address name it `toAddress`. -/
def callback (key balance coinCode : String) (n : ℤ) (address txid : String) (type : Bool) :
    Json :=
  .obj [(key, .str address), ("balance", .str balance), ("coinCode", .str coinCode),
    ("n", .int n), ("status", .int 1), ("txid", .str txid), ("type", .bool type)]

def push_back (sql : Stmt) : Scan Unit :=
  modify fun v => { v with vect_sql_ := v.vect_sql_ ++ [sql] }

def refreshDB : Scan Unit := do
  let v ← get
  if v.vect_sql_.length > 0 then
    Prog.op (Op.batchRefreshDB v.vect_sql_)
    modify fun v => { v with vect_sql_ := [] }

def getCurrentHeight (coin : String) : Scan (Option (ℤ × ℕ)) := do
  let json_data ← getData (.height coin) [.INT, .INT]
  if json_data.size > 0 then
    let row ← json_data.idx 0
    let coin_id ← (← row.idx 0).getInt
    let height ← (← row.idx 1).getUInt64
    pure (some (coin_id, height))
  else pure none

/-- `assert` -/
def holds (b : Bool) : Scan Unit := if b then pure () else raise .assertion

def initNodes : Scan Unit := do
  let json_data ← getData .nodes [.INT, .INT, .STRING, .STRING, .STRING, .STRING]
  forEach (fun row => do
    let node_id ← (← row.idx 1).getInt
    let node_url ← (← row.idx 2).getStr
    let node_auth ← (← row.idx 3).getStr
    let wallet_url ← (← row.idx 4).getStr
    let wallet_auth ← (← row.idx 5).getStr
    let coin_id ← (← row.idx 0).getInt
    modify fun v => { v with map_coinid_node_ :=
      (coin_id, ⟨node_id, node_url, node_auth, wallet_url, wallet_auth⟩) ::
        v.map_coinid_node_ }) (← json_data.elems)

/-- Reads the base address of a coin: the address of the first group of rows. -/
def initBase (coin_id : ℤ) : Scan String := do
  let json_data ← getData (.baseAddress coin_id) [.STRING, .INT]
  let row ← json_data.idx 0
  let address ← (← row.idx 0).getStr
  let account_id ← (← row.idx 1).getInt
  holds (account_id > 0)
  pure address

def initContract : Scan Unit := do
  let json_data ← getData (.contract "ERC20_USDT") [.INT, .STRING]
  let row ← json_data.idx 0
  let contract ← (← row.idx 1).getStr
  let token_id ← (← row.idx 0).getInt
  modify fun v => { v with s_ethcontranct_tokenid :=
    (Text.toupper contract, token_id) :: v.s_ethcontranct_tokenid }

def initTxids : Scan Unit := do
  let json_data ← getData .txids [.STRING, .STRING]
  forEach (fun row => do
    let txid ← (← row.idx 0).getStr
    let address ← (← row.idx 1).getStr
    modify fun v => { v with s_txid_address := (txid, address) :: v.s_txid_address })
    (← json_data.elems)

def init : Scan Unit := do
  initNodes
  let address ← initBase 3
  modify fun v => { v with xrp_base_address_ := address }
  holds (address ≠ "")
  let address ← initBase 4
  modify fun v => { v with eos_base_address_ := address }
  holds (address ≠ "")
  initContract
  initTxids

end OpenWallet.Monitor
