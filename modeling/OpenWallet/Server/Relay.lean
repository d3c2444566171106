import OpenWallet.Server.World

/-!
The RPC method `getrechargeaddress` of the server: the account of a user for a coin, which is
the next one of the pool on the first request and the same one from then on.
-/

namespace OpenWallet.Server

open Lib Prog

/-- The key of the cache: the two numbers one after the other. -/
def encode_user (user_id coin_id : ℤ) : String := toString user_id ++ toString coin_id

def json_result (user_id : ℤ) (coin_name address tag : String) : Json :=
  .obj [("address", .str address), ("coin", .str coin_name), ("tag", .str tag),
    ("user_id", .int user_id)]

/-- The connection is closed before the exception. -/
def fail {α : Type} (what : String) : Srv α := do
  closeDB
  raise (.runtime what)

def coinQuery (coin_name : String) (is_token : Bool) : Query :=
  if is_token then .tokenCoin coin_name else .coin coin_name

/-- An account off a row of a query for accounts. -/
def accountInfo (json_data : Json) : Except Exn AccountInfo := do
  let row ← json_data.idx 0
  let address ← (← row.idx 1).getStr
  let tag ← (← row.idx 2).getStr
  let account_id ← (← row.idx 0).getInt
  return ⟨account_id, address, tag⟩

/-- The cache is looked into, where it is used. -/
def cacheFind (cached : Bool) (key : String) : Srv (Option AccountInfo) :=
  if cached then find key else pure none

/-- The answer with the account that was read, which goes into the cache. -/
def answer (coin_name : String) (user_id coin_id : ℤ) (json_data : Json) : Srv Json := do
  let account_info ← accountInfo json_data
  insert (encode_user user_id coin_id) account_info
  closeDB
  return json_result user_id coin_name account_info.address account_info.tag

/-- A user without an account gets the next one. -/
def assignNext (coin_name : String) (user_id coin_id : ℤ) : Srv Json := do
  let json_data ← getData (.nextAccount coin_id) [.INT, .STRING, .STRING]
  if json_data.size = 0 then
    return ← fail "address is creating ,wait a minute"
  let account_id ← (← (← json_data.idx 0).idx 0).getInt
  if !(← refreshDB ⟨user_id, account_id, coin_id⟩) then
    return ← fail "db server can't write!"
  answer coin_name user_id coin_id json_data

/-- A user without the account in the cache. -/
def assignMissed (coin_name : String) (user_id coin_id : ℤ) : Srv Json := do
  let json_data ← getData (.userAccount coin_id user_id) [.INT, .STRING, .STRING]
  if json_data.size > 0 then
    answer coin_name user_id coin_id json_data
  else
    assignNext coin_name user_id coin_id

/-- The request from the lookup of its coin on. -/
def assign (cached : Bool) (coin_name : String) (user_id coin_id : ℤ) : Srv Json := do
  match ← cacheFind cached (encode_user user_id coin_id) with
  | some account_info =>
    closeDB
    return json_result user_id coin_name account_info.address account_info.tag
  | none => assignMissed coin_name user_id coin_id

/-- The request up to its two numbers: the name, the user and the coin. -/
def lookupCoin (fHelp : Bool) (params : Json) : Srv (String × ℤ × ℤ) := do
  if fHelp ∨ params.size ≠ 3 then
    return ← raise (.runtime "\nArguments:\n1. \"name\" (string)  The name of coin or token\n2. \"type\" (bool) the type of coin ,maybe it is coin or token3. \"user_id\" (string) the transaction from")
  if !(← openDB) then
    return ← raise (.runtime "db server is down!")
  let coin_name ← (← params.idx 0).getStr
  let is_token ← (← params.idx 1).getBool
  let user_id ← (← params.idx 2).getInt
  let json_data ← getData (coinQuery coin_name is_token) [.INT]
  if json_data.size = 0 then
    return ← fail ("The " ++ coin_name ++ " don't have support")
  let coin_id ← (← (← json_data.idx 0).idx 0).getInt
  return (coin_name, user_id, coin_id)

/-- The method; the code is `getrechargeaddress true`, and with `false` it goes without the
cache. -/
def getrechargeaddress (cached fHelp : Bool) (params : Json) : Srv Json := do
  let (coin_name, user_id, coin_id) ← lookupCoin fHelp params
  assign cached coin_name user_id coin_id

end OpenWallet.Server
