import OpenWallet.Server.Transfer
import OpenWallet.Server.Web3

/-!
The transfers of `ClientRpc` other than that of bitcoins, `ClientRpc::transfer`, which picks one by
the name of the coin or of the token, and the RPC method over it. A transfer returns its result and
the response.
-/

namespace OpenWallet.Server

open Lib Prog
open Monitor (NodeInfo)

def getInt64 : Json → Except Exn ℤ
  | .int z => .ok (z.bmod (2 ^ 64))
  | .float q => .ok ((Json.trunc q).bmod (2 ^ 64))
  | .bool b => .ok (if b then 1 else 0)
  | _ => .error (.typeError 302)

/-- `ClientRpc::getPrivateKey`; nothing is a failure. -/
def readPrivateKey (address : String) : Srv (Option String) := do
  if !(← openWallet) then
    return none
  getWallet address

def txidResponse (txid : String) : Json := .obj [("n", .int 0), ("txid", .str txid)]

def transferEth (json_request : Json) : Srv (Bool × Json) := do
  let «from» ← (← json_request.idx 2).getStr
  let «to» ← (← json_request.idx 3).getStr
  let balance ← (← json_request.idx 4).getDouble
  let fee ← (← json_request.idx 5).getDouble
  let some privkey ← readPrivateKey «from» | return (false, .null)
  let pyResp ← Prog.op (Op.offlineSign privkey «to» balance fee)
  let some response := Web3.getResult pyResp | return (false, .null)
  return (true, txidResponse response)

def transferErc20Usdt (tokenInfo : TokenInfo) (json_request : Json) : Srv (Bool × Json) := do
  let «from» ← (← json_request.idx 2).getStr
  let «to» ← (← json_request.idx 3).getStr
  let balance ← (← json_request.idx 4).getDouble
  let fee ← (← json_request.idx 5).getDouble
  let some privkey ← readPrivateKey «from» | return (false, .null)
  let pyResp ← Prog.op
    (Op.offlineSignERC20 privkey «to» tokenInfo.contract balance fee tokenInfo.decimal)
  let some response := Web3.getResult pyResp | return (false, .null)
  return (true, txidResponse response)

def submission (privkey «from» «to» : String) (balance fee : Double) : Json :=
  .arr [.obj [("fail_hard", .bool true), ("offline", .bool false), ("secret", .str privkey),
    ("tx_json", .obj [("Account", .str «from»),
      ("Amount", .str (toString (Json.trunc (Double.round (balance * 10 ^ 6))))), ("Destination", .str «to»),
      ("Fee", .str (toString (Json.trunc (Double.round (fee * 10 ^ 6))))), ("Flags", .int 2147483648),
      ("TransactionType", .str "Payment")])]]

/-- Where the node refuses the payment, the result is still that of the call. -/
def transferXrp (node : NodeInfo) (json_request : Json) : Srv (Bool × Json) := do
  let «from» ← (← json_request.idx 2).getStr
  let «to» ← (← json_request.idx 3).getStr
  let balance ← (← json_request.idx 4).getDouble
  let fee ← (← json_request.idx 5).getDouble
  let some privkey ← readPrivateKey «from» | return (false, .null)
  let (ok, json_reply) ← CallNodeRPC "submit" (submission privkey «from» «to» balance fee)
    node.node_url node.node_auth
  if !ok then
    return (ok, .null)
  if (← (← (← json_reply.field "result").field "status").getStr) = "error" then
    return (ok, .null)
  if (← (← (← json_reply.field "result").field "engine_result").getStr) ≠ "tesSUCCESS" then
    return (ok, .null)
  let hash ← (← (← (← json_reply.field "result").field "tx_json").field "hash").getStr
  return (true, txidResponse hash)

def quantityOf (balance : Double) : Except Exn String := do
  let quantity := Text.to_string balance
  match Text.before ['.'] quantity.toList with
  | none => return quantity ++ ".0000 EOS"
  | some whole =>
    let len := whole.length + 1
    let quantity_sub ← Text.substr quantity len quantity.toList.length
    let len_sub := quantity_sub.toList.length
    if len_sub ≥ 4 then
      return (← Text.substr quantity 0 (len + 4)) ++ " EOS"
    else if len_sub = 0 then
      return quantity ++ "0000 EOS"
    else if len_sub = 1 then
      return quantity ++ "000 EOS"
    else if len_sub = 2 then
      return quantity ++ "00 EOS"
    else
      return quantity ++ "0 EOS"

/-- `CurlPostParams` and the parsing of its response; nothing is a failure. -/
def post (url : String) (data : Json) : Srv (Option Json) := do
  match ← curl ⟨url, "", data⟩ with
  | .down => pure none
  | .garbage => raise .parseError
  | .body json_reply => pure (some json_reply)

/-- A post that fails, and a reply with an error, end the transfer. -/
def postChecked (url : String) (data : Json) : Srv (Option Json) := do
  match ← post url data with
  | none => return none
  | some json_reply =>
    if (json_reply.find? "error").isSome then return none else return some json_reply

def curl_base_chain (node : NodeInfo) : String := "http://" ++ node.node_url ++ "/v1/chain/"
def curl_base_wallet (node : NodeInfo) : String := "http://" ++ node.wallet_url ++ "/v1/wallet/"

def s_eos_wallet_name : String := "default"
def s_eos_wallet_password : String := "PW5KENye24Beqh4Mt2hVwFD7e7Hg1LJXQNxopkHwiXP29xfoTwGVK"

def abiJson («from» «to» quantity : String) : Json :=
  .obj [("action", .str "transfer"), ("args", .obj [("from", .str «from»), ("memo", .str ""),
    ("quantity", .str quantity), ("to", .str «to»)]), ("code", .str "eosio.token")]

def actions («from» binargs : String) : Json :=
  .arr [.obj [("account", .str "eosio.token"),
    ("authorization", .arr [.obj [("actor", .str «from»), ("permission", .str "active")]]),
    ("data", .str binargs), ("name", .str "transfer")]]

/-- The answer of the wallet to `unlock` lets the transfer go on. -/
def unlocked (json_reply : Json) : Except Exn Bool :=
  if json_reply.empty then .ok true
  else match json_reply.find? "error" with
    | none => .ok true
    | some json_what => match json_what.find? "what" with
      | none => .ok false
      | some what => do return (← what.getStr) = "Already unlocked"

/-- `expires` is the time ten minutes after a time, both as texts. -/
def transferEos (expires : String → String) (node : NodeInfo) (json_request : Json) :
    Srv (Bool × Json) := do
  let «from» ← (← json_request.idx 2).getStr
  let «to» ← (← json_request.idx 3).getStr
  let balance ← (← json_request.idx 4).getDouble
  let quantity ← quantityOf balance
  let some json_reply ← postChecked (curl_base_chain node ++ "abi_json_to_bin") (abiJson «from» «to» quantity)
    | return (false, .null)
  let binargs ← (← json_reply.field "binargs").getStr
  let some json_reply ← postChecked (curl_base_chain node ++ "get_info") (.obj [])
    | return (false, .null)
  let chain_id ← (← json_reply.field "chain_id").getStr
  let head_block_num ← getInt64 (← json_reply.field "head_block_num")
  let some json_reply ← postChecked (curl_base_chain node ++ "get_block")
    (.obj [("block_num_or_id", .str (toString head_block_num))])
    | return (false, .null)
  let timestamp ← (← json_reply.field "timestamp").getStr
  let timestamp := expires timestamp
  let ref_block_prefix ← getInt64 (← json_reply.field "ref_block_prefix")
  let some json_reply ← post (curl_base_wallet node ++ "unlock")
    (.arr [.str s_eos_wallet_name, .str s_eos_wallet_password])
    | return (false, .null)
  if !(← unlocked json_reply) then
    return (false, .null)
  let v ← get
  let some json_reply ← postChecked (curl_base_wallet node ++ "sign_transaction")
    (.arr [.obj [("actions", actions «from» binargs), ("expiration", .str timestamp),
      ("ref_block_num", .int head_block_num), ("ref_block_prefix", .int ref_block_prefix),
      ("signatures", .arr [])], .arr [.str v.eos_public_key_], .str chain_id])
    | return (false, .null)
  let json_signature_arrays ← json_reply.field "signatures"
  let some json_reply ← postChecked (curl_base_chain node ++ "push_transaction")
    (.obj [("compression", .str "none"), ("signatures", json_signature_arrays),
      ("transaction", .obj [("actions", actions «from» binargs),
        ("context_free_actions", .arr []), ("expiration", .str timestamp),
        ("ref_block_num", .int head_block_num), ("ref_block_prefix", .int ref_block_prefix),
        ("transaction_extensions", .arr [])])])
    | return (false, .null)
  let transaction_id ← (← json_reply.field "transaction_id").getStr
  return (true, txidResponse transaction_id)

def fundedSend («from» «to» : String) (contract : ℕ) (balance : Double)
    (fee_address_omni_ : String) : Json :=
  .arr [.str «from», .str «to», .int contract, .str (Text.to_string balance),
    .str fee_address_omni_]

/-- One unspent output of the address that pays the fees, with the result so far, `total` and the
response. -/
def sendFunded (node : NodeInfo) (tokenInfo : TokenInfo) («from» «to» : String)
    (balance fee : Double) (json_unspent : Json) (s : Bool × Double × Json) :
    Srv (Flow × Bool × Double × Json) := do
  let (ok, total, json_response) := s
  if !(← (← json_unspent.field "spendable").getBool) then
    return (.next, ok, total, json_response)
  let total := Double.round (total + (← (← json_unspent.field "amount").getDouble))
  let recharge := Double.round (total - fee)
  if recharge ≥ Double.round (5 / 10 ^ 7) then
    let contract ← Text.stoul tokenInfo.contract
    let v ← get
    let (ok, json_reply) ← CallNodeRPC "omni_funded_send"
      (fundedSend «from» «to» contract balance v.fee_address_omni_) node.node_url node.node_auth
    if !ok then
      return (.brk, ok, total, json_response)
    if (← json_reply.field "result").empty then
      return (.brk, ok, total, json_response)
    let txid ← (← json_reply.field "result").getStr
    return (.brk, true, total, txidResponse txid)
  else return (.next, ok, total, json_response)

/-- A list without an output that will do leaves the result of the call that brought it. -/
def transferOmniUsdt (node : NodeInfo) (tokenInfo : TokenInfo) (json_request : Json) :
    Srv (Bool × Json) := do
  let «from» ← (← json_request.idx 2).getStr
  let «to» ← (← json_request.idx 3).getStr
  let balance ← (← json_request.idx 4).getDouble
  let fee ← (← json_request.idx 5).getDouble
  let v ← get
  let (ok, json_reply) ← CallNodeRPC "listunspent" (unspentOf v.fee_address_omni_)
    node.node_url node.node_auth
  if !ok then
    return (ok, .null)
  let json_unspent ← json_reply.field "result"
  if json_unspent.empty then
    return (ok, .null)
  let r ← loop (sendFunded node tokenInfo «from» «to» balance fee) (← json_unspent.elems)
    (ok, 0, .null)
  return (r.2.1, r.2.2.2)

def transferCoin (expires : String → String) (node : NodeInfo) (json_request : Json) :
    Srv (Bool × Json) :=
  if node.node_id = 1 then transferBtc Double.round node json_request
  else if node.node_id = 2 then transferEth json_request
  else if node.node_id = 3 then transferXrp node json_request
  else if node.node_id = 4 then transferEos expires node json_request
  else return (false, .null)

def transferToken (node : NodeInfo) (tokenInfo : TokenInfo) (json_request : Json) :
    Srv (Bool × Json) :=
  if tokenInfo.token_id = 1 then transferOmniUsdt node tokenInfo json_request
  else if tokenInfo.token_id = 2 then transferErc20Usdt tokenInfo json_request
  else return (false, .null)

def coinNode (v : Vars) (coin_name : String) : Option NodeInfo := do
  let coin_id ← v.s_coinName_coinid_.lookup coin_name
  v.s_coinid_NodeInfo_.lookup coin_id

/-- The node and the entry of a token. -/
def tokenNode (v : Vars) (coin_name : String) : Option (NodeInfo × TokenInfo) := do
  let token_id ← v.s_tokenName_tokenid_.lookup coin_name
  let tokenInfo ← v.s_tokenid_TokenInfo_.lookup token_id
  let coin_id ← v.s_tokenid_coinid_.lookup token_id
  let node ← v.s_coinid_NodeInfo_.lookup coin_id
  return (node, tokenInfo)

/-- The transfer that a name stands for. -/
def dispatch (expires : String → String) (v : Vars) (coin_name : String) (is_token : Bool)
    (json_request : Json) : Option (Srv (Bool × Json)) :=
  if is_token then
    (tokenNode v coin_name).map fun t => transferToken t.1 t.2 json_request
  else
    (coinNode v coin_name).map fun node => transferCoin expires node json_request

/-- `ClientRpc::transfer`. A name that is not supported leaves the connection open. -/
def ClientRpc.transfer (expires : String → String) (json_request : Json) : Srv (Bool × Json) := do
  if !(← openDB) then
    return (false, .null)
  let coin_name ← (← json_request.idx 0).getStr
  let is_token ← (← json_request.idx 1).getBool
  match dispatch expires (← get) coin_name is_token json_request with
  | none => return (false, .null)
  | some transfer =>
    let r ← transfer
    closeDB
    return r

def transfer (expires : String → String) (fHelp : Bool) (params : Json) : Srv Json := do
  if fHelp ∨ params.size ≠ 6 then
    return ← raise (.runtime ("\nArguments:\n1. \"name\" (string)  The name of coin or token\n"
      ++ "2. \"type\" (bool) the type of coin ,maybe it is coin or token"
      ++ "3. \"from\" (string) the transaction from"
      ++ "4. \"to\" (string) the transaction to5. \"balance\" (double) the transaction amount"
      ++ "6. \"fee\" (double) the transaction fee"))
  let (ok, json_result) ← ClientRpc.transfer expires params
  if !ok then
    return ← raise (.runtime "rpc call fail!")
  return json_result

/-! ### The calls they make -/

section

variable {S : Op → Prop} {node : NodeInfo} {json_request : Json}

lemma post_within {url : String} {data : Json} (hS : S (.curl ⟨url, "", data⟩)) :
    (post url data).Within S fun _ => True := by
  refine within_bind (P := fun _ => True) (within_op hS fun _ => trivial) fun a _ => ?_
  cases a <;> trivial

lemma postChecked_within {url : String} {data : Json} (hS : S (.curl ⟨url, "", data⟩)) :
    (postChecked url data).Within S fun _ => True := by
  refine within_bind (post_within hS) fun r _ => ?_
  cases r with
  | none => trivial
  | some json_reply =>
    dsimp only
    split <;> trivial

lemma readPrivateKey_within (hopen : S .openWallet) (hget : ∀ address, S (.getWallet address))
    (address : String) : (readPrivateKey address).Within S fun _ => True := by
  refine within_bind (P := fun _ => True) (within_op hopen fun _ => trivial) fun b _ => ?_
  split
  · trivial
  · exact within_op (hget address) fun _ => trivial

lemma transferEos_within {expires : String → String} (hget : S .get)
    (habi : ∀ url «from» «to» balance quantity,
      (json_request.idx 4 >>= Json.getDouble) = .ok balance → quantityOf balance = .ok quantity →
      S (.curl ⟨url, "", abiJson «from» «to» quantity⟩))
    (hcurl : ∀ url data, data.find? "action" = none → S (.curl ⟨url, "", data⟩)) :
    (transferEos expires node json_request).Within S fun _ => True := by
  unfold transferEos
  refine within_lift_bind fun _ _ => within_lift_bind fun «from» _ => ?_
  refine within_lift_bind fun _ _ => within_lift_bind fun «to» _ => ?_
  refine within_lift_bind fun j (hj : json_request.idx 4 = .ok j) =>
    within_lift_bind fun balance hbalance => ?_
  refine within_lift_bind fun quantity hquantity => ?_
  have hrequest : (json_request.idx 4 >>= Json.getDouble) = .ok balance := by
    rw [hj]
    exact hbalance
  refine within_bind (postChecked_within (habi _ _ _ _ _ hrequest hquantity)) fun r _ => ?_
  split
  case h_2 => trivial
  refine within_lift_bind fun _ _ => within_lift_bind fun binargs _ => ?_
  refine within_bind (postChecked_within (hcurl _ _ rfl)) fun r _ => ?_
  split
  case h_2 => trivial
  refine within_lift_bind fun _ _ => within_lift_bind fun chain_id _ => ?_
  refine within_lift_bind fun _ _ => within_lift_bind fun head_block_num _ => ?_
  refine within_bind (postChecked_within (hcurl _ _ rfl)) fun r _ => ?_
  split
  case h_2 => trivial
  refine within_lift_bind fun _ _ => within_lift_bind fun timestamp _ => ?_
  refine within_lift_bind fun _ _ => within_lift_bind fun ref_block_prefix _ => ?_
  refine within_bind (post_within (hcurl _ _ rfl)) fun r _ => ?_
  split
  case h_2 => trivial
  refine within_lift_bind fun b _ => ?_
  split
  · trivial
  refine within_bind (P := fun _ => True) (within_op hget fun _ => trivial) fun v _ => ?_
  refine within_bind (postChecked_within (hcurl _ _ rfl)) fun r _ => ?_
  split
  case h_2 => trivial
  refine within_lift_bind fun json_signature_arrays _ => ?_
  refine within_bind (postChecked_within (hcurl _ _ rfl)) fun r _ => ?_
  split
  case h_2 => trivial
  exact within_lift_bind fun _ _ => within_lift_bind fun _ _ => trivial

lemma transferOmniUsdt_within {tokenInfo : TokenInfo} (hget : S .get)
    (hsend : ∀ «from» «to» contract balance fee_address_omni_,
      (json_request.idx 4 >>= Json.getDouble) = .ok balance →
      S (.curl (call node "omni_funded_send"
        (fundedSend «from» «to» contract balance fee_address_omni_))))
    (hlist : ∀ address, S (.curl (call node "listunspent" (unspentOf address)))) :
    (transferOmniUsdt node tokenInfo json_request).Within S fun _ => True := by
  unfold transferOmniUsdt
  refine within_lift_bind fun _ _ => within_lift_bind fun «from» _ => ?_
  refine within_lift_bind fun _ _ => within_lift_bind fun «to» _ => ?_
  refine within_lift_bind fun j (hj : json_request.idx 4 = .ok j) =>
    within_lift_bind fun balance hbalance => ?_
  refine within_lift_bind fun _ _ => within_lift_bind fun fee _ => ?_
  have hrequest : (json_request.idx 4 >>= Json.getDouble) = .ok balance := by
    rw [hj]
    exact hbalance
  refine within_bind (P := fun _ => True) (within_op hget fun _ => trivial) fun v _ => ?_
  refine within_bind (callNodeRPC_within_of (hlist _)) ?_
  rintro ⟨ok, json_reply⟩ -
  dsimp only
  split
  · trivial
  refine within_lift_bind fun json_unspent _ => ?_
  split
  · trivial
  refine within_lift_bind fun js _ => ?_
  refine within_bind (P := fun _ => True) (within_loop_always (I := fun _ => True) trivial ?_)
    fun _ _ => trivial
  rintro json_unspent ⟨ok, total, json_response⟩ -
  refine within_lift_bind fun _ _ => within_lift_bind fun spendable _ => ?_
  split
  · trivial
  refine within_lift_bind fun _ _ => within_lift_bind fun amount _ => ?_
  dsimp only
  split
  · refine within_lift_bind fun contract _ => ?_
    refine within_bind (P := fun _ => True) (within_op hget fun _ => trivial) fun v _ => ?_
    refine within_bind (callNodeRPC_within_of (hsend _ _ _ _ _ hrequest)) ?_
    rintro ⟨ok, json_reply⟩ -
    dsimp only
    split
    · trivial
    refine within_lift_bind fun _ _ => ?_
    split
    · trivial
    exact within_lift_bind fun _ _ => within_lift_bind fun _ _ => trivial
  · trivial

end

end OpenWallet.Server
