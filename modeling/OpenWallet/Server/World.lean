import OpenWallet.Lib.Quoting
import OpenWallet.Monitor.Syncer

/-!
The world of the server: the statics of `ClientRpc` and the cache of `getrechargeaddress`, which
die with the process, the database and the key store, which do not, and what nodes and the
Python wallet have answered so far.
-/

namespace OpenWallet.Server

open Lib Prog
open Monitor (Cell DataType NodeInfo rowData)

/-! ### Queries -/

structure Db where
  cat : Catalog
  user : List UserRow

namespace Db

variable (d : Db) (coin_id : ℤ)

def accounts : List AccountRow := d.cat.account.filter fun a => a.coin_id = coin_id
def users : List UserRow := d.user.filter fun u => u.coin_id = coin_id

def insertUser (r : UserRow) : Db := { d with user := d.user ++ [r] }
def insertAccounts (rows : List AccountRow) : Db :=
  { d with cat := { d.cat with account := d.cat.account ++ rows } }

end Db

inductive Query
  /-- `SELECT coin_id FROM coin WHERE short_name = …` -/
  | coin (short_name : String)
  /-- `SELECT coin_id FROM coin WHERE coin_id = (SELECT coin_id FROM token WHERE
  token.short_name = …)` -/
  | tokenCoin (short_name : String)
  /-- `SELECT account_id, address, tag FROM account WHERE coin_id = … AND account_id = (SELECT
  account_id FROM user WHERE coin_id = … AND user_id = …)` -/
  | userAccount (coin_id user_id : ℤ)
  /-- `SELECT account_id, address, tag FROM account WHERE coin_id = … AND account_id > (SELECT
  MAX(account_id) FROM user WHERE coin_id = …) ORDER BY account_id LIMIT 1` -/
  | nextAccount (coin_id : ℤ)
  /-- `SELECT COUNT(*) FROM user WHERE coin_id = … UNION ALL SELECT COUNT(*) FROM account WHERE
  coin_id = … UNION ALL SELECT MAX(account_id) FROM account WHERE coin_id = …` -/
  | counts (coin_id : ℤ)
  /-- `SELECT node.node_id, coin.short_name, node_url, node_auth, wallet_url, wallet_auth,
  coin_id FROM node, coin WHERE node.node_id = coin.node_id` -/
  | nodes
  /-- ``SELECT coin_id, token_id, short_name, contract, `decimal` FROM token`` -/
  | tokens
  /-- `SELECT tag, address FROM account a where a.account_id = (SELECT max(account_id) FROM
  account b WHERE b.coin_id = …) and a.coin_id = …` -/
  | lastAccount (coin_id : ℤ)

/-- A subquery in the place of a value: null without a row, and an error with two. -/
def scalar {α : Type} : List α → Option (Option α)
  | [] => some none
  | [a] => some (some a)
  | _ => none

def maxCell : Option ℤ → Cell
  | none => .null
  | some z => .int z

def accountCells (a : AccountRow) : List Cell :=
  [.int a.account_id, .ofText a.address, .ofText a.tag]

/-- The first account above an identifier. -/
def above (rows : List AccountRow) (m : ℤ) : Option AccountRow :=
  let rows := rows.filter fun a => m < a.account_id
  rows.find? fun a => rows.all fun b => a.account_id ≤ b.account_id

/-- The rows of a query; `none` is an error. -/
def Query.eval (d : Db) : Query → Option (List (List Cell))
  | coin short_name =>
    some <| (d.cat.coin.filter fun c => c.short_name = some short_name).map fun c =>
      [.int c.coin_id]
  | tokenCoin short_name =>
    (scalar (d.cat.token.filter fun t => t.short_name = short_name)).map fun t =>
      (d.cat.coin.filter fun c => some c.coin_id = t.map (·.coin_id)).map fun c =>
        [.int c.coin_id]
  | userAccount coin_id user_id =>
    (scalar ((d.users coin_id).filter fun u => u.user_id = user_id)).map fun u =>
      ((d.accounts coin_id).filter fun a => some a.account_id = u.map (·.account_id)).map
        accountCells
  | nextAccount coin_id =>
    some <| match ((d.users coin_id).map (·.account_id)).max? with
      | none => []
      | some m => ((above (d.accounts coin_id) m).map accountCells).toList
  | counts coin_id =>
    some [[.int (d.users coin_id).length], [.int (d.accounts coin_id).length],
      [maxCell ((d.accounts coin_id).map (·.account_id)).max?]]
  | nodes => some <| d.cat.node.flatMap fun n =>
    (d.cat.coin.filter fun c => some n.node_id = c.node_id).map fun c =>
      [.int n.node_id, .ofText c.short_name, .ofText n.node_url, .ofText n.node_auth,
        .ofText n.wallet_url, .ofText n.wallet_auth, .int c.coin_id]
  | tokens => some <| d.cat.token.map fun t =>
    [.int t.coin_id, .int t.token_id, .text t.short_name, .ofText t.contract, .int t.decimal]
  | lastAccount coin_id =>
    let m := ((d.accounts coin_id).map (·.account_id)).max?
    some <| ((d.accounts coin_id).filter fun a => some a.account_id = m).map fun a =>
      [.ofText a.tag, .ofText a.address]

/-- The statement says the order of its rows. -/
def Query.ordered : Query → Bool
  | nextAccount _ | counts _ => true
  | _ => false

/-- The name of the request, which stands in the text as it came, makes it another statement. -/
def Query.injects : Query → Bool
  | coin short_name | tokenCoin short_name =>
    !(Quoting.verbatim short_name.toList && !short_name.toList.contains '\x00')
  | _ => false

/-- What a query gives, if it does not fail. Of another statement that a name has made, `injected`
says what it gives: still one column. -/
def Query.Fetches (injected : Query → Db → Option (List Cell) → Prop) (q : Query) (d : Db)
    (a : Option (List (List Cell))) : Prop :=
  if q.injects then ∃ cells, injected q d cells ∧ a = cells.map (·.map fun c => [c])
  else a = q.eval d ∨ ¬ q.ordered ∧ ∃ rows rows', q.eval d = some rows ∧ rows.Perm rows' ∧
    a = some rows'

lemma Query.fetches_iff {injected : Query → Db → Option (List Cell) → Prop} {q : Query} {d : Db}
    {a : Option (List (List Cell))} (hq : q.injects = false) : q.Fetches injected d a ↔
      a = q.eval d ∨ ¬ q.ordered ∧ ∃ rows rows', q.eval d = some rows ∧ rows.Perm rows' ∧
        a = some rows' := by
  rw [Query.Fetches, hq, if_neg Bool.false_ne_true]

/-! ### State -/

structure TokenInfo where
  coin_id : ℤ
  token_id : ℤ
  short_name : String
  contract : String
  decimal : ℤ

/-- The statics of `ClientRpc`. A `std::map` is an association list, newest entry first, and a
`uint32_t` is a natural number below `2 ^ 32`. -/
structure Vars where
  s_coinid_NodeInfo_ : List (ℤ × NodeInfo)
  s_tokenid_coinid_ : List (ℤ × ℤ)
  s_tokenName_tokenid_ : List (String × ℤ)
  s_coinName_coinid_ : List (String × ℤ)
  s_tokenid_TokenInfo_ : List (ℤ × TokenInfo)
  xrp_base_address_ : String
  eos_base_address_ : String
  max_xrp_tag_ : ℕ
  max_eos_tag_ : ℕ
  fee_address_omni_ : String
  eos_public_key_ : String

def Vars.fresh : Vars := ⟨[], [], [], [], [], "", "", 0, 0, "", ""⟩

structure AccountInfo where
  account_id : ℤ
  address : String
  tag : String

/-- What a call into the Python wallet gives: no object, a text that is no JSON, or the JSON of
the text, with the JSON of the text under its `data` where that is one. -/
inductive PyResp
  | null
  | garbage
  | reply (json_reply : Json) (data : Option Json)

structure World where
  vars : Vars
  s_usercoin_accountinfo : List (String × AccountInfo)
  db : Db
  /-- the leveldb under `wallet_db`, newest entry first -/
  wallet : List (String × String)
  /-- Ghost: the connections opened and not closed. -/
  connections : ℤ
  /-- Ghost: every exchange with a node so far. -/
  wire : List (Request × Answer)
  /-- Ghost: every answer of `createAccount` of the Python wallet so far. -/
  made : List PyResp

inductive Op
  | openDB
  | closeDB
  | getData (q : Query)
  /-- `refreshDB` of an `INSERT INTO user` -/
  | refreshDB (r : UserRow)
  /-- `batchRefreshDB` of a list of `INSERT INTO account` -/
  | batchRefreshDB (rows : List AccountRow)
  | curl (r : Request)
  | createAccount
  | openWallet
  | putWallet (address private_key : String)
  | getWallet (address : String)
  | offlineSign (privkey «to» : String) (amount fee : Double)
  | offlineSignERC20 (privkey «to» contractAddr : String) (amount fee : Double) (decimals : ℤ)
  | get
  | put (v : Vars)
  | find (encode_user : String)
  | insert (encode_user : String) (account_info : AccountInfo)

abbrev Ans : Op → Type
  | .openDB => Bool
  | .closeDB => Unit
  | .getData _ => Option (List (List Cell))
  | .refreshDB _ => Bool
  | .batchRefreshDB _ => Unit
  | .curl _ => Answer
  | .createAccount => PyResp
  | .openWallet => Bool
  | .putWallet _ _ => Bool
  | .getWallet _ => Option String
  | .offlineSign _ _ _ _ => PyResp
  | .offlineSignERC20 _ _ _ _ _ _ => PyResp
  | .get => Vars
  | .put _ => Unit
  | .find _ => Option AccountInfo
  | .insert _ _ => Unit

abbrev Srv (α : Type) := Prog Ans Exn α

/-- What can happen around the process: the answers of nodes and of the Python wallet after a
number of exchanges with them, what a lookup gives whose text a name has changed, whether a
`SELECT` can fail, and whether the process can die. -/
structure Weather where
  net : ℕ → Request → Answer → Prop
  python : ℕ → PyResp → Prop
  injected : Query → Db → Option (List Cell) → Prop
  sqlFails : Prop
  crashes : Prop

/-- The surroundings in a weather. Connections, the key store and each `INSERT` can fail at any
time, and signing can end in any way. -/
def env (x : Weather) : Env Ans World where
  answers
    | .openDB, w, b, w' => w' = if b then { w with connections := w.connections + 1 } else w
    | .closeDB, w, _, w' => w' = { w with connections := w.connections - 1 }
    | .getData q, w, a, w' => w' = w ∧ ((x.sqlFails ∧ a = none) ∨ q.Fetches x.injected w.db a)
    | .refreshDB r, w, b, w' => w' = if b then { w with db := w.db.insertUser r } else w
    | .batchRefreshDB rows, w, _, w' => ∃ rows', rows'.Sublist rows ∧
        w' = { w with db := w.db.insertAccounts rows' }
    | .curl r, w, a, w' => x.net w.wire.length r a ∧ w' = { w with wire := w.wire ++ [(r, a)] }
    | .createAccount, w, a, w' => x.python w.made.length a ∧
        w' = { w with made := w.made ++ [a] }
    | .openWallet, w, _, w' => w' = w
    | .putWallet address private_key, w, b, w' =>
        w' = if b then { w with wallet := (address, private_key) :: w.wallet } else w
    | .getWallet address, w, a, w' => w' = w ∧ (a = none ∨ a = w.wallet.lookup address)
    | .offlineSign .., w, _, w' => w' = w
    | .offlineSignERC20 .., w, _, w' => w' = w
    | .get, w, v, w' => v = w.vars ∧ w' = w
    | .put v, w, _, w' => w' = { w with vars := v }
    | .find key, w, a, w' => a = w.s_usercoin_accountinfo.lookup key ∧ w' = w
    | .insert key account_info, w, _, w' =>
        w' = { w with s_usercoin_accountinfo := (key, account_info) :: w.s_usercoin_accountinfo }
  dies _ w w' := x.crashes ∧ w' = w

def get : Srv Vars := Prog.op Op.get
def put (v : Vars) : Srv Unit := Prog.op (Op.put v)
def modify (f : Vars → Vars) : Srv Unit := get >>= fun v => put (f v)
def openDB : Srv Bool := Prog.op Op.openDB
def closeDB : Srv Unit := Prog.op Op.closeDB
def refreshDB (r : UserRow) : Srv Bool := Prog.op (Op.refreshDB r)
def batchRefreshDB (rows : List AccountRow) : Srv Unit := Prog.op (Op.batchRefreshDB rows)
def curl (r : Request) : Srv Answer := Prog.op (Op.curl r)
def pyCreateAccount : Srv PyResp := Prog.op Op.createAccount
def openWallet : Srv Bool := Prog.op Op.openWallet
def putWallet (address private_key : String) : Srv Bool :=
  Prog.op (Op.putWallet address private_key)
def getWallet (address : String) : Srv (Option String) := Prog.op (Op.getWallet address)
def find (encode_user : String) : Srv (Option AccountInfo) := Prog.op (Op.find encode_user)
def insert (encode_user : String) (account_info : AccountInfo) : Srv Unit :=
  Prog.op (Op.insert encode_user account_info)

/-- The rows as JSON; a failed query leaves `json_data` as it was, which is empty. -/
def readRows (col_type : List DataType) : Option (List (List Cell)) → Except Exn Json
  | none => .ok .null
  | some [] => .ok .null
  | some (row :: rows) => .arr <$> (row :: rows).mapM (rowData col_type)

def getData (q : Query) (col_type : List DataType) : Srv Json := do
  let rows ← Prog.op (Op.getData q)
  readRows col_type rows

/-- Every request has one answer at a time, and nothing else happens. -/
def Weather.clear (net : ℕ → Request → Answer) (python : ℕ → PyResp) : Weather where
  net t r a := a = net t r
  python t a := a = python t
  injected _ _ cells := cells = none
  sqlFails := False
  crashes := False

/-- The rows in the order the query finds them in; other statements than it fail. -/
def Query.fetch (d : Db) (q : Query) : Option (List (List Cell)) :=
  if q.injects then none else q.eval d

lemma Query.fetches_fetch (net : ℕ → Request → Answer) (python : ℕ → PyResp) (q : Query) (d : Db) :
    q.Fetches (Weather.clear net python).injected d (q.fetch d) := by
  unfold Query.Fetches Query.fetch
  split
  · exact ⟨none, rfl, rfl⟩
  · exact Or.inl rfl

/-- The calls where all of them succeed. -/
def serve (net : ℕ → Request → Answer) (python : ℕ → PyResp) :
    (o : Op) → World → Ans o × World
  | .openDB, w => (true, { w with connections := w.connections + 1 })
  | .closeDB, w => ((), { w with connections := w.connections - 1 })
  | .getData q, w => (q.fetch w.db, w)
  | .refreshDB r, w => (true, { w with db := w.db.insertUser r })
  | .batchRefreshDB rows, w => ((), { w with db := w.db.insertAccounts rows })
  | .curl r, w => (net w.wire.length r, { w with wire := w.wire ++ [(r, net w.wire.length r)] })
  | .createAccount, w =>
    (python w.made.length, { w with made := w.made ++ [python w.made.length] })
  | .openWallet, w => (true, w)
  | .putWallet address private_key, w =>
    (true, { w with wallet := (address, private_key) :: w.wallet })
  | .getWallet address, w => (w.wallet.lookup address, w)
  | .offlineSign .., w => (.null, w)
  | .offlineSignERC20 .., w => (.null, w)
  | .get, w => (w.vars, w)
  | .put v, w => ((), { w with vars := v })
  | .find key, w => (w.s_usercoin_accountinfo.lookup key, w)
  | .insert key account_info, w =>
    ((), { w with s_usercoin_accountinfo := (key, account_info) :: w.s_usercoin_accountinfo })

lemma serve_answers (net : ℕ → Request → Answer) (python : ℕ → PyResp) (o : Op) (w : World) :
    (env (.clear net python)).answers o w (serve net python o w).1 (serve net python o w).2 := by
  cases o with
  | getData q => exact ⟨rfl, Or.inr (q.fetches_fetch net python w.db)⟩
  | batchRefreshDB rows => exact ⟨rows, List.Sublist.refl _, rfl⟩
  | _ => simp [env, serve, Weather.clear]

end OpenWallet.Server
