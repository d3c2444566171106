import OpenWallet.Lib.Prog
import OpenWallet.Otc
import OpenWallet.Wire

/-!
The world of the monitor: the members and statics of `Syncer`, which die with the process, the
database, which does not, and the exchanges with nodes and the callback receiver so far.
-/

namespace OpenWallet.Monitor

open Lib

/-- A cell of a result row. -/
inductive Cell
  | null
  | int (z : ℤ)
  | text (s : String)

def Cell.ofText : Option String → Cell
  | none => .null
  | some s => .text s

/-- The `SELECT` statements of the monitor. -/
inductive Query
  /-- `SELECT coin_id, node.node_id, node_url, node_auth, wallet_url, wallet_auth FROM coin,
  node WHERE node.node_id = coin.node_id` -/
  | nodes
  /-- `SELECT address, MAX(account_id) as account_id FROM account GROUP BY coin_id, address
  HAVING coin_id = … AND MAX(account_id)` -/
  | baseAddress (coin_id : ℤ)
  /-- `SELECT token_id, contract FROM token WHERE short_name = …` -/
  | contract (short_name : String)
  /-- `SELECT txid, address FROM txutxo` -/
  | txids
  /-- `SELECT address, account_id FROM account WHERE coin_id = (SELECT coin_id FROM coin WHERE
  short_name = …)` -/
  | addresses (short_name : String)
  /-- `SELECT coin_id, MAX(height) FROM block WHERE coin_id = (SELECT coin_id FROM coin WHERE
  short_name = …) GROUP BY coin_id` -/
  | height (short_name : String)

/-- `(SELECT coin_id FROM coin WHERE short_name = …)` as a value: null without a row, and an
error with two. -/
def coinId (cat : Catalog) (short_name : String) : Option (Option ℤ) :=
  match cat.coin.filter fun c => c.short_name = some short_name with
  | [] => some none
  | [c] => some (some c.coin_id)
  | _ => none

/-- The rows of a query, in some order; `none` is an error. -/
def Query.eval (d : Db) : Query → Option (List (List Cell))
  | nodes => some <| d.cat.coin.flatMap fun c =>
    (d.cat.node.filter fun n => some n.node_id = c.node_id).map fun n =>
      [.int c.coin_id, .int n.node_id, .ofText n.node_url, .ofText n.node_auth,
        .ofText n.wallet_url, .ofText n.wallet_auth]
  | baseAddress coin_id =>
    let rows := d.cat.account.filter fun a => a.coin_id = coin_id
    some <| ((rows.map (·.address)).dedup).filterMap fun address =>
      match ((rows.filter fun a => a.address = address).map (·.account_id)).max? with
      | some m => if m = 0 then none else some [.ofText address, .int m]
      | none => none
  | contract short_name =>
    some <| (d.cat.token.filter fun t => t.short_name = short_name).map fun t =>
      [.int t.token_id, .ofText t.contract]
  | txids => some <| d.txutxo.map fun r => [.text r.txid, .text r.address]
  | addresses short_name => (coinId d.cat short_name).map fun c =>
    (d.cat.account.filter fun a => some a.coin_id = c).map fun a =>
      [.ofText a.address, .int a.account_id]
  | height short_name => (coinId d.cat short_name).map fun c =>
    match c with
    | none => []
    | some coin_id => match d.maxHeight coin_id with
      | none => []
      | some m => [[.int coin_id, .int m]]

structure NodeInfo where
  node_id : ℤ
  node_url : String
  node_auth : String
  wallet_url : String
  wallet_auth : String

/-- What the process holds. A `std::map` is an association list, newest entry first. -/
structure Vars where
  map_coinid_node_ : List (ℤ × NodeInfo)
  vect_sql_ : List Stmt
  callback_url_ : String
  eos_base_address_ : String
  xrp_base_address_ : String
  s_address_id_btc : List (String × ℤ)
  s_address_id_eth : List (String × ℤ)
  s_address_id_omni_usdt : List (String × ℤ)
  s_ethcontranct_tokenid : List (String × ℤ)
  s_txid_address : List (String × String)
  s_json_callback : List Json
  /-- the timers that are armed, with their seconds -/
  timers : List (String × ℕ)

lemma lookup_isSome_iff {β : Type} {l : List (String × β)} {key : String} :
    (l.lookup key).isSome ↔ key ∈ l.map Prod.fst := by
  simp only [List.lookup_isSome_iff, beq_iff_eq, List.mem_map]
  exact exists_congr fun r => and_congr_right fun _ => eq_comm

def Vars.fresh : Vars := ⟨[], [], "", "", "", [], [], [], [], [], [], []⟩

structure World where
  vars : Vars
  db : Db
  /-- Ghost: every exchange so far. -/
  wire : List (Request × Answer)

/-- The calls of the monitor. -/
inductive Op
  | curl (r : Request)
  | getData (q : Query)
  | batchRefreshDB (sqls : List Stmt)
  | get
  | put (v : Vars)

abbrev Ans : Op → Type
  | .curl _ => Answer
  | .getData _ => Option (List (List Cell))
  | .batchRefreshDB _ => Unit
  | .get => Vars
  | .put _ => Unit

abbrev Scan (α : Type) := Prog Ans Exn α

/-- What can happen around the process: the answers a request can get after a number of
exchanges, whether a `SELECT` can fail, and whether the process can die. -/
structure Weather where
  net : ℕ → Request → Answer → Prop
  sqlFails : Prop
  crashes : Prop

/-- The surroundings in a weather. A batch commits as a whole; rows come in any order. -/
def env (x : Weather) : Env Ans World where
  answers
    | .curl r, w, a, w' => x.net w.wire.length r a ∧ w' = { w with wire := w.wire ++ [(r, a)] }
    | .getData q, w, a, w' => w' = w ∧ ((x.sqlFails ∧ a = none) ∨ a = q.eval w.db ∨
        ∃ rows rows', q.eval w.db = some rows ∧ rows.Perm rows' ∧ a = some rows')
    | .batchRefreshDB sqls, w, _, w' => w' = { w with db := w.db.commit sqls }
    | .get, w, v, w' => v = w.vars ∧ w' = w
    | .put v, w, _, w' => w' = { w with vars := v }
  dies _ w w' := x.crashes ∧ w' = w

def curl (r : Request) : Scan Answer := Prog.op (Op.curl r)
def get : Scan Vars := Prog.op Op.get
def put (v : Vars) : Scan Unit := Prog.op (Op.put v)
def modify (f : Vars → Vars) : Scan Unit := get >>= fun v => put (f v)

/-- Every request has one answer at a time, and nothing else happens. -/
def Weather.clear (net : ℕ → Request → Answer) : Weather where
  net t r a := a = net t r
  sqlFails := False
  crashes := False

/-- The calls in clear weather, with rows in the order the query finds them in. -/
def serve (net : ℕ → Request → Answer) : (o : Op) → World → Ans o × World
  | .curl r, w => (net w.wire.length r, { w with wire := w.wire ++ [(r, net w.wire.length r)] })
  | .getData q, w => (q.eval w.db, w)
  | .batchRefreshDB sqls, w => ((), { w with db := w.db.commit sqls })
  | .get, w => (w.vars, w)
  | .put v, w => ((), { w with vars := v })

lemma serve_answers (net : ℕ → Request → Answer) (o : Op) (w : World) :
    (env (.clear net)).answers o w (serve net o w).1 (serve net o w).2 := by
  cases o with
  | getData q => exact ⟨rfl, Or.inr (Or.inl rfl)⟩
  | _ => simp [env, serve, Weather.clear]

namespace World

/-- After an exchange. -/
def sent (w : World) (r : Request) (a : Answer) : World := { w with wire := w.wire ++ [(r, a)] }

/-- `vect_sql_.push_back(sql)` -/
def push (w : World) (sql : Stmt) : World :=
  { w with vars := { w.vars with vect_sql_ := w.vars.vect_sql_ ++ [sql] } }

/-- The whole of `vect_sql_` is committed and dropped. -/
def flush (w : World) : World :=
  { w with db := w.db.commit w.vars.vect_sql_, vars := { w.vars with vect_sql_ := [] } }

/-- `s_json_callback.push_back(json_params)` -/
def retry (w : World) (j : Json) : World :=
  { w with vars := { w.vars with s_json_callback := w.vars.s_json_callback ++ [j] } }

/-- `s_txid_address[txid] = address` -/
def track (w : World) (txid address : String) : World :=
  { w with vars := { w.vars with s_txid_address := (txid, address) :: w.vars.s_txid_address } }

end World

section Rules

variable {x : Weather} {α : Type} {D : World → Prop} {w : World}

@[simp] lemma wp_get {Q : Vars → World → Prop} :
    wp (env x) get Q D w ↔ (x.crashes → D w) ∧ Q w.vars w := by
  simp only [get, wp_op, env, and_imp, forall_eq_apply_imp_iff]
  aesop

@[simp] lemma wp_put {v : Vars} {Q : Unit → World → Prop} :
    wp (env x) (put v) Q D w ↔ (x.crashes → D w) ∧ Q () { w with vars := v } := by
  simp only [put, wp_op, env]
  aesop

@[simp] lemma wp_modify {f : Vars → Vars} {Q : Unit → World → Prop} :
    wp (env x) (modify f) Q D w ↔ (x.crashes → D w) ∧ Q () { w with vars := f w.vars } := by
  simp only [modify, wp_bind, wp_get, wp_put]
  tauto

lemma wp_curl {r : Request} {Q : Answer → World → Prop} :
    wp (env x) (curl r) Q D w ↔ (x.crashes → D w) ∧
      ∀ a, x.net w.wire.length r a → Q a (w.sent r a) := by
  simp only [curl, wp_op, env, World.sent]
  aesop

end Rules

end OpenWallet.Monitor
