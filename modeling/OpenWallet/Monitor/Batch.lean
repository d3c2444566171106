import OpenWallet.Lib.Session
import OpenWallet.Monitor.Pass

/-!
`Syncer::refreshDB` on a connection where commands can fail. The rest of the development takes a
batch to be written as a whole; here is when it is.
-/

namespace OpenWallet.Monitor.Batch

open Lib Prog

/-- The buffer, the connection, and how many commands it has been given. -/
structure World where
  vect_sql_ : List Stmt
  mysql_ : Conn Stmt
  asked : ℕ

inductive Op
  | mysql_query (cmd : Cmd Stmt)
  | get
  | clear

abbrev Ans : Op → Type
  | .mysql_query _ => Bool
  | .get => List Stmt
  | .clear => Unit

abbrev Sql (α : Type) := Prog Ans Exn α

/-- The commands have their fates, which are not those of rows that are there already. -/
def serve (fate : ℕ → Fate) : (o : Op) → World → Ans o × World
  | .mysql_query cmd, w => ((w.mysql_.query (fate w.asked) cmd).1, { w with
      mysql_ := (w.mysql_.query (fate w.asked) cmd).2
      asked := w.asked + 1 })
  | .get, w => (w.vect_sql_, w)
  | .clear, w => ((), { w with vect_sql_ := [] })

def mysql_query (cmd : Cmd Stmt) : Sql Bool := Prog.op (Op.mysql_query cmd)

/-- `DBMysql::refreshDB`, which only logs a failure. -/
def execute (sql : Stmt) : Sql Unit := do
  let _ret ← mysql_query (.exec sql)
  pure ()

def batchRefreshDB (vect_sql : List Stmt) : Sql Unit := do
  let _ ← mysql_query .start
  forEach execute vect_sql
  let _ ← mysql_query .commit
  pure ()

/-- `Syncer::refreshDB` -/
def refreshDB : Sql Unit := do
  let vect_sql_ ← (Prog.op Op.get : Sql (List Stmt))
  if vect_sql_.length > 0 then
    batchRefreshDB vect_sql_
    Prog.op Op.clear

/-! ### What a batch comes to -/

variable {fate : ℕ → Fate} {w : World}

lemma wp_execute (sql : Stmt) {Q : Unit → World → Prop} {D : World → Prop} :
    wp (.of (serve fate)) (execute sql) Q D w ↔ Q () { w with
      mysql_ := (w.mysql_.query (fate w.asked) (.exec sql)).2
      asked := w.asked + 1 } := by
  rw [execute, wp_bind, mysql_query, wp_op_of]
  rfl

lemma wp_executes (sqls : List Stmt) {Q : Unit → World → Prop} {D : World → Prop}
    (h : Q () { w with
      mysql_ := Conn.execs fate w.asked sqls w.mysql_
      asked := w.asked + sqls.length }) :
    wp (.of (serve fate)) (forEach execute sqls) Q D w := by
  induction sqls generalizing w with
  | nil => exact h
  | cons sql sqls ih =>
    rw [forEach, wp_bind, wp_execute]
    refine ih ?_
    rw [Conn.execs, List.length_cons] at h
    rwa [Nat.add_assoc, Nat.add_comm 1]

lemma wp_refreshDB : wp (.of (serve fate)) refreshDB (fun _ w' =>
    (w.vect_sql_ = [] ∧ w' = w) ∨ (w.vect_sql_ ≠ [] ∧ w'.vect_sql_ = [] ∧
      w'.mysql_ = w.mysql_.transact fate w.asked w.vect_sql_)) (fun _ => False) w := by
  rw [refreshDB, wp_bind, wp_op_of]
  change wp _ (if w.vect_sql_.length > 0 then _ else _) _ _ w
  split
  · next h =>
    have hne : w.vect_sql_ ≠ [] := List.ne_nil_of_length_pos h
    rw [wp_bind, batchRefreshDB, wp_bind, mysql_query, wp_op_of, wp_bind]
    refine wp_executes _ ?_
    rw [wp_bind, mysql_query, wp_op_of]
    change wp _ (Prog.op Op.clear) _ _ _
    rw [wp_op_of]
    exact Or.inr ⟨hne, rfl, rfl⟩
  · next h => exact Or.inl ⟨List.length_eq_zero_iff.mp (by omega), rfl⟩

/-- All of the buffer has taken effect and it is empty, or nothing has and it is as it was. -/
def AllOrNothing (w w' : World) : Prop :=
  (w'.mysql_.log = w.mysql_.log ++ w.vect_sql_ ∧ w'.vect_sql_ = []) ∨
    (w'.mysql_.log = w.mysql_.log ∧ w'.vect_sql_ = w.vect_sql_)

/-- **A batch is all or nothing** exactly if there is none, or the connection is there and the
commands of the batch go through. -/
theorem all_or_nothing_iff (fate : ℕ → Fate) (w : World) (ht : w.mysql_.trx = none) :
    Returns (.of (serve fate)) refreshDB (fun _ => AllOrNothing w) w ↔
      w.vect_sql_ = [] ∨
        (w.mysql_.up = true ∧ Conn.Whole fate w.asked w.vect_sql_.length) := by
  constructor
  · intro hret
    have hx := exec_run (E := .of (serve fate)) (fun _ _ => rfl) refreshDB w
    obtain ⟨_, ho, hall⟩ := hret _ _ hx
    rw [ho] at hx
    rcases (exec_post hx wp_refreshDB : _ ∨ _) with ⟨hnil, -⟩ | ⟨hne, hclear, hconn⟩
    · exact Or.inl hnil
    rcases hall with ⟨hlog, -⟩ | ⟨-, hbuf⟩
    · rw [hconn] at hlog
      have hup : w.mysql_.up = true := by
        by_contra hdown
        rw [Conn.transact_down (by simpa using hdown)] at hlog
        exact hne (by simpa using hlog)
      exact Or.inr ⟨hup, (Conn.transact_iff hup ht hne).mp hlog⟩
    · exact Or.inl (hbuf.symm.trans hclear)
  · intro hwhole
    refine returns_of_wp (wp_mono wp_refreshDB ?_ fun _ h => h)
    rintro - w' (⟨hnil, rfl⟩ | ⟨hne, hclear, hconn⟩)
    · exact Or.inr ⟨rfl, rfl⟩
    · obtain ⟨hup, hwhole⟩ := hwhole.resolve_left hne
      exact Or.inl ⟨hconn ▸ (Conn.transact_iff hup ht hne).mpr hwhole, hclear⟩

lemma refreshDB_trx (ht : w.mysql_.trx = none) :
    Returns (.of (serve fate)) refreshDB (fun _ w' => w'.mysql_.trx = none) w := by
  refine returns_of_wp (wp_mono wp_refreshDB ?_ fun _ h => h)
  rintro - w' (⟨-, rfl⟩ | ⟨-, -, hconn⟩)
  · exact ht
  · rw [hconn]
    exact Conn.transact_trx ht

/-- Where a batch is written as a whole, it is what the rest of the monitor takes it for. -/
lemma refreshDB_flush {v : Monitor.World} (hlog : w.mysql_.log = v.db.log)
    (hbuf : w.vect_sql_ = v.vars.vect_sql_) (ht : w.mysql_.trx = none) (hup : w.mysql_.up = true)
    (hwhole : Conn.Whole fate w.asked w.vect_sql_.length) :
    Returns (.of (serve fate)) refreshDB
      (fun _ w' => w'.mysql_.log = v.flush.db.log ∧ w'.vect_sql_ = v.flush.vars.vect_sql_) w := by
  refine returns_of_wp (wp_mono wp_refreshDB ?_ fun _ h => h)
  rintro - w' (⟨hnil, rfl⟩ | ⟨hne, hclear, hconn⟩)
  · simp [World.flush, Db.commit, hlog, ← hbuf, hnil]
  · rw [hconn, (Conn.transact_iff hup ht hne).mpr hwhole, hclear, hlog, hbuf]
    exact ⟨rfl, rfl⟩

def depositBatch : List Stmt :=
  [.txutxo ⟨"txid", 0, "A", "1", some 0, ⟨1, 7, 0, 0, 0⟩⟩, .block ⟨1, "hash", 7⟩]

theorem all_or_nothing_deposit : Returns (.of (serve fun _ => .ok)) refreshDB
    (fun _ => AllOrNothing ⟨depositBatch, ⟨[], none, true⟩, 0⟩) ⟨depositBatch, ⟨[], none, true⟩, 0⟩ :=
  (all_or_nothing_iff (fun _ => .ok) ⟨depositBatch, ⟨[], none, true⟩, 0⟩ rfl).mpr
    (Or.inr ⟨rfl, Or.inl ⟨rfl, fun _ _ => rfl, Or.inl rfl⟩⟩)

/-- The statement of the deposit fails, and the checkpoint is committed. -/
theorem checkpoint_without_deposit : ∃ w', Exec (.of (serve fun k => if k = 1 then .error else .ok))
    refreshDB ⟨depositBatch, ⟨[], none, true⟩, 0⟩ (.done ()) w' ∧
    w'.mysql_.log = [.block ⟨1, "hash", 7⟩] ∧
    ¬ AllOrNothing ⟨depositBatch, ⟨[], none, true⟩, 0⟩ w' := by
  have hx := exec_run (E := .of (serve fun k => if k = 1 then .error else .ok)) (fun _ _ => rfl)
    refreshDB ⟨depositBatch, ⟨[], none, true⟩, 0⟩
  refine ⟨_, hx, rfl, ?_⟩
  rintro (⟨h, -⟩ | ⟨-, h⟩) <;> cases h

end OpenWallet.Monitor.Batch
