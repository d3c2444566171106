import Mathlib.Tactic

/-!
A connection to a database that knows transactions, and what becomes of a batch of statements
between a `START TRANSACTION` and a `COMMIT` where any of the commands can fail.

The database is the list of the statements that have taken effect. A batch takes effect as a
whole in two ways: as the transaction it is meant to be, and one by one, where it is none.
-/

namespace OpenWallet.Lib

inductive Cmd (S : Type)
  | start
  | exec (s : S)
  | commit

/-- What becomes of a command that is sent. -/
inductive Fate
  | ok
  /-- an error; of a statement, it leaves the open transaction as it is -/
  | error
  /-- an error that also ends the open transaction, as a deadlock does -/
  | rollback
  /-- the connection breaks before the command has taken effect -/
  | down
  /-- the connection breaks when the command has taken effect -/
  | lost
  deriving DecidableEq

structure Conn (S : Type) where
  log : List S
  /-- the statements of the open transaction -/
  trx : Option (List S)
  up : Bool

namespace Conn

variable {S : Type} (c : Conn S)

/-- The effect of a command. A statement outside a transaction is one of its own. -/
def effect : Cmd S → Conn S
  | .start => { c with log := c.log ++ c.trx.getD [], trx := some [] }
  | .exec s =>
    match c.trx with
    | some l => { c with trx := some (l ++ [s]) }
    | none => { c with log := c.log ++ [s] }
  | .commit => { c with log := c.log ++ c.trx.getD [], trx := none }

/-- The server rolls back what a broken connection leaves open. -/
def gone : Conn S := { c with trx := none, up := false }

/-- Whether a command succeeds, and the connection after it. A `COMMIT` that fails has rolled
back. -/
def query (f : Fate) (cmd : Cmd S) : Bool × Conn S :=
  if c.up then
    match f, cmd with
    | .ok, _ => (true, c.effect cmd)
    | .error, .commit => (false, { c with trx := none })
    | .error, _ => (false, c)
    | .rollback, _ => (false, { c with trx := none })
    | .down, _ => (false, c.gone)
    | .lost, _ => (false, (c.effect cmd).gone)
  else (false, c)

/-! ### A batch -/

variable (fate : ℕ → Fate)

/-- Statements one after the other, the first of them the command number `k`. -/
def execs : ℕ → List S → Conn S → Conn S
  | _, [], c => c
  | k, s :: l, c => execs (k + 1) l (c.query (fate k) (.exec s)).2

/-- A batch, its first command the command number `k`. -/
def transact (k : ℕ) (l : List S) : Conn S :=
  ((execs fate (k + 1) l (c.query (fate k) .start).2).query (fate (k + 1 + l.length)) .commit).2

lemma execs_concat (k : ℕ) (l : List S) (s : S) (c : Conn S) :
    execs fate k (l ++ [s]) c =
      ((execs fate k l c).query (fate (k + l.length)) (.exec s)).2 := by
  induction l generalizing k c with
  | nil => rfl
  | cons a l ih =>
    rw [List.cons_append, execs, ih, execs, List.length_cons, Nat.add_right_comm, Nat.add_assoc]

/-- How the commands can have gone so far. -/
inductive Mode
  /-- in a transaction -/
  | opened
  /-- in none -/
  | bare
  /-- in none, and the connection has broken at the last command -/
  | cut
  /-- with a statement that has not taken effect -/
  | short
  deriving DecidableEq

/-- After the `START TRANSACTION`. -/
def Mode.first : Fate → Mode
  | .ok => opened
  | .error | .rollback => bare
  | .down | .lost => cut

/-- After one more statement. -/
def Mode.next : Mode → Fate → Mode
  | opened, .ok => opened
  | bare, .ok => bare
  | bare, .lost => cut
  | _, _ => short

/-- How a batch has gone after `n` of its statements. -/
def mode (k : ℕ) : ℕ → Mode
  | 0 => .first (fate k)
  | n + 1 => (mode k n).next (fate (k + 1 + n))

/-- What a connection holds after these statements of a batch. -/
def Holds (log l : List S) (c : Conn S) : Mode → Prop
  | .opened => c.up = true ∧ c.trx = some l ∧ c.log = log
  | .bare => c.up = true ∧ c.trx = none ∧ c.log = log ++ l
  | .cut => c.up = false ∧ c.trx = none ∧ c.log = log ++ l
  | .short => ∃ l', c.log = log ++ l' ∧ l'.length + (c.trx.getD []).length < l.length

variable {c fate} {log l : List S}

lemma Holds.short_concat (h : c.Holds log l .short) (s : S) : c.Holds log (l ++ [s]) .short := by
  obtain ⟨l', hlog, hlen⟩ := h
  refine ⟨l', hlog, ?_⟩
  rw [List.length_append]
  omega

lemma Holds.short_gone (h : c.Holds log l .short) :
    Holds log l { c with trx := none } .short ∧ c.gone.Holds log l .short := by
  obtain ⟨l', hlog, hlen⟩ := h
  have hnone : l'.length + ([] : List S).length < l.length :=
    lt_of_le_of_lt (Nat.add_le_add_left (Nat.zero_le _) _) hlen
  exact ⟨⟨l', hlog, hnone⟩, l', hlog, hnone⟩

lemma Holds.short_effect (h : c.Holds log l .short) (s : S) :
    (c.effect (.exec s)).Holds log (l ++ [s]) .short := by
  obtain ⟨l', hlog, hlen⟩ := h
  cases ht : c.trx with
  | none =>
    refine ⟨l' ++ [s], by simp [effect, ht, hlog], ?_⟩
    simp only [ht, Option.getD_none, List.length_nil, effect, List.length_append,
      List.length_singleton] at hlen ⊢
    omega
  | some t =>
    refine ⟨l', by simp [effect, ht, hlog], ?_⟩
    simp only [ht, Option.getD_some, effect, List.length_append, List.length_singleton] at hlen ⊢
    omega

lemma Holds.short_exec (h : c.Holds log l .short) (f : Fate) (s : S) :
    (c.query f (.exec s)).2.Holds log (l ++ [s]) .short := by
  unfold query
  split
  · cases f with
    | ok => exact h.short_effect s
    | error => exact h.short_concat s
    | rollback => exact (h.short_concat s).short_gone.1
    | down => exact (h.short_concat s).short_gone.2
    | lost => exact (h.short_effect s).short_gone.2
  · exact h.short_concat s

lemma Holds.opened_exec (h : c.Holds log l .opened) (f : Fate) (s : S) :
    (c.query f (.exec s)).2.Holds log (l ++ [s]) (Mode.opened.next f) := by
  obtain ⟨hup, ht, hlog⟩ := h
  have hmiss : ∀ c' : Conn S, c'.log = log → (c'.trx.getD []).length ≤ l.length →
      c'.Holds log (l ++ [s]) .short := by
    intro c' hlog' hlen
    refine ⟨[], by simp [hlog'], ?_⟩
    rw [List.length_append, List.length_singleton, List.length_nil]
    omega
  unfold query
  rw [if_pos hup]
  cases f with
  | ok => exact ⟨by simp [effect, ht, hup], by simp [effect, ht], by simp [effect, ht, hlog]⟩
  | error => exact hmiss _ hlog (by simp [ht])
  | rollback => exact hmiss _ hlog (Nat.zero_le _)
  | down => exact hmiss _ hlog (Nat.zero_le _)
  | lost => exact hmiss _ (by simp [gone, effect, ht, hlog]) (Nat.zero_le _)

lemma Holds.bare_exec (h : c.Holds log l .bare) (f : Fate) (s : S) :
    (c.query f (.exec s)).2.Holds log (l ++ [s]) (Mode.bare.next f) := by
  obtain ⟨hup, ht, hlog⟩ := h
  have hmiss : ∀ c' : Conn S, c'.log = log ++ l → c'.trx = none →
      c'.Holds log (l ++ [s]) .short := by
    intro c' hlog' ht'
    refine ⟨l, hlog', ?_⟩
    simp [ht']
  unfold query
  rw [if_pos hup]
  cases f with
  | ok => exact ⟨by simp [effect, ht, hup], by simp [effect, ht], by simp [effect, ht, hlog]⟩
  | error => exact hmiss _ hlog ht
  | rollback => exact hmiss _ hlog rfl
  | down => exact hmiss _ hlog rfl
  | lost => exact ⟨rfl, rfl, by simp [gone, effect, ht, hlog]⟩

lemma Holds.cut_exec (h : c.Holds log l .cut) (f : Fate) (s : S) :
    (c.query f (.exec s)).2.Holds log (l ++ [s]) .short := by
  obtain ⟨hup, ht, hlog⟩ := h
  unfold query
  rw [if_neg (by simp [hup])]
  exact ⟨l, hlog, by simp [ht]⟩

lemma Holds.exec {m : Mode} (h : c.Holds log l m) (f : Fate) (s : S) :
    (c.query f (.exec s)).2.Holds log (l ++ [s]) (m.next f) := by
  cases m with
  | opened => exact h.opened_exec f s
  | bare => exact h.bare_exec f s
  | cut => exact h.cut_exec f s
  | short => exact h.short_exec f s

/-- A batch is in the mode its fates say. -/
lemma holds_execs {k : ℕ} (hup : c.up = true) (ht : c.trx = none) (l : List S) :
    (execs fate (k + 1) l (c.query (fate k) .start).2).Holds c.log l (mode fate k l.length) := by
  induction l using List.reverseRecOn with
  | nil =>
    unfold query
    rw [if_pos hup]
    change Holds c.log [] _ (Mode.first (fate k))
    cases fate k with
    | ok => exact ⟨hup, rfl, by simp [execs, effect, ht]⟩
    | error => exact ⟨hup, ht, by simp [execs]⟩
    | rollback => exact ⟨hup, rfl, by simp [execs]⟩
    | down => exact ⟨rfl, rfl, by simp [execs, gone]⟩
    | lost => exact ⟨rfl, rfl, by simp [execs, gone, effect, ht]⟩
  | append_singleton l s ih =>
    rw [execs_concat, List.length_append, List.length_singleton, mode]
    exact ih.exec _ s

lemma mode_opened {k n : ℕ} :
    mode fate k n = .opened ↔ fate k = .ok ∧ ∀ i < n, fate (k + 1 + i) = .ok := by
  induction n with
  | zero => cases hf : fate k <;> simp [mode, Mode.first, hf]
  | succ n ih =>
    rw [Nat.forall_lt_succ_right, ← and_assoc, ← ih, mode]
    cases mode fate k n <;> cases fate (k + 1 + n) <;> simp [Mode.next]

lemma mode_bare {k n : ℕ} : mode fate k n = .bare ↔
    (fate k = .error ∨ fate k = .rollback) ∧ ∀ i < n, fate (k + 1 + i) = .ok := by
  induction n with
  | zero => cases hf : fate k <;> simp [mode, Mode.first, hf]
  | succ n ih =>
    rw [Nat.forall_lt_succ_right, ← and_assoc, ← ih, mode]
    cases mode fate k n <;> cases fate (k + 1 + n) <;> simp [Mode.next]

lemma mode_cut {k n : ℕ} : mode fate k (n + 1) = .cut ↔
    mode fate k n = .bare ∧ fate (k + 1 + n) = .lost := by
  rw [mode]
  cases mode fate k n <;> cases fate (k + 1 + n) <;> simp [Mode.next]

/-- The commands of a batch of `n` statements go through: all of them, where the `COMMIT` may
break the connection; or none but the statements, where the last may. -/
def Whole (fate : ℕ → Fate) (k n : ℕ) : Prop :=
  (fate k = .ok ∧ (∀ i < n, fate (k + 1 + i) = .ok) ∧
    (fate (k + 1 + n) = .ok ∨ fate (k + 1 + n) = .lost)) ∨
  ((fate k = .error ∨ fate k = .rollback) ∧ (∀ i, i + 1 < n → fate (k + 1 + i) = .ok) ∧
    (fate (k + n) = .ok ∨ fate (k + n) = .lost))

lemma whole_iff {k n : ℕ} (hn : 0 < n) : Whole fate k n ↔
    (mode fate k n = .opened ∧ (fate (k + 1 + n) = .ok ∨ fate (k + 1 + n) = .lost)) ∨
      mode fate k n = .bare ∨ mode fate k n = .cut := by
  obtain ⟨n, rfl⟩ : ∃ m, n = m + 1 := ⟨n - 1, by omega⟩
  have hlast : k + (n + 1) = k + 1 + n := by omega
  have hinit : (∀ i, i + 1 < n + 1 → fate (k + 1 + i) = .ok) ↔ ∀ i < n, fate (k + 1 + i) = .ok :=
    forall_congr' fun i => by rw [Nat.add_lt_add_iff_right]
  rw [Whole, hlast, hinit, mode_opened, mode_cut, mode_bare, mode_bare, Nat.forall_lt_succ_right]
  tauto

/-- What the `COMMIT` makes of a batch. -/
lemma Holds.commit {m : Mode} (h : c.Holds log l m) (hl : l ≠ []) (f : Fate) :
    (c.query f .commit).2.log = log ++ l ↔
      (m = .opened ∧ (f = .ok ∨ f = .lost)) ∨ m = .bare ∨ m = .cut := by
  cases m with
  | opened =>
    obtain ⟨hup, ht, hlog⟩ := h
    unfold query
    rw [if_pos hup]
    cases f <;> simp [effect, gone, ht, hlog, hl]
  | bare =>
    obtain ⟨hup, ht, hlog⟩ := h
    unfold query
    rw [if_pos hup]
    cases f <;> simp [effect, gone, ht, hlog]
  | cut =>
    obtain ⟨hup, ht, hlog⟩ := h
    unfold query
    rw [if_neg (by simp [hup])]
    simp [hlog]
  | short =>
    obtain ⟨l', hlog, hlen⟩ := h
    have hmiss : ∀ t : List S, t.length ≤ (c.trx.getD []).length → c.log ++ t ≠ log ++ l := by
      rintro t ht heq
      rw [hlog, List.append_assoc] at heq
      have hlength := congrArg List.length (List.append_cancel_left heq)
      rw [List.length_append] at hlength
      omega
    have hnone : c.log ≠ log ++ l := by simpa using hmiss [] (Nat.zero_le _)
    unfold query
    split
    · cases f <;> simp [effect, gone, hnone, hmiss _ le_rfl]
    · simpa using hnone

/-- **A batch takes effect as a whole** if its commands go through, and only then. -/
theorem transact_iff {k : ℕ} (hup : c.up = true) (ht : c.trx = none) (hl : l ≠ []) :
    (c.transact fate k l).log = c.log ++ l ↔ Whole fate k l.length := by
  rw [transact, (holds_execs hup ht l).commit hl, whole_iff (List.length_pos_of_ne_nil hl)]

lemma transact_down {k : ℕ} (hup : c.up = false) : c.transact fate k l = c := by
  have hquery : ∀ f cmd, (c.query f cmd).2 = c := by
    intro f cmd
    unfold query
    rw [if_neg (by simp [hup])]
  have hexecs : ∀ k, execs fate k l c = c := by
    induction l with
    | nil => exact fun _ => rfl
    | cons s l ih =>
      intro k
      rw [execs, hquery]
      exact ih _
  rw [transact, hquery, hexecs, hquery]

/-- A broken connection has no transaction open. -/
def Tidy (c : Conn S) : Prop := c.up = false → c.trx = none

lemma Tidy.query (h : c.Tidy) (f : Fate) (cmd : Cmd S) : (c.query f cmd).2.Tidy := by
  unfold Conn.query
  split
  · next hup =>
    cases f with
    | ok =>
      intro hdown
      cases cmd with
      | start | commit => simp [effect, hup] at hdown
      | exec s =>
        simp only [effect] at hdown
        split at hdown <;> simp [hup] at hdown
    | error => cases cmd <;> simp [Tidy, hup]
    | _ => exact fun _ => rfl
  · exact h

lemma Tidy.commit (h : c.Tidy) (f : Fate) : (c.query f .commit).2.trx = none := by
  unfold Conn.query
  split
  · cases f <;> rfl
  · next hup => exact h (by simpa using hup)

lemma transact_trx {k : ℕ} (ht : c.trx = none) : (c.transact fate k l).trx = none := by
  have hexecs : ∀ k (c : Conn S), c.Tidy → (execs fate k l c).Tidy := by
    induction l with
    | nil => exact fun _ _ h => h
    | cons s l ih => exact fun k c h => ih _ _ (h.query _ _)
  have hstart : (c.query (fate k) .start).2.Tidy := Tidy.query (fun _ => ht) _ _
  exact (hexecs _ _ hstart).commit _

end Conn

end OpenWallet.Lib
