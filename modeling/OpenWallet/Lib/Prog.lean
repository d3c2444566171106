import Mathlib.Tactic

/-!
Programs that talk to their surroundings by calls, the runs such a program can have, and the
rules that prove what holds after every run.

A program is a tree: it returns, throws, or makes a call and goes on with the answer. The
surroundings say which answers a call can get in a world, and in which worlds the process can
die at a call, so that a run is cut short at any point. `wp` is the weakest condition under
which every run that returns ends in `Q` and every run that does not ends in `D`.
-/

namespace OpenWallet.Lib

/-- A program over the calls `Op` that returns an `α` or throws an `ε`. -/
inductive Prog {Op : Type} (Ans : Op → Type) (ε α : Type) : Type
  | ret (a : α)
  | raise (e : ε)
  | call (o : Op) (k : Ans o → Prog Ans ε α)

namespace Prog

variable {Op : Type} {Ans : Op → Type} {ε : Type} {α β γ W : Type}

protected def bind (p : Prog Ans ε α) (f : α → Prog Ans ε β) : Prog Ans ε β :=
  match p with
  | ret a => f a
  | raise e => raise e
  | call o k => call o fun r => (k r).bind f

instance : Monad (Prog Ans ε) where
  pure := ret
  bind := Prog.bind

@[simp] lemma pure_eq (a : α) : (pure a : Prog Ans ε α) = ret a := rfl
@[simp] lemma ret_bind (a : α) (f : α → Prog Ans ε β) : ret a >>= f = f a := rfl
@[simp] lemma raise_bind (e : ε) (f : α → Prog Ans ε β) : raise e >>= f = raise e := rfl
@[simp] lemma call_bind (o : Op) (k : Ans o → Prog Ans ε α) (f : α → Prog Ans ε β) :
    call o k >>= f = call o fun r => k r >>= f := rfl

protected lemma id_map (p : Prog Ans ε α) : id <$> p = p := by
  induction p with
  | ret | raise => rfl
  | call o k ih => exact congrArg (call o) (funext ih)

protected lemma bind_assoc (p : Prog Ans ε α) (f : α → Prog Ans ε β) (g : β → Prog Ans ε γ) :
    p >>= f >>= g = p >>= fun a => f a >>= g := by
  induction p with
  | ret | raise => rfl
  | call o k ih => exact congrArg (call o) (funext ih)

instance : LawfulMonad (Prog Ans ε) :=
  .mk' _ Prog.id_map (fun _ _ => rfl) Prog.bind_assoc

def op (o : Op) : Prog Ans ε (Ans o) := call o ret

/-- A computation without calls. -/
def lift : Except ε α → Prog Ans ε α
  | .ok a => ret a
  | .error e => raise e

lemma lift_ok (a : α) : (lift (.ok a) : Prog Ans ε α) = ret a := rfl

instance : MonadLift (Except ε) (Prog Ans ε) := ⟨lift⟩

@[simp] lemma liftM_eq (x : Except ε α) : (liftM x : Prog Ans ε α) = lift x := rfl

/-! ### Loops -/

/-- How one pass of a loop body ends: `continue` and falling through are `next`. -/
inductive Flow
  | next | brk
  deriving DecidableEq

/-- `for (x : xs) body`, with the variables the body assigns. -/
def loop (body : α → β → Prog Ans ε (Flow × β)) : List α → β → Prog Ans ε (Flow × β)
  | [], b => ret (.next, b)
  | x :: xs, b => body x b >>= fun r =>
    match r.1 with
    | .next => loop body xs r.2
    | .brk => ret (.brk, r.2)

/-- A loop without `break` whose body assigns nothing. -/
def forEach (body : α → Prog Ans ε Unit) : List α → Prog Ans ε Unit
  | [] => ret ()
  | x :: xs => body x >>= fun _ => forEach body xs

end Prog

open Prog

/-- The surroundings: the answers a call can get, with the world after it, and the worlds a
process that dies at a call leaves behind. -/
structure Env {Op : Type} (Ans : Op → Type) (W : Type) where
  answers : (o : Op) → W → Ans o → W → Prop
  dies : Op → W → W → Prop

inductive Outcome (ε α : Type)
  | done (a : α)
  | threw (e : ε)
  | died

section Runs

variable {Op : Type} {Ans : Op → Type} {ε α β W : Type} (E : Env Ans W)

inductive Exec : Prog Ans ε α → W → Outcome ε α → W → Prop
  | ret {a : α} {w : W} : Exec (ret a) w (.done a) w
  | raise {e : ε} {w : W} : Exec (raise e) w (.threw e) w
  | call {o : Op} {k : Ans o → Prog Ans ε α} {w w₁ w₂ : W} {r : Ans o} {x : Outcome ε α} :
      E.answers o w r w₁ → Exec (k r) w₁ x w₂ → Exec (call o k) w x w₂
  | die {o : Op} {k : Ans o → Prog Ans ε α} {w w₁ : W} :
      E.dies o w w₁ → Exec (call o k) w .died w₁

/-- Every run from `w` that returns ends in `Q`, and every other one ends in `D`. -/
def wp : Prog Ans ε α → (α → W → Prop) → (W → Prop) → W → Prop
  | ret a, Q, _, w => Q a w
  | raise _, _, D, w => D w
  | call o k, Q, D, w =>
    (∀ w₁, E.dies o w w₁ → D w₁) ∧ ∀ r w₁, E.answers o w r w₁ → wp (k r) Q D w₁

variable {E} {Q Q' : α → W → Prop} {D D' : W → Prop} {w w₁ : W}

@[simp] lemma wp_ret (a : α) : wp E (ret a : Prog Ans ε α) Q D w ↔ Q a w := Iff.rfl
@[simp] lemma wp_raise (e : ε) : wp E (raise e : Prog Ans ε α) Q D w ↔ D w := Iff.rfl

lemma wp_call (o : Op) (k : Ans o → Prog Ans ε α) : wp E (call o k) Q D w ↔
    (∀ w₁, E.dies o w w₁ → D w₁) ∧ ∀ r w₁, E.answers o w r w₁ → wp E (k r) Q D w₁ := Iff.rfl

lemma wp_op (o : Op) {Q : Ans o → W → Prop} : wp E (op o : Prog Ans ε (Ans o)) Q D w ↔
    (∀ w₁, E.dies o w w₁ → D w₁) ∧ ∀ r w₁, E.answers o w r w₁ → Q r w₁ := Iff.rfl

@[simp] lemma wp_bind (p : Prog Ans ε α) (f : α → Prog Ans ε β) {Q : β → W → Prop} :
    wp E (p >>= f) Q D w ↔ wp E p (fun a w₁ => wp E (f a) Q D w₁) D w := by
  induction p generalizing w with
  | ret a => rfl
  | raise e => rfl
  | call o k ih =>
    simp only [call_bind, wp_call]
    exact and_congr_right fun _ => forall_congr' fun r => forall_congr' fun w₁ =>
      imp_congr_right fun _ => ih r

@[simp] lemma wp_lift (x : Except ε α) : wp E (lift x : Prog Ans ε α) Q D w ↔
    (∀ a, x = .ok a → Q a w) ∧ (∀ e, x = .error e → D w) := by
  cases x <;> simp [lift]

lemma wp_lift_ok {x : Except ε α} (hD : D w) (hQ : ∀ a, x = .ok a → Q a w) :
    wp E (lift x : Prog Ans ε α) Q D w :=
  (wp_lift x).mpr ⟨hQ, fun _ _ => hD⟩

lemma wp_lift_any {x : Except ε α} (hD : D w) (hQ : ∀ a, Q a w) :
    wp E (lift x : Prog Ans ε α) Q D w :=
  wp_lift_ok hD fun a _ => hQ a

lemma wp_mono {p : Prog Ans ε α} (h : wp E p Q D w) (hQ : ∀ a w₁, Q a w₁ → Q' a w₁)
    (hD : ∀ w₁, D w₁ → D' w₁) : wp E p Q' D' w := by
  induction p generalizing w with
  | ret a => exact hQ _ _ h
  | raise e => exact hD _ h
  | call o k ih => exact ⟨fun w₁ hd => hD _ (h.1 w₁ hd), fun r w₁ hr => ih r (h.2 r w₁ hr)⟩

lemma wp_and {p : Prog Ans ε α} (h : wp E p Q D w) (h' : wp E p Q' D' w) :
    wp E p (fun a w₁ => Q a w₁ ∧ Q' a w₁) (fun w₁ => D w₁ ∧ D' w₁) w := by
  induction p generalizing w with
  | ret a => exact ⟨h, h'⟩
  | raise e => exact ⟨h, h'⟩
  | call o k ih =>
    exact ⟨fun w₁ hd => ⟨h.1 w₁ hd, h'.1 w₁ hd⟩,
      fun r w₁ hr => ih r (h.2 r w₁ hr) (h'.2 r w₁ hr)⟩

/-- What the outcome of a run owes, given what returning and not returning owe. -/
def Post (Q : α → W → Prop) (D : W → Prop) : Outcome ε α → W → Prop
  | .done a, w => Q a w
  | _, w => D w

/-- **The rules are sound**: a run ends as its weakest precondition says. -/
theorem exec_post {p : Prog Ans ε α} {x : Outcome ε α} (hx : Exec E p w x w₁)
    (h : wp E p Q D w) : Post Q D x w₁ := by
  induction hx with
  | ret => exact h
  | raise => exact h
  | call hr _ ih => exact ih (h.2 _ _ hr)
  | die hd => exact h.1 _ hd

lemma exec_bind {p : Prog Ans ε α} {f : α → Prog Ans ε β} {y : Outcome ε β} :
    Exec E (p >>= f) w y w₁ ↔
      (∃ a w₂, Exec E p w (.done a) w₂ ∧ Exec E (f a) w₂ y w₁) ∨
      (∃ e, y = .threw e ∧ Exec E p w (.threw e) w₁) ∨ (y = .died ∧ Exec E p w .died w₁) := by
  constructor
  · intro h
    induction p generalizing w with
    | ret a => exact Or.inl ⟨a, w, .ret, h⟩
    | raise e =>
      cases h
      exact Or.inr (Or.inl ⟨e, rfl, .raise⟩)
    | call o k ih =>
      cases h with
      | die hd => exact Or.inr (Or.inr ⟨rfl, .die hd⟩)
      | call hr hx =>
        rcases ih _ hx with ⟨a, w₂, hp, hf⟩ | ⟨e, rfl, hp⟩ | ⟨rfl, hp⟩
        · exact Or.inl ⟨a, w₂, .call hr hp, hf⟩
        · exact Or.inr (Or.inl ⟨e, rfl, .call hr hp⟩)
        · exact Or.inr (Or.inr ⟨rfl, .call hr hp⟩)
  · intro h
    induction p generalizing w with
    | ret a =>
      rcases h with ⟨_, _, hp, hf⟩ | ⟨_, _, hp⟩ | ⟨_, hp⟩
      · cases hp
        exact hf
      · cases hp
      · cases hp
    | raise e =>
      rcases h with ⟨_, _, hp, -⟩ | ⟨_, rfl, hp⟩ | ⟨_, hp⟩
      · cases hp
      · cases hp
        exact .raise
      · cases hp
    | call o k ih =>
      rcases h with ⟨a, w₂, hp, hf⟩ | ⟨e, rfl, hp⟩ | ⟨rfl, hp⟩
      · cases hp with
        | call hr hp => exact .call hr (ih _ (Or.inl ⟨a, w₂, hp, hf⟩))
      · cases hp with
        | call hr hp => exact .call hr (ih _ (Or.inr (Or.inl ⟨e, rfl, hp⟩)))
      · cases hp with
        | call hr hp => exact .call hr (ih _ (Or.inr (Or.inr ⟨rfl, hp⟩)))
        | die hd => exact .die hd

/-- Every run returns, and ends in `Q`. -/
def Returns (E : Env Ans W) (p : Prog Ans ε α) (Q : α → W → Prop) (w : W) : Prop :=
  ∀ x w₁, Exec E p w x w₁ → ∃ a, x = .done a ∧ Q a w₁

lemma returns_of_wp {p : Prog Ans ε α} (h : wp E p Q (fun _ => False) w) : Returns E p Q w := by
  intro x w₁ hx
  have hpost := exec_post hx h
  cases x with
  | done a => exact ⟨a, rfl, hpost⟩
  | threw | died => exact hpost.elim

/-- A condition on the start without which no run returns, and with which every run returns as
it is to, is the condition for that. -/
lemma returns_iff {p : Prog Ans ε α} {c : Prop} (hrun : ∃ x w₁, Exec E p w x w₁)
    (h : wp E p (fun a w₁ => c ∧ Q a w₁) (fun _ => ¬ c) w) : Returns E p Q w ↔ c := by
  constructor
  · intro hret
    obtain ⟨x, w₁, hx⟩ := hrun
    obtain ⟨a, rfl, -⟩ := hret x w₁ hx
    have hpost : c ∧ Q a w₁ := exec_post hx h
    exact hpost.1
  · intro hc
    exact returns_of_wp (wp_mono h (fun _ _ hq => hq.2) fun _ hn => hn hc)

/-- The rule for loops: `I` holds of the elements passed, `B` of those up to a `break`. -/
lemma wp_loop {body : α → β → Prog Ans ε (Flow × β)} {I B : List α → β → W → Prop}
    (xs : List α) {b : β} (h0 : I [] b w)
    (hstep : ∀ pre x post b w, xs = pre ++ x :: post → I pre b w →
      wp E (body x b) (fun r w₁ => match r.1 with
        | .next => I (pre ++ [x]) r.2 w₁
        | .brk => B (pre ++ [x]) r.2 w₁) D w) :
    wp E (loop body xs b) (fun r w₁ => match r.1 with
      | .next => I xs r.2 w₁
      | .brk => ∃ pre post, xs = pre ++ post ∧ B pre r.2 w₁) D w := by
  suffices H : ∀ pre post b w, xs = pre ++ post → I pre b w →
      wp E (loop body post b) (fun r w₁ => match r.1 with
        | .next => I xs r.2 w₁
        | .brk => ∃ pre post, xs = pre ++ post ∧ B pre r.2 w₁) D w from H [] xs b w rfl h0
  intro pre post
  induction post generalizing pre with
  | nil =>
    intro b w hxs hI
    rw [List.append_nil] at hxs
    subst hxs
    exact hI
  | cons x post ih =>
    intro b w hxs hI
    rw [loop, wp_bind]
    refine wp_mono (hstep pre x post b w hxs hI) (fun r w₁ hr => ?_) fun _ h => h
    obtain ⟨fl, b'⟩ := r
    cases fl with
    | next => exact ih (pre ++ [x]) b' w₁ (by simp [hxs]) hr
    | brk => exact ⟨pre ++ [x], post, by simp [hxs], hr⟩

/-- The rule for a loop that counts to `n`, where a `break` counts as the passes left out. -/
lemma wp_loop_range {body : ℕ → β → Prog Ans ε (Flow × β)} {I : ℕ → β → W → Prop} (n : ℕ) {b : β}
    (h0 : I 0 b w) (hle : ∀ i b w, i ≤ n → I i b w → I n b w)
    (hstep : ∀ i b w, i < n → I i b w → wp E (body i b) (fun r w₁ => I (i + 1) r.2 w₁) D w) :
    wp E (loop body (List.range n) b) (fun r w₁ => I n r.2 w₁) D w := by
  suffices H : ∀ k i b w, i + k = n → I i b w →
      wp E (loop body (List.range' i k) b) (fun r w₁ => I n r.2 w₁) D w by
    rw [List.range_eq_range']
    exact H n 0 b w (Nat.zero_add n) h0
  intro k
  induction k with
  | zero => exact fun i b w hi h => hle i b w (by omega) h
  | succ k ih =>
    intro i b w hi h
    rw [List.range'_succ, loop, wp_bind]
    refine wp_mono (hstep i b w (by omega) h) (fun r w₁ hr => ?_) fun _ h => h
    obtain ⟨fl, b'⟩ := r
    cases fl with
    | next => exact ih (i + 1) b' w₁ (by omega) hr
    | brk => exact hle (i + 1) b' w₁ (by omega) hr

lemma wp_loop_always {body : α → β → Prog Ans ε (Flow × β)} {I : β → W → Prop} (xs : List α)
    {b : β} (h : I b w)
    (hstep : ∀ x b w, I b w → wp E (body x b) (fun r w₁ => I r.2 w₁) D w) :
    wp E (loop body xs b) (fun r w₁ => I r.2 w₁) D w := by
  refine wp_mono (wp_loop (I := fun _ => I) (B := fun _ => I) xs h fun _ x _ b w₁ _ h₁ => ?_) ?_
    fun _ h => h
  · refine wp_mono (hstep x b w₁ h₁) (fun r w₂ h₂ => ?_) fun _ h => h
    obtain ⟨_ | _, b'⟩ := r <;> exact h₂
  · rintro ⟨_ | _, b'⟩ w₁ h₁
    · exact h₁
    · obtain ⟨_, _, _, h₁⟩ := h₁
      exact h₁

lemma wp_forEach {body : α → Prog Ans ε Unit} {I : List α → W → Prop} (xs : List α)
    (h0 : I [] w)
    (hstep : ∀ pre x post w, xs = pre ++ x :: post → I pre w →
      wp E (body x) (fun _ w₁ => I (pre ++ [x]) w₁) D w) :
    wp E (forEach body xs) (fun _ w₁ => I xs w₁) D w := by
  suffices H : ∀ pre post w, xs = pre ++ post → I pre w →
      wp E (forEach body post) (fun _ w₁ => I xs w₁) D w from H [] xs w rfl h0
  intro pre post
  induction post generalizing pre with
  | nil =>
    intro w hxs hI
    rw [List.append_nil] at hxs
    subst hxs
    exact hI
  | cons x post ih =>
    intro w hxs hI
    rw [forEach, wp_bind]
    exact wp_mono (hstep pre x post w hxs hI)
      (fun _ w₁ hr => ih (pre ++ [x]) w₁ (by simp [hxs]) hr) fun _ h => h

/-! The same rules for a loop that counts. -/

lemma zipIdx_split {xs : List α} {l l' : List (α × ℕ)} {a : α} {n : ℕ}
    (h : xs.zipIdx = l ++ (a, n) :: l') :
    n = l.length ∧ xs = l.map Prod.fst ++ a :: l'.map Prod.fst := by
  constructor
  · have hget := congrArg (fun l' => l'[l.length]?) h
    simp only [List.getElem?_zipIdx, Nat.zero_add, List.getElem?_append_right le_rfl,
      Nat.sub_self, List.getElem?_cons_zero, Option.map_eq_some_iff, Prod.mk.injEq] at hget
    obtain ⟨-, -, -, hn⟩ := hget
    exact hn.symm
  · have hmap := congrArg (List.map Prod.fst) h
    simpa using hmap

lemma wp_loop_zipIdx {f : α × ℕ → β → Prog Ans ε (Flow × β)} {I B : List α → β → W → Prop}
    (xs : List α) {b : β} (h0 : I [] b w)
    (hstep : ∀ pre a post b w, xs = pre ++ a :: post → I pre b w →
      wp E (f (a, pre.length) b) (fun r w₁ => match r.1 with
        | .next => I (pre ++ [a]) r.2 w₁
        | .brk => B (pre ++ [a]) r.2 w₁) D w) :
    wp E (loop f xs.zipIdx b) (fun r w₁ => match r.1 with
      | .next => I xs r.2 w₁
      | .brk => ∃ pre post, xs = pre ++ post ∧ B pre r.2 w₁) D w := by
  refine wp_mono (wp_loop (I := fun l b w => I (l.map Prod.fst) b w)
    (B := fun l b w => B (l.map Prod.fst) b w) xs.zipIdx h0 ?_) ?_ fun _ h => h
  · rintro l ⟨a, n⟩ l' b w₁ hl hI
    obtain ⟨rfl, hxs⟩ := zipIdx_split hl
    simpa using hstep _ a _ b w₁ hxs hI
  · rintro ⟨fl, b'⟩ w₁ hr
    cases fl with
    | next => simpa using hr
    | brk =>
      obtain ⟨l, l', hl, hB⟩ := hr
      refine ⟨l.map Prod.fst, l'.map Prod.fst, ?_, hB⟩
      simpa using congrArg (List.map Prod.fst) hl

lemma wp_forEach_zipIdx {f : α × ℕ → Prog Ans ε Unit} {I : List α → W → Prop} (xs : List α)
    (h0 : I [] w)
    (hstep : ∀ pre a post w, xs = pre ++ a :: post → I pre w →
      wp E (f (a, pre.length)) (fun _ w₁ => I (pre ++ [a]) w₁) D w) :
    wp E (forEach f xs.zipIdx) (fun _ w₁ => I xs w₁) D w := by
  refine wp_mono (wp_forEach (I := fun l w => I (l.map Prod.fst) w) xs.zipIdx h0 ?_)
    (fun _ w₁ h => by simpa using h) fun _ h => h
  rintro l ⟨a, n⟩ l' w₁ hl hI
  obtain ⟨rfl, hxs⟩ := zipIdx_split hl
  simpa using hstep _ a _ w₁ hxs hI

end Runs

section Calls

variable {Op : Type} {Ans : Op → Type} {ε α β W : Type}

/-- The program makes no calls but those in `S`, and returns values in `Q` only. -/
def Prog.Within (S : Op → Prop) (Q : α → Prop) : Prog Ans ε α → Prop
  | ret a => Q a
  | raise _ => True
  | call o k => S o ∧ ∀ r, (k r).Within S Q

variable {S : Op → Prop} {P : α → Prop} {Q : β → Prop}

@[simp] lemma within_ret (a : α) : (ret a : Prog Ans ε α).Within S P ↔ P a := Iff.rfl
@[simp] lemma within_raise (e : ε) : (raise e : Prog Ans ε α).Within S P := trivial

lemma within_op {o : Op} {P : Ans o → Prop} (ho : S o) (hP : ∀ r, P r) :
    (op o : Prog Ans ε (Ans o)).Within S P :=
  ⟨ho, hP⟩

lemma within_lift {x : Except ε α} (hP : ∀ a, P a) : (lift x : Prog Ans ε α).Within S P := by
  cases x with
  | ok a => exact hP a
  | error e => trivial

lemma within_lift_bind {x : Except ε α} {f : α → Prog Ans ε β}
    (h : ∀ a, x = .ok a → (f a).Within S Q) : (lift x >>= f).Within S Q := by
  cases x with
  | ok a => exact h a rfl
  | error e => trivial

lemma within_bind {p : Prog Ans ε α} {f : α → Prog Ans ε β} (hp : p.Within S P)
    (hf : ∀ a, P a → (f a).Within S Q) : (p >>= f).Within S Q := by
  induction p with
  | ret a => exact hf a hp
  | raise e => trivial
  | call o k ih => exact ⟨hp.1, fun r => ih r (hp.2 r)⟩

/-- A loop that keeps within the calls, with what holds after a number of passes. -/
lemma within_loop {body : ℕ → β → Prog Ans ε (Flow × β)} {I : ℕ → β → Prop} (n : ℕ) {b : β}
    (h0 : I 0 b) (hle : ∀ i b, i ≤ n → I i b → I n b)
    (hstep : ∀ i b, i < n → I i b → (body i b).Within S fun r => I (i + 1) r.2) :
    (loop body (List.range n) b).Within S fun r => I n r.2 := by
  suffices H : ∀ k i b, i + k = n → I i b →
      (loop body (List.range' i k) b).Within S fun r => I n r.2 by
    rw [List.range_eq_range']
    exact H n 0 b (Nat.zero_add n) h0
  intro k
  induction k with
  | zero =>
    intro i b hi h
    exact hle i b (by omega) h
  | succ k ih =>
    intro i b hi h
    rw [List.range'_succ, loop]
    refine within_bind (hstep i b (by omega) h) fun r hr => ?_
    obtain ⟨fl, b'⟩ := r
    cases fl with
    | next => exact ih (i + 1) b' (by omega) hr
    | brk => exact hle (i + 1) b' (by omega) hr

lemma within_loop_always {γ : Type} {body : γ → β → Prog Ans ε (Flow × β)} {I : β → Prop}
    {xs : List γ} {b : β} (h : I b)
    (hstep : ∀ x b, I b → (body x b).Within S fun r => I r.2) :
    (loop body xs b).Within S fun r => I r.2 := by
  induction xs generalizing b with
  | nil => exact h
  | cons x xs ih =>
    rw [loop]
    refine within_bind (hstep x b h) fun r hr => ?_
    obtain ⟨fl, b'⟩ := r
    cases fl with
    | next => exact ih hr
    | brk => exact hr

lemma within_mono {S' : Op → Prop} {p : Prog Ans ε α} (hp : p.Within S P) (hS : ∀ o, S o → S' o) :
    p.Within S' P := by
  induction p with
  | ret a => exact hp
  | raise e => trivial
  | call o k ih => exact ⟨hS o hp.1, fun r => ih r (hp.2 r)⟩

/-- What all the calls a program makes keep, the program keeps. -/
lemma wp_within {E : Env Ans W} {I : W → Prop} {p : Prog Ans ε α} (hp : p.Within S P)
    (hdies : ∀ o w w', S o → I w → E.dies o w w' → I w')
    (hanswers : ∀ o w r w', S o → I w → E.answers o w r w' → I w') {w : W} (h : I w) :
    wp E p (fun a w' => P a ∧ I w') I w := by
  induction p generalizing w with
  | ret a => exact ⟨hp, h⟩
  | raise e => exact h
  | call o k ih =>
    exact ⟨fun w₁ hd => hdies o w w₁ hp.1 h hd,
      fun r w₁ hr => ih r (hp.2 r) (hanswers o w r w₁ hp.1 h hr)⟩

end Calls

section Only

variable {Op : Type} {Ans : Op → Type} {ε α W : Type}

/-- The surroundings where calls get only the answers that `ok` allows. -/
def Env.only (E : Env Ans W) (ok : (o : Op) → W → Ans o → Prop) : Env Ans W where
  answers o w r w' := E.answers o w r w' ∧ ok o w r
  dies := E.dies

variable {E : Env Ans W} {ok : (o : Op) → W → Ans o → Prop} {D : W → Prop} {w : W}

/-- What holds after all runs holds after those in surroundings with fewer of them. -/
lemma wp_fewer {E' : Env Ans W} {p : Prog Ans ε α} {Q : α → W → Prop}
    (hanswers : ∀ o w r w', E'.answers o w r w' → E.answers o w r w')
    (hdies : ∀ o w w', E'.dies o w w' → E.dies o w w') (h : wp E p Q D w) : wp E' p Q D w := by
  induction p generalizing w with
  | ret a => exact h
  | raise e => exact h
  | call o k ih =>
    exact ⟨fun w₁ hd => h.1 w₁ (hdies _ _ _ hd), fun r w₁ hr => ih r (h.2 r w₁ (hanswers _ _ _ _ hr))⟩

lemma wp_only {p : Prog Ans ε α} {Q : α → W → Prop} (h : wp E p Q D w) :
    wp (E.only ok) p Q D w :=
  wp_fewer (fun _ _ _ _ hr => hr.1) (fun _ _ _ hd => hd) h

end Only

section Among

variable {Op : Type} {Ans : Op → Type} {ε α W : Type}

/-- The surroundings where others move before each call. -/
def Env.among (E : Env Ans W) (R : W → W → Prop) : Env Ans W where
  answers o w r w' := ∃ w₁, Relation.ReflTransGen R w w₁ ∧ E.answers o w₁ r w'
  dies o w w' := ∃ w₁, Relation.ReflTransGen R w w₁ ∧ E.dies o w₁ w'

variable {E : Env Ans W} {R : W → W → Prop} {I : W → Prop} {D : W → Prop} {w : W}

lemma kept_of_others (hR : ∀ w w', I w → R w w' → I w') {w' : W}
    (h : Relation.ReflTransGen R w w') (hw : I w) : I w' := by
  induction h with
  | refl => exact hw
  | tail _ hr ih => exact hR _ _ ih hr

lemma exec_among {p : Prog Ans ε α} {x : Outcome ε α} {w w' : W} (h : Exec E p w x w') :
    Exec (E.among R) p w x w' := by
  induction h with
  | ret => exact .ret
  | raise => exact .raise
  | call hr _ ih => exact .call ⟨_, .refl, hr⟩ ih
  | die hd => exact .die ⟨_, .refl, hd⟩

/-- A call among others meets a world they left. -/
lemma wp_op_among {o : Op} {Q : Ans o → W → Prop} (hR : ∀ w w', I w → R w w' → I w')
    (hw : I w) (h : ∀ w₁, I w₁ → wp E (op o : Prog Ans ε (Ans o)) Q D w₁) :
    wp (E.among R) (op o : Prog Ans ε (Ans o)) Q D w := by
  constructor
  · rintro w₂ ⟨w₁, hr, hd⟩
    exact (h w₁ (kept_of_others hR hr hw)).1 w₂ hd
  · rintro r w₂ ⟨w₁, hr, ha⟩
    exact (h w₁ (kept_of_others hR hr hw)).2 r w₂ ha

/-- What all the calls a program makes keep, and the others keep too, it keeps among them. -/
lemma wp_within_among {S : Op → Prop} {P : α → Prop} {p : Prog Ans ε α} (hp : p.Within S P)
    (hR : ∀ w w', I w → R w w' → I w')
    (hdies : ∀ o w w', S o → I w → E.dies o w w' → I w')
    (hanswers : ∀ o w r w', S o → I w → E.answers o w r w' → I w') (hw : I w) :
    wp (E.among R) p (fun a w' => P a ∧ I w') I w := by
  refine wp_within hp ?_ ?_ hw
  · rintro o w w' ho hI ⟨w₁, hr, hd⟩
    exact hdies o w₁ w' ho (kept_of_others hR hr hI) hd
  · rintro o w r w' ho hI ⟨w₁, hr, ha⟩
    exact hanswers o w₁ r w' ho (kept_of_others hR hr hI) ha

end Among

section Handlers

variable {Op : Type} {Ans : Op → Type} {ε α β W : Type}

/-- Runs a program with one answer for each call in each world. -/
def run (h : (o : Op) → W → Ans o × W) : Prog Ans ε α → W → Outcome ε α × W
  | ret a, w => (.done a, w)
  | raise e, w => (.threw e, w)
  | call o k, w => run h (k (h o w).1) (h o w).2

/-- Goes on where a run has returned. -/
def resume (k : α → W → Outcome ε β × W) : Outcome ε α × W → Outcome ε β × W
  | (.done a, w) => k a w
  | (.threw e, w) => (.threw e, w)
  | (.died, w) => (.died, w)

variable (h : (o : Op) → W → Ans o × W) (w : W)

@[simp] lemma resume_done (k : α → W → Outcome ε β × W) (a : α) :
    resume k (.done a, w) = k a w := rfl

@[simp] lemma run_ret (a : α) : run h (ret a : Prog Ans ε α) w = (.done a, w) := rfl

lemma run_call (o : Op) (k : Ans o → Prog Ans ε α) :
    run h (call o k) w = run h (k (h o w).1) (h o w).2 := rfl

lemma run_bind (p : Prog Ans ε α) (f : α → Prog Ans ε β) :
    run h (p >>= f) w = resume (fun a => run h (f a)) (run h p w) := by
  induction p generalizing w with
  | ret a => rfl
  | raise e => rfl
  | call o k ih => exact ih _ _

lemma run_bind_of {p : Prog Ans ε α} {f : α → Prog Ans ε β} {a : α} {w' : W}
    (hp : run h p w = (.done a, w')) : run h (p >>= f) w = run h (f a) w' := by
  rw [run_bind, hp, resume_done]

/-- What holds of the rest of a run from where its first part returns holds of the run. -/
lemma run_bind_done {p : Prog Ans ε α} {f : α → Prog Ans ε β} {a : α} {w w' : W}
    {Q : Outcome ε β × W → Prop} (hp : run h p w = (.done a, w')) (hq : Q (run h (f a) w')) :
    Q (run h (p >>= f) w) := by
  rwa [run_bind_of h w hp]

lemma run_lift_of {e : Except ε α} {a : α} (he : e = .ok a) :
    run h (lift e : Prog Ans ε α) w = (.done a, w) := by
  rw [he]
  rfl

lemma run_lift_error {x : Except ε α} {f : α → Prog Ans ε β} {e : ε} (hx : x = .error e) :
    run h (lift x >>= f) w = (.threw e, w) := by
  rw [hx]
  rfl

/-- Calls that answer alike in two worlds make a program run alike in them. -/
lemma run_alike {S : Op → Prop} {P : α → Prop} {R : W → W → Prop} {p : Prog Ans ε α}
    (hp : p.Within S P) (hR : ∀ o w w', S o → R w w' →
      (h o w).1 = (h o w').1 ∧ R (h o w).2 (h o w').2) {w w' : W} (hw : R w w') :
    (run h p w).1 = (run h p w').1 ∧ R (run h p w).2 (run h p w').2 := by
  induction p generalizing w w' with
  | ret | raise => exact ⟨rfl, hw⟩
  | call o k ih =>
    obtain ⟨hans, hworld⟩ := hR o w w' hp.1 hw
    rw [run_call, run_call, hans]
    exact ih (h o w').1 (hp.2 _) hworld

lemma exec_run {E : Env Ans W} {h : (o : Op) → W → Ans o × W}
    (hE : ∀ o w, E.answers o w (h o w).1 (h o w).2) (p : Prog Ans ε α) (w : W) :
    Exec E p w (run h p w).1 (run h p w).2 := by
  induction p generalizing w with
  | ret a => exact .ret
  | raise e => exact .raise
  | call o k ih => exact .call (hE o w) (ih _ _)

def Env.of (h : (o : Op) → W → Ans o × W) : Env Ans W where
  answers o w r w' := h o w = (r, w')
  dies _ _ _ := False

lemma wp_op_of (o : Op) {Q : Ans o → W → Prop} {D : W → Prop} :
    wp (Env.of h) (op o : Prog Ans ε (Ans o)) Q D w ↔ Q (h o w).1 (h o w).2 := by
  rw [wp_op]
  refine ⟨fun hw => hw.2 _ _ rfl, fun hq => ⟨nofun, ?_⟩⟩
  rintro r w₁ hr
  rwa [hr] at hq

lemma run_post {p : Prog Ans ε α} {Q : α → W → Prop} {D : W → Prop} (hp : wp (Env.of h) p Q D w) :
    Post Q D (run h p w).1 (run h p w).2 :=
  exec_post (exec_run (fun _ _ => rfl) p w) hp

end Handlers

end OpenWallet.Lib
