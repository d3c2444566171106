import OpenWallet.Lib.Prog

/-!
Programs that run side by side on one world. A step is a call of one of them, with its answer,
or a move of the world on its own; any of them may be next.

What one program does is said of its own calls: `Follows Q P` says which calls it makes after
which answers, and what it returns after which. A program keeps to it whatever the others do.
-/

namespace OpenWallet.Lib

open Prog

variable {ι Op : Type} {Ans : Op → Type} {ε ε' α β W : Type}

abbrev Event (Ans : Op → Type) := (o : Op) × Ans o

namespace Prog

/-- A `try` around a program. -/
def caught (h : ε → Prog Ans ε' α) : Prog Ans ε α → Prog Ans ε' α
  | ret a => ret a
  | raise e => h e
  | call o k => call o fun r => (k r).caught h

lemma run_caught {W : Type} (h : (o : Op) → W → Ans o × W) (p : Prog Ans ε α)
    (k : ε → Prog Ans ε' α) (w : W) : run h (p.caught k) w =
      match run h p w with
      | (.done a, w') => (.done a, w')
      | (.threw e, w') => run h (k e) w'
      | (.died, w') => (.died, w') := by
  induction p generalizing w with
  | ret a => rfl
  | raise e => rfl
  | call o k ih => exact ih _ _

section

variable {E : Env Ans W} {w : W}

lemma wp_any {p : Prog Ans ε α} {Q : α → W → Prop} {D : W → Prop} (hQ : ∀ a w, Q a w)
    (hD : ∀ w, D w) : wp E p Q D w := by
  induction p generalizing w with
  | ret a => exact hQ a w
  | raise e => exact hD w
  | call o k ih => exact ⟨fun w₁ _ => hD w₁, fun r w₁ _ => ih r⟩

lemma wp_caught {p : Prog Ans ε α} {h : ε → Prog Ans ε' α} {Q : α → W → Prop}
    (hp : wp E p Q (fun _ => True) w) (hh : ∀ e w, wp E (h e) Q (fun _ => True) w) :
    wp E (p.caught h) Q (fun _ => True) w := by
  induction p generalizing w with
  | ret a => exact hp
  | raise e => exact hh e w
  | call o k ih => exact ⟨fun _ _ => trivial, fun r w₁ hr => ih r (hp.2 r w₁ hr)⟩

end

/-- After the calls `h`, the program makes only calls in `Q` of the calls so far, and returns
only values in `P` of them. -/
def Follows (Q : List (Event Ans) → Op → Prop) (P : List (Event Ans) → α → Prop) :
    List (Event Ans) → Prog Ans ε α → Prop
  | h, ret a => P h a
  | _, raise _ => True
  | h, call o k => Q h o ∧ ∀ r, (k r).Follows Q P (h ++ [⟨o, r⟩])

variable {Q : List (Event Ans) → Op → Prop} {P : List (Event Ans) → α → Prop}
  {P' : List (Event Ans) → β → Prop} {h : List (Event Ans)}

lemma follows_ret {a : α} (ha : P h a) : (ret a : Prog Ans ε α).Follows Q P h := ha

lemma follows_mono {P' : List (Event Ans) → α → Prop} {p : Prog Ans ε α} (hp : p.Follows Q P h)
    (hP : ∀ h a, P h a → P' h a) : p.Follows Q P' h := by
  induction p generalizing h with
  | ret a => exact hP h a hp
  | raise e => trivial
  | call o k ih => exact ⟨hp.1, fun r => ih r (hp.2 r)⟩

lemma follows_lift {x : Except ε α} (hx : ∀ a, x = .ok a → P h a) :
    (lift x : Prog Ans ε α).Follows Q P h := by
  cases x with
  | ok a => exact hx a rfl
  | error e => trivial

lemma follows_op {o : Op} {P : List (Event Ans) → Ans o → Prop} (ho : Q h o)
    (hP : ∀ r, P (h ++ [⟨o, r⟩]) r) : (op o : Prog Ans ε (Ans o)).Follows Q P h := ⟨ho, hP⟩

lemma follows_bind {p : Prog Ans ε α} {f : α → Prog Ans ε β} (hp : p.Follows Q P h)
    (hf : ∀ h a, P h a → (f a).Follows Q P' h) : (p >>= f).Follows Q P' h := by
  induction p generalizing h with
  | ret a => exact hf h a hp
  | raise e => trivial
  | call o k ih => exact ⟨hp.1, fun r => ih r (hp.2 r)⟩

lemma follows_caught {p : Prog Ans ε α} {c : ε → Prog Ans ε' α} (hp : p.Follows Q P h)
    (hc : ∀ h e, (c e).Follows Q P h) : (p.caught c).Follows Q P h := by
  induction p generalizing h with
  | ret a => exact hp
  | raise e => exact hc h e
  | call o k ih => exact ⟨hp.1, fun r => ih r (hp.2 r)⟩

end Prog

/-- What is left of each program, the world, and the calls of all so far. -/
structure Threads (ι : Type) {Op : Type} (Ans : Op → Type) (ε α W : Type) where
  prog : ι → Prog Ans ε α
  world : W
  trace : List (ι × Event Ans)

namespace Threads

variable [DecidableEq ι]

/-- The calls of one of the programs. -/
def hist (s : Threads ι Ans ε α W) (i : ι) : List (Event Ans) :=
  (s.trace.filter (·.1 = i)).map Prod.snd

/-- After a call of the program `i`. -/
def after (s : Threads ι Ans ε α W) (i : ι) (p : Prog Ans ε α) (w : W) (e : Event Ans) :
    Threads ι Ans ε α W :=
  ⟨Function.update s.prog i p, w, s.trace ++ [(i, e)]⟩

variable (E : Env Ans W) (R : W → W → Prop) (ok : W → ι → Event Ans → Prop)

/-- A call of one of the programs that is answered, of those `ok` allows; or a move. -/
inductive Step : Threads ι Ans ε α W → Threads ι Ans ε α W → Prop
  | call {s : Threads ι Ans ε α W} {i : ι} {o : Op} {k : Ans o → Prog Ans ε α} {r : Ans o} {w : W} :
      s.prog i = call o k → E.answers o s.world r w → ok s.world i ⟨o, r⟩ →
      Step s (s.after i (k r) w ⟨o, r⟩)
  | move {s : Threads ι Ans ε α W} {w : W} : R s.world w → Step s { s with world := w }

abbrev Steps : Threads ι Ans ε α W → Threads ι Ans ε α W → Prop :=
  Relation.ReflTransGen (Step E R ok)

def init (prog : ι → Prog Ans ε α) (w : W) : Threads ι Ans ε α W := ⟨prog, w, []⟩

variable {E R ok} {s s' : Threads ι Ans ε α W}

@[simp] lemma hist_after_self (i : ι) (p : Prog Ans ε α) (w : W) (e : Event Ans) :
    (s.after i p w e).hist i = s.hist i ++ [e] := by
  simp [hist, after]

@[simp] lemma hist_after_of_ne {i j : ι} (hj : j ≠ i) (p : Prog Ans ε α) (w : W) (e : Event Ans) :
    (s.after i p w e).hist j = s.hist j := by
  simp [hist, after, Ne.symm hj]

lemma mem_hist {i : ι} {e : Event Ans} : e ∈ s.hist i ↔ (i, e) ∈ s.trace := by
  simp [hist]

lemma exists_last {i : ι} {h : List (Event Ans)} {e : Event Ans} (hh : s.hist i = h ++ [e]) :
    ∃ pre mid, s.trace = pre ++ (i, e) :: mid ∧ ∀ e' ∈ mid, e'.1 ≠ i := by
  obtain ⟨l, l', hl, -, hlast⟩ := List.map_eq_append_iff.mp hh
  obtain ⟨⟨j, e'⟩, rfl, rfl⟩ := List.map_eq_singleton_iff.mp hlast
  obtain ⟨pre, post, htrace, -, hpost⟩ := List.filter_eq_append_iff.mp hl
  obtain ⟨pre', mid, rfl, -, hj, hmid⟩ := List.filter_eq_cons_iff.mp hpost
  obtain rfl : j = i := by simpa using hj
  refine ⟨pre ++ pre', mid, by simp [htrace], fun e hmem => ?_⟩
  simpa using List.filter_eq_nil_iff.mp hmid e hmem

lemma Steps.inv {I : Threads ι Ans ε α W → Prop} (h : Steps E R ok s s') (hs : I s)
    (hstep : ∀ s s', I s → Step E R ok s s' → I s') : I s' := by
  induction h with
  | refl => exact hs
  | tail _ hst ih => exact hstep _ _ ih hst

lemma Step.follows {Q : ι → List (Event Ans) → Op → Prop} {P : ι → List (Event Ans) → α → Prop}
    (hst : Step E R ok s s') (hs : ∀ i, (s.prog i).Follows (Q i) (P i) (s.hist i)) (i : ι) :
    (s'.prog i).Follows (Q i) (P i) (s'.hist i) := by
  cases hst with
  | @call j o k r w hp hr hok =>
    by_cases hij : i = j
    · subst hij
      have hi := hs i
      rw [hp] at hi
      rw [hist_after_self]
      simpa [after] using hi.2 r
    · rw [hist_after_of_ne hij]
      simpa [after, hij] using hs i
  | move => exact hs i

/-- Lets the program `i` make its next call, if it has one, and answers it by a handler. -/
def turn (f : (o : Op) → W → Ans o × W) (s : Threads ι Ans ε α W) (i : ι) :
    Threads ι Ans ε α W :=
  match s.prog i with
  | call o k => s.after i (k (f o s.world).1) (f o s.world).2 ⟨o, (f o s.world).1⟩
  | _ => s

def play (f : (o : Op) → W → Ans o × W) (is : List ι) (s : Threads ι Ans ε α W) :
    Threads ι Ans ε α W := is.foldl (turn f) s

lemma steps_play {f : (o : Op) → W → Ans o × W}
    (hE : ∀ o w, E.answers o w (f o w).1 (f o w).2) (is : List ι)
    (hok : ∀ pre i post, is = pre ++ i :: post → ∀ o k, (play f pre s).prog i = call o k →
      ok (play f pre s).world i ⟨o, (f o (play f pre s).world).1⟩) :
    Steps E R ok s (play f is s) := by
  induction is using List.reverseRecOn with
  | nil => exact .refl
  | append_singleton is i ih =>
    have hrun := ih fun pre j post h => hok pre j (post ++ [i]) (by simp [h])
    rw [play, List.foldl_append, List.foldl_cons, List.foldl_nil]
    change Steps E R ok s (turn f (play f is s) i)
    unfold turn
    split
    · next o k hp => exact hrun.tail (.call hp (hE _ _) (hok is i [] rfl o k hp))
    · exact hrun

end Threads

end OpenWallet.Lib
