import OpenWallet.Lib.Threads

/-!
What a program comes to after the calls it has made, whatever these are answered, and calls that
it makes at most once.
-/

namespace OpenWallet.Lib.Prog

variable {Op : Type} {Ans : Op → Type} {ε ε' α β : Type}

/-- After the calls `h`, and whatever is answered from there on, the program returns only values
in `P` of the calls so far, and throws only exceptions in `T` of them. -/
def Always (P : List (Event Ans) → α → Prop) (T : List (Event Ans) → ε → Prop) :
    List (Event Ans) → Prog Ans ε α → Prop
  | h, ret a => P h a
  | h, raise e => T h e
  | h, call o k => ∀ r, Always P T (h ++ [⟨o, r⟩]) (k r)

variable {P : List (Event Ans) → α → Prop} {P' : List (Event Ans) → β → Prop}
  {T : List (Event Ans) → ε → Prop} {T' : List (Event Ans) → ε' → Prop} {h : List (Event Ans)}

/-- A call in `B` is made only where none was before. -/
def First (B : Op → Prop) (h : List (Event Ans)) (o : Op) : Prop := B o → ∀ e ∈ h, ¬ B e.1

section

variable {B : Op → Prop} {Q : α → Prop} {p : Prog Ans ε α}

lemma follows_lift_bind {C : List (Event Ans) → Op → Prop} {x : Except ε α} {f : α → Prog Ans ε β}
    (hf : ∀ a, x = .ok a → (f a).Follows C P' h) :
    ((liftM x : Prog Ans ε α) >>= f).Follows C P' h := by
  cases x with
  | ok a => exact hf a rfl
  | error e => trivial

lemma follows_quiet (hp : p.Within (fun o => ¬ B o) Q) (hh : ∀ e ∈ h, ¬ B e.1) :
    p.Follows (First B) (fun h a => Q a ∧ ∀ e ∈ h, ¬ B e.1) h := by
  induction p generalizing h with
  | ret a => exact ⟨hp, hh⟩
  | raise e => trivial
  | call o k ih =>
    refine ⟨fun ho => absurd ho hp.1, fun r => ih r (hp.2 r) fun e he => ?_⟩
    rcases List.mem_append.mp he with he | he
    · exact hh e he
    · rw [List.mem_singleton.mp he]
      exact hp.1

lemma follows_rest (hp : p.Within (fun o => ¬ B o) Q) :
    p.Follows (First B) (fun _ a => Q a) h := by
  induction p generalizing h with
  | ret a => exact hp
  | raise e => trivial
  | call o k ih => exact ⟨fun ho => absurd ho hp.1, fun r => ih r (hp.2 r)⟩

end

end OpenWallet.Lib.Prog
