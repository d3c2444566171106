import Mathlib.Order.WellFounded

/-!
What a well-founded relation decides by alternation: a point fires when it is given to fire, or
when one of its predecessors carries a mark and does not fire itself. It is the only predicate
that satisfies this equation, and on a part of the relation that holds all marked predecessors
of its points, another predicate agrees with it exactly when it satisfies the equation there.
-/

namespace OpenWallet.Lib

variable {α : Type} {r : α → α → Prop} (hwf : WellFounded r) (given mark : α → Prop)

def Fires : α → Prop := hwf.fix fun t ih => given t ∨ ∃ p, ∃ h : r p t, mark p ∧ ¬ ih p h

lemma fires_iff (t : α) : Fires hwf given mark t ↔
    given t ∨ ∃ p, r p t ∧ mark p ∧ ¬ Fires hwf given mark p := by
  rw [Fires, WellFounded.fix_eq]
  simp only [exists_prop]

/-- **Agreement with the firing points is a local matter.** -/
theorem agree_iff (part Q : α → Prop) (hpart : ∀ t p, part t → r p t → mark p → part p) :
    (∀ t, part t → (Q t ↔ Fires hwf given mark t)) ↔
      ∀ t, part t → (Q t ↔ given t ∨ ∃ p, r p t ∧ mark p ∧ ¬ Q p) := by
  constructor
  · intro h t ht
    rw [h t ht, fires_iff]
    refine or_congr_right <| exists_congr fun p => and_congr_right fun hr =>
      and_congr_right fun hm => ?_
    rw [h p (hpart t p ht hr hm)]
  · intro h t
    induction t using hwf.induction with
    | _ t ih =>
      intro ht
      rw [h t ht, fires_iff]
      refine or_congr_right <| exists_congr fun p => and_congr_right fun hr =>
        and_congr_right fun hm => ?_
      rw [ih p hr (hpart t p ht hr hm)]

end OpenWallet.Lib
