import Mathlib.Tactic
import Mathlib.Data.List.Sort

/-!
A pool of numbers that are taken in ascending order: what is taken is an initial segment of the
pool, taking the least number that is left keeps it one, and so does a pool that grows upwards.
-/

namespace OpenWallet.Lib

variable {α : Type} [LinearOrder α]

/-- What is `used` of the pool `all` is an initial segment of it, each number once, with
something in it. -/
structure Segment (used all : List α) : Prop where
  distinct : all.Nodup
  once : used.Nodup
  some_used : used ≠ []
  known : ∀ u ∈ used, u ∈ all
  below : ∀ a ∈ all, ∀ u ∈ used, a ≤ u → a ∈ used

namespace Segment

variable {used all new : List α} {a m : α}

lemma take (h : Segment used all) (hm : used.max? = some m) (ha : a ∈ all) (hma : m < a)
    (hleast : ∀ b ∈ all, m < b → a ≤ b) : Segment (used ++ [a]) all where
  distinct := h.distinct
  once := by
    have hmax := (List.max?_eq_some_iff.mp hm).2
    have hnot : a ∉ used := fun hu => (hmax a hu).not_gt hma
    rw [List.nodup_append]
    refine ⟨h.once, List.nodup_singleton a, fun b hb c hc => ?_⟩
    rw [List.mem_singleton.mp hc]
    rintro rfl
    exact hnot hb
  some_used := by simp
  known u hu := (List.mem_append.mp hu).elim (h.known u) fun hu => List.mem_singleton.mp hu ▸ ha
  below b hb u hu hbu := by
    obtain ⟨hmem, -⟩ := List.max?_eq_some_iff.mp hm
    rcases le_or_gt b m with hbm | hmb
    · exact List.mem_append_left _ (h.below b hb m hmem hbm)
    · have hmax := (List.max?_eq_some_iff.mp hm).2
      have hua : u = a := by
        rcases List.mem_append.mp hu with hu | hu
        · exact absurd (hbu.trans (hmax u hu)) hmb.not_ge
        · exact List.mem_singleton.mp hu
      rw [le_antisymm (hua ▸ hbu) (hleast b hb hmb)]
      simp

lemma grow (h : Segment used all) (hnew : new.Nodup) (habove : ∀ a ∈ all, ∀ b ∈ new, a < b) :
    Segment used (all ++ new) where
  distinct := List.nodup_append.mpr
    ⟨h.distinct, hnew, fun a ha b hb => (habove a ha b hb).ne⟩
  once := h.once
  some_used := h.some_used
  known u hu := List.mem_append_left _ (h.known u hu)
  below b hb u hu hbu := by
    rcases List.mem_append.mp hb with hb | hb
    · exact h.below b hb u hu hbu
    · exact absurd hbu (habove u (h.known u hu) b hb).not_ge

lemma perm_filter (h : Segment used all) : used.Perm (all.filter (· ∈ used)) := by
  rw [List.perm_ext_iff_of_nodup h.once (h.distinct.filter _)]
  intro a
  simpa using h.known a

lemma length_left (h : Segment used all) :
    used.length + (all.filter (· ∉ used)).length = all.length := by
  have hsplit := List.length_eq_length_filter_add (l := all) (fun a => decide (a ∈ used))
  rw [h.perm_filter.length_eq, hsplit]
  simp

end Segment

end OpenWallet.Lib
