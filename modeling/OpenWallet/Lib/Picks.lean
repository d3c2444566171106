import Mathlib.Tactic

/-!
What a pass over a list picks out of it, with the places it was found at.
-/

namespace OpenWallet.Lib

variable {α β : Type}

def picks (f : α → Option β) (xs : List α) : List (ℕ × β) :=
  xs.zipIdx.filterMap fun e => (f e.1).map (e.2, ·)

variable {f : α → Option β}

@[simp] lemma picks_nil : picks f [] = [] := rfl

lemma picks_concat (xs : List α) (x : α) :
    picks f (xs ++ [x]) = picks f xs ++ ((f x).map (xs.length, ·)).toList := by
  rw [picks, List.zipIdx_append, List.filterMap_append]
  cases hx : f x <;> simp [picks, hx]

/-- A part of the pass has picked the first of what the pass picks. -/
lemma picks_prefix {xs ys : List α} (h : xs <+: ys) : picks f xs <+: picks f ys := by
  obtain ⟨l, rfl⟩ := h
  rw [picks, picks, List.zipIdx_append, List.filterMap_append]
  exact List.prefix_append _ _

lemma mem_picks {xs : List α} {k : ℕ} {y : β} :
    (k, y) ∈ picks f xs ↔ ∃ x, xs[k]? = some x ∧ f x = some y := by
  simp only [picks, List.mem_filterMap, List.mem_zipIdx_iff_getElem?, Prod.exists,
    Option.map_eq_some_iff, Prod.mk.injEq]
  constructor
  · rintro ⟨x, k', hx, y', hy, rfl, rfl⟩
    exact ⟨x, hx, hy⟩
  · rintro ⟨x, hx, hy⟩
    exact ⟨x, k, hx, y, hy, rfl, rfl⟩

lemma picks_order (xs : List α) : ((picks f xs).map Prod.fst).Pairwise (· < ·) := by
  have hidx : xs.zipIdx.Pairwise fun a b => a.2 < b.2 := by
    rw [← List.pairwise_map, List.zipIdx_map_snd]
    exact List.pairwise_lt_range'
  rw [picks, List.pairwise_map, List.pairwise_filterMap]
  refine hidx.imp fun {a b} hlt p hp q hq => ?_
  obtain ⟨y, -, rfl⟩ := Option.map_eq_some_iff.mp hp
  obtain ⟨z, -, rfl⟩ := Option.map_eq_some_iff.mp hq
  exact hlt

end OpenWallet.Lib
