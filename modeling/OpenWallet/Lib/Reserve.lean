import Mathlib.Data.List.DropRight
import Mathlib.Tactic

/-!
Keys that agents take out of a pool: one looks which key is on offer, and takes it later, in a
step of its own. Whoever looks in between is offered the same key.
-/

namespace OpenWallet.Lib.Reserve

variable {ι κ : Type}

/-- What a step is to the pool. -/
inductive Act (κ : Type)
  | look (offer : Option κ)
  | take (k : κ)
  | other

/-- The keys taken so far, in their order. -/
def taken (t : List (ι × Act κ)) : List κ :=
  t.filterMap fun e =>
    match e.2 with
    | .take k => some k
    | _ => none

@[simp] lemma taken_append (t t' : List (ι × Act κ)) : taken (t ++ t') = taken t ++ taken t' := by
  simp [taken]

@[simp] lemma taken_look (i : ι) (offer : Option κ) (t : List (ι × Act κ)) :
    taken ((i, .look offer) :: t) = taken t := rfl

@[simp] lemma taken_take (i : ι) (k : κ) (t : List (ι × Act κ)) :
    taken ((i, .take k) :: t) = k :: taken t := rfl

@[simp] lemma taken_other (i : ι) (t : List (ι × Act κ)) :
    taken ((i, .other) :: t) = taken t := rfl

@[simp] lemma taken_nil : taken ([] : List (ι × Act κ)) = [] := rfl

lemma mem_taken {t : List (ι × Act κ)} {k : κ} : k ∈ taken t ↔ ∃ i, (i, .take k) ∈ t := by
  constructor
  · intro h
    obtain ⟨⟨i, a⟩, hmem, ha⟩ := List.mem_filterMap.mp h
    cases a with
    | take k' =>
      obtain rfl := Option.some.inj ha
      exact ⟨i, hmem⟩
    | look | other => cases ha
  · rintro ⟨i, hmem⟩
    exact List.mem_filterMap.mpr ⟨_, hmem, rfl⟩

lemma exists_first {t : List (ι × Act κ)} (h : taken t ≠ []) :
    ∃ pre i k post, t = pre ++ (i, .take k) :: post ∧ taken pre = [] := by
  induction t with
  | nil => exact absurd rfl h
  | cons e t ih =>
    obtain ⟨i, a⟩ := e
    cases a with
    | take k => exact ⟨[], i, k, t, rfl, rfl⟩
    | look offer =>
      obtain ⟨pre, j, k, post, rfl, hpre⟩ := ih h
      exact ⟨(i, .look offer) :: pre, j, k, post, rfl, hpre⟩
    | other =>
      obtain ⟨pre, j, k, post, rfl, hpre⟩ := ih h
      exact ⟨(i, .other) :: pre, j, k, post, rfl, hpre⟩

lemma concat_eq_append_cons {α : Type} {l pre post : List α} {a b : α} :
    l ++ [a] = pre ++ b :: post ↔
      (pre = l ∧ b = a ∧ post = []) ∨ ∃ post', post = post' ++ [a] ∧ l = pre ++ b :: post' := by
  induction post using List.reverseRecOn with
  | nil =>
    rw [List.append_singleton_inj]
    constructor
    · rintro ⟨rfl, rfl⟩
      exact Or.inl ⟨rfl, rfl, rfl⟩
    · rintro (⟨rfl, rfl, -⟩ | ⟨post', hpost, -⟩)
      · exact ⟨rfl, rfl⟩
      · simp at hpost
  | append_singleton post c =>
    rw [← List.cons_append, ← List.append_assoc, List.append_singleton_inj]
    constructor
    · rintro ⟨rfl, rfl⟩
      exact Or.inr ⟨post, rfl, rfl⟩
    · rintro (⟨-, -, hnil⟩ | ⟨post', hpost, rfl⟩)
      · simp at hnil
      · obtain ⟨rfl, rfl⟩ := List.append_singleton_inj.mp hpost
        exact ⟨rfl, rfl⟩

section

variable [DecidableEq ι]

def since (i : ι) (t : List (ι × Act κ)) : List (ι × Act κ) := t.rtakeWhile fun e => e.1 ≠ i

lemma since_eq (i : ι) (a : Act κ) (pre : List (ι × Act κ)) {mid : List (ι × Act κ)}
    (h : ∀ e ∈ mid, e.1 ≠ i) : since i (pre ++ (i, a) :: mid) = mid := by
  induction mid using List.reverseRecOn with
  | nil => exact List.rtakeWhile_concat_neg _ _ _ (by simp)
  | append_singleton mid e ih =>
    have he : e.1 ≠ i := h e (by simp)
    rw [since, ← List.cons_append, ← List.append_assoc,
      List.rtakeWhile_concat_pos _ _ _ (by simpa using he)]
    exact congrArg (· ++ [e]) (ih fun e' he' => h e' (by simp [he']))

/-- Nothing is taken between the last step of an agent and its taking a key. -/
def Undisturbed (t : List (ι × Act κ)) : Prop :=
  ∀ pre i k post, t = pre ++ (i, .take k) :: post → taken (since i pre) = []

/-- An agent takes what it has been offered in the step before, which goes by what was taken. -/
structure Orderly (offers : List κ → κ → Prop) (t : List (ι × Act κ)) : Prop where
  own : ∀ pre i k post, t = pre ++ (i, .take k) :: post →
    ∃ pre' mid, pre = pre' ++ (i, .look (some k)) :: mid ∧ ∀ e ∈ mid, e.1 ≠ i
  offered : ∀ pre i k post, t = pre ++ (i, .look (some k)) :: post → offers (taken pre) k

variable {offers : List κ → κ → Prop} {t : List (ι × Act κ)}

omit [DecidableEq ι] in
lemma Orderly.of_append {t' : List (ι × Act κ)} (h : Orderly offers (t ++ t')) : Orderly offers t :=
  ⟨fun pre i k post ht => h.own pre i k (post ++ t') (by simp [ht]),
    fun pre i k post ht => h.offered pre i k (post ++ t') (by simp [ht])⟩

omit [DecidableEq ι] in
lemma Orderly.mono {offers' : List κ → κ → Prop} (h : Orderly offers t)
    (hoffers : ∀ l k, offers l k → offers' l k) : Orderly offers' t :=
  ⟨h.own, fun pre i k post ht => hoffers _ _ (h.offered pre i k post ht)⟩

omit [DecidableEq ι] in
lemma Orderly.concat {e : ι × Act κ} (h : Orderly offers t)
    (hown : ∀ k, e.2 = .take k → ∃ pre mid, t = pre ++ (e.1, .look (some k)) :: mid ∧
      ∀ e' ∈ mid, e'.1 ≠ e.1)
    (hoffered : ∀ k, e.2 = .look (some k) → offers (taken t) k) : Orderly offers (t ++ [e]) := by
  constructor
  · intro pre i k post ht
    rcases concat_eq_append_cons.mp ht with ⟨rfl, rfl, -⟩ | ⟨post', -, ht⟩
    · exact hown k rfl
    · exact h.own pre i k post' ht
  · intro pre i k post ht
    rcases concat_eq_append_cons.mp ht with ⟨rfl, rfl, -⟩ | ⟨post', -, ht⟩
    · exact hoffered k rfl
    · exact h.offered pre i k post' ht

omit [DecidableEq ι] in
lemma Orderly.exists_offers (h : Orderly offers t) {k : κ} (hk : k ∈ taken t) :
    ∃ l, offers l k := by
  obtain ⟨i, hmem⟩ := mem_taken.mp hk
  obtain ⟨pre, post, ht⟩ := List.append_of_mem hmem
  obtain ⟨pre', mid, rfl, -⟩ := h.own pre i k post ht
  exact ⟨taken pre', h.offered pre' i k (mid ++ (i, .take k) :: post) (by simp [ht])⟩

/-- What an agent takes is new exactly if nothing was taken since it looked. -/
lemma Orderly.new_iff (h : Orderly offers t) (hundisturbed : Undisturbed t)
    (hnew : ∀ l k, offers l k → k ∉ l) (hone : ∀ l k k', offers l k → offers l k' → k = k')
    {pre mid : List (ι × Act κ)} {i : ι} {k : κ} (ht : t = pre ++ (i, .look (some k)) :: mid) :
    k ∉ taken t ↔ taken mid = [] := by
  have hk : offers (taken pre) k := h.offered pre i k mid ht
  constructor
  · intro hk'
    by_contra hmid
    obtain ⟨mid₁, j, k', mid₂, rfl, hfirst⟩ := exists_first hmid
    -- the first that took a key since then had looked before anything was taken, too
    have hsplit : t = (pre ++ (i, .look (some k)) :: mid₁) ++ (j, .take k') :: mid₂ := by
      simp [ht]
    obtain ⟨pre', mid', heq, hmid'⟩ := h.own _ j k' mid₂ hsplit
    have hnone : taken mid' = [] := by
      rw [← since_eq j (.look (some k')) pre' hmid', ← heq]
      exact hundisturbed _ j k' mid₂ hsplit
    have hsame : taken pre = taken pre' := by
      have htaken := congrArg taken heq
      simpa [hfirst, hnone] using htaken
    have hoffer : offers (taken pre') k' :=
      h.offered pre' j k' (mid' ++ (j, .take k') :: mid₂) (by rw [hsplit, heq]; simp)
    obtain rfl := hone _ k k' hk (hsame ▸ hoffer)
    exact hk' (mem_taken.mpr ⟨j, by rw [hsplit]; simp⟩)
  · intro hmid
    have htaken : taken t = taken pre := by simp [ht, hmid]
    rw [htaken]
    exact hnew _ k hk

lemma undisturbed_concat {e : ι × Act κ} : Undisturbed (t ++ [e]) ↔
    Undisturbed t ∧ ∀ k, e.2 = .take k → taken (since e.1 t) = [] := by
  constructor
  · intro h
    refine ⟨fun pre i k post ht => h pre i k (post ++ [e]) (by simp [ht]), ?_⟩
    rintro k hk
    exact h t e.1 k [] (by rw [← hk])
  · rintro ⟨h, he⟩ pre i k post ht
    rcases concat_eq_append_cons.mp ht with ⟨rfl, rfl, -⟩ | ⟨post', -, ht⟩
    · exact he k rfl
    · exact h pre i k post' ht

/-- **No key is taken twice exactly if nobody takes one between the looking and the taking of
another.** -/
theorem nodup_taken_iff (h : Orderly offers t) (hnew : ∀ l k, offers l k → k ∉ l)
    (hone : ∀ l k k', offers l k → offers l k' → k = k') : (taken t).Nodup ↔ Undisturbed t := by
  induction t using List.reverseRecOn with
  | nil => simp [Undisturbed]
  | append_singleton t e ih =>
    have ih := ih h.of_append
    obtain ⟨i, a⟩ := e
    rw [undisturbed_concat]
    cases a with
    | look | other => simpa using ih
    | take k =>
      obtain ⟨pre, mid, ht, hmid⟩ := h.own t i k [] rfl
      rw [taken_append, taken_take, taken_nil, List.nodup_append, ih]
      refine and_congr_right fun hundisturbed => ?_
      have hnew := h.of_append.new_iff hundisturbed hnew hone ht
      have hsince : since i t = mid := by rw [ht, since_eq i _ _ hmid]
      constructor
      · rintro ⟨-, hdisjoint⟩ k' hk'
        cases hk'
        rw [hsince, ← hnew]
        exact fun hmem => hdisjoint k hmem k (by simp) rfl
      · intro hk
        have hmem := hnew.mpr (hsince ▸ hk k rfl)
        refine ⟨by simp, ?_⟩
        rintro a ha b hb rfl
        exact hmem (List.mem_singleton.mp hb ▸ ha)

end

section

variable [LinearOrder κ]

/-- The first key of a pool above all that are taken. -/
def Next (base pool l : List κ) (k : κ) : Prop :=
  ∃ m, (base ++ l).max? = some m ∧ m < k ∧ k ∈ pool ∧ ∀ a ∈ pool, m < a → k ≤ a

variable {base pool l : List κ} {k : κ}

lemma Next.notMem (h : Next base pool l k) : k ∉ base ++ l := by
  obtain ⟨m, hm, hlt, -, -⟩ := h
  exact fun hk => ((List.max?_eq_some_iff.mp hm).2 k hk).not_gt hlt

lemma Next.unique {k' : κ} (h : Next base pool l k) (h' : Next base pool l k') : k = k' := by
  obtain ⟨m, hm, hlt, hk, hmin⟩ := h
  obtain ⟨m', hm', hlt', hk', hmin'⟩ := h'
  obtain rfl := Option.some.inj (hm.symm.trans hm')
  exact le_antisymm (hmin k' hk' hlt') (hmin' k hk hlt)

lemma Next.append (h : Next base pool l k) {rest : List κ} (hrest : ∀ a ∈ pool, ∀ b ∈ rest, a < b) :
    Next base (pool ++ rest) l k := by
  obtain ⟨m, hm, hlt, hk, hmin⟩ := h
  refine ⟨m, hm, hlt, List.mem_append_left _ hk, fun a ha hma => ?_⟩
  rcases List.mem_append.mp ha with ha | ha
  · exact hmin a ha hma
  · exact (hrest k hk a ha).le

end

end OpenWallet.Lib.Reserve
