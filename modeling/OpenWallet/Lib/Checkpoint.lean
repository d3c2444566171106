import Mathlib.Logic.Relation
import Mathlib.Data.List.Nodup
import Mathlib.Order.BoundedOrder.Basic
import Mathlib.Tactic

/-!
Scanning a chain with a checkpoint.

A scanner reads the blocks of a chain in order. What it finds in them it appends to a buffer,
and now and then it appends a mark with the height it has reached and moves the whole buffer
into a log. A crash loses the buffer and keeps the log. Several scanners, told apart by a key,
share one buffer and one log.

Two things can be asked of the log at any moment: that nothing due below a mark is missing from
it, and that nothing in it lies above the marks or is there twice.
-/

namespace OpenWallet.Lib

/-- Where the log and the buffer are in a world, and how entries are read: a mark carries a key
and a height, a row carries a key, a height and a place in the block. -/
structure Store (W S K P : Type) where
  log : W → List S
  buf : W → List S
  mark : S → Option (K × ℕ)
  place : S → Option (K × ℕ × P)
  place_of_mark : ∀ {s m}, mark s = some m → place s = none

namespace Store

variable {W S K P : Type} (σ : Store W S K P)

/-- Everything appended and not lost. -/
def total (w : W) : List S := σ.log w ++ σ.buf w

/-- The height has been marked for the key. -/
def Marked (k : K) (n : ℕ) (l : List S) : Prop := ∃ s ∈ l, σ.mark s = some (k, n)

/-- The entry is a row or a mark of the key. -/
def Of (k : K) (s : S) : Prop :=
  (∃ n, σ.mark s = some (k, n)) ∨ ∃ n p, σ.place s = some (k, n, p)

/-- Nothing due at a height in `(h₀, h]` is missing once `h` is marked. -/
def Covered (due : ℕ → List S → Prop) (k : K) (h₀ : ℕ) (l : List S) : Prop :=
  ∀ h, σ.Marked k h l → ∀ n, h₀ < n → n ≤ h → due n l

/-- Every row lies at or below a mark of its key, and no place has two rows. -/
structure Tidy (l : List S) : Prop where
  below : ∀ s ∈ l, ∀ k n p, σ.place s = some (k, n, p) → ∃ h ≥ n, σ.Marked k h l
  once : (l.filterMap σ.place).Nodup

variable {σ}

lemma Marked.mono {k : K} {n : ℕ} {l l' : List S} (h : σ.Marked k n l) (hl : l ⊆ l') :
    σ.Marked k n l' := by
  obtain ⟨s, hs, hm⟩ := h
  exact ⟨s, hl hs, hm⟩

lemma marked_append {k : K} {n : ℕ} {l l' : List S} :
    σ.Marked k n (l ++ l') ↔ σ.Marked k n l ∨ σ.Marked k n l' := by
  simp only [Marked, List.mem_append, or_and_right, exists_or]

@[simp] lemma marked_singleton {k : K} {n : ℕ} {s : S} :
    σ.Marked k n [s] ↔ σ.mark s = some (k, n) := by
  simp [Marked]

lemma Of.not_mark {k k' : K} {s : S} {n : ℕ} (h : σ.Of k s) (hk : k' ≠ k) :
    σ.mark s ≠ some (k', n) := by
  intro hm
  rcases h with ⟨m, hm'⟩ | ⟨m, p, hp⟩
  · simp_all
  · rw [σ.place_of_mark hm] at hp
    cases hp

end Store

/-- A scanner over a store: its key, what it may do besides appending, and the grounds on which
it leaves a block with a mark or without one. -/
structure Scanner {W S K P : Type} (σ : Store W S K P) where
  key : K
  quiet : ℕ → W → W → Prop
  credit : ℕ → S → W → W → Prop
  skip : ℕ → W → Prop
  store : ℕ → S → W → W → Prop
  quiet_log : ∀ {n w w'}, quiet n w w' → σ.log w' = σ.log w
  quiet_buf : ∀ {n w w'}, quiet n w w' → σ.buf w' = σ.buf w
  credit_log : ∀ {n s w w'}, credit n s w w' → σ.log w' = σ.log w
  credit_buf : ∀ {n s w w'}, credit n s w w' → σ.buf w' = σ.buf w ++ [s]
  store_mark : ∀ {n s w w'}, store n s w w' → σ.mark s = some (key, n)
  store_log : ∀ {n s w w'}, store n s w w' → σ.log w' = σ.total w ++ [s]
  store_buf : ∀ {n s w w'}, store n s w w' → σ.buf w' = []

namespace Scanner

open Store

variable {W S K P : Type} {σ : Store W S K P} (φ : Scanner σ)

/-- A scan under way: the blocks up to `done` are left, and of the next one the places before
`free` are used up. -/
structure At (W P : Type) where
  w : W
  done : ℕ
  free : P

variable [LinearOrder P] [OrderBot P]

inductive Step : At W P → At W P → Prop
  | quiet {w w' : W} {i : ℕ} {p : P} : φ.quiet (i + 1) w w' → Step ⟨w, i, p⟩ ⟨w', i, p⟩
  | room {w : W} {i : ℕ} {p q : P} : p ≤ q → Step ⟨w, i, p⟩ ⟨w, i, q⟩
  | credit {w w' : W} {i : ℕ} {p q r : P} {s : S} : φ.credit (i + 1) s w w' →
      σ.place s = some (φ.key, i + 1, q) → p ≤ q → q < r → Step ⟨w, i, p⟩ ⟨w', i, r⟩
  | skip {w : W} {i : ℕ} {p : P} : φ.skip (i + 1) w → Step ⟨w, i, p⟩ ⟨w, i + 1, ⊥⟩
  | store {w w' : W} {i : ℕ} {p : P} {s : S} : φ.store (i + 1) s w w' →
      Step ⟨w, i, p⟩ ⟨w', i + 1, ⊥⟩

abbrev Steps : At W P → At W P → Prop := Relation.ReflTransGen φ.Step

variable {φ} {a b : At W P}

lemma Step.done_le (h : φ.Step a b) : a.done ≤ b.done := by
  cases h <;> simp

lemma Steps.done_le (h : φ.Steps a b) : a.done ≤ b.done := by
  induction h with
  | refl => exact le_rfl
  | tail _ hs ih => exact ih.trans hs.done_le

lemma Step.total (h : φ.Step a b) : ∃ new, σ.total b.w = σ.total a.w ++ new ∧
    (∀ s ∈ new, σ.Of φ.key s) ∧ σ.log a.w ⊆ σ.log b.w := by
  cases h with
  | quiet h =>
    exact ⟨[], by simp [Store.total, φ.quiet_log h, φ.quiet_buf h], by simp,
      by rw [φ.quiet_log h]; exact List.Subset.refl _⟩
  | room => exact ⟨[], by simp, by simp, List.Subset.refl _⟩
  | credit h hp =>
    refine ⟨_, by simp [Store.total, φ.credit_log h, φ.credit_buf h]; rfl, ?_, ?_⟩
    · exact List.forall_mem_singleton.mpr (Or.inr ⟨_, _, hp⟩)
    · rw [φ.credit_log h]; exact List.Subset.refl _
  | skip => exact ⟨[], by simp, by simp, List.Subset.refl _⟩
  | store h =>
    refine ⟨_, by simp [Store.total, φ.store_log h, φ.store_buf h]; rfl, ?_, ?_⟩
    · exact List.forall_mem_singleton.mpr (Or.inl ⟨_, φ.store_mark h⟩)
    · rw [φ.store_log h, Store.total]
      exact fun s hs => by simp [hs]

lemma Steps.total (h : φ.Steps a b) : ∃ new, σ.total b.w = σ.total a.w ++ new ∧
    (∀ s ∈ new, σ.Of φ.key s) ∧ σ.log a.w ⊆ σ.log b.w := by
  induction h with
  | refl => exact ⟨[], by simp, by simp, List.Subset.refl _⟩
  | tail _ hs ih =>
    obtain ⟨new, ht, ho, hl⟩ := ih
    obtain ⟨new', ht', ho', hl'⟩ := hs.total
    refine ⟨new ++ new', by rw [ht', ht, List.append_assoc], fun s hm => ?_, fun s hm => hl' (hl hm)⟩
    rcases List.mem_append.mp hm with hm | hm
    · exact ho s hm
    · exact ho' s hm

lemma Steps.total_subset (h : φ.Steps a b) : σ.total a.w ⊆ σ.total b.w := by
  obtain ⟨new, ht, -, -⟩ := h.total
  rw [ht]
  exact List.subset_append_left _ _

lemma Step.buf (h : φ.Step a b) {s : S} (hs : s ∈ σ.buf b.w) :
    s ∈ σ.buf a.w ∨ σ.Of φ.key s := by
  cases h with
  | quiet h => exact Or.inl (by rwa [φ.quiet_buf h] at hs)
  | room => exact Or.inl hs
  | credit h hp =>
    rw [φ.credit_buf h, List.mem_append, List.mem_singleton] at hs
    exact hs.imp_right fun h => Or.inr ⟨_, _, h ▸ hp⟩
  | skip => exact Or.inl hs
  | store h => simp [φ.store_buf h] at hs

lemma Steps.buf (h : φ.Steps a b) {s : S} (hs : s ∈ σ.buf b.w) :
    s ∈ σ.buf a.w ∨ σ.Of φ.key s := by
  induction h with
  | refl => exact Or.inl hs
  | tail _ hstep ih => exact (hstep.buf hs).elim ih Or.inr

section Sound

variable (φ) in
/-- What a pass keeps: the log is covered, the blocks left so far have what is due in them, and
no mark waits in the buffer. -/
structure Sound (due : ℕ → List S → Prop) (h₀ : ℕ) (a : At W P) : Prop where
  covered : σ.Covered due φ.key h₀ (σ.log a.w)
  owed : ∀ n, h₀ < n → n ≤ a.done → due n (σ.total a.w)
  clean : ∀ n, ¬ σ.Marked φ.key n (σ.buf a.w)

variable {due : ℕ → List S → Prop} {h₀ : ℕ}

lemma Step.sound (hmono : ∀ n l l', l ⊆ l' → due n l → due n l')
    (hskip : ∀ n w, φ.skip n w → due n (σ.total w))
    (hstore : ∀ n s w w', φ.store n s w w' → due n (σ.total w))
    (h : φ.Step a b) (ha : φ.Sound due h₀ a) : φ.Sound due h₀ b := by
  obtain ⟨hcov, howed, hclean⟩ := ha
  have hsub : σ.total a.w ⊆ σ.total b.w := Steps.total_subset (.single h)
  cases h with
  | quiet h =>
    refine ⟨by rwa [φ.quiet_log h], fun n h1 h2 => hmono _ _ _ hsub (howed n h1 h2), ?_⟩
    rwa [φ.quiet_buf h]
  | room => exact ⟨hcov, howed, hclean⟩
  | @credit _ _ _ _ _ _ s h hp =>
    refine ⟨by rwa [φ.credit_log h], fun n h1 h2 => hmono _ _ _ hsub (howed n h1 h2), ?_⟩
    intro n hn
    rw [φ.credit_buf h, marked_append, marked_singleton] at hn
    rcases hn with hn | hn
    · exact hclean n hn
    · rw [σ.place_of_mark hn] at hp
      cases hp
  | @skip w i _ h =>
    refine ⟨hcov, fun n h1 h2 => ?_, hclean⟩
    rcases Nat.lt_or_ge i n with hlt | hle
    · obtain rfl : n = i + 1 := by simp only at h2; omega
      exact hskip _ _ h
    · exact howed n h1 hle
  | @store w w' i _ s h =>
    have howed' : ∀ n, h₀ < n → n ≤ i + 1 → due n (σ.total w) := by
      intro n h1 h2
      rcases Nat.lt_or_ge i n with hlt | hle
      · obtain rfl : n = i + 1 := by omega
        exact hstore _ _ _ _ h
      · exact howed n h1 hle
    refine ⟨?_, fun n h1 h2 => hmono _ _ _ hsub (howed' n h1 h2), ?_⟩
    · intro m hm n h1 h2
      simp only [φ.store_log h, marked_append, marked_singleton, φ.store_mark h,
        Option.some.injEq, Prod.mk.injEq, true_and, Store.total] at hm
      refine hmono _ (σ.total w) _ (by rw [φ.store_log h]; exact List.subset_append_left _ _) ?_
      rcases hm with (hm | hm) | hm
      · exact hmono _ (σ.log w) _ (List.subset_append_left _ _) (hcov m hm n h1 h2)
      · exact absurd hm (hclean m)
      · exact howed' n h1 (by omega)
    · simp [φ.store_buf h, Marked]

/-- **A pass loses nothing below its marks**, when what it leaves a block with is all that is
due in the block. -/
theorem Steps.sound (hmono : ∀ n l l', l ⊆ l' → due n l → due n l')
    (hskip : ∀ n w, φ.skip n w → due n (σ.total w))
    (hstore : ∀ n s w w', φ.store n s w w' → due n (σ.total w))
    (h : φ.Steps a b) (ha : φ.Sound due h₀ a) : φ.Sound due h₀ b := by
  induction h with
  | refl => exact ha
  | tail _ hs ih => exact hs.sound hmono hskip hstore ih

end Sound

/-! ### What a new mark stands for -/

section Trail

variable (φ) in
/-- On the way from `a` to `b` the block `n` was left, at the moment `c`. -/
structure Leaves (a b : At W P) (n : ℕ) (c : At W P) : Prop where
  before : φ.Steps a c
  after : φ.Steps c b
  left : φ.skip n c.w ∨ ∃ s w', φ.store n s c.w w'

lemma Leaves.tail {b' c : At W P} {n : ℕ} (h : φ.Leaves a b n c) (hs : φ.Step b b') :
    φ.Leaves a b' n c :=
  ⟨h.before, h.after.tail hs, h.left⟩

variable (φ) in
/-- What a pass leaves behind: the blocks it is past were left one by one, and where it has
appended a mark, all that had been appended when a block below it was left is in the log. -/
structure Trail (a b : At W P) (new : List S) : Prop where
  log : σ.log b.w = σ.log a.w ++ new
  past : ∀ n, a.done < n → n ≤ b.done → ∃ c, φ.Leaves a b n c
  marked : ∀ k m, σ.Marked k m new → k = φ.key ∧ ∀ n, a.done < n → n ≤ m →
    ∃ c, φ.Leaves a b n c ∧ σ.total c.w ⊆ σ.log b.w
  clean : ∀ k n, ¬ σ.Marked k n (σ.buf b.w)

lemma Trail.quiet {a b : At W P} {new : List S} {w' : W} {p : P} (h : φ.Trail a b new)
    (hs : φ.Step b ⟨w', b.done, p⟩) (hlog : σ.log w' = σ.log b.w)
    (hclean : ∀ k n, ¬ σ.Marked k n (σ.buf w')) : φ.Trail a ⟨w', b.done, p⟩ new where
  log := hlog.trans h.log
  past n h1 h2 := by
    obtain ⟨c, hc⟩ := h.past n h1 h2
    exact ⟨c, hc.tail hs⟩
  marked k m hm := by
    obtain ⟨hk, hall⟩ := h.marked k m hm
    refine ⟨hk, fun n h1 h2 => ?_⟩
    obtain ⟨c, hc, hsub⟩ := hall n h1 h2
    exact ⟨c, hc.tail hs, by rwa [hlog]⟩
  clean := hclean

lemma Trail.past_succ {a b : At W P} {new : List S} {w' : W} (h : φ.Trail a b new)
    (hs : φ.Step b ⟨w', b.done + 1, ⊥⟩)
    (hleft : φ.skip (b.done + 1) b.w ∨ ∃ s w', φ.store (b.done + 1) s b.w w') {n : ℕ}
    (h1 : a.done < n) (h2 : n ≤ b.done + 1) (hab : φ.Steps a b) :
    ∃ c, φ.Leaves a ⟨w', b.done + 1, ⊥⟩ n c ∧ φ.Steps c b := by
  rcases Nat.lt_or_ge b.done n with hlt | hle
  · obtain rfl : n = b.done + 1 := by omega
    exact ⟨b, ⟨hab, .single hs, hleft⟩, .refl⟩
  · obtain ⟨c, hc⟩ := h.past n h1 hle
    exact ⟨c, hc.tail hs, hc.after⟩

lemma Trail.step {c : At W P} {new : List S} (h : φ.Trail a b new) (hab : φ.Steps a b)
    (hs : φ.Step b c) : ∃ new', φ.Trail a c new' := by
  have hstep := hs
  cases hs with
  | quiet hq =>
    exact ⟨new, h.quiet hstep (φ.quiet_log hq) (by rw [φ.quiet_buf hq]; exact h.clean)⟩
  | room => exact ⟨new, h.quiet hstep rfl h.clean⟩
  | @credit _ _ _ _ _ _ s hc hp =>
    refine ⟨new, h.quiet hstep (φ.credit_log hc) fun k n hn => ?_⟩
    rw [φ.credit_buf hc, marked_append, marked_singleton] at hn
    rcases hn with hn | hn
    · exact h.clean k n hn
    · rw [σ.place_of_mark hn] at hp
      cases hp
  | @skip w i _ hsk =>
    refine ⟨new, h.log, fun n h1 h2 => ?_, fun k m hm => ?_, h.clean⟩
    · obtain ⟨c, hc, -⟩ := h.past_succ hstep (Or.inl hsk) h1 h2 hab
      exact ⟨c, hc⟩
    · obtain ⟨hk, hall⟩ := h.marked k m hm
      refine ⟨hk, fun n h1 h2 => ?_⟩
      obtain ⟨c, hc, hsub⟩ := hall n h1 h2
      exact ⟨c, hc.tail hstep, hsub⟩
  | @store w w' i _ s hst =>
    have hleft : φ.skip (i + 1) w ∨ ∃ s w', φ.store (i + 1) s w w' := Or.inr ⟨s, w', hst⟩
    have hlog : σ.log w' = σ.total w ++ [s] := φ.store_log hst
    refine ⟨new ++ σ.buf w ++ [s], ?_, fun n h1 h2 => ?_, fun k m hm => ?_, ?_⟩
    · rw [hlog, Store.total, h.log]
      simp only [List.append_assoc]
    · obtain ⟨c, hc, -⟩ := h.past_succ hstep hleft h1 h2 hab
      exact ⟨c, hc⟩
    · rw [marked_append, marked_append, marked_singleton] at hm
      rcases hm with (hm | hm) | hm
      · obtain ⟨hk, hall⟩ := h.marked k m hm
        refine ⟨hk, fun n h1 h2 => ?_⟩
        obtain ⟨c, hc, hsub⟩ := hall n h1 h2
        refine ⟨c, hc.tail hstep, List.Subset.trans hsub ?_⟩
        rw [hlog, Store.total, List.append_assoc]
        exact List.subset_append_left _ _
      · exact absurd hm (h.clean k m)
      · rw [φ.store_mark hst] at hm
        obtain ⟨rfl, rfl⟩ : φ.key = k ∧ i + 1 = m := by simpa using hm
        refine ⟨rfl, fun n h1 h2 => ?_⟩
        obtain ⟨c, hc, hcw⟩ := h.past_succ hstep hleft h1 h2 hab
        refine ⟨c, hc, List.Subset.trans (Steps.total_subset hcw) ?_⟩
        rw [hlog]
        exact List.subset_append_left _ _
    · simp [φ.store_buf hst, Marked]

/-- **A mark is appended on the grounds of every block below it**, in a pass that begins with no
mark in the buffer. -/
theorem Steps.trail (h : φ.Steps a b) (hclean : ∀ k n, ¬ σ.Marked k n (σ.buf a.w)) :
    ∃ new, φ.Trail a b new := by
  induction h with
  | refl =>
    exact ⟨[], by simp, fun n h1 h2 => absurd h2 (by omega), by simp [Marked], hclean⟩
  | tail hab hs ih =>
    obtain ⟨new, h⟩ := ih
    exact h.step hab hs

end Trail

/-- A pass of one scanner keeps what another has below its marks. -/
lemma Steps.covered_other {due : ℕ → List S → Prop} {k : K} {h₀ : ℕ}
    (hmono : ∀ n l l', l ⊆ l' → due n l → due n l') (h : φ.Steps a b) (hk : k ≠ φ.key)
    (hcov : σ.Covered due k h₀ (σ.log a.w)) (hclean : ∀ n, ¬ σ.Marked k n (σ.buf a.w)) :
    σ.Covered due k h₀ (σ.log b.w) ∧ ∀ n, ¬ σ.Marked k n (σ.buf b.w) := by
  obtain ⟨new, ht, ho, hl⟩ := h.total
  refine ⟨fun m hm n h1 h2 => hmono _ _ _ hl ?_, fun n ⟨s, hs, hm⟩ => ?_⟩
  · have hm' : σ.Marked k m (σ.total b.w) := hm.mono (List.subset_append_left _ _)
    rw [ht, marked_append, Store.total, marked_append] at hm'
    rcases hm' with (hm' | hm') | ⟨s, hs, hm'⟩
    · exact hcov m hm' n h1 h2
    · exact absurd hm' (hclean m)
    · exact absurd hm' ((ho s hs).not_mark hk)
  · rcases h.buf hs with hs | hs
    · exact hclean n ⟨s, hs, hm⟩
    · exact hs.not_mark hk hm

/-! ### Nothing lies above the marks, and nothing is there twice -/

section Neat

variable (φ) in
/-- What a pass keeps that began with an empty buffer. -/
structure Neat (a : At W P) : Prop where
  tidy : σ.Tidy (σ.log a.w)
  once : ((σ.total a.w).filterMap σ.place).Nodup
  passed : ∀ s ∈ σ.total a.w, ∀ n p, σ.place s = some (φ.key, n, p) →
    n ≤ a.done ∨ n = a.done + 1 ∧ p < a.free
  mine : ∀ s ∈ σ.buf a.w, σ.Of φ.key s

lemma Neat.start {w : W} {i : ℕ} (ht : σ.Tidy (σ.log w)) (hb : σ.buf w = [])
    (hi : ∀ n, σ.Marked φ.key n (σ.log w) → n ≤ i) : φ.Neat (⟨w, i, ⊥⟩ : At W P) := by
  refine ⟨ht, by simpa [Store.total, hb] using ht.once, fun s hs n p hp => Or.inl ?_,
    by simp [hb]⟩
  obtain ⟨h, hn, hm⟩ := ht.below s (by simpa [Store.total, hb] using hs) _ n p hp
  exact hn.trans (hi h hm)

lemma Step.neat (h : φ.Step a b) (ha : φ.Neat a) : φ.Neat b := by
  obtain ⟨htidy, honce, hpassed, hmine⟩ := ha
  cases h with
  | quiet h =>
    have ht : ∀ {n w w'}, φ.quiet n w w' → σ.total w' = σ.total w := fun h => by
      rw [Store.total, Store.total, φ.quiet_log h, φ.quiet_buf h]
    exact ⟨by rwa [φ.quiet_log h], by rwa [ht h], by rwa [ht h], by rwa [φ.quiet_buf h]⟩
  | room hpq =>
    refine ⟨htidy, honce, fun s hs n p hp => ?_, hmine⟩
    exact (hpassed s hs n p hp).imp_right fun ⟨h1, h2⟩ => ⟨h1, h2.trans_le hpq⟩
  | @credit w w' i p q r s h hp hpq hqr =>
    have ht : σ.total w' = σ.total w ++ [s] := by
      simp [Store.total, φ.credit_log h, φ.credit_buf h]
    refine ⟨by rwa [φ.credit_log h], ?_, ?_, ?_⟩
    · rw [ht, List.filterMap_append, List.nodup_append]
      refine ⟨honce, by simp [hp], ?_⟩
      -- a row at that place would lie before `p`
      intro x hx y hy hxy
      obtain ⟨s', hs', hx⟩ := List.mem_filterMap.mp hx
      obtain rfl : y = (φ.key, i + 1, q) := by simpa [hp] using hy
      subst hxy
      rcases hpassed s' hs' _ _ hx with h1 | ⟨-, h2⟩
      · simp at h1
      · exact absurd (h2.trans_le hpq) (lt_irrefl q)
    · intro s' hs' n p' hp'
      rw [ht, List.mem_append, List.mem_singleton] at hs'
      rcases hs' with hs' | rfl
      · exact (hpassed s' hs' n p' hp').imp_right fun ⟨h1, h2⟩ =>
          ⟨h1, h2.trans (hpq.trans_lt hqr)⟩
      · rw [hp] at hp'
        simp only [Option.some.injEq, Prod.mk.injEq, true_and] at hp'
        exact Or.inr ⟨hp'.1.symm, hp'.2 ▸ hqr⟩
    · intro s' hs'
      rw [φ.credit_buf h, List.mem_append, List.mem_singleton] at hs'
      rcases hs' with hs' | rfl
      · exact hmine s' hs'
      · exact Or.inr ⟨_, _, hp⟩
  | @skip w i p h =>
    refine ⟨htidy, honce, fun s hs n p hp => ?_, hmine⟩
    rcases hpassed s hs n p hp with h1 | ⟨h1, -⟩
    · exact Or.inl (Nat.le_succ_of_le h1)
    · exact Or.inl h1.le
  | @store w w' i p s h =>
    have hs : σ.place s = none := σ.place_of_mark (φ.store_mark h)
    have ht : σ.total w' = σ.total w ++ [s] := by
      simp [Store.total, φ.store_log h, φ.store_buf h]
    have hpl : (σ.total w').filterMap σ.place = (σ.total w).filterMap σ.place := by
      simp [ht, hs]
    refine ⟨⟨?_, ?_⟩, by rwa [hpl], ?_, by simp [φ.store_buf h]⟩
    · intro s' hs' k n p' hp'
      have hsub : σ.log w ⊆ σ.log w' := fun x hx => by simp [φ.store_log h, Store.total, hx]
      rw [φ.store_log h, List.mem_append, List.mem_singleton, Store.total,
        List.mem_append] at hs'
      rcases hs' with (hs' | hs') | rfl
      · obtain ⟨m, hm, hk⟩ := htidy.below s' hs' k n p' hp'
        exact ⟨m, hm, hk.mono hsub⟩
      · -- what waits in the buffer is the scanner's own, and at most one block ahead
        obtain ⟨m, hm⟩ | ⟨m, p'', hp''⟩ := hmine s' hs'
        · rw [σ.place_of_mark hm] at hp'
          cases hp'
        · rw [hp''] at hp'
          simp only [Option.some.injEq, Prod.mk.injEq] at hp'
          obtain ⟨rfl, rfl, rfl⟩ := hp'
          refine ⟨i + 1, ?_, s, by simp [φ.store_log h], φ.store_mark h⟩
          rcases hpassed s' (List.mem_append_right _ hs') _ _ hp'' with h1 | ⟨h1, -⟩
          · exact Nat.le_succ_of_le h1
          · exact h1.le
      · rw [hs] at hp'
        cases hp'
    · have : σ.log w' = σ.total w' := by rw [ht, φ.store_log h]
      rwa [this, hpl]
    · intro s' hs' n p' hp'
      rw [ht, List.mem_append, List.mem_singleton] at hs'
      rcases hs' with hs' | rfl
      · rcases hpassed s' hs' n p' hp' with h1 | ⟨h1, -⟩
        · exact Or.inl (Nat.le_succ_of_le h1)
        · exact Or.inl h1.le
      · rw [hs] at hp'
        cases hp'

/-- **A pass that begins with an empty buffer keeps the log tidy**, at every moment of it. -/
theorem Steps.neat (h : φ.Steps a b) (ha : φ.Neat a) : φ.Neat b := by
  induction h with
  | refl => exact ha
  | tail _ hs ih => exact hs.neat ih

end Neat

end Scanner

end OpenWallet.Lib
