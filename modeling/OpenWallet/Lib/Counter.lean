import Mathlib.Tactic

/-!
A counter that marks the entries of a log, and that is found again in the last entry of the log.
An entry has a number, a key and a label; labels are read as marks, which rise with the numbers
under the key that is in use. Entries may get lost on their way to the log.
-/

namespace OpenWallet.Lib.Counter

variable {α ι κ τ ν : Type} [LinearOrder ι] [LinearOrder ν]
variable (id : α → ι) (key : α → κ) (label : α → τ) (read : τ → Option ν)

/-- The marks under a key rise with the numbers, up to a bound. -/
structure Rises (log : List α) (k : κ) (m : ν) : Prop where
  marked : ∀ r ∈ log, key r = k → ∃ n ≤ m, read (label r) = some n
  rises : ∀ r ∈ log, ∀ s ∈ log, key r = k → key s = k → id r < id s →
    ∀ a b, read (label r) = some a → read (label s) = some b → a < b

def IsLast (log : List α) (r : α) : Prop := r ∈ log ∧ ∀ s ∈ log, id s ≤ id r

/-- No two entries have a number, or a key and a label, in common, and the marks under the key
of the last entry rise. -/
structure Sound (log : List α) : Prop where
  distinct : (log.map id).Nodup
  pairs : (log.map fun r => (key r, label r)).Nodup
  rises : ∀ r, IsLast id log r → ∃ m, Rises id key label read log (key r) m

/-- The counter is ahead of all marks under its key, which is that of the last entry or new. -/
structure Counts (log : List α) (k : κ) (m : ν) : Prop where
  rises : Rises id key label read log k m
  last : (∀ r ∈ log, key r ≠ k) ∨ ∀ r, IsLast id log r → key r = k

/-- Entries on the way to the log: the marks the counter has given under its key. -/
structure Pending (log new : List α) (k : κ) (m : ν) : Prop where
  sound : Sound id key label read log
  counts : Counts id key label read log k m
  key_eq : ∀ r ∈ new, key r = k
  marked : ∀ r ∈ new, ∃ n ≤ m, read (label r) = some n
  climbs : new.Pairwise fun r s => id r < id s ∧
    ∀ a b, read (label r) = some a → read (label s) = some b → a < b
  above : ∀ r ∈ log, ∀ s ∈ new, id r < id s ∧
    (key r = k → ∀ a b, read (label r) = some a → read (label s) = some b → a < b)

variable {id key label read} {log new new' : List α} {k : κ} {m n : ν} {r : α}

lemma Rises.mono (h : Rises id key label read log k m) (hmn : m ≤ n) :
    Rises id key label read log k n := by
  refine ⟨fun r hr hk => ?_, h.rises⟩
  obtain ⟨a, ha, hread⟩ := h.marked r hr hk
  exact ⟨a, ha.trans hmn, hread⟩

lemma Counts.mono (h : Counts id key label read log k m) (hmn : m ≤ n) :
    Counts id key label read log k n :=
  ⟨h.rises.mono hmn, h.last⟩

lemma Counts.fresh (h : ∀ r ∈ log, key r ≠ k) : Counts id key label read log k m :=
  ⟨⟨fun r hr hk => absurd hk (h r hr), fun r hr _ _ hk => absurd hk (h r hr)⟩, Or.inl h⟩

/-- **The counter is found again in the last entry.** -/
theorem Sound.restart (h : Sound id key label read log) (hr : IsLast id log r)
    (hm : read (label r) = some m) : Counts id key label read log (key r) m := by
  obtain ⟨b, hrises⟩ := h.rises r hr
  have hsame : ∀ s ∈ log, id s = id r → s = r := fun s hs hid =>
    List.inj_on_of_nodup_map h.distinct hs hr.1 hid
  refine ⟨⟨fun s hs hk => ?_, hrises.rises⟩, Or.inr fun s hs => ?_⟩
  · obtain ⟨a, -, ha⟩ := hrises.marked s hs hk
    refine ⟨a, ?_, ha⟩
    rcases (hr.2 s hs).lt_or_eq with hlt | heq
    · exact (hrises.rises s hs r hr.1 hk rfl hlt a m ha hm).le
    · obtain rfl := hsame s hs heq
      exact (Option.some.inj (ha.symm.trans hm)).le
  · rw [hsame s hs.1 (le_antisymm (hr.2 s hs.1) (hs.2 r hr.1))]

lemma Pending.nil (hs : Sound id key label read log) (hc : Counts id key label read log k m) :
    Pending id key label read log [] k m :=
  ⟨hs, hc, by simp, by simp, .nil, by simp⟩

lemma Sound.singleton (hr : read (label r) = some n) : Sound id key label read [r] := by
  refine ⟨by simp, by simp, fun s _ => ⟨n, fun t ht _ => ?_, fun s hs t ht _ _ hlt => ?_⟩⟩
  · obtain rfl := List.mem_singleton.mp ht
    exact ⟨n, le_rfl, hr⟩
  · rw [List.mem_singleton.mp hs, List.mem_singleton.mp ht] at hlt
    exact absurd hlt (lt_irrefl _)

lemma Pending.empty : Pending id key label read [] [] k m :=
  .nil ⟨by simp, by simp, fun r hr => absurd hr.1 List.not_mem_nil⟩ (.fresh (by simp))

lemma Pending.sublist (h : Pending id key label read log new k m) (hs : new'.Sublist new) :
    Pending id key label read log new' k m where
  sound := h.sound
  counts := h.counts
  key_eq r hr := h.key_eq r (hs.subset hr)
  marked r hr := h.marked r (hs.subset hr)
  climbs := h.climbs.sublist hs
  above r hr s hn := h.above r hr s (hs.subset hn)

lemma Pending.concat (h : Pending id key label read log new k m)
    (hid : ∀ s ∈ log ++ new, id s < id r) (hk : key r = k) (hr : read (label r) = some n)
    (hmn : m < n) : Pending id key label read log (new ++ [r]) k n where
  sound := h.sound
  counts := h.counts.mono hmn.le
  key_eq s hs := by
    rcases List.mem_append.mp hs with hs | hs
    · exact h.key_eq s hs
    · rwa [List.mem_singleton.mp hs]
  marked s hs := by
    rcases List.mem_append.mp hs with hs | hs
    · obtain ⟨a, ha, hread⟩ := h.marked s hs
      exact ⟨a, ha.trans hmn.le, hread⟩
    · exact ⟨n, le_rfl, by rwa [List.mem_singleton.mp hs]⟩
  climbs := by
    rw [List.pairwise_append]
    refine ⟨h.climbs, List.pairwise_singleton _ _, fun s hs t ht => ?_⟩
    obtain rfl := List.mem_singleton.mp ht
    refine ⟨hid s (List.mem_append_right _ hs), fun a b ha hb => ?_⟩
    obtain ⟨a', ha', hread⟩ := h.marked s hs
    obtain rfl : a = a' := Option.some.inj (ha.symm.trans hread)
    obtain rfl : b = n := Option.some.inj (hb.symm.trans hr)
    exact ha'.trans_lt hmn
  above s hs t ht := by
    rcases List.mem_append.mp ht with ht | ht
    · exact h.above s hs t ht
    · obtain rfl := List.mem_singleton.mp ht
      refine ⟨hid s (List.mem_append_left _ hs), fun hks a b ha hb => ?_⟩
      obtain ⟨a', ha', hread⟩ := h.counts.rises.marked s hs hks
      obtain rfl : a = a' := Option.some.inj (ha.symm.trans hread)
      obtain rfl : b = n := Option.some.inj (hb.symm.trans hr)
      exact ha'.trans_lt hmn

lemma Pending.rises (h : Pending id key label read log new k m) :
    Rises id key label read (log ++ new) k m := by
  have hnew : ∀ r ∈ new, ∀ s ∈ new, id r < id s → ∀ a b, read (label r) = some a →
      read (label s) = some b → a < b := by
    intro r hr s hs hlt
    obtain ⟨i, hi, rfl⟩ := List.getElem_of_mem hr
    obtain ⟨j, hj, rfl⟩ := List.getElem_of_mem hs
    have hpair := List.pairwise_iff_getElem.mp h.climbs
    rcases lt_trichotomy i j with hij | rfl | hji
    · exact (hpair i j hi hj hij).2
    · exact absurd hlt (lt_irrefl _)
    · exact absurd hlt (hpair j i hj hi hji).1.not_gt
  refine ⟨fun r hr hk => ?_, fun r hr s hs hkr hks hlt => ?_⟩
  · exact (List.mem_append.mp hr).elim (fun hr => h.counts.rises.marked r hr hk) (h.marked r)
  · rcases List.mem_append.mp hr with hr | hr
    · rcases List.mem_append.mp hs with hs | hs
      · exact h.counts.rises.rises r hr s hs hkr hks hlt
      · exact (h.above r hr s hs).2 hkr
    · rcases List.mem_append.mp hs with hs | hs
      · exact absurd hlt (h.above s hs r hr).1.not_gt
      · exact hnew r hr s hs hlt

/-- **The entries keep the log sound, and the counter ahead of it.** -/
theorem Pending.append (h : Pending id key label read log new k m) :
    Sound id key label read (log ++ new) ∧ Counts id key label read (log ++ new) k m := by
  cases hnil : new with
  | nil =>
    rw [List.append_nil]
    exact ⟨h.sound, h.counts⟩
  | cons t rest =>
    rw [← hnil]
    have ht : t ∈ new := by simp [hnil]
    have hlast : ∀ r, IsLast id (log ++ new) r → key r = k := by
      rintro r ⟨hr, hmax⟩
      rcases List.mem_append.mp hr with hr | hr
      · exact absurd (hmax t (List.mem_append_right _ ht)) (h.above r hr t ht).1.not_ge
      · exact h.key_eq r hr
    refine ⟨⟨?_, ?_, fun r hr => ⟨m, hlast r hr ▸ h.rises⟩⟩, h.rises, Or.inr hlast⟩
    · rw [List.map_append, List.nodup_append]
      refine ⟨h.sound.distinct, ?_, ?_⟩
      · exact List.pairwise_map.mpr (h.climbs.imp fun hrs => hrs.1.ne)
      · rintro _ hi _ hj rfl
        obtain ⟨r, hr, hri⟩ := List.mem_map.mp hi
        obtain ⟨s, hs, hsj⟩ := List.mem_map.mp hj
        exact (h.above r hr s hs).1.ne (hri.trans hsj.symm)
    · rw [List.map_append, List.nodup_append]
      refine ⟨h.sound.pairs, ?_, ?_⟩
      · refine List.pairwise_map.mpr (List.Pairwise.imp_of_mem (fun {r s} hr hs hrs heq => ?_) h.climbs)
        obtain ⟨a, -, ha⟩ := h.marked r hr
        have hlabel : label r = label s := (Prod.ext_iff.mp heq).2
        exact (hrs.2 a a ha (hlabel ▸ ha)).false
      · rintro _ hi _ hj rfl
        obtain ⟨r, hr, hri⟩ := List.mem_map.mp hi
        obtain ⟨s, hs, hsj⟩ := List.mem_map.mp hj
        obtain ⟨hkey, hlabel⟩ : key r = key s ∧ label r = label s :=
          Prod.ext_iff.mp (hri.trans hsj.symm)
        obtain ⟨a, -, ha⟩ := h.marked s hs
        exact ((h.above r hr s hs).2 (hkey.trans (h.key_eq s hs)) a a (hlabel ▸ ha) ha).false

end OpenWallet.Lib.Counter
