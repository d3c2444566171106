import Mathlib.Data.List.Basic
import Mathlib.Data.List.Count
import Mathlib.Tactic.Common

/-!
Threads of one loop that share a lock and a condition variable. A thread takes the lock, and
either waits, or lets the lock go to work on an item, or leaves the loop.
-/

namespace OpenWallet.Lib

/-- Where a thread is: about to take the lock, at some place of the loop; waiting there, until a
deadline if it has one; at work on an item without the lock; or out of the loop. -/
inductive Thread (κ α : Type)
  | locking (place : κ)
  | waiting (place : κ) (deadline : Option ℕ)
  | working (item : α)
  | exited
deriving DecidableEq

namespace Thread

variable {κ α : Type}

def item? : Thread κ α → Option α
  | working item => some item
  | _ => none

/-- It is told that the condition may have changed. -/
def notified : Thread κ α → Thread κ α
  | waiting place _ => locking place
  | t => t

def Waits : Thread κ α → Prop
  | waiting _ _ => True
  | _ => False

/-- It goes on by itself. -/
def Awake : Thread κ α → Prop
  | locking _ | working _ => True
  | _ => False

instance : DecidablePred (Waits (κ := κ) (α := α)) := fun t => by
  unfold Waits
  split <;> infer_instance

@[simp] lemma item?_notified (t : Thread κ α) : t.notified.item? = t.item? := by
  cases t <;> rfl

@[simp] lemma not_waits_notified (t : Thread κ α) : ¬ t.notified.Waits := by
  cases t <;> simp [notified, Waits]

end Thread

variable {κ α : Type}

def items (ts : List (Thread κ α)) : List α := ts.filterMap Thread.item?

@[simp] lemma items_append (ts us : List (Thread κ α)) : items (ts ++ us) = items ts ++ items us :=
  List.filterMap_append

@[simp] lemma items_nil : items ([] : List (Thread κ α)) = [] := rfl

@[simp] lemma items_locking (place : κ) (ts : List (Thread κ α)) :
    items (.locking place :: ts) = items ts := rfl

@[simp] lemma items_waiting (place : κ) (deadline : Option ℕ) (ts : List (Thread κ α)) :
    items (.waiting place deadline :: ts) = items ts := rfl

@[simp] lemma items_working (item : α) (ts : List (Thread κ α)) :
    items (.working item :: ts) = item :: items ts := rfl

@[simp] lemma items_exited (ts : List (Thread κ α)) :
    items ((.exited : Thread κ α) :: ts) = items ts := rfl

lemma mem_items {ts : List (Thread κ α)} {item : α} : item ∈ items ts ↔ .working item ∈ ts := by
  unfold items
  rw [List.mem_filterMap]
  constructor
  · rintro ⟨t, ht, hitem⟩
    cases t with
    | working i =>
      obtain rfl : i = item := Option.some.inj hitem
      exact ht
    | _ => cases hitem
  · intro h
    exact ⟨_, h, rfl⟩

/-- `notify_one`: one thread that waits is told, if there is one. -/
inductive NotifyOne : List (Thread κ α) → List (Thread κ α) → Prop
  | none {ts : List (Thread κ α)} : (∀ t ∈ ts, ¬ t.Waits) → NotifyOne ts ts
  | one {pre post : List (Thread κ α)} {place : κ} {deadline : Option ℕ} :
      NotifyOne (pre ++ .waiting place deadline :: post) (pre ++ .locking place :: post)

def notifyAll (ts : List (Thread κ α)) : List (Thread κ α) := ts.map Thread.notified

@[simp] lemma items_notifyAll (ts : List (Thread κ α)) : items (notifyAll ts) = items ts := by
  unfold items notifyAll
  rw [List.filterMap_map]
  congr 1
  ext t
  simp

lemma not_waits_notifyAll (ts : List (Thread κ α)) : ∀ t ∈ notifyAll ts, ¬ t.Waits := by
  intro t ht
  obtain ⟨u, -, rfl⟩ := List.mem_map.mp ht
  exact u.not_waits_notified

variable {ts us : List (Thread κ α)}

lemma NotifyOne.items (h : NotifyOne ts us) : items us = items ts := by
  cases h <;> simp

lemma NotifyOne.length_eq (h : NotifyOne ts us) : us.length = ts.length := by
  cases h <;> simp

lemma NotifyOne.eq_self (h : NotifyOne ts us) (hno : ∀ t ∈ ts, ¬ t.Waits) : us = ts := by
  cases h with
  | none => rfl
  | one => exact absurd trivial (hno _ (List.mem_append_right _ List.mem_cons_self))

lemma NotifyOne.mem_of_waits (h : NotifyOne ts us) {t : Thread κ α} (ht : t ∈ us) (hw : t.Waits) :
    t ∈ ts := by
  cases h with
  | none => exact ht
  | one =>
    rcases List.mem_append.mp ht with ht | ht
    · exact List.mem_append_left _ ht
    rcases List.mem_cons.mp ht with rfl | ht
    · exact absurd hw id
    · exact List.mem_append_right _ (List.mem_cons_of_mem _ ht)

lemma NotifyOne.mem_of_exited (h : NotifyOne ts us) (ht : .exited ∈ us) : .exited ∈ ts := by
  cases h with
  | none => exact ht
  | one => simpa using ht

/-- **No notice is lost**: after it, a thread of the loop is awake, unless all have left it. -/
theorem NotifyOne.exists_awake (h : NotifyOne ts us) (hin : ∃ t ∈ ts, t ≠ .exited) :
    ∃ t ∈ us, t.Awake := by
  cases h with
  | none hno =>
    obtain ⟨t, ht, hne⟩ := hin
    refine ⟨t, ht, ?_⟩
    have hw := hno t ht
    cases t with
    | locking | working => exact trivial
    | waiting => exact absurd trivial hw
    | exited => exact absurd rfl hne
  | one => exact ⟨_, List.mem_append_right _ List.mem_cons_self, trivial⟩

end OpenWallet.Lib
