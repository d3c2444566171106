import Mathlib.Data.List.Sort
import Mathlib.Data.List.Perm.Basic
import OpenWallet.Lib.Condition

/-!
The scheduler of the background tasks: a queue by time, functions that are run again and again,
and the threads that service the queue. `F` is the type of the functions.
-/

namespace OpenWallet.Server

open Lib

/-- What `Repeat` is bound to. -/
structure Repeat (F : Type) where
  f : F
  deltaMilliSeconds : ℕ
deriving DecidableEq

/-- What a thread does without the lock: it runs the function, then `scheduleFromNow` has read the
clock for the next time, then the task is in the queue and the notice is due. -/
inductive Job (F : Type)
  | call (task : Repeat F)
  | schedule (task : Repeat F) (t : ℕ)
  | notify
deriving DecidableEq

def Job.task? {F : Type} : Job F → Option (Repeat F)
  | call task | schedule task _ => some task
  | notify => none

/-- Where `serviceQueue` takes its lock: at the head of its loop, after `RandAddSeedSleep`, after
`wait`, after a `wait_until` that was told, or after one that came to its time. -/
inductive Place
  | loop
  | seeded
  | waited
  | told
  | timeout
deriving DecidableEq

abbrev ServiceThread (F : Type) : Type := Thread Place (Job F)

/-- The clock counts nanoseconds. -/
def milliseconds (n : ℕ) : ℕ := n * 1000000

/-- `insert` of the multimap: after the tasks of the same time. -/
def insertTask {F : Type} (t : ℕ) (task : Repeat F) (taskQueue : List (ℕ × Repeat F)) :
    List (ℕ × Repeat F) :=
  taskQueue.orderedInsert (fun a b => a.1 < b.1) (t, task)

structure CScheduler (F : Type) where
  taskQueue : List (ℕ × Repeat F)
  stopRequested : Bool
  stopWhenEmpty : Bool
  threads : List (ServiceThread F)
  /-- The calls of `stop` that have let go of the lock, and have not notified yet. -/
  stopping : ℕ
  now : ℕ

/-- What happens to a task, at some time of the clock: its function is called, or it is scheduled
from now. -/
inductive TaskEvent (F : Type)
  | called (task : Repeat F)
  | scheduled (task : Repeat F)
deriving DecidableEq

def TaskEvent.task {F : Type} : TaskEvent F → Repeat F
  | called task | scheduled task => task

namespace CScheduler

variable {F : Type}

def shouldStop (s : CScheduler F) : Bool :=
  s.stopRequested || (s.stopWhenEmpty && s.taskQueue.isEmpty)

/-- From the head of the loop to the next place that lets go of the lock. -/
def loop (s : CScheduler F) : ServiceThread F :=
  if s.shouldStop then .exited
  else match s.taskQueue with
    | [] => .locking .seeded
    | (time, _) :: _ => .waiting .told (some time)

/-- What a thread that takes the lock does with it, and the queue it leaves. -/
def serviceQueue (s : CScheduler F) : Place → ServiceThread F × List (ℕ × Repeat F)
  | .loop | .told => (s.loop, s.taskQueue)
  | .seeded | .waited =>
    if !s.shouldStop && s.taskQueue.isEmpty then (.waiting .waited none, s.taskQueue)
    else (s.loop, s.taskQueue)
  | .timeout =>
    match s.shouldStop, s.taskQueue with
    | false, (_, task) :: taskQueue => (.working (.call task), taskQueue)
    | _, _ => (s.loop, s.taskQueue)

/-- The scheduler after the calls of `scheduleEvery`, each with the time it read, and with new
threads. -/
def start (threads : ℕ) (calls : List (ℕ × Repeat F)) (now : ℕ) : CScheduler F where
  taskQueue := calls.foldl (fun taskQueue call =>
    insertTask (call.1 + milliseconds call.2.deltaMilliSeconds) call.2 taskQueue) []
  stopRequested := false
  stopWhenEmpty := false
  threads := List.replicate threads (.locking .loop)
  stopping := 0
  now := now

def called? : ServiceThread F → Option (TaskEvent F)
  | .working (.call task) => some (.called task)
  | _ => none

/-- What the threads do by themselves. -/
inductive Serve (s : CScheduler F) : Option (TaskEvent F) → CScheduler F → Prop
  | service {pre post : List (ServiceThread F)} {place : Place} :
      s.threads = pre ++ .locking place :: post → (s.serviceQueue place).1 ≠ .exited →
      Serve s (called? (s.serviceQueue place).1)
        { s with
          taskQueue := (s.serviceQueue place).2
          threads := pre ++ (s.serviceQueue place).1 :: post }
  | leave {pre post threads : List (ServiceThread F)} {place : Place} :
      s.threads = pre ++ .locking place :: post → (s.serviceQueue place).1 = .exited →
      NotifyOne (pre ++ .exited :: post) threads → Serve s none { s with threads := threads }
  | timeout {pre post : List (ServiceThread F)} {time : ℕ} :
      s.threads = pre ++ .waiting .told (some time) :: post → time ≤ s.now →
      Serve s none { s with threads := pre ++ .locking .timeout :: post }
  | insert {pre post : List (ServiceThread F)} {task : Repeat F} {t : ℕ} :
      s.threads = pre ++ .working (.schedule task t) :: post →
      Serve s none { s with
        taskQueue := insertTask t task s.taskQueue
        threads := pre ++ .working .notify :: post }
  | notify {pre post threads : List (ServiceThread F)} :
      s.threads = pre ++ .working .notify :: post →
      NotifyOne (pre ++ .locking .loop :: post) threads →
      Serve s none { s with threads := threads }

/-- A step of the scheduler. A thread may wake for no reason, a function returns some time, anyone
may call `stop`, and the clock goes as `clock` says. -/
inductive Step (clock : ℕ → ℕ → Prop) (s : CScheduler F) : Option (TaskEvent F) → CScheduler F → Prop
  | serve {e : Option (TaskEvent F)} {s' : CScheduler F} : Serve s e s' → Step clock s e s'
  | wake {pre post : List (ServiceThread F)} {place : Place} {deadline : Option ℕ} :
      s.threads = pre ++ .waiting place deadline :: post →
      Step clock s none { s with threads := pre ++ .locking place :: post }
  | finish {pre post : List (ServiceThread F)} {task : Repeat F} :
      s.threads = pre ++ .working (.call task) :: post →
      Step clock s (some (.scheduled task)) { s with
        threads := pre ++
          .working (.schedule task (s.now + milliseconds task.deltaMilliSeconds)) :: post }
  | stop (drain : Bool) :
      Step clock s none { s with
        stopRequested := s.stopRequested || !drain
        stopWhenEmpty := s.stopWhenEmpty || drain
        stopping := s.stopping + 1 }
  | stopped {n : ℕ} : s.stopping = n + 1 →
      Step clock s none { s with threads := notifyAll s.threads, stopping := n }
  | tick {now : ℕ} : clock s.now now → Step clock s none { s with now := now }

/-- Steps, and what happened in them at which time of the clock. -/
inductive Steps (clock : ℕ → ℕ → Prop) (s : CScheduler F) :
    List (ℕ × TaskEvent F) → CScheduler F → Prop
  | refl : Steps clock s [] s
  | tail {es : List (ℕ × TaskEvent F)} {s₁ s₂ : CScheduler F} {e : Option (TaskEvent F)} :
      Steps clock s es s₁ → Step clock s₁ e s₂ →
      Steps clock s (es ++ (e.map fun e => (s₁.now, e)).toList) s₂

def held (s : CScheduler F) : List (Repeat F) := (items s.threads).filterMap Job.task?

def tasks (s : CScheduler F) : List (Repeat F) := s.taskQueue.map Prod.snd ++ s.held

lemma perm_insertTask (t : ℕ) (task : Repeat F) (taskQueue : List (ℕ × Repeat F)) :
    (insertTask t task taskQueue).Perm ((t, task) :: taskQueue) :=
  List.perm_orderedInsert _ _ _

@[simp] lemma item?_loop (s : CScheduler F) : s.loop.item? = none := by
  unfold loop
  split
  · rfl
  · split <;> rfl

lemma items_cons (t : ServiceThread F) (ts : List (ServiceThread F)) :
    items (t :: ts) = t.item?.toList ++ items ts := by
  cases t <;> rfl

lemma perm_serviceQueue (s : CScheduler F) (place : Place) :
    ((s.serviceQueue place).2.map Prod.snd ++
      (s.serviceQueue place).1.item?.toList.filterMap Job.task?).Perm
        (s.taskQueue.map Prod.snd) := by
  cases place with
  | loop | told => simp [serviceQueue]
  | seeded | waited =>
    simp only [serviceQueue]
    split
    · simp [Thread.item?]
    · simp
  | timeout =>
    simp only [serviceQueue]
    split
    · next task taskQueue _ hq =>
      rw [hq]
      exact List.perm_append_singleton _ _
    · simp

variable {clock : ℕ → ℕ → Prop} {s s' : CScheduler F} {e : Option (TaskEvent F)}

lemma tasks_serve (h : Serve s e s') : s'.tasks.Perm s.tasks := by
  cases h with
  | @service pre post place hw _ =>
    have hq := (perm_serviceQueue s place).append_right
      (List.filterMap Job.task? (items pre) ++ List.filterMap Job.task? (items post))
    simp only [tasks, held, hw, items_append, items_cons, items_locking, List.filterMap_append]
    refine List.Perm.trans ?_ hq
    rw [List.append_assoc]
    exact List.Perm.append_left _ (List.perm_append_comm_assoc _ _ _)
  | leave hw _ hn => simp [tasks, held, hw, hn.items]
  | timeout hw _ => simp [tasks, held, hw]
  | @insert pre post task t hw =>
    have hq : ((insertTask t task s.taskQueue).map Prod.snd).Perm
        (task :: s.taskQueue.map Prod.snd) := (perm_insertTask t task _).map Prod.snd
    simp only [tasks, held, hw, items_append, items_working, List.filterMap_append,
      List.filterMap_cons, Job.task?]
    refine (hq.append_right _).trans ?_
    rw [← List.append_assoc, ← List.append_assoc]
    exact List.perm_middle.symm
  | @notify pre post threads hw hn =>
    have hjob : (Job.notify :: items post).filterMap Job.task? =
        (items post).filterMap Job.task? := rfl
    simp [tasks, held, hw, hn.items, hjob]

lemma tasks_step (h : Step clock s e s') : s'.tasks.Perm s.tasks := by
  cases h with
  | serve h => exact tasks_serve h
  | wake hw => simp [tasks, held, hw]
  | finish hw => simp [tasks, held, hw, Job.task?]
  | stopped => simp [tasks, held]
  | stop | tick => exact List.Perm.refl _

lemma items_start (threads : ℕ) :
    items (List.replicate threads (Thread.locking Place.loop : ServiceThread F)) = [] := by
  induction threads with
  | zero => rfl
  | succ n ih => rw [List.replicate_succ, items_locking, ih]

lemma tasks_start (threads : ℕ) (calls : List (ℕ × Repeat F)) (now : ℕ) :
    (start threads calls now).tasks.Perm (calls.map Prod.snd) := by
  have hqueue : ∀ (calls : List (ℕ × Repeat F)) taskQueue, ((calls.foldl (fun taskQueue call =>
      insertTask (call.1 + milliseconds call.2.deltaMilliSeconds) call.2 taskQueue)
        taskQueue).map Prod.snd).Perm (taskQueue.map Prod.snd ++ calls.map Prod.snd) := by
    intro calls
    induction calls with
    | nil => simp
    | cons call calls ih =>
      intro taskQueue
      refine (ih _).trans ?_
      refine (((perm_insertTask _ _ _).map Prod.snd).append_right _).trans ?_
      simpa using List.perm_middle.symm
  simpa [tasks, held, start, items_start] using hqueue calls []

variable {threads now : ℕ} {calls : List (ℕ × Repeat F)} {es : List (ℕ × TaskEvent F)}

/-- **No task is lost or doubled**, with any number of threads: each is in the queue, or in the
hands of one thread. -/
theorem tasks_kept (h : Steps clock (start threads calls now) es s) :
    s.tasks.Perm (calls.map Prod.snd) := by
  induction h with
  | refl => exact tasks_start threads calls now
  | tail _ hst ih => exact (tasks_step hst).trans ih

def smallTask : Repeat String := ⟨"CreateBtcAddress", 10000⟩

def smallCalled : CScheduler String where
  taskQueue := [(20000000000, smallTask)]
  stopRequested := false
  stopWhenEmpty := false
  threads := [.locking .loop]
  stopping := 0
  now := 10000000000

lemma steps_small : Steps (· ≤ ·) (start 1 [(0, smallTask)] 0)
    [(10000000000, .called smallTask), (10000000000, .scheduled smallTask)] smallCalled := by
  have hstart : Steps (· ≤ ·) (start 1 [(0, smallTask)] 0) [] (start 1 [(0, smallTask)] 0) := .refl
  have hsleep := hstart.tail (.serve (@Serve.service _ _ [] [] .loop rfl (by decide)))
  have htick := hsleep.tail (.tick (show 0 ≤ 10000000000 by decide))
  have htimeout := htick.tail (.serve (@Serve.timeout _ _ [] [] 10000000000 rfl le_rfl))
  have hcall := htimeout.tail (.serve (@Serve.service _ _ [] [] .timeout rfl (by decide)))
  have hfinish := hcall.tail (@Step.finish _ _ _ [] [] smallTask rfl)
  have hinsert := hfinish.tail (.serve (@Serve.insert _ _ [] [] smallTask 20000000000 rfl))
  exact hinsert.tail (.serve (@Serve.notify _ _ [] [] _ rfl (.none (by simp [Thread.Waits]))))

theorem tasks_kept_small : ∃ s : CScheduler String, s.tasks.Perm [smallTask] ∧
    s.threads = [.locking .loop] :=
  ⟨smallCalled, tasks_kept steps_small, rfl⟩

/-! ### One thread -/

/-- What a thread that has the queue for itself goes by. -/
def Stands (s : CScheduler F) : ServiceThread F → Prop
  | .waiting place deadline =>
    s.taskQueue = [] ∧ place = .waited ∧ deadline = none ∨
      ∃ a ∈ s.taskQueue.head?, place = .told ∧ deadline = some a.1
  | .locking .timeout => s.taskQueue ≠ []
  | .exited => s.stopRequested = true ∨ s.stopWhenEmpty = true
  | _ => True

/-- One thread services the queue, which is in the order of the times. -/
structure Alone (s : CScheduler F) : Prop where
  thread : ∃ t, s.threads = [t] ∧ s.Stands t
  sorted : s.taskQueue.Pairwise fun a b => a.1 ≤ b.1

lemma sorted_insertTask {t : ℕ} {task : Repeat F} {taskQueue : List (ℕ × Repeat F)}
    (h : taskQueue.Pairwise fun a b => a.1 ≤ b.1) :
    (insertTask t task taskQueue).Pairwise fun a b => a.1 ≤ b.1 := by
  induction taskQueue with
  | nil => exact List.pairwise_singleton _ _
  | cons a taskQueue ih =>
    obtain ⟨ha, hq⟩ := List.pairwise_cons.mp h
    unfold insertTask
    rw [List.orderedInsert_cons]
    split
    · next hlt =>
      refine List.pairwise_cons.mpr ⟨fun b hb => ?_, h⟩
      rcases List.mem_cons.mp hb with rfl | hb
      · exact hlt.le
      · exact hlt.le.trans (ha b hb)
    · next hle =>
      refine List.pairwise_cons.mpr ⟨fun b hb => ?_, ih hq⟩
      rcases List.mem_cons.mp ((perm_insertTask t task taskQueue).mem_iff.mp hb) with rfl | hb
      · exact not_lt.mp hle
      · exact ha b hb

lemma stands_loop (s : CScheduler F) : s.Stands s.loop := by
  unfold loop
  split
  · next hstop =>
    simp only [shouldStop, Bool.or_eq_true, Bool.and_eq_true] at hstop
    exact hstop.imp_right And.left
  · cases hq : s.taskQueue with
    | nil => exact trivial
    | cons a taskQueue =>
      refine Or.inr ⟨a, ?_, rfl, rfl⟩
      rw [hq]
      exact Option.mem_some_self a

lemma stands_serviceQueue (s : CScheduler F) (place : Place) :
    { s with taskQueue := (s.serviceQueue place).2 }.Stands (s.serviceQueue place).1 := by
  cases place with
  | loop | told => exact stands_loop s
  | seeded | waited =>
    simp only [serviceQueue]
    split
    · next hempty =>
      simp only [Bool.and_eq_true, List.isEmpty_iff] at hempty
      exact Or.inl ⟨hempty.2, rfl, rfl⟩
    · exact stands_loop s
  | timeout =>
    simp only [serviceQueue]
    split
    · exact trivial
    · exact stands_loop s

lemma Alone.only (h : Alone s) {pre post : List (ServiceThread F)} {t : ServiceThread F}
    (hw : s.threads = pre ++ t :: post) : pre = [] ∧ post = [] ∧ s.Stands t := by
  obtain ⟨u, hu, hstands⟩ := h.thread
  rw [hu] at hw
  cases pre with
  | nil =>
    obtain ⟨rfl, rfl⟩ := List.cons.inj hw
    exact ⟨rfl, rfl, hstands⟩
  | cons v pre => simp at hw

lemma Alone.serve (h : Alone s) (hst : Serve s e s') : Alone s' := by
  cases hst with
  | @service pre post place hw _ =>
    obtain ⟨rfl, rfl, -⟩ := h.only hw
    refine ⟨⟨_, rfl, stands_serviceQueue s place⟩, ?_⟩
    refine h.sorted.sublist ?_
    cases place with
    | timeout =>
      simp only [serviceQueue]
      split
      · next hq =>
        rw [hq]
        exact List.sublist_cons_self _ _
      · exact List.Sublist.refl _
    | seeded | waited =>
      simp only [serviceQueue]
      split <;> exact List.Sublist.refl _
    | loop | told => exact List.Sublist.refl _
  | @leave pre post threads place hw hexit hn =>
    obtain ⟨rfl, rfl, -⟩ := h.only hw
    obtain rfl := hn.eq_self (by simp [Thread.Waits])
    refine ⟨⟨.exited, rfl, ?_⟩, h.sorted⟩
    have hstands := stands_serviceQueue s place
    rw [hexit] at hstands
    exact hstands
  | timeout hw _ =>
    obtain ⟨rfl, rfl, hstands⟩ := h.only hw
    refine ⟨⟨_, rfl, ?_⟩, h.sorted⟩
    intro hq
    rcases hstands with ⟨-, hplace, -⟩ | ⟨a, ha, -⟩
    · cases hplace
    · rw [hq] at ha
      cases ha
  | insert hw =>
    obtain ⟨rfl, rfl, -⟩ := h.only hw
    exact ⟨⟨_, rfl, trivial⟩, sorted_insertTask h.sorted⟩
  | notify hw hn =>
    obtain ⟨rfl, rfl, -⟩ := h.only hw
    obtain rfl := hn.eq_self (by simp [Thread.Waits])
    exact ⟨⟨_, rfl, trivial⟩, h.sorted⟩

/-- What a thread goes by is the queue, and the wishes to stop, which stay. -/
lemma Stands.mono {t : ServiceThread F} (h : s.Stands t) (hq : s'.taskQueue = s.taskQueue)
    (hr : s.stopRequested = true → s'.stopRequested = true)
    (he : s.stopWhenEmpty = true → s'.stopWhenEmpty = true) : s'.Stands t := by
  cases t with
  | locking place =>
    cases place with
    | timeout =>
      rw [Stands, hq]
      exact h
    | _ => exact trivial
  | waiting place deadline =>
    rw [Stands, hq]
    exact h
  | working item => exact trivial
  | exited => exact h.imp hr he

lemma Stands.notified {t : ServiceThread F} (h : s.Stands t) : s.Stands t.notified := by
  cases t with
  | waiting place deadline =>
    rcases h with ⟨-, rfl, -⟩ | ⟨-, -, rfl, -⟩ <;> exact trivial
  | _ => exact h

lemma Alone.step (h : Alone s) (hst : Step clock s e s') : Alone s' := by
  cases hst with
  | serve hst => exact h.serve hst
  | wake hw =>
    obtain ⟨rfl, rfl, hstands⟩ := h.only hw
    exact ⟨⟨_, rfl, hstands.notified⟩, h.sorted⟩
  | finish hw =>
    obtain ⟨rfl, rfl, -⟩ := h.only hw
    exact ⟨⟨_, rfl, trivial⟩, h.sorted⟩
  | stop drain =>
    obtain ⟨t, ht, hstands⟩ := h.thread
    exact ⟨⟨t, ht, hstands.mono rfl (fun h => by simp [h]) fun h => by simp [h]⟩, h.sorted⟩
  | stopped =>
    obtain ⟨t, ht, hstands⟩ := h.thread
    refine ⟨⟨t.notified, ?_, hstands.notified.mono rfl id id⟩, h.sorted⟩
    rw [ht]
    rfl
  | tick =>
    obtain ⟨t, ht, hstands⟩ := h.thread
    exact ⟨⟨t, ht, hstands.mono rfl id id⟩, h.sorted⟩

lemma alone_start (calls : List (ℕ × Repeat F)) (now : ℕ) : Alone (start 1 calls now) := by
  refine ⟨⟨_, rfl, trivial⟩, ?_⟩
  have hsorted : ∀ (calls : List (ℕ × Repeat F)) taskQueue,
      (taskQueue.Pairwise fun a b => a.1 ≤ b.1) →
      (calls.foldl (fun taskQueue call => insertTask
        (call.1 + milliseconds call.2.deltaMilliSeconds) call.2 taskQueue) taskQueue).Pairwise
          fun a b => a.1 ≤ b.1 := by
    intro calls
    induction calls with
    | nil => exact fun _ h => h
    | cons call calls ih => exact fun _ h => ih _ (sorted_insertTask h)
  exact hsorted calls [] List.Pairwise.nil

lemma Steps.alone (h : Steps clock (start 1 calls now) es s) : Alone s := by
  induction h with
  | refl => exact alone_start calls now
  | tail _ hst ih => exact ih.step hst

/-! ### The times of the calls -/

/-- If the second is a call of the task of the first, the time between them is long enough. -/
def Apart (a b : ℕ × TaskEvent F) : Prop :=
  b.2 = .called a.2.task → a.1 + milliseconds a.2.task.deltaMilliSeconds ≤ b.1

/-- The times in the scheduler are after what happened. -/
structure Timely (es : List (ℕ × TaskEvent F)) (s : CScheduler F) : Prop where
  past : ∀ a ∈ es, a.1 ≤ s.now
  queued : ∀ b ∈ s.taskQueue, ∀ a ∈ es, a.2.task = b.2 →
    a.1 + milliseconds b.2.deltaMilliSeconds ≤ b.1
  schedule : ∀ task t, s.threads = [.working (.schedule task t)] → ∀ a ∈ es, a.2.task = task →
    a.1 + milliseconds task.deltaMilliSeconds ≤ t
  timeout : s.threads = [.locking .timeout] → ∀ b ∈ s.taskQueue.head?, b.1 ≤ s.now
  apart : es.Pairwise Apart

/-- A thread that takes the lock calls a function after a deadline only, and that of the first
task. -/
lemma serviceQueue_cases (s : CScheduler F) (place : Place) :
    ((s.serviceQueue place).2 = s.taskQueue ∧ (∀ item, (s.serviceQueue place).1 ≠ .working item) ∧
      (s.serviceQueue place).1 ≠ .locking .timeout) ∨
    place = .timeout ∧ ∃ time task taskQueue, s.taskQueue = (time, task) :: taskQueue ∧
      s.serviceQueue place = (.working (.call task), taskQueue) := by
  have hloop : (∀ item, s.loop ≠ .working item) ∧ s.loop ≠ .locking .timeout := by
    unfold loop
    split
    · simp
    · split <;> simp
  cases place with
  | loop | told => exact Or.inl ⟨rfl, hloop⟩
  | seeded | waited =>
    left
    simp only [serviceQueue]
    split
    · simp
    · exact ⟨rfl, hloop⟩
  | timeout =>
    simp only [serviceQueue]
    split
    · next time task taskQueue _ hq => exact Or.inr ⟨trivial, time, task, taskQueue, hq, rfl⟩
    · exact Or.inl ⟨rfl, hloop⟩

lemma Timely.same (h : Timely es s) (hq : s'.taskQueue = s.taskQueue) (hnow : s.now ≤ s'.now)
    (hschedule : ∀ task t, s'.threads = [.working (.schedule task t)] → s'.threads = s.threads)
    (htimeout : s'.threads = [.locking .timeout] →
      s'.threads = s.threads ∨ ∀ b ∈ s.taskQueue.head?, b.1 ≤ s.now) : Timely es s' where
  past a ha := (h.past a ha).trans hnow
  queued := by
    rw [hq]
    exact h.queued
  schedule task t ht := h.schedule task t ((hschedule task t ht).symm.trans ht)
  timeout ht b hb := by
    rw [hq] at hb
    rcases htimeout ht with heq | hdue
    · exact (h.timeout (heq.symm.trans ht) b hb).trans hnow
    · exact (hdue b hb).trans hnow
  apart := h.apart

lemma called?_eq_none {t : ServiceThread F} (h : ∀ item, t ≠ .working item) : called? t = none := by
  cases t with
  | working item => exact absurd rfl (h item)
  | _ => rfl

lemma Timely.serve (h : Timely es s) (ha : Alone s) (hnodup : s.tasks.Nodup)
    (hst : Serve s e s') : Timely (es ++ (e.map fun e => (s.now, e)).toList) s' := by
  cases hst with
  | @service pre post place hw _ =>
    obtain ⟨rfl, rfl, -⟩ := ha.only hw
    rcases serviceQueue_cases s place with ⟨hq, hwork, hexpired⟩ |
      ⟨rfl, time, task, taskQueue, hq, hcall⟩
    · rw [called?_eq_none hwork]
      simp only [Option.map_none, Option.toList_none, List.append_nil]
      refine h.same hq le_rfl (fun task t ht => ?_) fun ht => ?_
      · exact absurd (List.cons.inj ht).1 (hwork _)
      · exact absurd (List.cons.inj ht).1 hexpired
    · have hnot : task ∉ taskQueue.map Prod.snd := by
        have hqueue := (List.nodup_append.mp hnodup).1
        rw [hq] at hqueue
        exact (List.nodup_cons.mp hqueue).1
      rw [hcall]
      simp only [called?, Option.map_some, Option.toList_some]
      constructor
      · intro a ha
        rcases List.mem_append.mp ha with ha | ha
        · exact h.past a ha
        · rw [List.mem_singleton] at ha
          rw [ha]
      · intro b hb a ha htask
        rcases List.mem_append.mp ha with ha | ha
        · refine h.queued b ?_ a ha htask
          rw [hq]
          exact List.mem_cons_of_mem _ hb
        · rw [List.mem_singleton] at ha
          rw [ha] at htask
          refine absurd ?_ hnot
          rw [show task = b.2 from htask]
          exact List.mem_map_of_mem hb
      · intro task' t ht
        simp at ht
      · intro ht
        simp at ht
      · refine List.pairwise_append.mpr ⟨h.apart, List.pairwise_singleton _ _, ?_⟩
        intro a ha b hb hcalled
        rw [List.mem_singleton] at hb
        subst hb
        have htask : a.2.task = task := (TaskEvent.called.inj hcalled).symm
        have hlater := h.queued (time, task) (by simp [hq]) a ha htask
        have hdue := h.timeout hw (time, task) (by simp [hq])
        rw [htask]
        exact hlater.trans hdue
  | leave hw _ hn =>
    obtain ⟨rfl, rfl, -⟩ := ha.only hw
    obtain rfl := hn.eq_self (by simp [Thread.Waits])
    simp only [Option.map_none, Option.toList_none, List.append_nil]
    exact h.same rfl le_rfl (by simp) (by simp)
  | @timeout pre post time hw hdue =>
    obtain ⟨rfl, rfl, hstands⟩ := ha.only hw
    simp only [Option.map_none, Option.toList_none, List.append_nil]
    refine h.same rfl le_rfl (by simp) fun _ => Or.inr fun b hb => ?_
    rcases hstands with ⟨-, hplace, -⟩ | ⟨a, ha, -, htime⟩
    · cases hplace
    · obtain rfl : a = b := Option.mem_unique ha hb
      obtain rfl := Option.some.inj htime
      exact hdue
  | @insert pre post task t hw =>
    obtain ⟨rfl, rfl, -⟩ := ha.only hw
    simp only [Option.map_none, Option.toList_none, List.append_nil]
    refine ⟨h.past, fun b hb a ha htask => ?_, by simp, by simp, h.apart⟩
    rcases List.mem_cons.mp ((perm_insertTask t task _).mem_iff.mp hb) with rfl | hb
    · exact h.schedule task t hw a ha htask
    · exact h.queued b hb a ha htask
  | notify hw hn =>
    obtain ⟨rfl, rfl, -⟩ := ha.only hw
    obtain rfl := hn.eq_self (by simp [Thread.Waits])
    simp only [Option.map_none, Option.toList_none, List.append_nil]
    exact h.same rfl le_rfl (by simp) (by simp)

lemma Timely.step (hclock : ∀ now now', clock now now' → now ≤ now') (h : Timely es s)
    (ha : Alone s) (hnodup : s.tasks.Nodup) (hst : Step clock s e s') :
    Timely (es ++ (e.map fun e => (s.now, e)).toList) s' := by
  cases hst with
  | serve hst => exact h.serve ha hnodup hst
  | wake hw =>
    obtain ⟨rfl, rfl, hstands⟩ := ha.only hw
    simp only [Option.map_none, Option.toList_none, List.append_nil]
    refine h.same rfl le_rfl (by simp) fun ht => ?_
    rcases hstands with ⟨-, rfl, -⟩ | ⟨-, -, rfl, -⟩ <;> simp at ht
  | @finish pre post task hw =>
    obtain ⟨rfl, rfl, -⟩ := ha.only hw
    have hnot : ∀ b ∈ s.taskQueue, task ≠ b.2 := by
      rintro b hb rfl
      refine (List.nodup_append.mp hnodup).2.2 b.2 (List.mem_map_of_mem hb) b.2 ?_ rfl
      simp [held, hw, Job.task?]
    simp only [Option.map_some, Option.toList_some]
    constructor
    · intro a ha
      rcases List.mem_append.mp ha with ha | ha
      · exact h.past a ha
      · rw [List.mem_singleton] at ha
        rw [ha]
    · intro b hb a ha htask
      rcases List.mem_append.mp ha with ha | ha
      · exact h.queued b hb a ha htask
      · rw [List.mem_singleton] at ha
        rw [ha] at htask
        exact absurd htask (hnot b hb)
    · intro task' t ht a ha _
      obtain ⟨rfl, rfl⟩ : task = task' ∧ _ = t := by simpa using ht
      refine Nat.add_le_add_right ?_ _
      rcases List.mem_append.mp ha with ha | ha
      · exact h.past a ha
      · rw [List.mem_singleton] at ha
        rw [ha]
    · intro ht
      simp at ht
    · refine List.pairwise_append.mpr ⟨h.apart, List.pairwise_singleton _ _, ?_⟩
      intro a _ b hb hcalled
      rw [List.mem_singleton] at hb
      rw [hb] at hcalled
      cases hcalled
  | stop drain =>
    simp only [Option.map_none, Option.toList_none, List.append_nil]
    exact h.same rfl le_rfl (fun _ _ _ => rfl) fun _ => Or.inl rfl
  | stopped =>
    obtain ⟨t, ht, hstands⟩ := ha.thread
    simp only [Option.map_none, Option.toList_none, List.append_nil]
    refine h.same rfl le_rfl (fun task t' ht' => ?_) fun ht' => ?_
    · rw [ht] at ht' ⊢
      cases t <;> first | rfl | simp [notifyAll, Thread.notified] at ht'
    · left
      rw [ht] at ht' ⊢
      cases t with
      | waiting place deadline =>
        rcases hstands with ⟨-, rfl, -⟩ | ⟨-, -, rfl, -⟩ <;>
          simp [notifyAll, Thread.notified] at ht'
      | _ => rfl
  | tick hnow =>
    simp only [Option.map_none, Option.toList_none, List.append_nil]
    exact h.same rfl (hclock _ _ hnow) (fun _ _ _ => rfl) fun _ => Or.inl rfl

def scheduled (calls : List (ℕ × Repeat F)) : List (ℕ × TaskEvent F) :=
  calls.map fun call => (call.1, .scheduled call.2)

lemma mem_queue_start {b : ℕ × Repeat F} (hb : b ∈ (start threads calls now).taskQueue) :
    ∃ call ∈ calls, b = (call.1 + milliseconds call.2.deltaMilliSeconds, call.2) := by
  have hmem : ∀ (calls : List (ℕ × Repeat F)) taskQueue, b ∈ calls.foldl (fun taskQueue call =>
      insertTask (call.1 + milliseconds call.2.deltaMilliSeconds) call.2 taskQueue) taskQueue →
      b ∈ taskQueue ∨
        ∃ call ∈ calls, b = (call.1 + milliseconds call.2.deltaMilliSeconds, call.2) := by
    intro calls
    induction calls with
    | nil => exact fun _ hb => Or.inl hb
    | cons call calls ih =>
      intro taskQueue hb
      rcases ih _ hb with hb | ⟨call', hcall, rfl⟩
      · rcases List.mem_cons.mp ((perm_insertTask _ _ _).mem_iff.mp hb) with rfl | hb
        · exact Or.inr ⟨call, List.mem_cons_self, rfl⟩
        · exact Or.inl hb
      · exact Or.inr ⟨call', List.mem_cons_of_mem _ hcall, rfl⟩
  rcases hmem calls [] hb with hb | hb
  · cases hb
  · exact hb

lemma timely_start (hcalls : ∀ call ∈ calls, call.1 ≤ now)
    (hnodup : (calls.map Prod.snd).Nodup) : Timely (scheduled calls) (start 1 calls now) where
  past := by
    intro a ha
    obtain ⟨call, hcall, rfl⟩ := List.mem_map.mp ha
    exact hcalls call hcall
  queued := by
    intro b hb a ha htask
    obtain ⟨call, hcall, rfl⟩ := mem_queue_start hb
    obtain ⟨call', hcall', rfl⟩ := List.mem_map.mp ha
    obtain rfl : call' = call := List.inj_on_of_nodup_map hnodup hcall' hcall htask
    exact le_rfl
  schedule := by
    intro task t ht
    simp [start] at ht
  timeout := by
    intro ht
    simp [start] at ht
  apart := by
    refine List.pairwise_map.mpr (List.pairwise_of_forall_mem_list fun _ _ _ _ hcalled => ?_)
    cases hcalled

lemma Steps.timely (hclock : ∀ now now', clock now now' → now ≤ now')
    (hcalls : ∀ call ∈ calls, call.1 ≤ now) (hnodup : (calls.map Prod.snd).Nodup)
    (h : Steps clock (start 1 calls now) es s) : Timely (scheduled calls ++ es) s := by
  induction h with
  | refl =>
    rw [List.append_nil]
    exact timely_start hcalls hnodup
  | tail h hst ih =>
    rw [← List.append_assoc]
    exact ih.step hclock h.alone ((tasks_kept h).nodup_iff.mpr hnodup) hst

/-- **No function is called too soon.** Where one thread services the queue and the clock is not
set back, a call comes at least the delay of its task after `scheduleEvery`, and after all calls
and returns of the same task before. -/
theorem called_in_time (hclock : ∀ now now', clock now now' → now ≤ now')
    (hcalls : ∀ call ∈ calls, call.1 ≤ now) (hnodup : (calls.map Prod.snd).Nodup)
    (h : Steps clock (start 1 calls now) es s) : (scheduled calls ++ es).Pairwise Apart :=
  (h.timely hclock hcalls hnodup).apart

theorem called_in_time_small : (scheduled [(0, smallTask)] ++
    [(10000000000, TaskEvent.called smallTask),
      (10000000000, TaskEvent.scheduled smallTask)]).Pairwise Apart :=
  called_in_time (fun _ _ h => h) (by simp) (by simp) steps_small

lemma length_of_spaced {l : List ℕ} {a b d : ℕ} (h : (a :: l).Pairwise fun x y => x + d ≤ y)
    (hb : ∀ x ∈ a :: l, x ≤ b) : a + l.length * d ≤ b := by
  induction l generalizing a with
  | nil => simpa using hb a
  | cons x l ih =>
    obtain ⟨ha, hl⟩ := List.pairwise_cons.mp h
    have hx := ha x List.mem_cons_self
    have hle := ih hl fun y hy => hb y (List.mem_cons_of_mem _ hy)
    rw [List.length_cons, Nat.succ_mul]
    omega

section

variable [DecidableEq F]

def callsOf (task : Repeat F) (es : List (ℕ × TaskEvent F)) : List (ℕ × TaskEvent F) :=
  es.filter fun a => a.2 = .called task

def returnsOf (task : Repeat F) (es : List (ℕ × TaskEvent F)) : List (ℕ × TaskEvent F) :=
  es.filter fun a => a.2 = .scheduled task

/-- In the time that has passed there is room for the calls. -/
lemma Steps.length_callsOf (hclock : ∀ now now', clock now now' → now ≤ now')
    (hcalls : ∀ call ∈ calls, call.1 ≤ now) (hnodup : (calls.map Prod.snd).Nodup)
    (h : Steps clock (start 1 calls now) es s) {t : ℕ} {task : Repeat F} (hcall : (t, task) ∈ calls) :
    t + (callsOf task es).length * milliseconds task.deltaMilliSeconds ≤ s.now := by
  have htimely := h.timely hclock hcalls hnodup
  obtain ⟨-, hes, happ⟩ := List.pairwise_append.mp htimely.apart
  have hmem : (t, TaskEvent.scheduled task) ∈ scheduled calls := List.mem_map.mpr ⟨_, hcall, rfl⟩
  have hlen := length_of_spaced (l := (callsOf task es).map Prod.fst) (a := t) (b := s.now)
    (d := milliseconds task.deltaMilliSeconds) ?_ ?_
  · simpa using hlen
  · refine List.pairwise_cons.mpr ⟨fun x hx => ?_, ?_⟩
    · obtain ⟨a, ha, rfl⟩ := List.mem_map.mp hx
      obtain ⟨ha, hcalled⟩ := List.mem_filter.mp ha
      exact happ _ hmem a ha (of_decide_eq_true hcalled)
    · refine List.pairwise_map.mpr ?_
      have hsub := hes.sublist (List.filter_sublist (p := fun a => a.2 = TaskEvent.called task))
      refine hsub.imp_of_mem fun {a b} ha hb hapart => ?_
      have ha' : a.2 = .called task := by simpa using (List.mem_filter.mp ha).2
      have hb' : b.2 = .called task := by simpa using (List.mem_filter.mp hb).2
      have htask : a.2.task = task := by rw [ha']; rfl
      rw [← htask]
      exact hapart (by rw [hb', htask])
  · intro x hx
    rcases List.mem_cons.mp hx with rfl | hx
    · exact htimely.past _ (List.mem_append_left _ hmem)
    · obtain ⟨a, ha, rfl⟩ := List.mem_map.mp hx
      exact htimely.past a (List.mem_append_right _ (List.mem_filter.mp ha).1)

lemma atHand_step (task : Repeat F) (h : Step clock s e s') :
    (returnsOf task (e.map fun e => (s.now, e)).toList).length +
        (items s'.threads).count (.call task) =
      (callsOf task (e.map fun e => (s.now, e)).toList).length +
        (items s.threads).count (.call task) := by
  cases h with
  | serve h =>
    cases h with
    | @service pre post place hw _ =>
      rcases serviceQueue_cases s place with ⟨-, hwork, -⟩ | ⟨rfl, time, task', taskQueue, -, hcall⟩
      · have hitem : (s.serviceQueue place).1.item? = none := by
          cases ht : (s.serviceQueue place).1 with
          | working item => exact absurd ht (hwork item)
          | _ => rfl
        rw [called?_eq_none hwork]
        simp [hw, items_cons, hitem, returnsOf, callsOf]
      · by_cases htask : task' = task
        · simp only [htask] at hcall
          simp [hw, hcall, called?, returnsOf, callsOf]
          omega
        · simp [hw, hcall, called?, returnsOf, callsOf, htask]
    | leave hw _ hn => simp [hw, hn.items, returnsOf, callsOf]
    | timeout hw _ => simp [hw, returnsOf, callsOf]
    | insert hw => simp [hw, returnsOf, callsOf]
    | notify hw hn => simp [hw, hn.items, returnsOf, callsOf]
  | wake hw => simp [hw, returnsOf, callsOf]
  | @finish pre post task' hw =>
    by_cases htask : task' = task
    · simp [hw, returnsOf, callsOf, htask]
      omega
    · simp [hw, returnsOf, callsOf, htask]
  | stop | stopped | tick => simp [returnsOf, callsOf]

lemma Steps.length_returnsOf (h : Steps clock (start threads calls now) es s) (task : Repeat F) :
    (returnsOf task es).length + (items s.threads).count (.call task) =
      (callsOf task es).length := by
  induction h with
  | refl =>
    have hitems : items (start threads calls now).threads = [] := items_start threads
    simp [returnsOf, callsOf, hitems]
  | tail _ hst ih =>
    have hstep := atHand_step task hst
    simp only [returnsOf, callsOf, List.filter_append, List.length_append] at ih hstep ⊢
    omega

end

/-! ### No task is slept through -/

/-- A bound on the steps of a thread before it is at work or asleep. -/
def pace : ServiceThread F → ℕ
  | .working (.schedule _ _) => 7
  | .working .notify => 6
  | .locking .loop | .locking .told => 5
  | .locking .seeded | .locking .waited => 4
  | .waiting .told _ => 3
  | .locking .timeout => 2
  | _ => 0

def effort (s : CScheduler F) : ℕ := s.threads.foldr (fun t n => pace t + n) 0

lemma effort_single {t : ServiceThread F} (h : s.threads = [t]) : s.effort = pace t := by
  simp [effort, h]

lemma pace_loop (s : CScheduler F) :
    pace s.loop ≤ 4 ∧ (s.taskQueue ≠ [] ∨ s.shouldStop = true → pace s.loop ≤ 3) := by
  unfold loop
  split
  · simp [pace]
  · next hstop =>
    split
    · next hq => simp [pace, hq, hstop]
    · simp [pace]

lemma pace_serviceQueue {place : Place} (h : s.Stands (.locking place)) :
    pace (s.serviceQueue place).1 < pace (.locking place : ServiceThread F) := by
  have hloop := pace_loop s
  cases place with
  | loop | told => exact Nat.lt_succ_of_le hloop.1
  | seeded | waited =>
    simp only [serviceQueue]
    split
    · simp [pace]
    · next hne =>
      refine Nat.lt_succ_of_le (hloop.2 ?_)
      simp only [Bool.and_eq_true, Bool.not_eq_true', List.isEmpty_iff, not_and] at hne
      by_cases hstop : s.shouldStop = true
      · exact Or.inr hstop
      · exact Or.inl (hne (by simpa using hstop))
  | timeout =>
    have hq : s.taskQueue ≠ [] := h
    simp only [serviceQueue]
    split
    · simp [pace]
    · next hne =>
      unfold loop
      split
      · simp [pace]
      · next hstop =>
        obtain ⟨⟨time, task⟩, taskQueue, hcons⟩ := List.exists_cons_of_ne_nil hq
        exact absurd hcons (hne _ _ _ (by simpa using hstop))

lemma Alone.effort (h : Alone s) (hst : Serve s e s') : s'.effort < s.effort := by
  cases hst with
  | service hw _ =>
    obtain ⟨rfl, rfl, hstands⟩ := h.only hw
    rw [effort_single hw, effort_single rfl]
    exact pace_serviceQueue hstands
  | @leave pre post threads place hw _ hn =>
    obtain ⟨rfl, rfl, -⟩ := h.only hw
    obtain rfl := hn.eq_self (by simp [Thread.Waits])
    rw [effort_single hw, effort_single rfl]
    cases place <;> simp [pace]
  | timeout hw _ =>
    obtain ⟨rfl, rfl, -⟩ := h.only hw
    rw [effort_single hw, effort_single rfl]
    simp [pace]
  | insert hw =>
    obtain ⟨rfl, rfl, -⟩ := h.only hw
    rw [effort_single hw, effort_single rfl]
    simp [pace]
  | notify hw hn =>
    obtain ⟨rfl, rfl, -⟩ := h.only hw
    obtain rfl := hn.eq_self (by simp [Thread.Waits])
    rw [effort_single hw, effort_single rfl]
    simp [pace]

/-- **A due task is not slept through.** The thread comes to a call or to a sleep after at most
seven steps, and where it can take no step and is not at work, no task is due. -/
theorem due_called (h : Steps clock (start 1 calls now) es s)
    (hrequested : s.stopRequested = false) (hempty : s.stopWhenEmpty = false) :
    s.effort ≤ 7 ∧ (∀ e s', Serve s e s' → s'.effort < s.effort) ∧
      ((∀ e s', ¬ Serve s e s') → (∃ task, s.threads = [.working (.call task)]) ∨
        ∀ b ∈ s.taskQueue, s.now < b.1) := by
  obtain ⟨t, ht, hstands⟩ := h.alone.thread
  have hw : s.threads = [] ++ t :: [] := ht
  refine ⟨?_, fun _ _ hst => h.alone.effort hst, fun hstuck => ?_⟩
  · rw [effort_single ht]
    unfold pace
    split <;> omega
  cases t with
  | locking place =>
    by_cases hexit : (s.serviceQueue place).1 = .exited
    · exact absurd (.leave hw hexit (.none (by simp [Thread.Waits]))) (hstuck _ _)
    · exact absurd (.service hw hexit) (hstuck _ _)
  | working job =>
    cases job with
    | call task => exact Or.inl ⟨task, ht⟩
    | schedule task t => exact absurd (.insert hw) (hstuck _ _)
    | notify =>
      exact absurd (.notify hw (.none (by simp [Thread.Waits]))) (hstuck _ _)
  | exited => simp [Stands, hrequested, hempty] at hstands
  | waiting place deadline =>
    right
    rcases hstands with ⟨hq, -⟩ | ⟨a, ha, rfl, rfl⟩
    · simp [hq]
    · have hlt : s.now < a.1 := by
        by_contra hle
        exact absurd (.timeout hw (not_lt.mp hle)) (hstuck _ _)
      intro b hb
      have hsorted := h.alone.sorted
      cases hq : s.taskQueue with
      | nil => simp [hq] at hb
      | cons c taskQueue =>
        rw [hq] at ha hb hsorted
        obtain rfl : c = a := Option.some.inj ha
        rcases List.mem_cons.mp hb with rfl | hb
        · exact hlt
        · exact hlt.trans_le ((List.pairwise_cons.mp hsorted).1 b hb)

/-- After the call the thread sleeps until the next one is due. -/
def smallAsleep : CScheduler String :=
  { smallCalled with threads := [.waiting .told (some 20000000000)] }

lemma steps_smallAsleep : Steps (· ≤ ·) (start 1 [(0, smallTask)] 0)
    [(10000000000, .called smallTask), (10000000000, .scheduled smallTask)] smallAsleep :=
  steps_small.tail (.serve (@Serve.service _ smallCalled [] [] .loop rfl (by decide)))

lemma not_serve_smallAsleep (e : Option (TaskEvent String)) (s' : CScheduler String) :
    ¬ Serve smallAsleep e s' := by
  have hwaits : ∀ t ∈ smallAsleep.threads, t = .waiting .told (some 20000000000) := by
    simp [smallAsleep]
  intro h
  cases h with
  | service hw | leave hw | insert hw | notify hw =>
    have ht := hwaits _ (by rw [hw]; exact List.mem_append_right _ List.mem_cons_self)
    cases ht
  | timeout hw htime =>
    have ht := hwaits _ (by rw [hw]; exact List.mem_append_right _ List.mem_cons_self)
    cases ht
    exact absurd htime (by decide)

theorem due_called_small :
    smallAsleep.effort ≤ 7 ∧ ∀ b ∈ smallAsleep.taskQueue, smallAsleep.now < b.1 := by
  obtain ⟨heffort, -, hstuck⟩ := due_called steps_smallAsleep rfl rfl
  refine ⟨heffort, (hstuck not_serve_smallAsleep).resolve_left ?_⟩
  rintro ⟨task, ht⟩
  cases ht

end CScheduler

end OpenWallet.Server
