import OpenWallet.Server.HttpServer

/-!
The queue of the HTTP server and its workers: the order in which requests are taken, and that no
worker sleeps while there is work.
-/

namespace OpenWallet.Server.Http

open Lib Prog

namespace HTTPServer

section

variable {registered : List HTTPPathHandler} {s s' : HTTPServer}

/-! ### The order of the queue -/

/-- The numbers of the requests in the queue. -/
def queued (s : HTTPServer) : List ℕ := ((s.workQueue.map (·.queue)).getD []).map (·.req)

/-- The workers have taken the first requests that were put into the queue, and there is room. -/
structure InOrder (maxDepth : ℕ) (s : HTTPServer) : Prop where
  order : (s.taken ++ s.queued ++ (s.handling.map Prod.fst).toList).Pairwise (· < ·)
  below : ∀ req ∈ s.taken ++ s.queued ++ (s.handling.map Prod.fst).toList, req < s.requests.length
  depth : ∀ q, s.workQueue = some q → q.maxDepth = maxDepth ∧ q.queue.length ≤ maxDepth

variable {maxDepth : ℕ}

lemma pairwise_left {l m : List ℕ} (h : (l ++ m).Pairwise (· < ·)) : l.Pairwise (· < ·) :=
  h.sublist (List.sublist_append_left l m)

lemma InOrder.idle (h : InOrder maxDepth s) (htaken : s'.taken = s.taken)
    (hqueue : s'.workQueue = s.workQueue) (hidle : s'.handling = none)
    (hrequests : s.requests.length ≤ s'.requests.length) : InOrder maxDepth s' := by
  have hqueued : s'.queued = s.queued := by rw [queued, queued, hqueue]
  refine ⟨?_, ?_, ?_⟩
  · rw [htaken, hqueued, hidle]
    simpa using pairwise_left h.order
  · rw [htaken, hqueued, hidle]
    intro req hreq
    have hlt := h.below req (List.mem_append_left _ (by simpa using hreq))
    omega
  · rw [hqueue]
    exact h.depth

lemma run_queued (q : WorkQueue) :
    (items [q.Run.1]).map (·.req) ++ q.Run.2.queue.map (·.req) = q.queue.map (·.req) := by
  unfold WorkQueue.Run
  split
  · rfl
  · cases hq : q.queue with
    | nil => simp [hq]
    | cons i queue => rfl

lemma run_depth (q : WorkQueue) :
    q.Run.2.maxDepth = q.maxDepth ∧ q.Run.2.queue.length ≤ q.queue.length := by
  unfold WorkQueue.Run
  split
  · exact ⟨rfl, le_rfl⟩
  · cases hq : q.queue with
    | nil => exact ⟨rfl, by simp [hq]⟩
    | cons i queue => exact ⟨rfl, by simp⟩

lemma InOrder.step (h : InOrder maxDepth s) (hst : Step s s') : InOrder maxDepth s' := by
  cases hst with
  | work hst =>
    cases hst with
    | @run q pre post hq hw =>
      have hsame : s.taken ++ (items [q.Run.1]).map (·.req) ++ q.Run.2.queue.map (·.req) =
          s.taken ++ q.queue.map (·.req) := by
        rw [List.append_assoc, run_queued]
      obtain ⟨hdepth, hlen⟩ := h.depth q hq
      have horder := h.order
      have hbelow := h.below
      simp only [queued, hq, Option.map_some, Option.getD_some] at horder hbelow
      refine ⟨?_, ?_, ?_⟩
      · simp only [queued, Option.map_some, Option.getD_some, hsame]
        exact horder
      · simp only [queued, Option.map_some, Option.getD_some, hsame]
        exact hbelow
      · intro q' hq'
        obtain rfl := Option.some.inj hq'
        have hrun := run_depth q
        omega
    | finish => exact ⟨h.order, h.below, h.depth⟩
  | wake => exact ⟨h.order, h.below, h.depth⟩
  | receive hreq _ hidle =>
    have horder := h.order
    have hbelow := h.below
    rw [hidle] at horder hbelow
    simp only [Option.map_none, Option.toList_none, List.append_nil] at horder hbelow
    refine ⟨?_, ?_, h.depth⟩
    · simp only [Option.map_some, Option.toList_some]
      refine List.pairwise_append.mpr ⟨horder, List.pairwise_singleton _ _, ?_⟩
      intro req hreq n hn
      rw [List.mem_singleton] at hn
      rw [hn]
      exact hbelow req hreq
    · intro req hreq
      simp only [Option.map_some, Option.toList_some, List.mem_append, List.mem_singleton,
        List.length_append, List.length_singleton] at hreq ⊢
      rcases hreq with hreq | rfl
      · have hlt := hbelow req (by simpa [queued] using hreq)
        omega
      · omega
  | reject hreq _ hidle => exact h.idle rfl rfl hidle (by simp)
  | badMethod | notFound | refuse => exact h.idle rfl rfl rfl le_rfl
  | @enqueue req hreq path func q q' workers hh _ _ hq henq hn =>
    obtain ⟨hroom, rfl⟩ := Enqueue_eq_true henq
    obtain ⟨hdepth, hlen⟩ := h.depth q hq
    have horder := h.order
    have hbelow := h.below
    simp only [queued, hq, hh, Option.map_some, Option.getD_some, Option.toList_some]
      at horder hbelow
    refine ⟨?_, ?_, ?_⟩
    · simpa [queued] using horder
    · simpa [queued] using hbelow
    · intro q' hq'
      obtain rfl := Option.some.inj hq'
      refine ⟨hdepth, ?_⟩
      rw [List.length_append, List.length_singleton]
      omega
  | unlisten => exact ⟨h.order, h.below, h.depth⟩
  | @interrupt q _ hq =>
    refine ⟨?_, ?_, ?_⟩
    · simpa [queued, hq, WorkQueue.Interrupt] using h.order
    · simpa [queued, hq, WorkQueue.Interrupt] using h.below
    · intro q' hq'
      obtain rfl := Option.some.inj hq'
      exact h.depth q hq
  | unregister => exact ⟨h.order, h.below, h.depth⟩
  | @stop q hq hexited =>
    refine ⟨?_, ?_, by simp⟩
    · refine h.order.sublist ?_
      simp [queued]
    · intro req hreq
      refine h.below req ?_
      simp only [queued, Option.map_none, Option.getD_none, List.map_nil, List.append_nil,
        List.mem_append] at hreq ⊢
      tauto

/-- An option that is an `int` is the depth, or else one is. -/
lemma workQueueDepth_of_lt {rpcworkqueue : ℤ} (h : rpcworkqueue < 2 ^ 31) :
    (workQueueDepth rpcworkqueue : ℤ) = max rpcworkqueue 1 := by
  have hbmod : (max rpcworkqueue 1).bmod (2 ^ 32) = max rpcworkqueue 1 :=
    Int.bmod_eq_of_le (by omega) (by omega)
  rw [workQueueDepth, hbmod]
  omega

/-- **Requests are taken in the order they came in**, none of them twice, and the queue never
holds more than its depth. -/
theorem taken_in_order {rpcworkqueue rpcthreads : ℤ}
    (h : Steps (StartHTTPServer rpcworkqueue rpcthreads registered) s) :
    (s.taken ++ s.queued).Pairwise (· < ·) ∧
      ∀ q, s.workQueue = some q → q.queue.length ≤ workQueueDepth rpcworkqueue ∧
        (rpcworkqueue < 2 ^ 31 → (q.queue.length : ℤ) ≤ max rpcworkqueue 1) := by
  have horder : InOrder (workQueueDepth rpcworkqueue) s := by
    induction h with
    | refl =>
      refine ⟨List.Pairwise.nil, by simp [StartHTTPServer, queued], ?_⟩
      intro q hq
      obtain rfl := Option.some.inj hq
      exact ⟨rfl, Nat.zero_le _⟩
    | tail _ hst ih => exact ih.step hst
  refine ⟨pairwise_left horder.order, fun q hq => ?_⟩
  have hdepth := (horder.depth q hq).2
  refine ⟨hdepth, fun hint => ?_⟩
  rw [← workQueueDepth_of_lt hint]
  exact Int.ofNat_le.mpr hdepth

/-! ### Workers that do not sleep through work -/

/-- While the queue runs all workers are in their loop, and one is awake if there is work; after
an interrupt none waits. -/
structure Alert (s : HTTPServer) : Prop where
  workers : s.g_thread_http_workers ≠ []
  staffed : ∀ q, s.workQueue = some q → q.running → ∀ t ∈ s.g_thread_http_workers, t ≠ .exited
  awake : ∀ q, s.workQueue = some q → q.running → q.queue ≠ [] →
    ∃ t ∈ s.g_thread_http_workers, t.Awake
  interrupted : ∀ q, s.workQueue = some q → q.running = false →
    ∀ t ∈ s.g_thread_http_workers, ¬ t.Waits

lemma exists_awake_replace {pre post : List Worker} {t' : Worker} (ht : t'.Awake) :
    ∃ u ∈ pre ++ t' :: post, u.Awake :=
  ⟨t', List.mem_append_right _ List.mem_cons_self, ht⟩

lemma forall_replace {P : Worker → Prop} {pre post : List Worker} {t t' : Worker}
    (h : ∀ u ∈ pre ++ t :: post, P u) (ht : P t') : ∀ u ∈ pre ++ t' :: post, P u := by
  intro u hu
  rcases List.mem_append.mp hu with hu | hu
  · exact h u (List.mem_append_left _ hu)
  rcases List.mem_cons.mp hu with rfl | hu
  · exact ht
  · exact h u (List.mem_append_right _ (List.mem_cons_of_mem _ hu))

lemma Alert.step (h : Alert s) (hst : Step s s') : Alert s' := by
  cases hst with
  | work hst =>
    cases hst with
    | @run q pre post hq hw =>
      have hstaffed := h.staffed q hq
      have hinterrupted := h.interrupted q hq
      rw [hw] at hstaffed hinterrupted
      unfold WorkQueue.Run
      split
      · next hrunning =>
        rw [Bool.not_eq_true'] at hrunning
        refine ⟨by simp, ?_, ?_, ?_⟩ <;> intro q' hq'
        · obtain rfl := Option.some.inj hq'
          simp [hrunning]
        · obtain rfl := Option.some.inj hq'
          simp [hrunning]
        · exact fun _ => forall_replace (hinterrupted hrunning) id
      · next hrunning =>
        rw [Bool.not_eq_true', Bool.not_eq_false] at hrunning
        cases hqueue : q.queue with
        | nil =>
          refine ⟨by simp, ?_, ?_, ?_⟩ <;> intro q' hq'
          · exact fun _ => forall_replace (hstaffed hrunning) (by simp)
          · obtain rfl := Option.some.inj hq'
            exact fun _ hne => absurd hqueue hne
          · obtain rfl := Option.some.inj hq'
            simp [hrunning]
        | cons i queue =>
          refine ⟨by simp, ?_, ?_, ?_⟩ <;> intro q' hq'
          · exact fun _ => forall_replace (hstaffed hrunning) (by simp)
          · exact fun _ _ => exists_awake_replace trivial
          · obtain rfl := Option.some.inj hq'
            simp [hrunning]
    | @finish i pre post replies hw hs =>
      have hstaffed := h.staffed
      have hinterrupted := h.interrupted
      rw [hw] at hstaffed hinterrupted
      exact ⟨by simp, fun q hq hr => forall_replace (hstaffed q hq hr) (by simp),
        fun _ _ _ _ => exists_awake_replace trivial,
        fun q hq hr => forall_replace (hinterrupted q hq hr) id⟩
  | @wake pre post deadline hw =>
    have hstaffed := h.staffed
    have hinterrupted := h.interrupted
    rw [hw] at hstaffed hinterrupted
    exact ⟨by simp, fun q hq hr => forall_replace (hstaffed q hq hr) (by simp),
      fun _ _ _ _ => exists_awake_replace trivial,
      fun q hq hr => forall_replace (hinterrupted q hq hr) id⟩
  | @enqueue req hreq path func q q' workers hh _ _ hq henq hn =>
    obtain ⟨-, rfl⟩ := Enqueue_eq_true henq
    have hne : workers ≠ [] := by
      intro hnil
      have hlen := hn.length_eq
      rw [hnil, List.length_nil] at hlen
      exact h.workers (List.eq_nil_of_length_eq_zero hlen.symm)
    refine ⟨hne, ?_, ?_, ?_⟩ <;> intro q' hq' <;> obtain rfl := Option.some.inj hq'
    · intro hr t ht hexited
      subst hexited
      exact h.staffed q hq hr _ (hn.mem_of_exited ht) rfl
    · -- the notice wakes a worker, or none was waiting
      intro hr _
      obtain ⟨t, ht⟩ := List.exists_mem_of_ne_nil _ h.workers
      exact hn.exists_awake ⟨t, ht, h.staffed q hq hr t ht⟩
    · intro hr t ht hw
      exact h.interrupted q hq hr t (hn.mem_of_waits ht hw) hw
  | @interrupt q hacc hq =>
    refine ⟨by simpa [notifyAll] using h.workers, ?_, ?_, ?_⟩ <;> intro q' hq' <;>
      obtain rfl := Option.some.inj hq'
    · simp [WorkQueue.Interrupt]
    · simp [WorkQueue.Interrupt]
    · exact fun _ => not_waits_notifyAll _
  | stop => exact ⟨h.workers, by simp, by simp, by simp⟩
  | _ => exact ⟨h.workers, h.staffed, h.awake, h.interrupted⟩

lemma alert_start (rpcworkqueue : ℤ) {rpcthreads : ℤ} (h : 0 < rpcThreads rpcthreads) :
    Alert (StartHTTPServer rpcworkqueue rpcthreads registered) := by
  have hall : ∀ t ∈ (StartHTTPServer rpcworkqueue rpcthreads registered).g_thread_http_workers,
      t = .locking () := fun t ht => List.eq_of_mem_replicate ht
  refine ⟨?_, ?_, ?_, ?_⟩
  · intro hnil
    have hzero := congrArg List.length hnil
    simp only [StartHTTPServer, List.length_replicate, List.length_nil] at hzero
    omega
  · intro q _ _ t ht
    simp [hall t ht]
  · intro q hq _ hne
    obtain rfl := Option.some.inj hq
    exact absurd rfl hne
  · intro q hq hr
    obtain rfl := Option.some.inj hq
    cases hr

/-- What a worker has still to do. -/
def load : Worker → ℕ
  | .locking _ => 1
  | .working _ => 2
  | _ => 0

/-- What the workers have still to do, if nothing more comes in. -/
def effort (s : HTTPServer) : ℕ :=
  3 * ((s.workQueue.map (·.queue)).getD []).length + (s.g_thread_http_workers.map load).sum

lemma effort_of_work (h : Work s s') : s'.effort < s.effort := by
  cases h with
  | @run q pre post hq hw =>
    simp only [effort, hq, hw, Option.map_some, Option.getD_some, List.map_append, List.map_cons,
      List.sum_append, List.sum_cons]
    unfold WorkQueue.Run
    split
    · simp only [load]
      omega
    · cases hqueue : q.queue with
      | nil =>
        simp only [hqueue, load]
        omega
      | cons i queue =>
        simp only [load, List.length_cons]
        omega
  | finish hw hs =>
    simp only [effort, hw, List.map_append, List.map_cons, List.sum_append, List.sum_cons, load]
    omega

lemma length_le_effort (l : List HTTPServer) (s : HTTPServer) (h : List.IsChain Work (s :: l)) :
    l.length ≤ s.effort := by
  induction l generalizing s with
  | nil => exact Nat.zero_le _
  | cons s' l ih =>
    rw [List.isChain_cons_cons] at h
    have hlen := ih s' h.2
    have heffort := effort_of_work h.1
    rw [List.length_cons]
    omega

/-- Where no worker can take a step, none is about to take the lock, and none has a request. -/
lemma rest_of_not_work (hrest : ∀ s', ¬ Work s s')
    (hreturns : ∀ i ∈ items s.g_thread_http_workers, ∃ replies, i.func.Sends i.hreq i.path replies)
    {q : WorkQueue} (hq : s.workQueue = some q) :
    ∀ t ∈ s.g_thread_http_workers, ¬ t.Awake := by
  intro t ht hawake
  obtain ⟨pre, post, hw⟩ := List.append_of_mem ht
  cases t with
  | locking => exact hrest _ (.run hq hw)
  | working i =>
    obtain ⟨replies, hs⟩ := hreturns i (mem_items.mpr ht)
    exact hrest _ (.finish hw hs)
  | waiting | exited => exact hawake

/-- **Work that has been accepted is done, and a shutdown does not hang**, if there is a worker. In
every state of every run the workers, left to themselves, take a bounded number of steps. Where
they have come to rest, the queue is empty and each request is with the event thread or replied
to; or, after an interrupt, all workers have left their loops, as `StopHTTPServer` waits for. -/
theorem work_ends {rpcworkqueue rpcthreads : ℤ} (hthreads : 0 < rpcThreads rpcthreads)
    (h : Steps (StartHTTPServer rpcworkqueue rpcthreads registered) s) :
    (∀ l, List.IsChain Work (s :: l) → l.length ≤ s.effort) ∧
      ((∀ s', ¬ Work s s') →
        (∀ i ∈ items s.g_thread_http_workers, ∃ replies, i.func.Sends i.hreq i.path replies) →
        ∀ q, s.workQueue = some q →
          (q.running = true → s.underway = (s.handling.map Prod.fst).toList) ∧
          (q.running = false → ∀ t ∈ s.g_thread_http_workers, t = .exited)) := by
  have halert : Alert s := by
    induction h with
    | refl => exact alert_start _ hthreads
    | tail _ hst ih => exact ih.step hst
  refine ⟨fun l hl => length_le_effort l s hl, fun hrest hreturns q hq => ?_⟩
  have hidle := rest_of_not_work hrest hreturns hq
  refine ⟨fun hrunning => ?_, fun hrunning t ht => ?_⟩
  · have hqueue : q.queue = [] := by
      by_contra hne
      obtain ⟨t, ht, hawake⟩ := halert.awake q hq hrunning hne
      exact hidle t ht hawake
    have hitems : items s.g_thread_http_workers = [] := by
      rw [List.eq_nil_iff_forall_not_mem]
      intro i hi
      exact hidle _ (mem_items.mp hi) trivial
    simp [underway, dispatched, hq, hqueue, hitems]
  · have hawake := hidle t ht
    have hwaits := halert.interrupted q hq hrunning t ht
    cases t with
    | exited => rfl
    | waiting => exact absurd trivial hwaits
    | locking | working => exact absurd trivial hawake

end

theorem taken_in_order_uptime :
    ((uptimeFull.taken ++ uptimeFull.queued).Pairwise (· < ·) ∧
      ∀ q, uptimeFull.workQueue = some q → (q.queue.length : ℤ) ≤ max 1 1) ∧
    (uptimeServed.taken ++ uptimeServed.queued).Pairwise (· < ·) :=
  ⟨⟨(taken_in_order steps_uptimeFull).1, fun q hq =>
    ((taken_in_order steps_uptimeFull).2 q hq).2 (by decide)⟩, (taken_in_order steps_uptime).1⟩

/-- Both workers wait for the next request. -/
def uptimeIdle : HTTPServer :=
  { uptimeServed with g_thread_http_workers := [.waiting () none, .waiting () none] }

lemma steps_uptimeIdle : Steps (StartHTTPServer 1 2 uptimeHandlers) uptimeIdle := by
  have hfirst : Steps (StartHTTPServer 1 2 uptimeHandlers) { uptimeServed with
      g_thread_http_workers := [.waiting () none, .locking ()] } :=
    steps_uptime.tail (.work (@Work.run _ ⟨[], true, 1⟩ [] [.locking ()] rfl rfl))
  exact hfirst.tail (.work (@Work.run _ ⟨[], true, 1⟩ [.waiting () none] [] rfl rfl))

lemma not_work_uptimeIdle (s' : HTTPServer) : ¬ Work uptimeIdle s' := by
  have hwaits : ∀ t ∈ uptimeIdle.g_thread_http_workers, t = .waiting () none := by
    simp [uptimeIdle]
  intro h
  cases h with
  | run _ hw =>
    have ht := hwaits (.locking ()) (by simp [hw])
    cases ht
  | @finish i _ _ _ hw _ =>
    have ht := hwaits (.working i) (by simp [hw])
    cases ht

theorem work_ends_uptime :
    (∀ l, List.IsChain Work (uptimeServed :: l) → l.length ≤ 2) ∧ uptimeIdle.underway = [] := by
  have hthreads : 0 < rpcThreads 2 := by decide
  refine ⟨(work_ends hthreads steps_uptime).1, ?_⟩
  have hnone : items uptimeIdle.g_thread_http_workers = [] := rfl
  exact ((work_ends hthreads steps_uptimeIdle).2 not_work_uptimeIdle (by simp [hnone]) _ rfl).1 rfl

end HTTPServer

end OpenWallet.Server.Http
