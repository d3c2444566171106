import OpenWallet.Lib.Condition
import OpenWallet.Server.Rest

/-!
The HTTP server: the event thread takes the requests in, a queue of bounded depth holds them, and
worker threads run their handlers. Any thread may be next, and the server may be interrupted and
stopped at any time.
-/

namespace OpenWallet.Server.Http

open Lib Prog

/-- What a handler runs for a request and the rest of its path. It may run one program or
another, since a command reads what is there at its time; where it returns, it has sent one reply
at most. -/
structure HTTPRequestHandler where
  body : HTTPRequest → Bytes → Rpc Bool → Prop
  once : ∀ req path p, body req path p →
    wp (Env.of serve) p (fun _ c => c.replies.length ≤ 1) (fun _ => True) Conn.new

/-- The handler returns, having sent the replies. -/
def HTTPRequestHandler.Sends (func : HTTPRequestHandler) (req : HTTPRequest) (path : Bytes)
    (replies : List (ℕ × Bytes)) : Prop :=
  ∃ p b c, func.body req path p ∧ run serve p Conn.new = (.done b, c) ∧ c.replies = replies

structure HTTPPathHandler where
  strPrefix : Bytes
  exactMatch : Bool
  handler : HTTPRequestHandler

def RegisterHTTPHandler (strPrefix : Bytes) (exactMatch : Bool) (handler : HTTPRequestHandler)
    (pathHandlers : List HTTPPathHandler) : List HTTPPathHandler :=
  pathHandlers ++ [⟨strPrefix, exactMatch, handler⟩]

def UnregisterHTTPHandler (strPrefix : Bytes) (exactMatch : Bool)
    (pathHandlers : List HTTPPathHandler) : List HTTPPathHandler :=
  pathHandlers.eraseP fun i => i.strPrefix = strPrefix && i.exactMatch = exactMatch

def HTTPPathHandler.match (i : HTTPPathHandler) (strURI : Bytes) : Bool :=
  if i.exactMatch then strURI = i.strPrefix
  else strURI.take i.strPrefix.length = i.strPrefix

/-- The loop over the handlers: the rest of the path, and the first handler that matches. -/
def findHandler (pathHandlers : List HTTPPathHandler) (strURI : Bytes) :
    Option (Bytes × HTTPRequestHandler) :=
  (pathHandlers.find? (·.match strURI)).map fun i =>
    (strURI.drop i.strPrefix.length, i.handler)

section

variable (dump_float : Double → Bytes) (json_parse : Bytes → Except Bytes Value)

lemma once_of_replies {p : Rpc Bool} {c : Conn} (h : Replies p c) :
    wp (Env.of serve) p (fun _ c' => c'.replies.length ≤ 1) (fun _ => True) c :=
  wp_mono h (fun _ _ hlen => hlen.le) fun _ h => h

def HTTPReq_JSONRPC.handler : HTTPRequestHandler where
  body req _ p := ∃ tableRPC,
    p = HTTPReq_JSONRPC dump_float json_parse tableRPC (req.method = .POST) req.body
  once := by
    rintro req path p ⟨tableRPC, rfl⟩
    exact once_of_replies (replies_HTTPReq_JSONRPC _ _ _ _ _)

def rest_chaininfo.handler : HTTPRequestHandler where
  body _ path p := ∃ tableRPC, p = rest_chaininfo dump_float tableRPC path
  once := by
    rintro req path p ⟨tableRPC, rfl⟩
    exact once_of_replies (replies_rest_chaininfo _ _ _)

def rest_headers.handler : HTTPRequestHandler where
  body _ path p := ∃ tableRPC, p = rest_headers dump_float tableRPC path
  once := by
    rintro req path p ⟨tableRPC, rfl⟩
    exact once_of_replies (replies_rest_headers _ _ _)

def StartHTTPRPC (pathHandlers : List HTTPPathHandler) : List HTTPPathHandler :=
  RegisterHTTPHandler (text "/") true (HTTPReq_JSONRPC.handler dump_float json_parse) pathHandlers

/-- The loop over `uri_prefixes`. -/
def StartREST (pathHandlers : List HTTPPathHandler) : List HTTPPathHandler :=
  [(text "/rest/chaininfo", rest_chaininfo.handler dump_float),
    (text "/rest/headers/", rest_headers.handler dump_float)].foldl
    (fun pathHandlers i => RegisterHTTPHandler i.1 false i.2 pathHandlers) pathHandlers

/-- The handlers that are there when the threads of the server start. -/
def AppInitServers : List HTTPPathHandler :=
  StartREST dump_float (StartHTTPRPC dump_float json_parse [])

end

/-- A request with its number, which stands for the `evhttp_request`, and its handler. -/
structure HTTPWorkItem where
  req : ℕ
  hreq : HTTPRequest
  path : Bytes
  func : HTTPRequestHandler

structure WorkQueue where
  queue : List HTTPWorkItem
  running : Bool
  maxDepth : ℕ

def WorkQueue.Enqueue (item : HTTPWorkItem) (q : WorkQueue) : Bool × WorkQueue :=
  if q.queue.length ≥ q.maxDepth then (false, q)
  else (true, { q with queue := q.queue ++ [item] })

abbrev Worker := Thread Unit HTTPWorkItem

/-- What a worker in `Run` does when it has the lock. -/
def WorkQueue.Run (q : WorkQueue) : Worker × WorkQueue :=
  if !q.running then (.exited, q)
  else match q.queue with
    | [] => (.waiting () none, q)
    | i :: queue => (.working i, { q with queue := queue })

def WorkQueue.Interrupt (q : WorkQueue) : WorkQueue := { q with running := false }

/-! ### The server -/

def HTTP_SERVUNAVAIL : ℕ := 503

/-- A reply: the number of the request, the status and the body. -/
abbrev Reply := ℕ × ℕ × Bytes

structure HTTPServer where
  pathHandlers : List HTTPPathHandler
  /-- A null pointer once the server has been stopped. -/
  workQueue : Option WorkQueue
  g_thread_http_workers : List Worker
  /-- Requests go to `http_request_cb`, and not to `http_reject_request_cb`. -/
  accepting : Bool
  /-- The request that the event thread is at in `http_request_cb`. -/
  handling : Option (ℕ × HTTPRequest)
  /-- The requests so far, in the order of their numbers. -/
  requests : List HTTPRequest
  /-- The numbers of those that workers have taken, in this order. -/
  taken : List ℕ
  replies : List Reply

/-- The option as an `int`, and this as the `size_t` of the queue. -/
def workQueueDepth (rpcworkqueue : ℤ) : ℕ :=
  ((max rpcworkqueue 1).bmod (2 ^ 32) % 2 ^ 64).toNat

def rpcThreads (rpcthreads : ℤ) : ℤ := (max rpcthreads 1).bmod (2 ^ 32)

/-- After `StartHTTPServer`, with the queue that `InitHTTPServer` makes. -/
def StartHTTPServer (rpcworkqueue rpcthreads : ℤ) (pathHandlers : List HTTPPathHandler) :
    HTTPServer where
  pathHandlers := pathHandlers
  workQueue := some ⟨[], true, workQueueDepth rpcworkqueue⟩
  g_thread_http_workers := List.replicate (rpcThreads rpcthreads).toNat (.locking ())
  accepting := true
  handling := none
  requests := []
  taken := []
  replies := []

/-- What is sent for a request when its object is destroyed: the replies of its handler, or that
there are none. -/
def destroyed (req : ℕ) : List (ℕ × Bytes) → List Reply
  | [] => [(req, HTTP_INTERNAL_SERVER_ERROR, text "Unhandled request")]
  | replies => replies.map fun reply => (req, reply)

namespace HTTPServer

/-- The event thread ends its callback with a reply. -/
def reply (s : HTTPServer) (req nStatus : ℕ) (strReply : Bytes) : HTTPServer :=
  { s with handling := none, replies := s.replies ++ [(req, nStatus, strReply)] }

/-- The steps of the workers that do not wait. A handler that throws ends the process, and with
it the run. -/
inductive Work : HTTPServer → HTTPServer → Prop
  | run {s : HTTPServer} {q : WorkQueue} {pre post : List Worker} :
      s.workQueue = some q → s.g_thread_http_workers = pre ++ .locking () :: post →
      Work s { s with
        workQueue := some q.Run.2
        g_thread_http_workers := pre ++ q.Run.1 :: post
        taken := s.taken ++ (items [q.Run.1]).map (·.req) }
  | finish {s : HTTPServer} {i : HTTPWorkItem} {pre post : List Worker}
      {replies : List (ℕ × Bytes)} :
      s.g_thread_http_workers = pre ++ .working i :: post →
      i.func.Sends i.hreq i.path replies →
      Work s { s with
        g_thread_http_workers := pre ++ .locking () :: post
        replies := s.replies ++ destroyed i.req replies }

inductive Step : HTTPServer → HTTPServer → Prop
  | work {s s' : HTTPServer} : Work s s' → Step s s'
  /-- A wait may end without a notice. -/
  | wake {s : HTTPServer} {pre post : List Worker} {deadline : Option ℕ} :
      s.g_thread_http_workers = pre ++ .waiting () deadline :: post →
      Step s { s with g_thread_http_workers := pre ++ .locking () :: post }
  | receive {s : HTTPServer} (hreq : HTTPRequest) : s.accepting → s.handling = none →
      Step s { s with
        handling := some (s.requests.length, hreq)
        requests := s.requests ++ [hreq] }
  /-- libevent makes the page of this reply. -/
  | reject {s : HTTPServer} (hreq : HTTPRequest) : s.accepting = false → s.handling = none →
      Step s { s with
        requests := s.requests ++ [hreq]
        replies := s.replies ++ [(s.requests.length, HTTP_SERVUNAVAIL, [])] }
  | badMethod {s : HTTPServer} {req : ℕ} {hreq : HTTPRequest} : s.handling = some (req, hreq) →
      hreq.method = .UNKNOWN → Step s (s.reply req HTTP_BAD_METHOD [])
  | notFound {s : HTTPServer} {req : ℕ} {hreq : HTTPRequest} : s.handling = some (req, hreq) →
      hreq.method ≠ .UNKNOWN → findHandler s.pathHandlers hreq.uri = none →
      Step s (s.reply req HTTP_NOT_FOUND [])
  | enqueue {s : HTTPServer} {req : ℕ} {hreq : HTTPRequest} {path : Bytes}
      {func : HTTPRequestHandler} {q q' : WorkQueue} {workers : List Worker} :
      s.handling = some (req, hreq) → hreq.method ≠ .UNKNOWN →
      findHandler s.pathHandlers hreq.uri = some (path, func) → s.workQueue = some q →
      q.Enqueue ⟨req, hreq, path, func⟩ = (true, q') →
      NotifyOne s.g_thread_http_workers workers →
      Step s { s with
        handling := none
        workQueue := some q'
        g_thread_http_workers := workers }
  | refuse {s : HTTPServer} {req : ℕ} {hreq : HTTPRequest} {path : Bytes}
      {func : HTTPRequestHandler} {q q' : WorkQueue} :
      s.handling = some (req, hreq) → hreq.method ≠ .UNKNOWN →
      findHandler s.pathHandlers hreq.uri = some (path, func) → s.workQueue = some q →
      q.Enqueue ⟨req, hreq, path, func⟩ = (false, q') →
      Step s (s.reply req HTTP_INTERNAL_SERVER_ERROR (text "Work queue depth exceeded"))
  /-- The first part of `InterruptHTTPServer`. -/
  | unlisten {s : HTTPServer} : Step s { s with accepting := false }
  /-- The second part of `InterruptHTTPServer`. -/
  | interrupt {s : HTTPServer} {q : WorkQueue} : s.accepting = false → s.workQueue = some q →
      Step s { s with
        workQueue := some q.Interrupt
        g_thread_http_workers := notifyAll s.g_thread_http_workers }
  | unregister {s : HTTPServer} (strPrefix : Bytes) (exactMatch : Bool) :
      Step s { s with
        pathHandlers := UnregisterHTTPHandler strPrefix exactMatch s.pathHandlers }
  /-- `StopHTTPServer` has joined the workers, and deletes the queue with what is in it. -/
  | stop {s : HTTPServer} {q : WorkQueue} : s.workQueue = some q →
      (∀ t ∈ s.g_thread_http_workers, t = .exited) →
      Step s { s with
        workQueue := none
        replies := s.replies ++ q.queue.flatMap fun i => destroyed i.req [] }

/-- The runs of the server. A worker whose handler throws ends the process, and so does the event
thread where it asserts that there is a queue: the run is over. -/
abbrev Steps : HTTPServer → HTTPServer → Prop := Relation.ReflTransGen Step

/-! ### One reply to each request -/

/-- The requests that wait in the queue, or that a worker has. -/
def dispatched (s : HTTPServer) : List HTTPWorkItem :=
  (s.workQueue.map (·.queue)).getD [] ++ items s.g_thread_http_workers

/-- The requests that some thread is still to reply to. -/
def underway (s : HTTPServer) : List ℕ :=
  (s.handling.map Prod.fst).toList ++ s.dispatched.map (·.req)

/-- The request that the event thread is at. -/
def Handles (s : HTTPServer) (req : ℕ) (hreq : HTTPRequest) : Prop :=
  s.handling = some (req, hreq) ∧ s.requests[req]? = some hreq

/-- A request that was given to the handler its path asked for among those there were then. -/
def Routed (registered : List HTTPPathHandler) (s : HTTPServer) (i : HTTPWorkItem) : Prop :=
  s.requests[i.req]? = some i.hreq ∧ i.hreq.method ≠ .UNKNOWN ∧
    ∃ pathHandlers : List HTTPPathHandler, s.pathHandlers.Sublist pathHandlers ∧
      pathHandlers.Sublist registered ∧
      findHandler pathHandlers i.hreq.uri = some (i.path, i.func)

/-- Why the step from a state to the next sends a reply. -/
inductive Told (registered : List HTTPPathHandler) (s s' : HTTPServer) : Reply → Prop
  | rejected : s.accepting = false →
      Told registered s s' (s.requests.length, HTTP_SERVUNAVAIL, [])
  | badMethod {req : ℕ} {hreq : HTTPRequest} : s.Handles req hreq → hreq.method = .UNKNOWN →
      Told registered s s' (req, HTTP_BAD_METHOD, [])
  | notFound {req : ℕ} {hreq : HTTPRequest} : s.Handles req hreq → hreq.method ≠ .UNKNOWN →
      findHandler s.pathHandlers hreq.uri = none →
      Told registered s s' (req, HTTP_NOT_FOUND, [])
  | refused {req : ℕ} {hreq : HTTPRequest} {path : Bytes} {func : HTTPRequestHandler}
      {q : WorkQueue} : s.Handles req hreq → hreq.method ≠ .UNKNOWN →
      findHandler s.pathHandlers hreq.uri = some (path, func) → s.workQueue = some q →
      q.maxDepth ≤ q.queue.length →
      Told registered s s'
        (req, HTTP_INTERNAL_SERVER_ERROR, text "Work queue depth exceeded")
  | sent {i : HTTPWorkItem} {reply : ℕ × Bytes} : Routed registered s i →
      .working i ∈ s.g_thread_http_workers → i.func.Sends i.hreq i.path [reply] →
      Told registered s s' (i.req, reply)
  | unhandled {i : HTTPWorkItem} : Routed registered s i →
      .working i ∈ s.g_thread_http_workers → i.func.Sends i.hreq i.path [] →
      Told registered s s' (i.req, HTTP_INTERNAL_SERVER_ERROR, text "Unhandled request")
  | dropped {i : HTTPWorkItem} {q : WorkQueue} : Routed registered s i →
      s.workQueue = some q → i ∈ q.queue → s'.workQueue = none →
      Told registered s s' (i.req, HTTP_INTERNAL_SERVER_ERROR, text "Unhandled request")

/-- What holds in every state of the server: a request is with one thread, or has one reply. -/
structure Serves (registered : List HTTPPathHandler) (s : HTTPServer) : Prop where
  perm : (s.underway ++ s.replies.map Prod.fst).Perm (List.range s.requests.length)
  handlers : s.pathHandlers.Sublist registered
  handling : ∀ req hreq, s.handling = some (req, hreq) → s.requests[req]? = some hreq
  routed : ∀ i ∈ s.dispatched, Routed registered s i

section

variable {registered : List HTTPPathHandler} {s s' : HTTPServer}

/-- A request stays what it is, and a handler is not registered again. -/
structure Grows (s s' : HTTPServer) : Prop where
  requests : s.requests <+: s'.requests
  pathHandlers : s'.pathHandlers.Sublist s.pathHandlers

lemma Grows.getElem? (h : Grows s s') {req : ℕ} {hreq : HTTPRequest}
    (hr : s.requests[req]? = some hreq) : s'.requests[req]? = some hreq := by
  obtain ⟨l, hl⟩ := h.requests
  obtain ⟨hlt, -⟩ := List.getElem?_eq_some_iff.mp hr
  rw [← hl, List.getElem?_append_left hlt, hr]

lemma Routed.grows {i : HTTPWorkItem} (hi : Routed registered s i) (h : Grows s s') :
    Routed registered s' i := by
  obtain ⟨hr, hm, pathHandlers, hsub, hsub', hf⟩ := hi
  exact ⟨h.getElem? hr, hm, pathHandlers, h.pathHandlers.trans hsub, hsub', hf⟩

lemma grows_of_step (h : Step s s') : Grows s s' := by
  cases h with
  | work h => cases h <;> exact ⟨List.prefix_rfl, List.Sublist.refl _⟩
  | receive | reject => exact ⟨List.prefix_append _ _, List.Sublist.refl _⟩
  | unregister => exact ⟨List.prefix_rfl, List.eraseP_sublist⟩
  | _ => exact ⟨List.prefix_rfl, List.Sublist.refl _⟩

lemma Steps.getElem? (h : Steps s s') {req : ℕ} {hreq : HTTPRequest}
    (hr : s.requests[req]? = some hreq) : s'.requests[req]? = some hreq := by
  induction h with
  | refl => exact hr
  | tail _ hst ih => exact (grows_of_step hst).getElem? ih

/-! Each step moves a request from one place to the next. -/

lemma destroyed_of_sends {i : HTTPWorkItem} {replies : List (ℕ × Bytes)}
    (h : i.func.Sends i.hreq i.path replies) :
    (replies = [] ∧ destroyed i.req replies =
      [(i.req, HTTP_INTERNAL_SERVER_ERROR, text "Unhandled request")]) ∨
    ∃ reply, replies = [reply] ∧ destroyed i.req replies = [(i.req, reply)] := by
  obtain ⟨p, b, c, hp, hrun, rfl⟩ := h
  have hpost := run_post serve Conn.new (i.func.once _ _ _ hp)
  rw [hrun] at hpost
  have hlen : c.replies.length ≤ 1 := hpost
  cases hr : c.replies with
  | nil => exact Or.inl ⟨rfl, rfl⟩
  | cons reply l =>
    rw [hr] at hlen
    obtain rfl : l = [] := List.eq_nil_of_length_eq_zero (by simpa using hlen)
    exact Or.inr ⟨reply, rfl, rfl⟩

lemma fst_destroyed {i : HTTPWorkItem} {replies : List (ℕ × Bytes)}
    (h : i.func.Sends i.hreq i.path replies) :
    (destroyed i.req replies).map Prod.fst = [i.req] := by
  rcases destroyed_of_sends h with ⟨-, hd⟩ | ⟨reply, -, hd⟩ <;> simp [hd]

lemma perm_run (q : WorkQueue) (pre post : List Worker) :
    (q.Run.2.queue ++ items (pre ++ q.Run.1 :: post)).Perm
      (q.queue ++ items (pre ++ .locking () :: post)) := by
  unfold WorkQueue.Run
  split
  · simp
  · cases hq : q.queue with
    | nil => simp [hq]
    | cons i queue =>
      simp only [items_append, items_working, items_locking, List.cons_append]
      rw [← List.append_assoc, ← List.append_assoc]
      exact List.perm_middle

lemma perm_reply {req nStatus : ℕ} {hreq : HTTPRequest} {strReply : Bytes}
    (h : (s.underway ++ s.replies.map Prod.fst).Perm (List.range s.requests.length))
    (hh : s.handling = some (req, hreq)) :
    ((s.reply req nStatus strReply).underway ++ (s.reply req nStatus strReply).replies.map
      Prod.fst).Perm (List.range s.requests.length) := by
  refine List.Perm.trans ?_ h
  rw [List.perm_iff_count]
  intro req'
  simp only [underway, dispatched, reply, hh, List.map_append, List.count_append, Option.map_some,
    Option.map_none, Option.toList_some, Option.toList_none, List.map_cons, List.map_nil,
    List.count_nil]
  omega

lemma Enqueue_eq_true {q q' : WorkQueue} {item : HTTPWorkItem} (h : q.Enqueue item = (true, q')) :
    q.queue.length < q.maxDepth ∧ q' = { q with queue := q.queue ++ [item] } := by
  unfold WorkQueue.Enqueue at h
  split at h
  · cases h
  · next hfull =>
    exact ⟨by omega, (Prod.mk.inj h).2.symm⟩

lemma Enqueue_eq_false {q q' : WorkQueue} {item : HTTPWorkItem}
    (h : q.Enqueue item = (false, q')) : q.maxDepth ≤ q.queue.length := by
  unfold WorkQueue.Enqueue at h
  split at h
  · next hfull => exact hfull
  · cases h

lemma items_eq_nil {ts : List Worker} (h : ∀ t ∈ ts, t = .exited) : items ts = [] := by
  refine List.filterMap_eq_nil_iff.mpr fun t ht => ?_
  rw [h t ht]
  rfl

lemma Serves.perm_step (h : Serves registered s) (hst : Step s s') :
    (s'.underway ++ s'.replies.map Prod.fst).Perm (List.range s'.requests.length) := by
  have hperm := h.perm
  cases hst with
  | work hst =>
    cases hst with
    | @run q pre post hq hw =>
      refine List.Perm.trans (.append_right _ (.append_left _ (.map _ ?_))) hperm
      simpa [dispatched, hq, hw] using perm_run q pre post
    | @finish i pre post replies hw hs =>
      refine List.Perm.trans ?_ hperm
      rw [List.perm_iff_count]
      intro req
      simp only [underway, dispatched, hw, List.map_append, fst_destroyed hs, items_append,
        items_locking, items_working, List.map_cons, List.count_append, List.count_cons,
        List.count_nil]
      omega
  | @wake pre post deadline hw => simpa [underway, dispatched, hw] using hperm
  | receive hreq _ hidle =>
    rw [List.perm_iff_count] at hperm ⊢
    intro req
    have hreq := hperm req
    simp only [underway, dispatched, hidle, List.count_append, List.length_append,
      List.length_singleton, List.range_succ] at hreq ⊢
    simp only [Option.map_some, Option.map_none, Option.toList_some, Option.toList_none,
      List.count_nil] at hreq ⊢
    omega
  | reject hreq _ hidle =>
    rw [List.perm_iff_count] at hperm ⊢
    intro req
    have hreq := hperm req
    simp only [underway, dispatched, hidle, List.count_append, List.length_append,
      List.length_singleton, List.range_succ, List.map_append, List.map_cons, List.map_nil] at hreq ⊢
    omega
  | badMethod hh _ => exact perm_reply hperm hh
  | notFound hh _ _ => exact perm_reply hperm hh
  | @enqueue req hreq path func q q' workers hh _ _ hq henq hn =>
    refine List.Perm.trans ?_ hperm
    obtain ⟨-, rfl⟩ := Enqueue_eq_true henq
    rw [List.perm_iff_count]
    intro req
    simp only [underway, dispatched, hh, hq, hn.items, List.map_append, List.count_append,
      Option.map_some, Option.map_none, Option.toList_some, Option.toList_none, Option.getD_some,
      List.map_cons, List.map_nil, List.count_nil]
    omega
  | refuse hh _ _ _ _ => exact perm_reply hperm hh
  | unlisten => exact hperm
  | interrupt _ hq => simpa [underway, dispatched, hq, WorkQueue.Interrupt] using hperm
  | unregister => exact hperm
  | @stop q hq hexited =>
    refine List.Perm.trans ?_ hperm
    have hnone : items s.g_thread_http_workers = [] := items_eq_nil hexited
    have hfst : (q.queue.flatMap fun i => destroyed i.req []).map Prod.fst =
        q.queue.map (·.req) := by
      rw [List.map_flatMap]
      exact (List.map_eq_flatMap ..).symm
    rw [List.perm_iff_count]
    intro req
    simp only [underway, dispatched, hq, hnone, hfst, List.map_append, List.count_append,
      Option.map_none, Option.map_some, Option.getD_some, Option.getD_none, List.map_nil,
      List.count_nil]
    omega

/-- Where the requests are after a step: where they were, or handed to the queue. -/
lemma dispatched_of_step (hst : Step s s') {i : HTTPWorkItem} (hi : i ∈ s'.dispatched) :
    i ∈ s.dispatched ∨ s.handling = some (i.req, i.hreq) ∧ i.hreq.method ≠ .UNKNOWN ∧
      findHandler s.pathHandlers i.hreq.uri = some (i.path, i.func) := by
  cases hst with
  | work hst =>
    left
    cases hst with
    | @run q pre post hq hw =>
      have hmem := (perm_run q pre post).mem_iff.mp hi
      simpa [dispatched, hq, hw] using hmem
    | finish hw hs =>
      simp only [dispatched, hw, items_append, items_locking, items_working, List.mem_append,
        List.mem_cons] at hi ⊢
      tauto
  | wake hw => simpa [dispatched, hw] using Or.inl hi
  | @enqueue req hreq path func q q' workers hh hm hf hq henq hn =>
    obtain ⟨-, rfl⟩ := Enqueue_eq_true henq
    simp only [dispatched, hq, hn.items, Option.map_some, Option.getD_some, List.mem_append,
      List.mem_singleton] at hi ⊢
    rcases hi with (hi | rfl) | hi
    · exact Or.inl (Or.inl hi)
    · exact Or.inr ⟨hh, hm, hf⟩
    · exact Or.inl (Or.inr hi)
  | interrupt _ hq =>
    left
    simpa [dispatched, hq, WorkQueue.Interrupt] using hi
  | stop hq hexited =>
    left
    simp only [dispatched, Option.map_none, Option.getD_none, List.nil_append] at hi
    simp [dispatched, hi]
  | _ => exact Or.inl hi

/-- A reply that a step adds has its reason in the state before. -/
lemma told_of_step (h : Serves registered s) (hst : Step s s') {reply : Reply}
    (hr : reply ∈ s'.replies) (hnew : reply ∉ s.replies) : Told registered s s' reply := by
  cases hst with
  | work hst =>
    cases hst with
    | run => exact absurd hr hnew
    | @finish i pre post replies hw hs =>
      have hmem : .working i ∈ s.g_thread_http_workers := by simp [hw]
      have hi : Routed registered s i := h.routed i (by simp [dispatched, hw])
      have hr := (List.mem_append.mp hr).resolve_left hnew
      rcases destroyed_of_sends hs with ⟨rfl, hd⟩ | ⟨reply', rfl, hd⟩
      · obtain rfl := List.mem_singleton.mp (hd ▸ hr)
        exact .unhandled hi hmem hs
      · obtain rfl := List.mem_singleton.mp (hd ▸ hr)
        exact .sent hi hmem hs
  | reject hreq hacc _ =>
    obtain rfl := List.mem_singleton.mp ((List.mem_append.mp hr).resolve_left hnew)
    exact .rejected hacc
  | badMethod hh hm =>
    obtain rfl := List.mem_singleton.mp ((List.mem_append.mp hr).resolve_left hnew)
    exact .badMethod ⟨hh, h.handling _ _ hh⟩ hm
  | notFound hh hm hf =>
    obtain rfl := List.mem_singleton.mp ((List.mem_append.mp hr).resolve_left hnew)
    exact .notFound ⟨hh, h.handling _ _ hh⟩ hm hf
  | refuse hh hm hf hq henq =>
    obtain rfl := List.mem_singleton.mp ((List.mem_append.mp hr).resolve_left hnew)
    exact .refused ⟨hh, h.handling _ _ hh⟩ hm hf hq (Enqueue_eq_false henq)
  | @stop q hq hexited =>
    obtain ⟨i, hi, hr⟩ := List.mem_flatMap.mp ((List.mem_append.mp hr).resolve_left hnew)
    obtain rfl := List.mem_singleton.mp hr
    exact .dropped (h.routed i (by simp [dispatched, hq, hi])) hq hi rfl
  | _ => exact absurd hr hnew

lemma Serves.step (h : Serves registered s) (hst : Step s s') : Serves registered s' where
  perm := h.perm_step hst
  handlers := by
    cases hst with
    | work hst => cases hst <;> exact h.handlers
    | unregister => exact List.eraseP_sublist.trans h.handlers
    | _ => exact h.handlers
  handling := by
    have hgrows := grows_of_step hst
    intro req hreq hh
    cases hst with
    | work hst => cases hst <;> exact h.handling req hreq hh
    | receive =>
      obtain ⟨rfl, rfl⟩ := Prod.mk.inj (Option.some.inj hh)
      simp
    | reject _ _ hidle =>
      rw [show s.handling = some (req, hreq) from hh] at hidle
      cases hidle
    | badMethod | notFound | refuse | enqueue => cases hh
    | _ => exact h.handling req hreq hh
  routed := by
    intro i hi
    rcases dispatched_of_step hst hi with hi | ⟨hh, hm, hf⟩
    · exact (h.routed i hi).grows (grows_of_step hst)
    · have hr : Routed registered s i :=
        ⟨h.handling _ _ hh, hm, _, List.Sublist.refl _, h.handlers, hf⟩
      exact hr.grows (grows_of_step hst)

lemma serves_start (rpcworkqueue rpcthreads : ℤ) (registered : List HTTPPathHandler) :
    Serves registered (StartHTTPServer rpcworkqueue rpcthreads registered) := by
  have hitems : ∀ n, items (List.replicate n (Thread.locking () : Worker)) = [] := by
    intro n
    induction n with
    | zero => rfl
    | succ n ih => rw [List.replicate_succ, items_locking, ih]
  have hidle : (StartHTTPServer rpcworkqueue rpcthreads registered).dispatched = [] := by
    simp [dispatched, StartHTTPServer, hitems]
  refine ⟨?_, List.Sublist.refl _, by simp [StartHTTPServer], by simp [hidle]⟩
  simp [underway, hidle]
  simp [StartHTTPServer]

lemma Steps.serves {rpcworkqueue rpcthreads : ℤ}
    (h : Steps (StartHTTPServer rpcworkqueue rpcthreads registered) s) : Serves registered s := by
  induction h with
  | refl => exact serves_start _ _ _
  | tail _ hst ih => exact ih.step hst

/-- A reply has been sent in some step of the run, and had its reason there. -/
lemma told_of_steps {rpcworkqueue rpcthreads : ℤ}
    (h : Steps (StartHTTPServer rpcworkqueue rpcthreads registered) s) {reply : Reply}
    (hreply : reply ∈ s.replies) :
    ∃ s₁ s₂, Steps (StartHTTPServer rpcworkqueue rpcthreads registered) s₁ ∧ Step s₁ s₂ ∧
      Steps s₂ s ∧ reply ∉ s₁.replies ∧ reply ∈ s₂.replies ∧ Told registered s₁ s₂ reply := by
  induction h with
  | refl => cases hreply
  | @tail s₁ s₂ hsteps hst ih =>
    by_cases hold : reply ∈ s₁.replies
    · obtain ⟨s₃, s₄, hbefore, hsent, hafter, htold⟩ := ih hold
      exact ⟨s₃, s₄, hbefore, hsent, hafter.tail hst, htold⟩
    · exact ⟨s₁, s₂, hsteps, hst, .refl, hold, hreply,
        told_of_step (Steps.serves hsteps) hst hreply hold⟩

/-- **Each request gets one reply.** In every state of every run of the server, however the event
thread, the workers and a shutdown interleave, a request is either with one of the threads, or has
been replied to once; and each reply is what its handler sent, or there was a reason for another
in the state it was sent in. -/
theorem replied_once {rpcworkqueue rpcthreads : ℤ}
    (h : Steps (StartHTTPServer rpcworkqueue rpcthreads registered) s) :
    (s.underway ++ s.replies.map Prod.fst).Perm (List.range s.requests.length) ∧
      ∀ reply ∈ s.replies, ∃ s₁ s₂,
        Steps (StartHTTPServer rpcworkqueue rpcthreads registered) s₁ ∧ Step s₁ s₂ ∧
        Steps s₂ s ∧ reply ∉ s₁.replies ∧ reply ∈ s₂.replies ∧ Told registered s₁ s₂ reply :=
  ⟨h.serves.perm, fun _ hreply => told_of_steps h hreply⟩

end

/-! ### The replies to JSON-RPC -/

section

variable {dump_float : Double → Bytes} {json_parse : Bytes → Except Bytes Value} {s : HTTPServer}

/-- The text of an object with a result, an error and an id. -/
def Reported (dump_float : Double → Bytes) (strReply : Bytes) : Prop :=
  ∃ kvs object, strReply = object ++ text "\n" ∧ dump dump_float (.object kvs) = .ok object ∧
    ∀ key ∈ ["result", "error", "id"], (kvs.lookup (text key)).isSome

lemma reported_of_reply {result error id : Value} {strReply : Bytes}
    (h : JSONRPCReply dump_float result error id = .ok strReply) : Reported dump_float strReply := by
  unfold JSONRPCReply at h
  cases hd : dump dump_float (JSONRPCReplyObj result error id) with
  | error e =>
    rw [hd] at h
    cases h
  | ok object =>
    rw [hd] at h
    obtain rfl := Except.ok.inj h
    exact ⟨_, object, rfl, hd, lookup_reply _ _ _⟩

lemma wp_send {strReply : Bytes} (nStatus : ℕ) (b : Bool) (h : Reported dump_float strReply)
    (c : Conn) :
    wp (Env.of serve) (WriteHeader "Content-Type" "application/json" >>= fun _ =>
        WriteReply nStatus strReply >>= fun _ => pure b)
      (fun _ c' => ∀ reply ∈ c'.replies, Reported dump_float reply.2) (fun _ => True) c := by
  simp only [WriteHeader, WriteReply, wp_bind, wp_modify, wp_get]
  split
  · exact trivial
  · next hnone =>
    rw [not_ne_iff] at hnone
    rw [wp_modify, pure_eq, wp_ret, hnone]
    simpa using h

lemma wp_JSONErrorReply (objError id : Value) (c : Conn) :
    wp (Env.of serve) (JSONErrorReply dump_float objError id >>= fun _ => pure false)
      (fun _ c' => ∀ reply ∈ c'.replies, Reported dump_float reply.2) (fun _ => True) c := by
  simp only [JSONErrorReply, liftM_eq, bind_assoc]
  rw [wp_bind]
  refine wp_lift_any trivial fun _ => ?_
  rw [wp_bind]
  refine wp_lift_any trivial fun _ => ?_
  rw [wp_bind]
  refine wp_lift_ok trivial fun strReply hs => ?_
  exact wp_send _ _ (reported_of_reply hs) c

lemma wp_HTTPReq_JSONRPC (tableRPC : CRPCTable) (body : Bytes) (c : Conn) :
    wp (Env.of serve) (HTTPReq_JSONRPC dump_float json_parse tableRPC true body)
      (fun _ c' => ∀ reply ∈ c'.replies, Reported dump_float reply.2) (fun _ => True) c := by
  unfold HTTPReq_JSONRPC
  rw [Bool.not_true, if_neg Bool.false_ne_true, wp_bind, wp_modify]
  refine wp_caught ?_ fun e c₂ => ?_
  · unfold tryRequest
    rw [wp_bind]
    refine wp_lift_any trivial fun valRequest => ?_
    cases hobject : valRequest.is_object with
    | false => exact trivial
    | true =>
      simp only [Bool.not_true, Bool.false_eq_true, if_false, if_true, liftM_eq]
      rw [wp_bind]
      refine wp_any (fun _ c₁ => ?_) fun _ => trivial
      rw [wp_bind, wp_get, wp_bind]
      refine wp_lift_any trivial fun result => ?_
      rw [wp_bind]
      refine wp_lift_ok trivial fun strReply hs => ?_
      exact wp_send _ _ (reported_of_reply hs) c₁
  · cases e with
    | json objError =>
      rw [catchRequest, wp_bind, wp_get]
      exact wp_JSONErrorReply _ _ _
    | std what =>
      rw [catchRequest, wp_bind, wp_get]
      exact wp_JSONErrorReply _ _ _
    | assertion => exact trivial

/-- The handler of the root is the only one whose path is that short. -/
lemma findHandler_root {pathHandlers : List HTTPPathHandler} {path : Bytes}
    {func : HTTPRequestHandler} (hsub : pathHandlers.Sublist (AppInitServers dump_float json_parse))
    (h : findHandler pathHandlers (text "/") = some (path, func)) :
    func = HTTPReq_JSONRPC.handler dump_float json_parse := by
  obtain ⟨i, hi, hpath⟩ := Option.map_eq_some_iff.mp h
  obtain rfl : i.handler = func := (Prod.mk.inj hpath).2
  have hmatch : i.match (text "/") = true :=
    List.find?_some (p := fun i : HTTPPathHandler => i.match (text "/")) hi
  have hmem : i ∈ AppInitServers dump_float json_parse := hsub.subset (List.mem_of_find?_eq_some hi)
  simp only [AppInitServers, StartREST, StartHTTPRPC, RegisterHTTPHandler, List.foldl_cons,
    List.foldl_nil, List.nil_append, List.cons_append, List.mem_cons, List.not_mem_nil,
    or_false] at hmem
  have hlonger : ∀ strPrefix ∈ [text "/rest/chaininfo", text "/rest/headers/"],
      ¬ (decide ((text "/").take strPrefix.length = strPrefix)) = true := by decide
  rcases hmem with rfl | rfl | rfl
  · rfl
  · exact absurd hmatch (hlonger (text "/rest/chaininfo") (by simp))
  · exact absurd hmatch (hlonger (text "/rest/headers/") (by simp))

/-- Why the step from a state to the next replies to a request of the root that no handler has
seen. -/
inductive Unseen (s s' : HTTPServer) : ℕ × Bytes → Prop
  | rejected : s.accepting = false → Unseen s s' (HTTP_SERVUNAVAIL, [])
  | notFound : findHandler s.pathHandlers (text "/") = none → Unseen s s' (HTTP_NOT_FOUND, [])
  | refused {q : WorkQueue} : s.workQueue = some q → q.maxDepth ≤ q.queue.length →
      Unseen s s' (HTTP_INTERNAL_SERVER_ERROR, text "Work queue depth exceeded")
  | dropped : s.workQueue ≠ none → s'.workQueue = none →
      Unseen s s' (HTTP_INTERNAL_SERVER_ERROR, text "Unhandled request")

lemma reported_of_sends {hreq : HTTPRequest} {path : Bytes} {reply : ℕ × Bytes}
    (hpost : hreq.method = .POST)
    (h : (HTTPReq_JSONRPC.handler dump_float json_parse).Sends hreq path [reply]) :
    Reported dump_float reply.2 := by
  obtain ⟨p, b, c, ⟨tableRPC, rfl⟩, hrun, hreplies⟩ := h
  have hall := run_post serve Conn.new (@wp_HTTPReq_JSONRPC dump_float json_parse tableRPC
    hreq.body Conn.new)
  simp only [hpost, decide_true] at hrun
  rw [hrun] at hall
  exact hall reply (by simp [hreplies])

lemma not_sends_nil {hreq : HTTPRequest} {path : Bytes} :
    ¬ (HTTPReq_JSONRPC.handler dump_float json_parse).Sends hreq path [] := by
  rintro ⟨p, b, c, ⟨tableRPC, rfl⟩, hrun, hreplies⟩
  have hone := run_post serve Conn.new
    (replies_HTTPReq_JSONRPC dump_float tableRPC json_parse (hreq.method = .POST) hreq.body)
  rw [hrun] at hone
  have hlen : c.replies.length = 1 := hone
  rw [hreplies] at hlen
  cases hlen

lemma posted_of_told {s' : HTTPServer} {req : ℕ} {reply : ℕ × Bytes} {hreq : HTTPRequest}
    (hr : ∀ hreq', s.requests[req]? = some hreq' → hreq' = hreq)
    (hpost : hreq.method = .POST) (huri : hreq.uri = text "/")
    (htold : Told (AppInitServers dump_float json_parse) s s' (req, reply)) :
    Reported dump_float reply.2 ∨ Unseen s s' reply := by
  have hroot : ∀ {i : HTTPWorkItem}, Routed (AppInitServers dump_float json_parse) s i →
      i.req = req → i.hreq = hreq ∧ i.func = HTTPReq_JSONRPC.handler dump_float json_parse := by
    rintro i ⟨hi, -, pathHandlers, -, hsub, hf⟩ rfl
    have hsame := hr _ hi
    rw [hsame, huri] at hf
    exact ⟨hsame, findHandler_root hsub hf⟩
  generalize hreplied : (req, reply) = r at htold
  cases htold with
  | rejected hacc =>
    obtain ⟨-, rfl⟩ := Prod.mk.inj hreplied
    exact Or.inr (.rejected hacc)
  | badMethod hh hm =>
    obtain ⟨rfl, -⟩ := Prod.mk.inj hreplied
    rw [hr _ hh.2, hpost] at hm
    cases hm
  | notFound hh _ hf =>
    obtain ⟨rfl, rfl⟩ := Prod.mk.inj hreplied
    rw [hr _ hh.2, huri] at hf
    exact Or.inr (.notFound hf)
  | refused _ _ _ hq hfull =>
    obtain ⟨-, rfl⟩ := Prod.mk.inj hreplied
    exact Or.inr (.refused hq hfull)
  | @sent i _ hi _ hs =>
    obtain ⟨hreq', rfl⟩ := Prod.mk.inj hreplied
    obtain ⟨hsame, hfunc⟩ := hroot hi hreq'.symm
    rw [hfunc] at hs
    exact Or.inl (reported_of_sends (hsame ▸ hpost) hs)
  | @unhandled i hi _ hs =>
    obtain ⟨hreq', -⟩ := Prod.mk.inj hreplied
    rw [(hroot hi hreq'.symm).2] at hs
    exact absurd hs not_sends_nil
  | dropped _ hq _ hnone =>
    obtain ⟨-, rfl⟩ := Prod.mk.inj hreplied
    exact Or.inr (.dropped (by simp [hq]) hnone)

/-- **A request that is posted is told in JSON what came of it**, or that it was not handled: when
it was told so the server no longer took requests in, the handler was not registered any more, the
queue was full, or it was deleted with the request in it. -/
theorem posted_reply {rpcworkqueue rpcthreads : ℤ} {req : ℕ} {reply : ℕ × Bytes}
    {hreq : HTTPRequest}
    (h : Steps (StartHTTPServer rpcworkqueue rpcthreads (AppInitServers dump_float json_parse)) s)
    (hreply : (req, reply) ∈ s.replies) (hr : s.requests[req]? = some hreq)
    (hpost : hreq.method = .POST) (huri : hreq.uri = text "/") :
    Reported dump_float reply.2 ∨ ∃ s₁ s₂,
      Steps (StartHTTPServer rpcworkqueue rpcthreads (AppInitServers dump_float json_parse)) s₁ ∧
      Step s₁ s₂ ∧ Steps s₂ s ∧ (req, reply) ∉ s₁.replies ∧ (req, reply) ∈ s₂.replies ∧
      Unseen s₁ s₂ reply := by
  obtain ⟨s₁, s₂, hbefore, hsent, hafter, hnew, hadded, htold⟩ := told_of_steps h hreply
  have hsame : ∀ hreq', s₁.requests[req]? = some hreq' → hreq' = hreq := by
    intro hreq' hr'
    have hlast := hafter.getElem? ((grows_of_step hsent).getElem? hr')
    exact Option.some.inj (hlast.symm.trans hr)
  rcases posted_of_told hsame hpost huri htold with hreported | hunseen
  · exact Or.inl hreported
  · exact Or.inr ⟨s₁, s₂, hbefore, hsent, hafter, hnew, hadded, hunseen⟩

end

/-- What the client is sent. -/
def uptimeReply : Bytes := text "\x7b\"error\":null,\"id\":1,\"result\":60\x7d\n"

def uptimeRequest : HTTPRequest := ⟨.POST, text "/", uptimeBody⟩

def uptimeHandlers : List HTTPPathHandler := AppInitServers (fun _ => []) shortParse

def uptimeItem (req : ℕ) : HTTPWorkItem :=
  ⟨req, uptimeRequest, [], HTTPReq_JSONRPC.handler (fun _ => []) shortParse⟩

/-- A worker has the first request, and the second fills the queue. -/
def uptimeFull : HTTPServer where
  pathHandlers := uptimeHandlers
  workQueue := some ⟨[uptimeItem 1], true, 1⟩
  g_thread_http_workers := [.working (uptimeItem 0), .locking ()]
  accepting := true
  handling := none
  requests := [uptimeRequest, uptimeRequest]
  taken := [0]
  replies := []

/-- The other worker has taken the second request, and replied first. -/
def uptimeServed : HTTPServer where
  pathHandlers := uptimeHandlers
  workQueue := some ⟨[], true, 1⟩
  g_thread_http_workers := [.locking (), .locking ()]
  accepting := true
  handling := none
  requests := [uptimeRequest, uptimeRequest]
  taken := [0, 1]
  replies := [(1, HTTP_OK, uptimeReply), (0, HTTP_OK, uptimeReply)]

lemma sends_uptime (req : ℕ) : (uptimeItem req).func.Sends (uptimeItem req).hreq
    (uptimeItem req).path [(HTTP_OK, uptimeReply)] :=
  ⟨HTTPReq_JSONRPC (fun _ => []) shortParse uptimeTable true uptimeBody, true, _,
    ⟨uptimeTable, rfl⟩, rfl, rfl⟩

lemma steps_uptimeFull : Steps (StartHTTPServer 1 2 uptimeHandlers) uptimeFull := by
  have hreceive : Steps (StartHTTPServer 1 2 uptimeHandlers)
      { StartHTTPServer 1 2 uptimeHandlers with
        handling := some (0, uptimeRequest)
        requests := [uptimeRequest] } := .single (.receive uptimeRequest rfl rfl)
  have henqueue := hreceive.tail (.enqueue rfl (by decide) rfl rfl rfl (.none (by decide)))
  have hrun := henqueue.tail (.work (@Work.run _ _ [] [.locking ()] rfl rfl))
  have hreceive' := hrun.tail (.receive uptimeRequest rfl rfl)
  exact hreceive'.tail (.enqueue rfl (by decide) rfl rfl rfl (.none (by decide)))

lemma steps_uptime : Steps (StartHTTPServer 1 2 uptimeHandlers) uptimeServed := by
  have hrun := steps_uptimeFull.tail
    (.work (@Work.run _ _ [.working (uptimeItem 0)] [] rfl rfl))
  have hfinish := hrun.tail (.work (@Work.finish _ (uptimeItem 1) [.working (uptimeItem 0)] [] _
    rfl (sends_uptime 1)))
  exact hfinish.tail (.work (@Work.finish _ (uptimeItem 0) [] [.locking ()] _ rfl
    (sends_uptime 0)))

theorem replied_once_uptime :
    (uptimeServed.underway ++ uptimeServed.replies.map Prod.fst).Perm (List.range 2) ∧
      ∀ reply ∈ uptimeServed.replies, ∃ s₁ s₂, Steps (StartHTTPServer 1 2 uptimeHandlers) s₁ ∧
        Step s₁ s₂ ∧ Steps s₂ uptimeServed ∧ reply ∉ s₁.replies ∧ reply ∈ s₂.replies ∧
        Told uptimeHandlers s₁ s₂ reply :=
  replied_once steps_uptime

theorem posted_reply_uptime : Reported (fun _ => []) uptimeReply := by
  have hreply : (0, HTTP_OK, uptimeReply) ∈ uptimeServed.replies := by simp [uptimeServed]
  have hr : uptimeServed.requests[0]? = some uptimeRequest := rfl
  rcases posted_reply steps_uptime hreply hr rfl rfl with hreported | ⟨_, _, _, _, _, _, _, hunseen⟩
  · exact hreported
  · cases hunseen

end HTTPServer

end OpenWallet.Server.Http
