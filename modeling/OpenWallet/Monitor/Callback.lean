import OpenWallet.Monitor.Tasks

/-!
What becomes of a notice. The scanner that sends it goes on, and keeps it where it is not
acknowledged, as long as the receiver answers with a code at all.
-/

namespace OpenWallet.Monitor

open Lib Prog

def spoken : Answer → Option ℤ
  | .body j => (j.find? "code").bind fun v => v.getInt.toOption
  | _ => none

/-- The receiver answers with a code, and does not ask for the notice again. -/
def acked (a : Answer) : Bool := (spoken a).any (· ≠ 1)

lemma code_body (j : Json) : code (.body j) = (j.field "code" >>= Json.getInt) := by
  cases ht : j.touch "error" with
  | error e => cases j <;> simp_all [code, reply, Json.touch, Json.field]
  | ok j' =>
    obtain ⟨v, hv⟩ : ∃ v, j.field "error" = .ok v := by
      cases j <;> simp_all [Json.touch, Json.field]
    cases hn : v.is_null <;> simp [code, reply, ht, hv, hn, Json.field_touch "code" ht]

lemma code_eq_ok {a : Answer} {c : ℤ} : code a = .ok c ↔ spoken a = some c := by
  cases a with
  | down => simp [code, reply, spoken, Json.getInt]
  | garbage => simp [code, reply, spoken]
  | body j =>
    rw [code_body]
    cases j with
    | obj kvs =>
      cases hv : kvs.lookup "code" with
      | none => simp [spoken, Json.field, hv, Json.getInt]
      | some v => cases hi : v.getInt <;> simp [spoken, Json.field, hv, hi, Except.toOption]
    | _ => simp [spoken, Json.find?, Json.field, Json.getInt]

/-! ### One notice, and the queue -/

section

variable (net : ℕ → Request → Answer) (w : World)

/-- The answer to a notice that goes out after `k` others. -/
def World.answer (k : ℕ) (j : Json) : Answer :=
  net (w.wire.length + k) ⟨w.vars.callback_url_, "", j⟩

/-- What is not acknowledged of a queue when it goes out. -/
def World.unacked (queue : List Json) : List Json :=
  (queue.zipIdx.filter fun e => !acked (w.answer net e.2 e.1)).map Prod.fst

/-- Every notice of a queue is answered with a code. -/
def World.Heeded (queue : List Json) : Prop :=
  ∀ k j, queue[k]? = some j → (spoken (w.answer net k j)).isSome

/-- A notice is kept unless it is acknowledged. -/
def Kept (j : Json) (w' : World) : Prop :=
  w'.vars.s_json_callback =
    w.vars.s_json_callback ++ if acked (w.answer net 0 j) then [] else [j]

variable {net w}

lemma acked_of_code {a : Answer} {c : ℤ} (h : code a = .ok c) : acked a = (c ≠ 1 : Bool) := by
  rw [acked, code_eq_ok.mp h, Option.any_some]

lemma not_spoken_of_code {a : Answer} {e : Exn} (h : code a = .error e) : ¬ (spoken a).isSome := by
  intro hsome
  obtain ⟨c, hc⟩ := Option.isSome_iff_exists.mp hsome
  rw [code_eq_ok.mpr hc] at h
  cases h

lemma kept_notify {j : Json} {c : ℤ} (hc : code (w.answer net 0 j) = .ok c) :
    Kept net w j (w.notify j (w.answer net 0 j)) := by
  by_cases h1 : c = 1
  · simp [Kept, World.notify, hc, acked_of_code hc, h1, World.sent, World.retry]
  · simp [Kept, World.notify, hc, acked_of_code hc, h1, World.sent]

lemma wp_callback (j : Json) : wp (env (.clear net)) (callbackTransaction j)
    (fun _ w' => (spoken (w.answer net 0 j)).isSome ∧ Kept net w j w')
    (fun _ => ¬ (spoken (w.answer net 0 j)).isSome) w := by
  refine wp_callbackTransaction_of False.elim ?_
  rintro a (rfl : a = w.answer net 0 j)
  refine ⟨False.elim, fun e he => not_spoken_of_code he, fun c hc => ⟨?_, kept_notify hc⟩⟩
  rw [code_eq_ok.mp hc]
  rfl

lemma unacked_concat (pre : List Json) (j : Json) : w.unacked net (pre ++ [j]) =
    w.unacked net pre ++ if acked (w.answer net pre.length j) then [] else [j] := by
  rw [World.unacked, List.zipIdx_append, List.filter_append, List.map_append]
  cases h : acked (w.answer net pre.length j) <;> simp [World.unacked, h]

lemma heeded_concat {pre : List Json} {j : Json} (h : w.Heeded net pre)
    (hj : (spoken (w.answer net pre.length j)).isSome) : w.Heeded net (pre ++ [j]) := by
  intro k j' hk
  rw [List.getElem?_append] at hk
  split at hk
  · exact h k j' hk
  · next hlen =>
    obtain ⟨hlt, rfl⟩ := List.getElem?_eq_some_iff.mp hk
    obtain rfl : k = pre.length := by
      have hone : k - pre.length < 1 := hlt
      omega
    simpa using hj

lemma wp_queue : wp (env (.clear net)) reCallback
    (fun _ w' => w.Heeded net w.vars.s_json_callback ∧
      w'.vars.s_json_callback = w.unacked net w.vars.s_json_callback)
    (fun _ => ¬ w.Heeded net w.vars.s_json_callback) w := by
  simp only [reCallback, wp_bind, wp_get]
  refine ⟨False.elim, wp_mono (wp_loop (I := fun pre json_callback w' => w'.vars = w.vars ∧
    w'.wire.length = w.wire.length + pre.length ∧ w.Heeded net pre ∧
    json_callback = w.unacked net pre) (B := fun _ _ _ => False)
    (D := fun _ => ¬ w.Heeded net w.vars.s_json_callback) w.vars.s_json_callback
    ⟨rfl, rfl, by simp [World.Heeded], rfl⟩ ?_) ?_ fun _ h => h⟩
  · rintro pre j post _ w₁ hxs ⟨hvars, hlen, hheed, rfl⟩
    simp only [wp_curl, wp_bind, liftM_eq, wp_lift]
    refine ⟨False.elim, ?_⟩
    rintro a rfl
    rw [hlen]
    change (∀ c, code (w.answer net pre.length j) = .ok c → _) ∧
      ∀ e, code (w.answer net pre.length j) = .error e → _
    refine ⟨fun c hc => ?_, fun e he hall => ?_⟩
    · have hsome : (spoken (w.answer net pre.length j)).isSome := by rw [code_eq_ok.mp hc]; rfl
      refine ⟨hvars, by simp [World.sent, hlen, Nat.add_assoc], heeded_concat hheed hsome, ?_⟩
      rw [unacked_concat, acked_of_code hc]
      by_cases h1 : c = 1 <;> simp [h1]
    · exact not_spoken_of_code he (hall pre.length j (by simp [hxs]))
  · rintro ⟨fl, json_callback⟩ w₁ h
    cases fl with
    | brk => obtain ⟨_, _, _, h⟩ := h; exact h.elim
    | next =>
      obtain ⟨-, -, hheed, rfl⟩ := h
      rw [wp_modify]
      exact ⟨False.elim, hheed, rfl⟩

/-- **Failures of a callback stay with it** exactly if the receiver answers with a code: each
notice then returns, and is kept unless it is acknowledged; and so the queue, which is left with
what is not acknowledged of it. -/
theorem contained_iff (net : ℕ → Request → Answer) (w : World) (j : Json) :
    (Returns (env (.clear net)) (callbackTransaction j) (fun _ => Kept net w j) w ↔
      (spoken (w.answer net 0 j)).isSome) ∧
    (Returns (env (.clear net)) reCallback (fun _ w' =>
      w'.vars.s_json_callback = w.unacked net w.vars.s_json_callback) w ↔
      w.Heeded net w.vars.s_json_callback) :=
  ⟨returns_iff ⟨_, _, exec_run (serve_answers net) _ w⟩ (wp_callback j),
    returns_iff ⟨_, _, exec_run (serve_answers net) _ w⟩ wp_queue⟩

end

/-- A notice to a receiver that is down ends the process, and is not kept. -/
theorem not_contained_down : ∃ w', Exec (env (.clear fun _ _ => .down))
    (callbackTransaction (callback "address" "1" "ETH" 0 "0XA" "0x1" false)) (smallProcess [])
      (.threw (.typeError 302)) w' ∧ w'.vars.s_json_callback = [] :=
  ⟨_, exec_run (serve_answers fun _ _ => .down) _ _, rfl⟩

end OpenWallet.Monitor
