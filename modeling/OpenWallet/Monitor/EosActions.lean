import OpenWallet.Lib.Picks
import OpenWallet.Monitor.Callback
import OpenWallet.Monitor.EosSound

/-!
The loop over the actions of an EOS transaction. The data of an action is read with one of its
ends there, so that an action with other data ends the process.
-/

namespace OpenWallet.Monitor.Eos

open Lib Prog

/-- The data of an action has neither end, or both and a quantity, all of them texts. -/
def Readable (json_action : Json) : Prop :=
  ∀ d, json_action.find? "data" = some d →
    (d.find? "from" = none ∧ d.find? "to" = none) ∨
    ∃ f t quantity, d.find? "from" = some (.str f) ∧ d.find? "to" = some (.str t) ∧
      d.find? "quantity" = some (.str quantity)

lemma reads_iff (base : String) (json_action : Json) :
    Readable json_action ↔ ∃ r, action base json_action = .ok r := by
  constructor
  · intro h
    cases hd : json_action.find? "data" with
    | none => exact ⟨none, by simp [action, hd]⟩
    | some d =>
      rcases h d hd with ⟨hf, ht⟩ | ⟨f, t, quantity, hf, ht, hq⟩
      · exact ⟨none, by simp [action, hd, hf, ht]⟩
      · refine ⟨(Text.before " EOS".toList quantity.toList).map fun cs => (String.ofList cs,
          if base = t then some 0 else if base = f then some 1 else none), ?_⟩
        simp only [action, hd, hf, Option.isNone_some, Bool.false_eq_true, false_and, if_false,
          Json.field_of_find? hf, Json.field_of_find? ht, Json.field_of_find? hq, ok_bind,
          Json.getStr_str, pure_eq_ok]
        cases Text.before " EOS".toList quantity.toList <;> rfl
  · rintro ⟨r, hr⟩ d hd
    simp only [action, hd] at hr
    split at hr
    · next hnone => exact Or.inl (by simpa using hnone)
    · simp only [bind_eq_ok, Json.getStr_eq_ok] at hr
      obtain ⟨_, hf, f, rfl, _, ht, t, rfl, _, hq, q, rfl, -⟩ := hr
      exact Or.inr ⟨f, t, q, Json.find?_of_field hf (by simp), Json.find?_of_field ht (by simp),
        Json.find?_of_field hq (by simp)⟩

/-! ### The loop -/

section

variable (base trx : String) (coin_id : ℤ) (height j : ℕ)

/-- What is kept of the actions of a transaction. -/
def taken (acts : List Json) : List (ℕ × String × Option ℕ) :=
  picks (fun json_action => (action base json_action).toOption.join) acts

def notice (e : ℕ × String × Option ℕ) : Json :=
  callback "toAddress" e.2.1 "EOS" 0 base trx false

/-- An action is recorded if it has both ends and the symbol, and it is passed over if not; the
rows come in the order of the actions. -/
structure Recorded (acts : List Json) (w w' : World) (kept : List (ℕ × String × Option ℕ)) :
    Prop where
  rows : w'.vars.vect_sql_ = w.vars.vect_sql_ ++ kept.map fun e =>
    .txutxo (row base ⟨coin_id, height, j, e.1, 0⟩ trx e.2.1 e.2.2)
  notices : (w'.wire.map (·.1.data)) = (w.wire.map (·.1.data)) ++ kept.map (notice base trx)
  order : (kept.map Prod.fst).Pairwise (· < ·)
  passes : ∀ k json_action, acts[k]? = some json_action →
    ((∃ q, (k, q) ∈ kept) ↔ ∃ f t, Passes json_action f t)

def scanActions (acts : List Json) : Scan Unit :=
  forEach (fun (json_action, k) => scanAction coin_id height j trx json_action k) acts.zipIdx

lemma scanTrx_eq (node : NodeInfo) (json_transaction : Json) :
    scanTrx node coin_id height json_transaction j trx = (
      match id? json_transaction with
      | none => pure (.next, trx)
      | some json_id => do
        let trx ← json_id.getStr
        match ← callRpc ("http://" ++ node.node_url ++ "/v1/history/get_transaction")
            node.node_auth (.obj [("id", .str trx)]) with
        | .ok json_response =>
          match ← actions json_response with
          | none => pure (.next, trx)
          | some json_actions =>
            scanActions trx coin_id height j json_actions
            pure (.next, trx)
        | _ => pure (.brk, trx)) := rfl

end

section

variable {base trx : String} {coin_id : ℤ} {height j : ℕ} {net : ℕ → Request → Answer} {w : World}

lemma taken_concat (pre : List Json) {json_action : Json} {r : Option (String × Option ℕ)}
    (h : action base json_action = .ok r) :
    taken base (pre ++ [json_action]) = taken base pre ++ (r.map (pre.length, ·)).toList := by
  simp [taken, picks_concat, h, Except.toOption]

lemma taken_iff {acts : List Json} {k : ℕ} {json_action : Json} (hk : acts[k]? = some json_action) :
    (∃ q, (k, q) ∈ taken base acts) ↔ ∃ f t, Passes json_action f t := by
  simp only [taken, mem_picks, hk, Option.some.injEq, exists_eq_left']
  constructor
  · rintro ⟨⟨quantity, flag⟩, h⟩
    cases ha : action base json_action with
    | error e => simp [ha, Except.toOption] at h
    | ok r =>
      obtain rfl : r = some (quantity, flag) := by simpa [ha, Except.toOption] using h
      obtain ⟨f, t, hp, -⟩ := passes_of_action ha
      exact ⟨f, t, hp⟩
  · rintro ⟨f, t, hp⟩
    obtain ⟨quantity, ha⟩ : ∃ quantity, action base json_action = .ok (some (quantity,
        if base = t then some 0 else if base = f then some 1 else none)) := action_of_passes hp
    rw [ha]
    exact ⟨_, rfl⟩

variable (base trx coin_id height j net w) in
/-- After a part of the actions. -/
structure Went (pre : List Json) (w' : World) : Prop where
  base_eq : w'.vars.eos_base_address_ = base
  url : w'.vars.callback_url_ = w.vars.callback_url_
  rows : w'.vars.vect_sql_ = w.vars.vect_sql_ ++ (taken base pre).map fun e =>
    .txutxo (row base ⟨coin_id, height, j, e.1, 0⟩ trx e.2.1 e.2.2)
  notices : (w'.wire.map (·.1.data)) =
    (w.wire.map (·.1.data)) ++ (taken base pre).map (notice base trx)
  readable : ∀ json_action ∈ pre, Readable json_action
  heeded : w.Heeded net ((taken base pre).map (notice base trx))

lemma Went.wire_length {pre : List Json} {w' : World}
    (h : Went base trx coin_id height j net w pre w') :
    w'.wire.length = w.wire.length + ((taken base pre).map (notice base trx)).length := by
  simpa using congrArg List.length h.notices

lemma wp_survive {acts pre post : List Json} {json_action : Json} {w₁ : World}
    (hacts : acts = pre ++ json_action :: post)
    (h : Went base trx coin_id height j net w pre w₁) :
    wp (env (.clear net)) (scanAction coin_id height j trx json_action pre.length)
      (fun _ => Went base trx coin_id height j net w (pre ++ [json_action]))
      (fun _ => ¬ ((∀ a ∈ acts, Readable a) ∧
        w.Heeded net ((taken base acts).map (notice base trx)))) w₁ := by
  simp only [scanAction, wp_bind, wp_get, liftM_eq, wp_lift, h.base_eq]
  refine ⟨False.elim, fun r hr => ?_, fun e he hall => ?_⟩
  · have hread : ∀ a ∈ pre ++ [json_action], Readable a := by
      intro a ha
      rcases List.mem_append.mp ha with ha | ha
      · exact h.readable a ha
      · obtain rfl := List.mem_singleton.mp ha
        exact (reads_iff base a).mpr ⟨r, hr⟩
    have htaken := taken_concat pre hr
    rcases r with _ | ⟨quantity, flag⟩
    · have htaken : taken base (pre ++ [json_action]) = taken base pre := by simpa using htaken
      exact ⟨h.base_eq, h.url, htaken ▸ h.rows, htaken ▸ h.notices, hread, htaken ▸ h.heeded⟩
    · have htaken : taken base (pre ++ [json_action]) =
          taken base pre ++ [(pre.length, quantity, flag)] := by simpa using htaken
      simp only [push_back, wp_bind, wp_modify]
      refine ⟨False.elim, wp_callbackTransaction_of False.elim ?_⟩
      have hanswer : net w₁.wire.length ⟨w₁.vars.callback_url_, "",
          notice base trx (pre.length, quantity, flag)⟩ =
          w.answer net ((taken base pre).map (notice base trx)).length
            (notice base trx (pre.length, quantity, flag)) := by
        rw [World.answer, h.wire_length, h.url]
      rintro a (ha : a = net w₁.wire.length ⟨w₁.vars.callback_url_, "",
        notice base trx (pre.length, quantity, flag)⟩)
      rw [hanswer] at ha
      subst ha
      refine ⟨False.elim, fun e he hall => not_spoken_of_code he ?_, fun c hc => ?_⟩
      · -- the notice is one of those that are to be answered
        have hpre : taken base (pre ++ [json_action]) <+: taken base acts :=
          picks_prefix ⟨post, by simp [hacts]⟩
        obtain ⟨l, hl⟩ := hpre
        exact hall.2 _ _ (by simp [← hl, htaken])
      · have hframe := frame_notify (w₁.push (.txutxo (row base ⟨coin_id, height, j, pre.length, 0⟩
          trx quantity flag))) (notice base trx (pre.length, quantity, flag)) (w.answer net
            ((taken base pre).map (notice base trx)).length (notice base trx (pre.length, quantity, flag)))
        refine ⟨hframe.eos.trans h.base_eq, hframe.url.trans h.url, ?_, ?_, hread, ?_⟩
        · rw [htaken, List.map_append, ← List.append_assoc, ← h.rows]
          simp [row]
        · rw [htaken, List.map_append, ← List.append_assoc, ← h.notices]
          simp [notify_wire, World.sent, notice]
        · rw [htaken, List.map_append]
          exact heeded_concat h.heeded (by rw [code_eq_ok.mp hc]; rfl)
  · obtain ⟨r, hr⟩ := (reads_iff base json_action).mp (hall.1 json_action (by simp [hacts]))
    rw [hr] at he
    cases he

lemma wp_scanActions (acts : List Json) (hbase : w.vars.eos_base_address_ = base) :
    wp (env (.clear net)) (scanActions trx coin_id height j acts)
      (fun _ w' => ((∀ a ∈ acts, Readable a) ∧
        w.Heeded net ((taken base acts).map (notice base trx))) ∧
        ∃ kept, Recorded base trx coin_id height j acts w w' kept)
      (fun _ => ¬ ((∀ a ∈ acts, Readable a) ∧
        w.Heeded net ((taken base acts).map (notice base trx)))) w := by
  refine wp_mono (wp_forEach_zipIdx (I := Went base trx coin_id height j net w) acts
    ⟨hbase, rfl, by simp [taken], by simp [taken], by simp, by simp [World.Heeded, taken]⟩
    fun pre a post w₁ hacts h => wp_survive hacts h) (fun _ w' h => ?_) fun _ h => h
  exact ⟨⟨h.readable, h.heeded⟩, taken base acts, h.rows, h.notices, picks_order _,
    fun k a hk => taken_iff hk⟩

/-- **The loop survives the actions of a transaction**, recording each one or passing it over,
exactly if the data of each is readable and the receiver answers the notices with a code. -/
theorem survives_iff (net : ℕ → Request → Answer) (w : World) (trx : String) (coin_id : ℤ)
    (height j : ℕ) (acts : List Json) :
    Lib.Returns (env (.clear net)) (scanActions trx coin_id height j acts)
      (fun _ w' => ∃ kept,
        Recorded w.vars.eos_base_address_ trx coin_id height j acts w w' kept) w ↔
    (∀ json_action ∈ acts, Readable json_action) ∧ w.Heeded net
      ((taken w.vars.eos_base_address_ acts).map (notice w.vars.eos_base_address_ trx)) :=
  returns_iff ⟨_, _, exec_run (serve_answers net) _ w⟩ (wp_scanActions acts rfl)

end

/-- An action of another contract that names a sender only. -/
def senderOnly : Json :=
  .obj [("account", .str "game"), ("name", .str "bet"), ("data", .obj [("from", .str "player")])]

/-- Such an action ends the process. -/
theorem senderOnly_stops : ∃ w', Exec (env (.clear fun _ _ => .body (.obj [("code", .int 0)])))
    (scanActions "trx" 4 56265 0 [senderOnly]) (process "E") (.threw (.typeError 302)) w' :=
  ⟨_, exec_run (serve_answers fun _ _ => .body (.obj [("code", .int 0)])) _ _⟩

end OpenWallet.Monitor.Eos
