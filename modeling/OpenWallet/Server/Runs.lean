import OpenWallet.Server.Client
import OpenWallet.Server.Request

/-!
The runs of the server: requests one after the other, the tasks that fill the pools, which
requests may come between, and restarts.
-/

namespace OpenWallet.Server

open Lib Prog
open Monitor (Cell NodeInfo rowData)

/-- What `getNewAddress` reads of a coin: the sizes of its two tables, and the last account. -/
structure Counted (d : Db) (coin_id : ℤ) (count_user count_account max_account_id : ℕ) :
    Prop where
  users : count_user = (d.users coin_id).length
  accounts : count_account = (d.accounts coin_id).length
  users_lt : count_user < 2 ^ 31
  accounts_lt : count_account < 2 ^ 31
  last : ∃ m, ((d.accounts coin_id).map (·.account_id)).max? = some m ∧
    (-2 ^ 31 ≤ m ∧ m < 2 ^ 31) ∧ max_account_id = (m % 2 ^ 64).toNat

lemma rowData_int {c : Cell} {j : Json} (h : rowData [.INT] [c] = .ok j) :
    ∃ v, Cell.convert .INT c = .ok v ∧ j = .arr [v] := by
  simp only [rowData, List.zip_cons_cons, List.zip_nil_right, List.mapM_cons, List.mapM_nil,
    bind_eq_ok, pure_eq_ok, Except.ok.injEq] at h
  obtain ⟨_, ⟨v, hv, _, rfl, rfl⟩, rfl⟩ := h
  exact ⟨v, hv, rfl⟩

lemma counted_of_rows {d : Db} {coin_id : ℤ} {js : List Json}
    {count_user count_account max_account_id : ℕ} (h : Rows d (.counts coin_id) [.INT] js)
    (hc : countsOf (.arr js) = .ok (count_user, count_account, max_account_id)) :
    Counted d coin_id count_user count_account max_account_id := by
  obtain ⟨rows, rows', he, -, ho, hm⟩ := h.rows rfl
  simp only [Query.eval, Option.some.injEq] at he
  obtain rfl := ho rfl
  subst he
  simp only [List.mapM_cons, List.mapM_nil, bind_eq_ok, pure_eq_ok, Except.ok.injEq] at hm
  obtain ⟨_, hu, _, ⟨_, ha, _, ⟨_, hl, _, rfl, rfl⟩, rfl⟩, rfl⟩ := hm
  obtain ⟨_, hu', rfl⟩ := rowData_int hu
  obtain ⟨_, ha', rfl⟩ := rowData_int ha
  obtain ⟨_, hl', rfl⟩ := rowData_int hl
  obtain ⟨hu, rfl⟩ := convert_int.mp hu'
  obtain ⟨ha, rfl⟩ := convert_int.mp ha'
  cases hmax : ((d.accounts coin_id).map (·.account_id)).max? with
  | none =>
    rw [hmax] at hl'
    cases hl'
  | some m =>
    rw [hmax] at hl'
    obtain ⟨hm, rfl⟩ := convert_int.mp hl'
    have hu' : (Json.int (d.users coin_id).length).getUInt64 = .ok (d.users coin_id).length :=
      Json.getUInt64_natCast (by omega)
    have ha' : (Json.int (d.accounts coin_id).length).getUInt64 =
        .ok (d.accounts coin_id).length := Json.getUInt64_natCast (by omega)
    have hm' : (Json.int m).getUInt64 = .ok (m % 2 ^ 64).toNat := rfl
    simp only [countsOf, Json.idx, List.getD_cons_zero, List.getD_cons_succ, ok_bind, hu', ha',
      hm', pure_eq_ok, Except.ok.injEq, Prod.mk.injEq] at hc
    obtain ⟨rfl, rfl, rfl⟩ := hc
    exact ⟨rfl, rfl, by omega, by omega, m, hmax, hm, rfl⟩

/-- The next identifiers come after all that are there, as long as they fit into an `int`. -/
lemma Counted.newId_eq {d : Db} {coin_id : ℤ} {count_user count_account max_account_id : ℕ}
    (h : Counted d coin_id count_user count_account max_account_id) {m : ℤ}
    (hm : ((d.accounts coin_id).map (·.account_id)).max? = some m) {i : ℕ}
    (hi : m + i + 1 < 2 ^ 31) : newId max_account_id i = m + i + 1 := by
  obtain ⟨m', hm', hr, hM⟩ := h.last
  obtain rfl : m = m' := Option.some.inj (hm.symm.trans hm')
  have hnat : (((m % 2 ^ 64).toNat : ℕ) : ℤ) = m % 2 ^ 64 :=
    Int.toNat_of_nonneg (Int.emod_nonneg m (by decide))
  have hcong : (m % 2 ^ 64 + i + 1).bmod (2 ^ 32) = (m + i + 1).bmod (2 ^ 32) := by
    have hmod : (m % 2 ^ 64 + i + 1) % (2 ^ 32 : ℕ) = (m + i + 1) % (2 ^ 32 : ℕ) := by omega
    rw [← Int.emod_bmod, hmod, Int.emod_bmod]
  have hbmod : (m + i + 1).bmod (2 ^ 32) = m + i + 1 := Int.bmod_eq_of_le (by omega) (by omega)
  have hcast : (max_account_id : ℤ) = m % 2 ^ 64 := by rw [hM, hnat]
  change ((max_account_id : ℤ) + i + 1).bmod (2 ^ 32) = _
  rw [hcast, hcong, hbmod]

def Requested (x : Weather) (w w' : World) : Prop :=
  ∃ fHelp params o, Exec (env x) (getrechargeaddress true fHelp params) w o w'

lemma Requested.asked {x : Weather} {w w' : World} (h : Requested x w w') : Asked w w' := by
  obtain ⟨fHelp, params, o, hx⟩ := h
  have hpost := exec_post hx (wp_getrechargeaddress true fHelp params w)
  cases o <;> exact hpost

def World.restarted (w : World) : World :=
  { w with vars := .fresh, s_usercoin_accountinfo := [], connections := 0 }

/-- An exception that is not caught ends the process. -/
def returned {α : Type} : Outcome Exn α → Bool
  | .done _ => true
  | _ => false

/-- The server catches the exceptions of a request. -/
def survived {α : Type} : Outcome Exn α → Bool
  | .died => false
  | _ => true

/-- The runs of the server from a database and a key store on, and whether there is a process
at their end. `getNewAddress` is called in the states that `ok` allows it in, and requests come
between its calls. A process may be started at any time. -/
inductive Serves (x : Weather) (g_json_config : Json) (ok : String → ℕ → World → Prop)
    (w₀ : World) : Bool → World → Prop
  | begin : Serves x g_json_config ok w₀ false w₀
  | start {b : Bool} {w w' : World} {o : Outcome Exn Bool} : Serves x g_json_config ok w₀ b w →
      Exec (env x) (init g_json_config) w.restarted o w' →
      Serves x g_json_config ok w₀ (returned o) w'
  | request {w w' : World} {fHelp : Bool} {params : Json} {o : Outcome Exn Json} :
      Serves x g_json_config ok w₀ true w →
      Exec (env x) (getrechargeaddress true fHelp params) w o w' →
      Serves x g_json_config ok w₀ (survived o) w'
  | address {w w' : World} {coin_name : String} {address_quantity : ℕ} {o : Outcome Exn Bool} :
      Serves x g_json_config ok w₀ true w → ok coin_name address_quantity w →
      Exec ((env x).among (Requested x)) (getNewAddress coin_name address_quantity) w o w' →
      Serves x g_json_config ok w₀ (returned o) w'

lemma returned_post {α : Type} {I J : World → Prop} {o : Outcome Exn α} {w : World}
    (hIJ : ∀ w, I w → J w) (h : Post (fun _ => I) J o w) : J w ∧ (returned o = true → I w) := by
  cases o with
  | done => exact ⟨hIJ w h, fun _ => h⟩
  | threw => exact ⟨h, by simp [returned]⟩
  | died => exact ⟨h, by simp [returned]⟩

/-- `I` holds as long as there is a process, and `J` always. -/
lemma Serves.inv {x : Weather} {g_json_config : Json} {ok : String → ℕ → World → Prop}
    {w₀ w : World} {b : Bool} {I J : World → Prop} (hIJ : ∀ w, I w → J w) (hbegin : J w₀)
    (hstart : ∀ w, J w → wp (env x) (init g_json_config) (fun _ => I) J w.restarted)
    (hrequest : ∀ w w', I w → Requested x w w' → I w')
    (haddress : ∀ coin_name address_quantity w, ok coin_name address_quantity w → I w →
      wp ((env x).among (Requested x)) (getNewAddress coin_name address_quantity) (fun _ => I) J w)
    (h : Serves x g_json_config ok w₀ b w) : J w ∧ (b = true → I w) := by
  induction h with
  | begin => exact ⟨hbegin, by simp⟩
  | start _ hx ih => exact returned_post hIJ (exec_post hx (hstart _ ih.1))
  | request _ hx ih =>
    have hI := hrequest _ _ (ih.2 rfl) ⟨_, _, _, hx⟩
    exact ⟨hIJ _ hI, fun _ => hI⟩
  | address _ hok hx ih => exact returned_post hIJ (exec_post hx (haddress _ _ _ hok (ih.2 rfl)))

section

variable {x : Weather} {P D : World → Prop} {w : World}

lemma wp_get_among {Q : Vars → World → Prop} (hP : ∀ w w', P w → Requested x w w' → P w')
    (hPD : ∀ w, P w → D w) (h : P w) (hQ : ∀ w', P w' → w'.vars = w.vars → Q w.vars w') :
    wp ((env x).among (Requested x)) get Q D w := by
  refine wp_op_among (I := fun w' => P w' ∧ w'.vars = w.vars)
    (fun w₁ w₂ h hr => ⟨hP _ _ h.1 hr, hr.asked.vars.trans h.2⟩) ⟨h, rfl⟩ fun w₁ h₁ => ?_
  refine wp_get.mpr ⟨fun _ => hPD _ h₁.1, ?_⟩
  rw [h₁.2]
  exact hQ w₁ h₁.1 h₁.2

lemma wp_modify_among {f : Vars → Vars} {Q : Unit → World → Prop}
    (hP : ∀ w w', P w → Requested x w w' → P w') (hPD : ∀ w, P w → D w) (h : P w)
    (hQ : ∀ w', P w' → w'.vars = w.vars → Q () { w' with vars := f w.vars }) :
    wp ((env x).among (Requested x)) (modify f) Q D w := by
  rw [modify, wp_bind]
  refine wp_get_among hP hPD h fun w₁ h₁ hv => ?_
  refine wp_op_among (I := fun w' => P w' ∧ w'.vars = w.vars)
    (fun w₁ w₂ h hr => ⟨hP _ _ h.1 hr, hr.asked.vars.trans h.2⟩) ⟨h₁, hv⟩ fun w₂ h₂ => ?_
  exact wp_put.mpr ⟨fun _ => hPD _ h₂.1, hQ w₂ h₂.1 h₂.2⟩

end

/-- What a run is made of. -/
inductive Call
  | start
  | request (params : Json)
  | address (coin_name : String) (address_quantity : ℕ)

section

variable (ok : String → ℕ → World → Prop) (net : ℕ → Request → Answer) (python : ℕ → PyResp) (g_json_config : Json)

/-- A call where all calls to the surroundings are served. -/
def Call.play : Call → World → Bool × World
  | start, w =>
    let r := run (serve net python) (init g_json_config) w.restarted
    (returned r.1, r.2)
  | request params, w =>
    let r := run (serve net python) (getrechargeaddress true false params) w
    (survived r.1, r.2)
  | address coin_name address_quantity, w =>
    let r := run (serve net python) (getNewAddress coin_name address_quantity) w
    (returned r.1, r.2)

/-- Calls one after the other, from a new process on. -/
def play (calls : List Call) (w : World) : Bool × World :=
  calls.foldl (fun s c => if s.1 then c.play net python g_json_config s.2 else s)
    (Call.start.play net python g_json_config w)

lemma exec_serve {α : Type} (p : Srv α) (w : World) :
    Exec (env (.clear net python)) p w (run (serve net python) p w).1
      (run (serve net python) p w).2 :=
  exec_run (serve_answers net python) p w

lemma serves_play (calls : List Call) (w : World)
    (hok : ∀ pre coin_name address_quantity post,
      calls = pre ++ .address coin_name address_quantity :: post →
      ok coin_name address_quantity (play net python g_json_config pre w).2) :
    Serves (.clear net python) g_json_config ok w (play net python g_json_config calls w).1
      (play net python g_json_config calls w).2 := by
  induction calls using List.reverseRecOn with
  | nil => exact .start .begin (exec_serve _ _ _ _)
  | append_singleton calls c ih =>
    have ih := ih fun pre coin_name address_quantity post h =>
      hok pre coin_name address_quantity (post ++ [c]) (by simp [h])
    rw [play, List.foldl_append, List.foldl_cons, List.foldl_nil, ← play]
    split
    · next hb =>
      rw [hb] at ih
      cases c with
      | start => exact .start ih (exec_serve _ _ _ _)
      | request params => exact .request ih (exec_serve _ _ _ _)
      | address coin_name address_quantity =>
        exact .address ih (hok calls coin_name address_quantity [] (by simp))
          (exec_among (exec_serve _ _ _ _))
    · exact ih

end

/-- A configuration that `init` accepts. -/
def smallConfig : Json := .obj [("fee_address_omni", .str "F"), ("eos_public_key", .str "K")]

section

variable {x : Weather} {P I D : World → Prop} {K : List AccountRow → World → Prop}

/-- Where a call of `getNewAddress` stands: `P` holds up to the loop over the addresses, `K` of
the rows it made, and `I` when they are in the table. -/
lemma wp_getNewAddress {coin_name : String} {address_quantity : ℕ} {w : World}
    (hP : ∀ w w', P w → Requested x w w' → P w')
    (hPc : ∀ w n, P w → P { w with connections := n }) (hPI : ∀ w, P w → I w)
    (hK : ∀ rows w w', K rows w → Requested x w w' → K rows w')
    (hKD : ∀ rows w, K rows w → D w)
    (hI : ∀ w w', I w → Requested x w w' → I w')
    (hIc : ∀ w n, I w → I { w with connections := n }) (hID : ∀ w, I w → D w)
    (hbatch : ∀ rows rows' w, K rows w → rows'.Sublist rows →
      I { w with db := w.db.insertAccounts rows' })
    (hrows : ∀ w₁ coin_id node count_user count_account max_account_id, P w₁ →
      w₁.vars = w.vars → w.vars.s_coinName_coinid_.lookup coin_name = some coin_id →
      w.vars.s_coinid_NodeInfo_.lookup coin_id = some node →
      Counted w₁.db coin_id count_user count_account max_account_id →
      wp ((env x).among (Requested x)) (newRows node coin_id max_account_id address_quantity)
        (fun r w₂ => match r with
          | none => I w₂
          | some rows => K rows w₂) D w₁)
    (h : P w) :
    wp ((env x).among (Requested x)) (getNewAddress coin_name address_quantity) (fun _ => I) D w := by
  -- up to the rows the statics are those of the start
  let P' : World → Prop := fun w₁ => P w₁ ∧ w₁.vars = w.vars
  have hP' : ∀ w₁ w₂, P' w₁ → Requested x w₁ w₂ → P' w₂ := fun w₁ w₂ h hr =>
    ⟨hP _ _ h.1 hr, hr.asked.vars.trans h.2⟩
  have hPD : ∀ w₁, P' w₁ → D w₁ := fun w₁ h => hID _ (hPI _ h.1)
  have hclose : ∀ (b : Bool) w₁, I w₁ → wp ((env x).among (Requested x))
      (closeDB >>= fun _ => pure b : Srv Bool) (fun _ => I) D w₁ := by
    intro b w₁ h₁
    rw [wp_bind]
    refine wp_op_among hI h₁ fun w₂ h₂ => ?_
    exact wp_closeDB.mpr ⟨fun _ => hID _ h₂, hIc _ _ h₂⟩
  rw [getNewAddress, wp_bind]
  refine wp_op_among hP' ⟨h, rfl⟩ fun w₁ h₁ => wp_openDB.mpr ⟨fun _ => hPD _ h₁, ?_, ?_⟩
  · exact hPI _ h₁.1
  simp only [Bool.not_true, Bool.false_eq_true, if_false, wp_bind]
  refine wp_op_among hP' ⟨hPc _ _ h₁.1, h₁.2⟩ fun w₂ h₂ =>
    wp_get.mpr ⟨fun _ => hPD _ h₂, ?_⟩
  rw [h₂.2]
  split
  · exact hPI _ h₂.1
  next coin_id hcoin =>
  split
  · exact hPI _ h₂.1
  next node hnode =>
  rw [wp_bind]
  refine wp_getData_among hP' h₂ hPD (fun w₃ h₃ => hclose _ _ (hPI _ h₃.1))
    fun w₃ js h₃ hjs => ?_
  split
  · exact hclose _ _ (hPI _ h₃.1)
  simp only [wp_bind, liftM_eq, wp_lift]
  refine ⟨fun counts hc => ?_, fun _ _ => hPD _ h₃⟩
  obtain ⟨count_user, count_account, max_account_id⟩ := counts
  dsimp only
  split
  · exact hclose _ _ (hPI _ h₃.1)
  rw [wp_bind]
  refine wp_mono (hrows w₃ coin_id node _ _ _ h₃.1 h₃.2 hcoin hnode (counted_of_rows hjs hc))
    (fun r w₄ h₄ => ?_) fun _ h => h
  cases r with
  | none => exact hclose _ _ h₄
  | some rows =>
    simp only [wp_bind]
    refine wp_op_among (hK rows) h₄ fun w₅ h₅ => ?_
    refine ⟨fun w₆ hw => hw.2 ▸ hKD _ _ h₅, ?_⟩
    rintro r w₆ ⟨rows', hsub, rfl⟩
    exact (wp_bind _ _).mp (hclose true _ (hbatch rows rows' w₅ h₅ hsub))

end

end OpenWallet.Server
