import OpenWallet.Server.Relay

/-!
What a request for an address can change, whatever the database answers and wherever it stops.
-/

namespace OpenWallet.Server

open Lib Prog
open Monitor (Cell rowData)

/-! ### The rules of the calls -/

section Rules

variable {x : Weather} {D : World → Prop} {w : World}

@[simp] lemma wp_get {Q : Vars → World → Prop} :
    wp (env x) get Q D w ↔ (x.crashes → D w) ∧ Q w.vars w := by
  simp only [get, wp_op, env, and_imp, forall_eq_apply_imp_iff]
  aesop

@[simp] lemma wp_put {v : Vars} {Q : Unit → World → Prop} :
    wp (env x) (put v) Q D w ↔ (x.crashes → D w) ∧ Q () { w with vars := v } := by
  simp only [put, wp_op, env]
  aesop

@[simp] lemma wp_modify {f : Vars → Vars} {Q : Unit → World → Prop} :
    wp (env x) (modify f) Q D w ↔ (x.crashes → D w) ∧ Q () { w with vars := f w.vars } := by
  simp only [modify, wp_bind, wp_get, wp_put]
  tauto

@[simp] lemma wp_openDB {Q : Bool → World → Prop} :
    wp (env x) openDB Q D w ↔ (x.crashes → D w) ∧ Q false w ∧
      Q true { w with connections := w.connections + 1 } := by
  simp only [openDB, wp_op, env, and_imp, forall_eq_apply_imp_iff, Bool.forall_bool]
  aesop

@[simp] lemma wp_closeDB {Q : Unit → World → Prop} :
    wp (env x) closeDB Q D w ↔
      (x.crashes → D w) ∧ Q () { w with connections := w.connections - 1 } := by
  simp only [closeDB, wp_op, env]
  aesop

@[simp] lemma wp_find {key : String} {Q : Option AccountInfo → World → Prop} :
    wp (env x) (find key) Q D w ↔
      (x.crashes → D w) ∧ Q (w.s_usercoin_accountinfo.lookup key) w := by
  simp only [find, wp_op, env, and_imp, forall_eq_apply_imp_iff]
  aesop

@[simp] lemma wp_insert {key : String} {i : AccountInfo} {Q : Unit → World → Prop} :
    wp (env x) (insert key i) Q D w ↔ (x.crashes → D w) ∧
      Q () { w with s_usercoin_accountinfo := (key, i) :: w.s_usercoin_accountinfo } := by
  simp only [insert, wp_op, env]
  aesop

@[simp] lemma wp_refreshDB {r : UserRow} {Q : Bool → World → Prop} :
    wp (env x) (refreshDB r) Q D w ↔ (x.crashes → D w) ∧ Q false w ∧
      Q true { w with db := w.db.insertUser r } := by
  simp only [refreshDB, wp_op, env, Bool.forall_bool]
  aesop

structure Rows (d : Db) (q : Query) (col_type : List Monitor.DataType) (js : List Json) :
    Prop where
  rows : q.injects = false → ∃ rows rows', q.eval d = some rows ∧ rows.Perm rows' ∧
    (q.ordered → rows' = rows) ∧ rows'.mapM (rowData col_type) = .ok js
  some_row : js ≠ []

lemma Rows.size {d : Db} {q : Query} {col_type : List Monitor.DataType} {js : List Json}
    (h : Rows d q col_type js) : (Json.arr js).size > 0 :=
  List.length_pos_of_ne_nil h.some_row

lemma Rows.mem {d : Db} {q : Query} {col_type : List Monitor.DataType} {js : List Json}
    (h : Rows d q col_type js) (hq : q.injects = false) {k : ℕ} {j : Json} (hj : js[k]? = some j) :
    ∃ rows, q.eval d = some rows ∧ ∃ row ∈ rows, rowData col_type row = .ok j := by
  obtain ⟨rows, rows', he, hp, -, hm⟩ := h.rows hq
  obtain ⟨row, hrow, hr⟩ := forall₂_mem_right (forall₂_of_mapM hm) (List.mem_of_getElem? hj)
  exact ⟨rows, he, row, hp.mem_iff.mpr hrow, hr⟩

/-- What is read is nothing, or rows of the query. -/
lemma rows_of_answer (col_type : List Monitor.DataType) {q : Query} {w' : World}
    {a : Option (List (List Cell))} (h : (env x).answers (.getData q) w a w') :
    w' = w ∧ ∀ j, readRows col_type a = .ok j → j = .null ∨ ∃ js, j = .arr js ∧
      Rows w.db q col_type js := by
  obtain ⟨rfl, h⟩ := h
  refine ⟨rfl, fun j hj => ?_⟩
  match a with
  | none | some [] => exact Or.inl (Except.ok.inj hj).symm
  | some (row :: rows) =>
    cases hm : (row :: rows).mapM (rowData col_type) with
    | error e => simp [readRows, hm] at hj
    | ok js =>
      have hjs : j = .arr js := by simpa [readRows, hm, eq_comm] using hj
      have hne : js ≠ [] := by
        rintro rfl
        cases forall₂_of_mapM hm
      refine Or.inr ⟨js, hjs, fun hq => ?_, hne⟩
      rw [Query.fetches_iff hq] at h
      rcases h with ⟨-, h⟩ | h | ⟨ho, rows₀, rows', he, hp, h⟩
      · cases h
      · exact ⟨_, _, h.symm, List.Perm.refl _, fun _ => rfl, hm⟩
      · cases h
        exact ⟨rows₀, _, he, hp, fun h => absurd h ho, hm⟩

lemma wp_getData {q : Query} {col_type : List Monitor.DataType} {Q : Json → World → Prop}
    (hD : D w) (hnone : Q .null w) (h : ∀ js, Rows w.db q col_type js → Q (.arr js) w) :
    wp (env x) (getData q col_type) Q D w := by
  simp only [getData, wp_bind, wp_op, liftM_eq, wp_lift]
  refine ⟨fun w' hw => hw.2 ▸ hD, fun a w' ha => ?_⟩
  obtain ⟨rfl, hread⟩ := rows_of_answer col_type ha
  refine ⟨fun j hj => ?_, fun _ _ => hD⟩
  obtain rfl | ⟨js, rfl, hrows⟩ := hread j hj
  · exact hnone
  · exact h js hrows

lemma wp_getData_among {R : World → World → Prop} {I : World → Prop} {q : Query}
    {col_type : List Monitor.DataType} {Q : Json → World → Prop}
    (hR : ∀ w w', I w → R w w' → I w') (hw : I w) (hD : ∀ w, I w → D w)
    (hnone : ∀ w, I w → Q .null w)
    (h : ∀ w js, I w → Rows w.db q col_type js → Q (.arr js) w) :
    wp ((env x).among R) (getData q col_type) Q D w := by
  simp only [getData, wp_bind, liftM_eq, wp_lift]
  refine wp_op_among hR hw fun w₁ h₁ => ?_
  rw [wp_op]
  refine ⟨fun w' hw => hw.2 ▸ hD _ h₁, fun a w' ha => ?_⟩
  obtain ⟨rfl, hread⟩ := rows_of_answer col_type ha
  refine ⟨fun j hj => ?_, fun _ _ => hD _ h₁⟩
  obtain rfl | ⟨js, rfl, hrows⟩ := hread j hj
  · exact hnone _ h₁
  · exact h _ js h₁ hrows

end Rules

/-! ### A request -/

structure AccountInfo.Of (i : AccountInfo) (a : AccountRow) : Prop where
  account_id : i.account_id = a.account_id
  address : a.address = some i.address
  tag : a.tag = some i.tag

lemma convert_int {z : ℤ} {j : Json} :
    Cell.convert .INT (.int z) = .ok j ↔ (-2 ^ 31 ≤ z ∧ z < 2 ^ 31) ∧ j = .int z := by
  change (if -2 ^ 31 ≤ z ∧ z < 2 ^ 31 then Except.ok (Json.int z) else _) = .ok j ↔ _
  split
  · next h => exact ⟨fun h' => ⟨h, (Except.ok.inj h').symm⟩, fun h' => by rw [h'.2]⟩
  · next h => simp only [reduceCtorEq, h, false_and]

lemma getInt_int {z : ℤ} (h : -2 ^ 31 ≤ z ∧ z < 2 ^ 31) : (Json.int z).getInt = .ok z := by
  rw [Json.getInt, Int.bmod_eq_of_le (by omega) (by omega)]

lemma stoi_int {s : String} {z : ℤ} (h : Text.stoi s = .ok z) : -2 ^ 31 ≤ z ∧ z < 2 ^ 31 := by
  have hrange : ∀ n : ℤ, (if -2 ^ 31 ≤ n ∧ n < 2 ^ 31 then Except.ok n else .error .outOfRange) =
      (.ok z : Except Exn ℤ) → -2 ^ 31 ≤ z ∧ z < 2 ^ 31 := by
    intro n hn
    split at hn
    · next hint =>
      obtain rfl := Except.ok.inj hn
      exact hint
    · cases hn
  unfold Text.stoi at h
  dsimp only at h
  split at h
  · cases h
  · exact hrange _ h

lemma int_of_convert {c : Cell} {j : Json} (h : Cell.convert .INT c = .ok j) :
    ∃ z : ℤ, j = .int z ∧ (-2 ^ 31 ≤ z ∧ z < 2 ^ 31) := by
  cases c with
  | null => cases h
  | int z => exact ⟨z, (convert_int.mp h).symm⟩
  | text s =>
    cases hs : Text.stoi s with
    | error e =>
      rw [Cell.convert, hs] at h
      cases h
    | ok z =>
      rw [Cell.convert, hs] at h
      exact ⟨z, (Except.ok.inj h).symm, stoi_int hs⟩

/-! The lookup of a coin gives one column, also where the name has made another statement of it. -/

lemma column_of_eval {d : Db} {coin_name : String} {is_token : Bool} {rows : List (List Cell)}
    (h : (coinQuery coin_name is_token).eval d = some rows) : ∀ row ∈ rows, ∃ c, row = [c] := by
  cases is_token with
  | false =>
    obtain rfl := Option.some.inj h
    intro row hrow
    obtain ⟨c, -, rfl⟩ := List.mem_map.mp hrow
    exact ⟨_, rfl⟩
  | true =>
    simp only [coinQuery, if_true, Query.eval, Option.map_eq_some_iff] at h
    obtain ⟨t, -, rfl⟩ := h
    intro row hrow
    obtain ⟨c, -, rfl⟩ := List.mem_map.mp hrow
    exact ⟨_, rfl⟩

lemma column_of_cells {cells : Option (List Cell)} {rows : List (List Cell)}
    (h : cells.map (·.map fun c => [c]) = some rows) : ∀ row ∈ rows, ∃ c, row = [c] := by
  obtain ⟨cells, -, rfl⟩ := Option.map_eq_some_iff.mp h
  intro row hrow
  obtain ⟨c, -, rfl⟩ := List.mem_map.mp hrow
  exact ⟨c, rfl⟩

lemma head_of_read {col_type : List Monitor.DataType} {rows : Option (List (List Cell))} {j : Json}
    (h : readRows col_type rows = .ok j) (hj : j.size ≠ 0) : ∃ row rest v js,
      rows = some (row :: rest) ∧ rowData col_type row = .ok v ∧ j = .arr (v :: js) := by
  obtain _ | _ | ⟨row, rest⟩ := rows
  · obtain rfl := Except.ok.inj h
    exact absurd rfl hj
  · obtain rfl := Except.ok.inj h
    exact absurd rfl hj
  · cases hmap : (row :: rest).mapM (rowData col_type) with
    | error e => simp [readRows, hmap] at h
    | ok js =>
      obtain rfl : Json.arr js = j := by simpa [readRows, hmap] using h
      obtain _ | ⟨hv, -⟩ := forall₂_of_mapM hmap
      exact ⟨row, rest, _, _, rfl, hv, rfl⟩

lemma coin_of_read {a : Option (List (List Cell))} {j : Json} (h : readRows [.INT] a = .ok j)
    (hj : j.size ≠ 0) (ha : ∀ rows, a = some rows → ∀ row ∈ rows, ∃ c, row = [c]) :
    ∃ (coin_id : ℤ) (js : List Json), j = .arr (.arr [.int coin_id] :: js) ∧
      (-2 ^ 31 ≤ coin_id ∧ coin_id < 2 ^ 31) := by
  obtain ⟨row, rest, v, js, rfl, hv, rfl⟩ := head_of_read h hj
  obtain ⟨c, rfl⟩ := ha _ rfl row List.mem_cons_self
  simp only [rowData, List.zip_cons_cons, List.zip_nil_right, List.mapM_cons, List.mapM_nil,
    bind_eq_ok, pure_eq_ok, Except.ok.injEq] at hv
  obtain ⟨_, ⟨w, hc, _, rfl, rfl⟩, rfl⟩ := hv
  obtain ⟨z, rfl, hint⟩ := int_of_convert hc
  exact ⟨z, js, rfl, hint⟩

lemma convert_ofText {s : Option String} {j : Json} :
    Cell.convert .STRING (.ofText s) = .ok j ↔ ∃ t, s = some t ∧ j = .str t := by
  cases s <;> simp [Cell.ofText, Cell.convert, eq_comm]

lemma rowData_account {a : AccountRow} {j : Json}
    (h : rowData [.INT, .STRING, .STRING] (accountCells a) = .ok j) :
    ∃ address tag, a.address = some address ∧ a.tag = some tag ∧
      (-2 ^ 31 ≤ a.account_id ∧ a.account_id < 2 ^ 31) ∧
      j = .arr [.int a.account_id, .str address, .str tag] := by
  simp only [rowData, accountCells, List.zip_cons_cons, List.zip_nil_right, List.mapM_cons,
    List.mapM_nil, bind_eq_ok, convert_int, convert_ofText, pure_eq_ok, Except.ok.injEq] at h
  obtain ⟨_, ⟨_, ⟨hid, rfl⟩, _, ⟨_, ⟨address, ha, rfl⟩, _, ⟨_, ⟨tag, ht, rfl⟩, _, rfl, rfl⟩, rfl⟩,
    rfl⟩, rfl⟩ := h
  exact ⟨address, tag, ha, ht, hid, rfl⟩

lemma mem_accounts {d : Db} {coin_id : ℤ} {a : AccountRow} : a ∈ d.accounts coin_id ↔
    a ∈ d.cat.account ∧ a.coin_id = coin_id := by
  simp [Db.accounts]

lemma above_eq_some {rows : List AccountRow} {m : ℤ} {a : AccountRow} (h : above rows m = some a) :
    a ∈ rows ∧ m < a.account_id ∧ ∀ b ∈ rows, m < b.account_id → a.account_id ≤ b.account_id := by
  have hmem := List.mem_of_find?_eq_some h
  have hall := List.find?_some h
  simp only [List.mem_filter, decide_eq_true_eq] at hmem
  refine ⟨hmem.1, hmem.2, fun b hb hmb => ?_⟩
  simpa using List.all_eq_true.mp hall b (List.mem_filter.mpr ⟨hb, by simpa using hmb⟩)

/-- A coin gives its next account to a user. -/
structure Gives (d : Db) (user_id coin_id account_id : ℤ) (d' : Db) : Prop where
  next : ∃ m a, ((d.users coin_id).map (·.account_id)).max? = some m ∧
    above (d.accounts coin_id) m = some a ∧ a.account_id = account_id
  insert : d' = d.insertUser ⟨user_id, account_id, coin_id⟩

structure Apart (w w' : World) : Prop where
  vars : w'.vars = w.vars
  wallet : w'.wallet = w.wallet
  wire : w'.wire = w.wire
  made : w'.made = w.made

/-- What a request changes: the cache, and at most a row of `user`. -/
structure Asked (w w' : World) : Prop extends Apart w w' where
  db : w'.db = w.db ∨ ∃ user_id coin_id account_id, Gives w.db user_id coin_id account_id w'.db

/-- Up to its `INSERT` a request has changed no table. -/
structure Looked (w w' : World) : Prop extends Apart w w' where
  db : w'.db = w.db

section

variable {x : Weather} {w₀ w : World}

lemma Looked.asked (h : Looked w₀ w) : Asked w₀ w := ⟨h.toApart, Or.inl h.db⟩

/-- The identifier that is written is that of the account that is read. -/
lemma nextAccount_eval {d : Db} {coin_id : ℤ} {js : List Json} {j : Json}
    (h : Rows d (.nextAccount coin_id) [.INT, .STRING, .STRING] (j :: js)) :
    ∃ m a, ((d.users coin_id).map (·.account_id)).max? = some m ∧
      above (d.accounts coin_id) m = some a ∧
      rowData [.INT, .STRING, .STRING] (accountCells a) = .ok j := by
  obtain ⟨rows, he, row, hrow, hj⟩ := h.mem rfl (k := 0) rfl
  simp only [Query.eval, Option.some.injEq] at he
  subst he
  split at hrow
  · cases hrow
  · next m hm =>
    obtain ⟨a, ha, rfl⟩ : ∃ a, above (d.accounts coin_id) m = some a ∧ accountCells a = row := by
      simpa using hrow
    exact ⟨m, a, hm, ha, hj⟩

lemma Asked.of_eq {w' : World} (h : Asked w₀ w) (n : ℤ) (l : List (String × AccountInfo))
    (hw : w' = { w with connections := n, s_usercoin_accountinfo := l }) : Asked w₀ w' := by
  subst hw
  exact ⟨⟨h.vars, h.wallet, h.wire, h.made⟩, h.db⟩

lemma wp_fail {α : Type} {what : String} {Q : α → World → Prop} (h : Asked w₀ w) :
    wp (env x) (fail what : Srv α) Q (Asked w₀) w := by
  simp only [fail, wp_bind, wp_closeDB, wp_raise]
  exact ⟨fun _ => h, h.of_eq _ _ rfl⟩

lemma wp_answer {coin_name : String} {user_id coin_id : ℤ} {json_data : Json} (h : Asked w₀ w) :
    wp (env x) (answer coin_name user_id coin_id json_data) (fun _ w' => Asked w₀ w')
      (Asked w₀) w := by
  simp only [answer, wp_bind, liftM_eq]
  refine wp_lift_any h fun i => ?_
  simp only [wp_insert, wp_closeDB, pure_eq, wp_ret]
  exact ⟨fun _ => h, fun _ => h.of_eq _ _ rfl, h.of_eq _ _ rfl⟩

lemma wp_assignNext {coin_name : String} {user_id coin_id : ℤ} (h : Looked w₀ w) :
    wp (env x) (assignNext coin_name user_id coin_id) (fun _ w' => Asked w₀ w')
      (Asked w₀) w := by
  simp only [assignNext, wp_bind]
  refine wp_getData h.asked (by simpa [Json.size] using wp_fail h.asked) fun js hrows => ?_
  rw [if_neg hrows.size.ne']
  cases js with
  | nil => exact absurd rfl hrows.some_row
  | cons j js =>
    obtain ⟨m, a, hm, ha, hj⟩ := nextAccount_eval hrows
    obtain ⟨address, tag, -, -, hid, rfl⟩ := rowData_account hj
    simp only [Json.idx, List.getD_cons_zero, wp_bind, liftM_eq, wp_lift, Except.ok.injEq,
      forall_eq', getInt_int hid, reduceCtorEq, false_implies, implies_true, and_true, wp_refreshDB]
    refine ⟨fun _ => h.asked, by simpa using wp_fail h.asked, ?_⟩
    have hgives : Gives w₀.db user_id coin_id a.account_id
        (w.db.insertUser ⟨user_id, a.account_id, coin_id⟩) := by
      rw [h.db] at hm ha ⊢
      exact ⟨⟨m, a, hm, ha, rfl⟩, rfl⟩
    exact wp_answer ⟨⟨h.vars, h.wallet, h.wire, h.made⟩, Or.inr ⟨_, _, _, hgives⟩⟩

lemma wp_cacheFind {cached : Bool} {key : String} {Q : Option AccountInfo → World → Prop}
    {D : World → Prop} (hD : D w) (hQ : ∀ hit, Q hit w) :
    wp (env x) (cacheFind cached key) Q D w := by
  unfold cacheFind
  split
  · rw [wp_find]
    exact ⟨fun _ => hD, hQ _⟩
  · exact hQ none

lemma wp_assign {cached : Bool} {coin_name : String} {user_id coin_id : ℤ} (h : Looked w₀ w) :
    wp (env x) (assign cached coin_name user_id coin_id) (fun _ w' => Asked w₀ w')
      (Asked w₀) w := by
  rw [assign, wp_bind]
  refine wp_cacheFind h.asked fun hit => ?_
  cases hit with
  | some i =>
    simp only [wp_bind, wp_closeDB, pure_eq, wp_ret]
    exact ⟨fun _ => h.asked, h.asked.of_eq _ _ rfl⟩
  | none =>
    simp only [assignMissed, wp_bind]
    refine wp_getData h.asked (by simpa [Json.size] using wp_assignNext h) fun js hrows => ?_
    rw [if_pos hrows.size]
    exact wp_answer h.asked

lemma wp_lookupCoin (fHelp : Bool) (params : Json) (w : World) :
    wp (env x) (lookupCoin fHelp params) (fun _ => Looked w) (Asked w) w := by
  have hself : Asked w w := ⟨⟨rfl, rfl, rfl, rfl⟩, Or.inl rfl⟩
  have hopen : Looked w { w with connections := w.connections + 1 } := ⟨⟨rfl, rfl, rfl, rfl⟩, rfl⟩
  unfold lookupCoin
  split
  · simpa using hself
  simp only [wp_bind, wp_openDB, liftM_eq]
  refine ⟨fun _ => hself, by simpa using hself, ?_⟩
  simp only [Bool.not_true, Bool.false_eq_true, if_false, wp_bind]
  refine wp_lift_any hopen.asked fun _ => wp_lift_any hopen.asked fun coin_name => ?_
  refine wp_lift_any hopen.asked fun _ => wp_lift_any hopen.asked fun is_token => ?_
  refine wp_lift_any hopen.asked fun _ => wp_lift_any hopen.asked fun user_id => ?_
  refine wp_getData hopen.asked ?_ fun js hrows => ?_
  · simpa [Json.size] using wp_fail hopen.asked
  · rw [if_neg hrows.size.ne', wp_bind]
    refine wp_lift_any hopen.asked fun _ => ?_
    simp only [wp_bind]
    exact wp_lift_any hopen.asked fun _ => wp_lift_any hopen.asked fun _ => hopen

/-- **A request changes at most the pool of one coin**, which gives its next account. -/
theorem wp_getrechargeaddress (cached fHelp : Bool) (params : Json) (w : World) :
    wp (env x) (getrechargeaddress cached fHelp params) (fun _ w' => Asked w w') (Asked w) w := by
  rw [getrechargeaddress, wp_bind]
  exact wp_mono (wp_lookupCoin fHelp params w) (fun _ _ h => wp_assign h) fun _ h => h

end

end OpenWallet.Server
