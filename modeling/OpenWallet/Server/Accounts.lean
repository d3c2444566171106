import OpenWallet.Server.Request

/-!
The accounts that users have, and how a request comes to one: it looks for the account of the
user, and takes the next one of the pool if it finds none.
-/

namespace OpenWallet.Server

open Lib Prog
open Monitor (Cell rowData)

/-! ### What the tables say -/

/-- The accounts of a coin have distinct identifiers, and a user has at most one of them. -/
structure Kept (d : Db) : Prop where
  distinct : (d.cat.account.map fun a => (a.account_id, a.coin_id)).Nodup
  once : (d.user.map fun u => (u.user_id, u.coin_id)).Nodup
  known : ∀ u ∈ d.user, ∃ a ∈ d.cat.account, a.account_id = u.account_id ∧ a.coin_id = u.coin_id

/-- The user has a row for the coin. -/
def Enrolled (d : Db) (user_id coin_id : ℤ) : Prop :=
  ∃ u ∈ d.user, u.user_id = user_id ∧ u.coin_id = coin_id

/-- The coin has no account left. -/
def Spent (d : Db) (coin_id : ℤ) : Prop :=
  ∀ m, ((d.users coin_id).map (·.account_id)).max? = some m → above (d.accounts coin_id) m = none

lemma filter_key {α β : Type} [DecidableEq β] {f : α → β} {l : List α} (h : (l.map f).Nodup) {a : α}
    (ha : a ∈ l) : l.filter (fun b => f b = f a) = [a] := by
  induction l with
  | nil => cases ha
  | cons b l ih =>
    rw [List.map_cons, List.nodup_cons] at h
    rcases List.mem_cons.mp ha with rfl | ha
    · have hrest : l.filter (fun b => f b = f a) = [] := by
        refine List.filter_eq_nil_iff.mpr fun b hb hba => h.1 ?_
        exact List.mem_map.mpr ⟨b, hb, by simpa using hba⟩
      rw [List.filter_cons_of_pos (by simp), hrest]
    · have hne : f b ≠ f a := fun hba => h.1 (hba ▸ List.mem_map_of_mem ha)
      rw [List.filter_cons_of_neg (by simpa using hne), ih h.2 ha]

/-- The columns of an account as JSON. -/
def AccountInfo.json (i : AccountInfo) : Json :=
  .arr [.int i.account_id, .str i.address, .str i.tag]

/-- The user has the account. -/
structure Owns (d : Db) (user_id coin_id : ℤ) (i : AccountInfo) : Prop where
  row : ⟨user_id, i.account_id, coin_id⟩ ∈ d.user
  account : ⟨i.account_id, coin_id, some i.address, some i.tag⟩ ∈ d.cat.account
  int : -2 ^ 31 ≤ i.account_id ∧ i.account_id < 2 ^ 31

section

variable {d : Db} {user_id coin_id : ℤ} {i : AccountInfo}

lemma accountInfo_json {js : List Json} (h : -2 ^ 31 ≤ i.account_id ∧ i.account_id < 2 ^ 31) :
    accountInfo (.arr (i.json :: js)) = .ok i := by
  simp only [accountInfo, AccountInfo.json, Json.idx, List.getD_cons_zero, List.getD_cons_succ,
    ok_bind, Json.getStr_str, getInt_int h, pure_eq_ok]

lemma rowData_owned {a : AccountRow} {j : Json}
    (h : rowData [.INT, .STRING, .STRING] (accountCells a) = .ok j) :
    ∃ i : AccountInfo, a = ⟨i.account_id, a.coin_id, some i.address, some i.tag⟩ ∧
      (-2 ^ 31 ≤ i.account_id ∧ i.account_id < 2 ^ 31) ∧ j = i.json := by
  obtain ⟨address, tag, ha, ht, hid, rfl⟩ := rowData_account h
  exact ⟨⟨a.account_id, address, tag⟩, by rw [← ha, ← ht], hid, rfl⟩

lemma readRows_account {a : AccountRow} {j : Json}
    (h : readRows [.INT, .STRING, .STRING] (some [accountCells a]) = .ok j) :
    ∃ i : AccountInfo, a = ⟨i.account_id, a.coin_id, some i.address, some i.tag⟩ ∧
      (-2 ^ 31 ≤ i.account_id ∧ i.account_id < 2 ^ 31) ∧ j = .arr [i.json] := by
  cases hr : rowData [.INT, .STRING, .STRING] (accountCells a) with
  | error e => simp [readRows, hr] at h
  | ok r =>
    obtain ⟨i, ha, hint, rfl⟩ := rowData_owned hr
    exact ⟨i, ha, hint, by simpa [readRows, hr, eq_comm] using h⟩

lemma Owns.insertUser (h : Owns d user_id coin_id i) (r : UserRow) :
    Owns (d.insertUser r) user_id coin_id i :=
  ⟨List.mem_append_left _ h.row, h.account, h.int⟩

/-- A user has one account of a coin, which is the one that is read, or none. -/
lemma Kept.userAccount (h : Kept d) (user_id coin_id : ℤ) :
    (∀ u ∈ d.user, ¬ (u.user_id = user_id ∧ u.coin_id = coin_id)) ∧
        (Query.userAccount coin_id user_id).eval d = some [] ∨
      ∃ a ∈ d.cat.account, a.coin_id = coin_id ∧ ⟨user_id, a.account_id, coin_id⟩ ∈ d.user ∧
        (Query.userAccount coin_id user_id).eval d = some [accountCells a] := by
  by_cases hu : ∃ u ∈ d.user, u.user_id = user_id ∧ u.coin_id = coin_id
  · obtain ⟨u, hu, rfl, rfl⟩ := hu
    obtain ⟨a, ha, hid, hcoin⟩ := h.known u hu
    have husers : (d.users u.coin_id).filter (fun v => v.user_id = u.user_id) = [u] := by
      rw [← filter_key h.once hu, Db.users, List.filter_filter]
      simp [Prod.ext_iff]
    have haccounts : (d.accounts u.coin_id).filter (fun b => u.account_id = b.account_id) = [a] := by
      rw [← filter_key h.distinct ha, Db.accounts, List.filter_filter]
      simp [Prod.ext_iff, hid, hcoin, eq_comm]
    refine Or.inr ⟨a, ha, hcoin, hid ▸ hu, ?_⟩
    simp [Query.eval, husers, scalar, haccounts]
  · have hnone : ∀ u ∈ d.user, ¬ (u.user_id = user_id ∧ u.coin_id = coin_id) :=
      fun u hu' h => hu ⟨u, hu', h⟩
    refine Or.inl ⟨hnone, ?_⟩
    have husers : (d.users coin_id).filter (fun u => u.user_id = user_id) = [] := by
      rw [Db.users, List.filter_filter, List.filter_eq_nil_iff]
      simpa using hnone
    simp [Query.eval, husers, scalar]

lemma Kept.reads (h : Kept d) (ho : Owns d user_id coin_id i) :
    readRows [.INT, .STRING, .STRING] ((Query.userAccount coin_id user_id).eval d) =
      .ok (.arr [i.json]) := by
  rcases h.userAccount user_id coin_id with ⟨hnone, -⟩ | ⟨a, ha, hcoin, hu, heval⟩
  · exact absurd ⟨rfl, rfl⟩ (hnone _ ho.row)
  · have hid : a.account_id = i.account_id :=
      congrArg UserRow.account_id (List.inj_on_of_nodup_map h.once hu ho.row rfl)
    obtain rfl := List.inj_on_of_nodup_map h.distinct ha ho.account (Prod.ext hid hcoin)
    rw [heval]
    have hconv : Cell.convert .INT (.int i.account_id) = .ok (.int i.account_id) :=
      convert_int.mpr ⟨ho.int, rfl⟩
    simp [readRows, rowData, accountCells, hconv, convert_ofText.mpr, AccountInfo.json]

lemma Kept.gives {account_id : ℤ} {d' : Db} (h : Kept d)
    (hnone : ∀ u ∈ d.user, ¬ (u.user_id = user_id ∧ u.coin_id = coin_id))
    (hg : Gives d user_id coin_id account_id d') : Kept d' := by
  obtain ⟨⟨m, a, -, ha, rfl⟩, rfl⟩ := hg
  obtain ⟨hmem, hcoin⟩ := mem_accounts.mp (above_eq_some ha).1
  refine ⟨h.distinct, ?_, fun u hu => ?_⟩
  · rw [Db.insertUser, List.map_append, List.nodup_append]
    refine ⟨h.once, List.nodup_singleton _, ?_⟩
    rintro _ hp _ hq rfl
    obtain ⟨u, hu, hpu⟩ := List.mem_map.mp hp
    obtain rfl := List.mem_singleton.mp hq
    exact hnone u hu (Prod.ext_iff.mp hpu)
  · rcases List.mem_append.mp hu with hu | hu
    · exact h.known u hu
    · obtain rfl := List.mem_singleton.mp hu
      exact ⟨a, hmem, rfl, hcoin⟩

end

/-! ### A request for an account that is not in the cache -/

/-- A request has read an account of the user, maybe a new one, into the cache. -/
structure Answered (w : World) (coin_name : String) (user_id coin_id : ℤ) (i : AccountInfo)
    (json_result' : Json) (w' : World) : Prop where
  json : json_result' = json_result user_id coin_name i.address i.tag
  cache : w'.s_usercoin_accountinfo =
    (encode_user user_id coin_id, i) :: w.s_usercoin_accountinfo
  owns : Owns w'.db user_id coin_id i
  kept : Kept w'.db
  db : w'.db = w.db ∨ ∃ account_id, Gives w.db user_id coin_id account_id w'.db

/-- What a request that fails leaves as it was. -/
structure Same (w w' : World) : Prop where
  cache : w'.s_usercoin_accountinfo = w.s_usercoin_accountinfo
  db : w'.db = w.db

/-- Where a request can be cut short. -/
structure Underway (w : World) (user_id coin_id : ℤ) (w' : World) : Prop where
  cache : ∀ key i, w'.s_usercoin_accountinfo.lookup key = some i →
    w.s_usercoin_accountinfo.lookup key = some i ∨
      key = encode_user user_id coin_id ∧ Owns w'.db user_id coin_id i
  kept : Kept w'.db
  db : w'.db = w.db ∨ ∃ account_id, Gives w.db user_id coin_id account_id w'.db

/-- How a request that does not return ends. -/
def Ends (x : Weather) (w : World) (user_id coin_id : ℤ) (w' : World) : Prop :=
  Same w w' ∨ x.crashes ∧ Underway w user_id coin_id w'

/-- The lookup of an account that a user has fails only where there is none left to take. -/
def Sure : (o : Op) → World → Ans o → Prop
  | .getData (.userAccount coin_id user_id), w, a =>
    a = none → (Query.userAccount coin_id user_id).eval w.db ≠ none → Enrolled w.db user_id coin_id →
      Spent w.db coin_id
  | _, _, _ => True

section

variable {x : Weather} {w₀ w : World} {coin_name : String} {user_id coin_id : ℤ} {i : AccountInfo}

lemma Same.underway (h : Same w₀ w) (hk : Kept w₀.db) : Underway w₀ user_id coin_id w :=
  ⟨fun _ _ hi => Or.inl (by rwa [← h.cache]), by rwa [h.db], Or.inl h.db⟩

lemma Answered.underway {j : Json} (h : Answered w₀ coin_name user_id coin_id i j w) :
    Underway w₀ user_id coin_id w := by
  refine ⟨fun key i' hi' => ?_, h.kept, h.db⟩
  rw [h.cache, List.lookup_cons] at hi'
  split at hi'
  · next hkey =>
    obtain rfl := Option.some.inj hi'
    exact Or.inr ⟨by simpa using hkey, h.owns⟩
  · exact Or.inl hi'

lemma wp_fail_ends {α : Type} {what : String} {Q : α → World → Prop} (h : Same w₀ w) :
    wp (env x) (fail what : Srv α) Q (Ends x w₀ user_id coin_id) w := by
  simp only [fail, wp_bind, wp_closeDB, wp_raise]
  exact ⟨fun _ => Or.inl h, Or.inl ⟨h.cache, h.db⟩⟩

lemma wp_answer_owned {js : List Json} (ho : Owns w.db user_id coin_id i) (hk : Kept w.db)
    (hcache : w.s_usercoin_accountinfo = w₀.s_usercoin_accountinfo)
    (hdb : w.db = w₀.db ∨ ∃ account_id, Gives w₀.db user_id coin_id account_id w.db) :
    wp (env x) (answer coin_name user_id coin_id (.arr (i.json :: js)))
      (fun j w' => ∃ i, Answered w₀ coin_name user_id coin_id i j w')
      (Ends x w₀ user_id coin_id) w := by
  have hbefore : Underway w₀ user_id coin_id w :=
    ⟨fun _ _ hi => Or.inl (by rwa [← hcache]), hk, hdb⟩
  have hafter : ∀ w', w'.db = w.db →
      w'.s_usercoin_accountinfo = (encode_user user_id coin_id, i) :: w.s_usercoin_accountinfo →
      Answered w₀ coin_name user_id coin_id i (json_result user_id coin_name i.address i.tag) w' :=
    fun w' hdb' hcache' => ⟨rfl, by rw [hcache', hcache], hdb' ▸ ho, hdb' ▸ hk, hdb' ▸ hdb⟩
  simp only [answer, wp_bind, liftM_eq, accountInfo_json ho.int, wp_lift, Except.ok.injEq,
    forall_eq', reduceCtorEq, false_implies, implies_true, and_true, wp_insert, wp_closeDB, pure_eq,
    wp_ret]
  refine ⟨fun hc => Or.inr ⟨hc, hbefore⟩, fun hc => Or.inr ⟨hc, ?_⟩, i, hafter _ rfl rfl⟩
  exact Answered.underway (hafter _ rfl rfl)

/-- A user without an account gets the next one, if there is one. -/
lemma wp_assignNext_owned (h : Kept w.db) (henrolled : Enrolled w.db user_id coin_id → Spent w.db coin_id) :
    wp (env x) (assignNext coin_name user_id coin_id)
      (fun j w' => ∃ i, Answered w coin_name user_id coin_id i j w')
      (Ends x w user_id coin_id) w := by
  have hself : Ends x w user_id coin_id w := Or.inl ⟨rfl, rfl⟩
  simp only [assignNext, wp_bind]
  refine wp_getData hself (by simpa [Json.size] using wp_fail_ends ⟨rfl, rfl⟩) fun js hrows => ?_
  rw [if_neg hrows.size.ne']
  cases js with
  | nil => exact absurd rfl hrows.some_row
  | cons j js =>
    obtain ⟨m, a, hm, ha, hj⟩ := nextAccount_eval hrows
    have hnone : ∀ u ∈ w.db.user, ¬ (u.user_id = user_id ∧ u.coin_id = coin_id) := by
      intro u hu huser
      have hspent := henrolled ⟨u, hu, huser⟩ m hm
      rw [ha] at hspent
      cases hspent
    obtain ⟨i, hai, hint, rfl⟩ := rowData_owned hj
    have hgives : Gives w.db user_id coin_id i.account_id
        (w.db.insertUser ⟨user_id, i.account_id, coin_id⟩) :=
      ⟨⟨m, a, hm, ha, congrArg AccountRow.account_id hai⟩, rfl⟩
    have howns : Owns (w.db.insertUser ⟨user_id, i.account_id, coin_id⟩) user_id coin_id i := by
      obtain ⟨hmem, hcoin⟩ := mem_accounts.mp (above_eq_some ha).1
      rw [hai, hcoin] at hmem
      exact ⟨List.mem_append_right _ (List.mem_singleton_self _), hmem, hint⟩
    simp only [AccountInfo.json, Json.idx, List.getD_cons_zero, wp_bind, liftM_eq, wp_lift,
      Except.ok.injEq, forall_eq', getInt_int hint, reduceCtorEq, false_implies, implies_true,
      and_true, wp_refreshDB]
    refine ⟨fun _ => hself, by simpa using wp_fail_ends ⟨rfl, rfl⟩, ?_⟩
    exact wp_answer_owned howns (h.gives hnone hgives) rfl (Or.inr ⟨_, hgives⟩)

/-- The account of a user is found where he has one, unless the statement fails. -/
lemma wp_userAccount {Q : Json → World → Prop} {D : World → Prop} (h : Kept w.db) (hD : D w)
    (hnone : (Enrolled w.db user_id coin_id → Spent w.db coin_id) → Q .null w)
    (howned : ∀ i, Owns w.db user_id coin_id i → Q (.arr [i.json]) w) :
    wp ((env x).only Sure) (getData (.userAccount coin_id user_id) [.INT, .STRING, .STRING]) Q D w := by
  simp only [getData, wp_bind, wp_op, liftM_eq, wp_lift]
  refine ⟨fun w' hw => hw.2 ▸ hD, ?_⟩
  rintro a w' ⟨⟨rfl, ha⟩, hsure⟩
  refine ⟨fun j hj => ?_, fun _ _ => hD⟩
  rw [Query.fetches_iff rfl] at ha
  rcases h.userAccount user_id coin_id with ⟨hno, heval⟩ | ⟨b, hb, hcoin, hu, heval⟩
  · have hj' : j = .null := by
      rw [heval] at ha
      rcases ha with ⟨-, rfl⟩ | rfl | ⟨-, rows, rows', hrows, hperm, rfl⟩
      · exact (Except.ok.inj hj).symm
      · exact (Except.ok.inj hj).symm
      · obtain rfl := Option.some.inj hrows
        rw [hperm.nil_eq.symm] at hj
        exact (Except.ok.inj hj).symm
    rw [hj']
    refine hnone fun henrolled => ?_
    obtain ⟨u, hu, huser⟩ := henrolled
    exact absurd huser (hno u hu)
  · have hread : ∀ j, readRows [.INT, .STRING, .STRING] (some [accountCells b]) = .ok j → Q j w' := by
      intro j hj
      obtain ⟨i, hbi, hint, rfl⟩ := readRows_account hj
      rw [hbi, hcoin] at hb
      rw [hbi] at hu
      exact howned i ⟨hu, hb, hint⟩
    rw [heval] at ha
    rcases ha with ⟨-, rfl⟩ | rfl | ⟨-, rows, rows', hrows, hperm, rfl⟩
    · obtain rfl := Except.ok.inj hj
      exact hnone (hsure rfl (by simp [heval]))
    · exact hread j hj
    · obtain rfl := Option.some.inj hrows
      rw [List.singleton_perm.mp hperm] at hread
      exact hread j hj

/-- **Without the cache, a user is answered with the account the tables say he has.** -/
theorem wp_assignMissed (coin_name : String) (user_id coin_id : ℤ) (h : Kept w.db) :
    wp ((env x).only Sure) (assignMissed coin_name user_id coin_id)
      (fun j w' => ∃ i, Answered w coin_name user_id coin_id i j w')
      (Ends x w user_id coin_id) w := by
  rw [assignMissed, wp_bind]
  refine wp_userAccount h (Or.inl ⟨rfl, rfl⟩) (fun henrolled => ?_) fun i ho => ?_
  · simpa [Json.size] using wp_only (wp_assignNext_owned h henrolled)
  · simpa [Json.size] using wp_only (wp_answer_owned ho h rfl (Or.inl rfl))

end

end OpenWallet.Server
