import OpenWallet.Lib.Reserve
import OpenWallet.Lib.Threads
import OpenWallet.Server.Cache

/-!
Requesters for the accounts of a coin side by side, each statement a step of its own. A request
selects the next account in one statement and inserts the row of its user in another, and other
requests can come in between.
-/

namespace OpenWallet.Server

open Lib Prog Reserve
open Monitor (Cell)

/-! ### What a request does -/

/-- The user of a request. -/
def userOf (params : Json) : Except Exn ℤ := params.idx 2 >>= Json.getInt

/-- The answer to the query for accounts as the code reads it. -/
def accountOf (a : Option (List (List Cell))) : Except Exn AccountInfo :=
  readRows [.INT, .STRING, .STRING] a >>= accountInfo

/-- The identifier it reads there. -/
def offered (a : Option (List (List Cell))) : Option ℤ :=
  (readRows [.INT, .STRING, .STRING] a >>= fun json_data => do
    (← (← json_data.idx 0).idx 0).getInt).toOption

/-- The identifier of the coin as the code reads it. -/
def coinOf (a : Option (List (List Cell))) : Except Exn ℤ :=
  readRows [.INT] a >>= fun json_data => do (← (← json_data.idx 0).idx 0).getInt

/-- The request asks for its coin by a query. -/
def Queries (params : Json) (q : Query) : Prop :=
  ∃ coin_name is_token, params.idx 0 >>= Json.getStr = .ok coin_name ∧
    params.idx 1 >>= Json.getBool = .ok is_token ∧ q = coinQuery coin_name is_token

abbrev Calls := List (Event Ans)

/-- The request has read its coin. -/
def Coined (params : Json) (h : Calls) (coin_id : ℤ) : Prop :=
  ∃ q a, Queries params q ∧ ⟨.getData q, a⟩ ∈ h ∧ coinOf a = .ok coin_id

/-- The request has read an account as that of its user, or has made it that. -/
def Read (h : Calls) (user_id coin_id : ℤ) (i : AccountInfo) : Prop :=
  (∃ a, ⟨.getData (.userAccount coin_id user_id), a⟩ ∈ h ∧ accountOf a = .ok i) ∨
    ⟨.refreshDB ⟨user_id, i.account_id, coin_id⟩, true⟩ ∈ h ∧
      ∃ a, ⟨.getData (.nextAccount coin_id), a⟩ ∈ h ∧ accountOf a = .ok i

/-- A row is inserted once, right after its account has been selected, and what goes into the
cache has been read. -/
def Asks (params : Json) : Calls → Op → Prop
  | h, .refreshDB r => userOf params = .ok r.user_id ∧ (∀ r' b, ⟨.refreshDB r', b⟩ ∉ h) ∧
    ∃ h' a, h = h' ++ [⟨.getData (.nextAccount r.coin_id), a⟩] ∧ offered a = some r.account_id
  | h, .insert key i => ∃ user_id coin_id, userOf params = .ok user_id ∧ Coined params h coin_id ∧
    key = encode_user user_id coin_id ∧ Read h user_id coin_id i
  | _, .batchRefreshDB _ => False
  | _, _ => True

/-- What is answered is in the cache, or has been read. -/
def Tells (params : Json) (h : Calls) (json_result : Json) : Prop :=
  ∃ user_id coin_id i, userOf params = .ok user_id ∧ Coined params h coin_id ∧
    answered (.done json_result) = some (i.address, i.tag) ∧
    (⟨.find (encode_user user_id coin_id), some i⟩ ∈ h ∨ Read h user_id coin_id i)

section

variable {params : Json} {h : Calls}

lemma follows_get_data {q : Query} {col_type : List Monitor.DataType} :
    (getData q col_type).Follows (Asks params)
      (fun h' j => ∃ a, h' = h ++ [⟨.getData q, a⟩] ∧ readRows col_type a = .ok j) h := by
  refine follows_bind (P := fun h' a => h' = h ++ [⟨.getData q, a⟩])
    (follows_op trivial fun _ => rfl) ?_
  rintro _ a rfl
  exact follows_lift fun j hj => ⟨a, rfl, hj⟩

lemma follows_fail {α : Type} {P : Calls → α → Prop} (what : String) :
    (fail what : Srv α).Follows (Asks params) P h :=
  ⟨trivial, fun _ => trivial⟩

lemma follows_pureStep {α β : Type} {x : Except Exn α} {f : α → Srv β} {P : Calls → β → Prop}
    (hf : ∀ a, x = .ok a → (f a).Follows (Asks params) P h) :
    ((liftM x : Srv α) >>= f).Follows (Asks params) P h := by
  refine follows_bind (P := fun h' a => h = h' ∧ x = .ok a) (follows_lift fun a ha => ⟨rfl, ha⟩) ?_
  rintro _ a ⟨rfl, ha⟩
  exact hf a ha

/-- Nothing has been inserted yet. -/
def Unwritten (h : Calls) : Prop := ∀ r b, ⟨.refreshDB r, b⟩ ∉ h

lemma Unwritten.get_data {q : Query} {a : Option (List (List Cell))} (hq : Unwritten h) :
    Unwritten (h ++ [⟨.getData q, a⟩]) := by
  intro r b hmem
  rcases List.mem_append.mp hmem with hmem | hmem
  · exact hq r b hmem
  · cases List.mem_singleton.mp hmem

lemma Coined.mono {h' : Calls} {coin_id : ℤ} (hc : Coined params h coin_id) (hsub : h ⊆ h') :
    Coined params h' coin_id := by
  obtain ⟨q, a, hq, hmem, ha⟩ := hc
  exact ⟨q, a, hq, hsub hmem, ha⟩

lemma Read.mono {h' : Calls} {user_id coin_id : ℤ} {i : AccountInfo} (hr : Read h user_id coin_id i)
    (hsub : h ⊆ h') : Read h' user_id coin_id i := by
  rcases hr with ⟨a, hmem, ha⟩ | ⟨hins, a, hmem, ha⟩
  · exact Or.inl ⟨a, hsub hmem, ha⟩
  · exact Or.inr ⟨hsub hins, a, hsub hmem, ha⟩

lemma follows_answer {coin_name : String} {user_id coin_id : ℤ} {json_data : Json}
    (huser : userOf params = .ok user_id) (hcoin : Coined params h coin_id)
    (hread : ∀ i, accountInfo json_data = .ok i → Read h user_id coin_id i) :
    (answer coin_name user_id coin_id json_data).Follows (Asks params) (Tells params) h := by
  refine follows_pureStep fun i hi => ?_
  refine ⟨⟨user_id, coin_id, huser, hcoin, rfl, hread i hi⟩, fun _ => ⟨trivial, fun _ => ?_⟩⟩
  have hsub : h ⊆ h ++ [⟨.insert (encode_user user_id coin_id) i, ()⟩] ++ [⟨.closeDB, ()⟩] := by
    rw [List.append_assoc]
    exact List.subset_append_left _ _
  exact ⟨user_id, coin_id, i, huser, hcoin.mono hsub, answered_json_result _ _ _ _,
    Or.inr ((hread i hi).mono hsub)⟩

lemma accountInfo_id {json_data : Json} {i : AccountInfo} (hi : accountInfo json_data = .ok i) :
    (do (← (← json_data.idx 0).idx 0).getInt : Except Exn ℤ) = .ok i.account_id := by
  simp only [accountInfo, bind_eq_ok, pure_eq_ok, Except.ok.injEq] at hi
  obtain ⟨row, hrow, _, -, _, -, _, -, _, -, cell, hcell, id, hid, rfl⟩ := hi
  simp [hrow, hcell, hid]

lemma follows_assignNext {coin_name : String} {user_id coin_id : ℤ}
    (huser : userOf params = .ok user_id) (hcoin : Coined params h coin_id) (hq : Unwritten h) :
    (assignNext coin_name user_id coin_id).Follows (Asks params) (Tells params) h := by
  refine follows_bind follows_get_data ?_
  rintro _ json_data ⟨a, rfl, ha⟩
  split
  · exact follows_fail _
  refine follows_pureStep fun row hrow => follows_pureStep fun cell hcell => ?_
  refine follows_pureStep fun account_id hid => ?_
  have hread : (do (← (← json_data.idx 0).idx 0).getInt : Except Exn ℤ) = .ok account_id := by
    simp [hrow, hcell, hid]
  have hoffered : offered a = some account_id := by
    rw [offered, ha, ok_bind, hread]
    rfl
  refine follows_bind (P := fun h' b => h' = h ++ [⟨.getData (.nextAccount coin_id), a⟩] ++
    [⟨.refreshDB ⟨user_id, account_id, coin_id⟩, b⟩])
    (follows_op ⟨huser, hq.get_data, h, a, rfl, hoffered⟩ fun _ => rfl) ?_
  rintro _ b rfl
  split
  · exact follows_fail _
  next hb =>
  obtain rfl : b = true := by simpa using hb
  refine follows_answer huser (hcoin.mono (by simp [List.append_assoc])) fun i hi => Or.inr ?_
  obtain rfl : i.account_id = account_id := by simpa [accountInfo_id hi] using hread
  exact ⟨by simp, a, by simp, by rw [accountOf, ha, ok_bind, hi]⟩

lemma follows_assignMissed {coin_name : String} {user_id coin_id : ℤ}
    (huser : userOf params = .ok user_id) (hcoin : Coined params h coin_id) (hq : Unwritten h) :
    (assignMissed coin_name user_id coin_id).Follows (Asks params) (Tells params) h := by
  refine follows_bind follows_get_data ?_
  rintro _ json_data ⟨a, rfl, ha⟩
  have hcoin' :=
    hcoin.mono (List.subset_append_left h [⟨.getData (.userAccount coin_id user_id), a⟩])
  split
  · refine follows_answer huser hcoin' fun i hi => Or.inl ⟨a, by simp, ?_⟩
    rw [accountOf, ha, ok_bind, hi]
  · exact follows_assignNext huser hcoin' hq.get_data

lemma follows_assign {coin_name : String} {user_id coin_id : ℤ}
    (huser : userOf params = .ok user_id) (hcoin : Coined params h coin_id) (hq : Unwritten h) :
    (assign true coin_name user_id coin_id).Follows (Asks params) (Tells params) h := by
  refine follows_bind (P := fun h' hit => h' = h ++ [⟨.find (encode_user user_id coin_id), hit⟩])
    (follows_op trivial fun _ => rfl) ?_
  rintro _ hit rfl
  have hsub := List.subset_append_left h [⟨.find (encode_user user_id coin_id), hit⟩]
  have hq' : Unwritten (h ++ [⟨.find (encode_user user_id coin_id), hit⟩]) := by
    intro r b hmem
    rcases List.mem_append.mp hmem with hmem | hmem
    · exact hq r b hmem
    · cases List.mem_singleton.mp hmem
  cases hit with
  | some i =>
    refine ⟨trivial, fun _ => ?_⟩
    exact ⟨user_id, coin_id, i, huser, hcoin.mono (by simp [List.append_assoc]),
      answered_json_result _ _ _ _, Or.inl (by simp)⟩
  | none => exact follows_assignMissed huser (hcoin.mono hsub) hq'

lemma follows_lookupCoin (fHelp : Bool) (params : Json) :
    (lookupCoin fHelp params).Follows (Asks params)
      (fun h r => userOf params = .ok r.2.1 ∧ Coined params h r.2.2 ∧ Unwritten h) [] := by
  unfold lookupCoin
  split
  · trivial
  refine follows_bind (P := fun h b => h = [⟨.openDB, b⟩]) (follows_op trivial fun _ => rfl) ?_
  rintro _ b rfl
  split
  · trivial
  refine follows_pureStep fun name hname => follows_pureStep fun coin_name hcoin_name => ?_
  refine follows_pureStep fun token htoken => follows_pureStep fun is_token his_token => ?_
  refine follows_pureStep fun user huser => follows_pureStep fun user_id huser_id => ?_
  refine follows_bind follows_get_data ?_
  rintro _ json_data ⟨a, rfl, ha⟩
  split
  · exact ⟨trivial, fun _ => trivial⟩
  refine follows_pureStep fun row hrow => follows_pureStep fun cell hcell => ?_
  refine follows_pureStep fun coin_id hid => ?_
  have hqueries : Queries params (coinQuery coin_name is_token) :=
    ⟨coin_name, is_token, by simp [hname, hcoin_name], by simp [htoken, his_token], rfl⟩
  refine ⟨by simp [userOf, huser, huser_id], ⟨_, a, hqueries, by simp, ?_⟩, ?_⟩
  · simp [coinOf, ha, hrow, hcell, hid]
  · intro r b hmem
    simp at hmem

lemma follows_getrechargeaddress (fHelp : Bool) (params : Json) :
    (getrechargeaddress true fHelp params).Follows (Asks params) (Tells params) [] := by
  refine follows_bind (follows_lookupCoin fHelp params) ?_
  rintro h ⟨coin_name, user_id, coin_id⟩ ⟨huser, hcoin, hq⟩
  exact follows_assign huser hcoin hq

end

section

variable {ι : Type} [DecidableEq ι]

abbrev Requesters (ι : Type) := Threads ι Ans Exn Json World

/-- The requests before any of them has begun. -/
def begin (calls : ι → Bool × Json) (w : World) : Requesters ι :=
  .init (fun i => getrechargeaddress true (calls i).1 (calls i).2) w

/-- What else goes on: the pool of the coin grows, and other coins are served. -/
structure Besides (coin_id : ℤ) (w w' : World) : Prop where
  users : w'.db.users coin_id = w.db.users coin_id
  accounts : ∃ rows, w'.db.accounts coin_id = w.db.accounts coin_id ++ rows ∧
    ∀ a ∈ w.db.accounts coin_id, ∀ b ∈ rows, a.account_id < b.account_id
  coin : w'.db.cat.coin = w.db.cat.coin
  token : w'.db.cat.token = w.db.cat.token
  cache : ∀ user_id, w'.s_usercoin_accountinfo.lookup (encode_user user_id coin_id) =
    w.s_usercoin_accountinfo.lookup (encode_user user_id coin_id)

/-- What an answered request comes to. -/
def outcome : Srv Json → Outcome Exn Json
  | ret json_result => .done json_result
  | raise e => .threw e
  | call _ _ => .died

/-- No two users of the coin have one account. -/
def Unshared (d : Db) (coin_id : ℤ) : Prop :=
  ∀ u ∈ d.users coin_id, ∀ v ∈ d.users coin_id, u.user_id ≠ v.user_id → u.account_id ≠ v.account_id

/-- No two accounts of the coin have one address and tag. -/
def Distinct (d : Db) (coin_id : ℤ) : Prop :=
  ∀ a ∈ d.accounts coin_id, ∀ b ∈ d.accounts coin_id,
    a.address = b.address → a.tag = b.tag → a.account_id = b.account_id

/-- No two users of the coin have one account, and so no two are answered with one. -/
structure Private (coin_id : ℤ) (s : Requesters ι) : Prop where
  rows : Unshared s.world.db coin_id
  answers : Distinct s.world.db coin_id → ∀ i j, i ≠ j → ∀ p,
    answered (outcome (s.prog i)) = some p → answered (outcome (s.prog j)) ≠ some p

/-- Where requests of users for the coin begin. -/
structure Begins (x : Weather) (coin_id : ℤ) (calls : ι → Bool × Json) (w : World) : Prop where
  users : ∀ i j, i ≠ j → ∀ u, userOf (calls i).2 = .ok u → userOf (calls j).2 ≠ .ok u
  coin : ∀ i q, Queries (calls i).2 q →
    ∀ d : Db, d.cat.coin = w.db.cat.coin → d.cat.token = w.db.cat.token →
    ∀ rows, q.Fetches x.injected d (some rows) → ∀ row ∈ rows, row = [.int coin_id]
  cache : ∀ user_id i, w.s_usercoin_accountinfo.lookup (encode_user user_id coin_id) = some i →
    Owns w.db user_id coin_id i
  rows : Unshared w.db coin_id

/-- What a call is to the pool of the coin. -/
def act (coin_id : ℤ) : Event Ans → Act ℤ
  | ⟨.getData (.nextAccount c), a⟩ => if c = coin_id then .look (offered a) else .other
  | ⟨.refreshDB r, true⟩ => if r.coin_id = coin_id then .take r.account_id else .other
  | _ => .other

/-- No request inserts a row for the coin between the selection and the insertion of another. -/
def Undisturbed (coin_id : ℤ) (s : Requesters ι) : Prop :=
  Reserve.Undisturbed (s.trace.map fun e => (e.1, act coin_id e.2))

/-! ### What the answers say -/

/-- The row for the coin that a call has inserted. -/
def row (coin_id : ℤ) : Event Ans → Option UserRow
  | ⟨.refreshDB r, true⟩ => if r.coin_id = coin_id then some r else none
  | _ => none

/-- The rows for the coin that the calls have inserted. -/
def inserted (coin_id : ℤ) (t : List (ι × Event Ans)) : List UserRow :=
  t.filterMap fun e => row coin_id e.2

lemma row_eq_some {coin_id : ℤ} {e : Event Ans} {r : UserRow} :
    row coin_id e = some r ↔ e = ⟨.refreshDB r, true⟩ ∧ r.coin_id = coin_id := by
  obtain ⟨o, b⟩ := e
  cases o with
  | refreshDB r' =>
    cases b with
    | true =>
      simp only [row, Option.ite_none_right_eq_some, Option.some.injEq, Sigma.mk.injEq,
        Op.refreshDB.injEq, heq_eq_eq, and_true]
      aesop
    | false => simp [row]
  | _ => simp [row]

lemma act_eq_take {coin_id k : ℤ} {e : Event Ans} :
    act coin_id e = .take k ↔ ∃ r, row coin_id e = some r ∧ r.account_id = k := by
  obtain ⟨o, b⟩ := e
  cases o with
  | refreshDB r =>
    cases b with
    | true =>
      simp only [act, row]
      split <;> simp
    | false => simp [act, row]
  | getData q =>
    cases q with
    | nextAccount c =>
      simp only [act, row]
      split <;> simp
    | _ => simp [act, row]
  | _ => simp [act, row]

lemma act_eq_look {coin_id : ℤ} {e : Event Ans} {offer : Option ℤ}
    (h : act coin_id e = .look offer) :
    ∃ a, e = ⟨.getData (.nextAccount coin_id), a⟩ ∧ offered a = offer := by
  obtain ⟨o, a⟩ := e
  cases o with
  | refreshDB r =>
    cases a with
    | true =>
      simp only [act] at h
      split at h <;> cases h
    | false => simp [act] at h
  | getData q =>
    cases q with
    | nextAccount c =>
      simp only [act] at h
      split at h
      · next hc =>
        cases h
        exact ⟨a, by rw [hc], rfl⟩
      · cases h
    | _ => simp [act] at h
  | _ => simp [act] at h

variable {coin_id : ℤ} {t : List (ι × Event Ans)}

omit [DecidableEq ι]

lemma mem_inserted {r : UserRow} : r ∈ inserted coin_id t ↔
    r.coin_id = coin_id ∧ ∃ i, (i, ⟨.refreshDB r, true⟩) ∈ t := by
  simp only [inserted, List.mem_filterMap, row_eq_some, Prod.exists]
  constructor
  · rintro ⟨i, e, hmem, rfl, hcoin⟩
    exact ⟨hcoin, i, hmem⟩
  · rintro ⟨hcoin, i, hmem⟩
    exact ⟨i, _, hmem, rfl, hcoin⟩

lemma taken_act : taken (t.map fun e => (e.1, act coin_id e.2)) =
    (inserted coin_id t).map (·.account_id) := by
  rw [taken, inserted, List.filterMap_map, List.map_filterMap]
  refine List.filterMap_congr fun e _ => ?_
  cases hrow : row coin_id e.2 with
  | some r =>
    have hact := act_eq_take.mpr ⟨r, hrow, rfl⟩
    simp [Function.comp, hact]
  | none =>
    have hact : ∀ k, act coin_id e.2 ≠ .take k := by
      intro k hk
      obtain ⟨r, hr, -⟩ := act_eq_take.mp hk
      rw [hrow] at hr
      cases hr
    simp only [Function.comp, Option.map_none]

/-- The account is one of the coin. -/
structure Pooled (d : Db) (coin_id : ℤ) (i : AccountInfo) : Prop where
  account : ⟨i.account_id, coin_id, some i.address, some i.tag⟩ ∈ d.cat.account
  int : -2 ^ 31 ≤ i.account_id ∧ i.account_id < 2 ^ 31

/-- What an answer says that holds from then on. -/
def Known (coin_id : ℤ) (params : Json) (d : Db) : Event Ans → Prop
  | ⟨.getData q, a⟩ => (Queries params q → ∀ c, coinOf a = .ok c → c = coin_id) ∧
    ∀ i, accountOf a = .ok i →
      (∀ user_id, q = .userAccount coin_id user_id → Owns d user_id coin_id i) ∧
      (q = .nextAccount coin_id → Pooled d coin_id i)
  | ⟨.find key, hit⟩ => ∀ user_id i, key = encode_user user_id coin_id → hit = some i →
    Owns d user_id coin_id i
  | ⟨.refreshDB r, b⟩ => b = true → r.coin_id = coin_id → r ∈ d.user
  | _ => True

/-- The tables have grown. -/
structure Grown (coin_id : ℤ) (d d' : Db) : Prop where
  users : d.users coin_id ⊆ d'.users coin_id
  accounts : d.accounts coin_id ⊆ d'.accounts coin_id

lemma mem_users {d : Db} {u : UserRow} :
    u ∈ d.users coin_id ↔ u ∈ d.user ∧ u.coin_id = coin_id := by
  simp [Db.users]

lemma Grown.owns {d d' : Db} {user_id : ℤ} {i : AccountInfo} (h : Grown coin_id d d')
    (ho : Owns d user_id coin_id i) : Owns d' user_id coin_id i :=
  ⟨(mem_users.mp (h.users (mem_users.mpr ⟨ho.row, rfl⟩))).1,
    (mem_accounts.mp (h.accounts (mem_accounts.mpr ⟨ho.account, rfl⟩))).1, ho.int⟩

lemma scalar_mem {α : Type} {l : List α} {a : α} (h : scalar l = some (some a)) : a ∈ l := by
  match l with
  | [] => cases h
  | [b] =>
    obtain rfl := Option.some.inj (Option.some.inj h)
    exact List.mem_singleton_self _
  | _ :: _ :: _ => cases h

lemma Grown.pooled {d d' : Db} {i : AccountInfo} (h : Grown coin_id d d')
    (hl : Pooled d coin_id i) : Pooled d' coin_id i :=
  ⟨(mem_accounts.mp (h.accounts (mem_accounts.mpr ⟨hl.account, rfl⟩))).1, hl.int⟩

lemma Known.mono {params : Json} {d d' : Db} {e : Event Ans} (h : Grown coin_id d d')
    (he : Known coin_id params d e) : Known coin_id params d' e := by
  obtain ⟨o, a⟩ := e
  cases o with
  | getData q =>
    refine ⟨he.1, fun i hi => ⟨fun user_id hq => ?_, fun hq => ?_⟩⟩
    · exact h.owns ((he.2 i hi).1 user_id hq)
    · exact h.pooled ((he.2 i hi).2 hq)
  | find key => exact fun user_id i hkey hi => h.owns (he user_id i hkey hi)
  | refreshDB r =>
    intro hb hcoin
    exact (mem_users.mp (h.users (mem_users.mpr ⟨he hb hcoin, hcoin⟩))).1
  | _ => trivial

section

variable {x : Weather} {w w' : World} {q : Query} {a : Option (List (List Cell))} {i : AccountInfo}

lemma row_of_accountOf (hq : q.injects = false) (h : (env x).answers (.getData q) w a w')
    (hi : accountOf a = .ok i) :
    ∃ rows, q.eval w.db = some rows ∧ ∃ row ∈ rows, ∀ b, row = accountCells b →
      b = ⟨i.account_id, b.coin_id, some i.address, some i.tag⟩ ∧
        -2 ^ 31 ≤ i.account_id ∧ i.account_id < 2 ^ 31 := by
  obtain ⟨j, hj, hinfo⟩ := bind_eq_ok.mp hi
  obtain ⟨-, hread⟩ := rows_of_answer [.INT, .STRING, .STRING] h
  rcases hread j hj with rfl | ⟨js, rfl, hrows⟩
  · cases hinfo
  cases js with
  | nil => exact absurd rfl hrows.some_row
  | cons j js =>
    obtain ⟨rows, heval, row, hrow, hdata⟩ := hrows.mem hq (k := 0) rfl
    refine ⟨rows, heval, row, hrow, ?_⟩
    rintro b rfl
    obtain ⟨i', hb, hint, rfl⟩ := rowData_owned hdata
    obtain rfl := Except.ok.inj ((accountInfo_json hint).symm.trans hinfo)
    exact ⟨hb, hint⟩

lemma owns_of_userAccount {user_id : ℤ}
    (h : (env x).answers (.getData (.userAccount coin_id user_id)) w a w')
    (hi : accountOf a = .ok i) : Owns w.db user_id coin_id i := by
  obtain ⟨rows, heval, row, hrow, hb⟩ := row_of_accountOf rfl h hi
  obtain ⟨u, hu, rfl⟩ := Option.map_eq_some_iff.mp heval
  obtain ⟨b, hmem, rfl⟩ := List.mem_map.mp hrow
  obtain ⟨hbi, hint⟩ := hb b rfl
  simp only [List.mem_filter, decide_eq_true_eq] at hmem
  obtain ⟨hmem, hid⟩ := hmem
  obtain ⟨hmem, hcoin⟩ := mem_accounts.mp hmem
  obtain ⟨v, rfl, hv⟩ := Option.map_eq_some_iff.mp hid.symm
  have hv' := scalar_mem hu
  simp only [List.mem_filter, decide_eq_true_eq] at hv'
  obtain ⟨hrow, hcoin'⟩ := mem_users.mp hv'.1
  have hid' : i.account_id = v.account_id := by rw [hv, hbi]
  refine ⟨?_, ?_, hint⟩
  · rw [hid', ← hv'.2, ← hcoin']
    exact hrow
  · rw [← hcoin, ← hbi]
    exact hmem

lemma pooled_of_nextAccount (h : (env x).answers (.getData (.nextAccount coin_id)) w a w')
    (hi : accountOf a = .ok i) : Pooled w.db coin_id i := by
  obtain ⟨rows, heval, row, hrow, hb⟩ := row_of_accountOf rfl h hi
  obtain rfl := Option.some.inj heval
  split at hrow
  · cases hrow
  · next m hm =>
    obtain ⟨b, hb', rfl⟩ : ∃ b, above (w.db.accounts coin_id) m = some b ∧
        accountCells b = row := by
      simpa using hrow
    obtain ⟨hbi, hint⟩ := hb b rfl
    obtain ⟨hmem, hcoin⟩ := mem_accounts.mp (above_eq_some hb').1
    rw [hbi, hcoin] at hmem
    exact ⟨hmem, hint⟩

/-- What is on offer is the first account above those of the users. -/
lemma next_of_offered {k : ℤ} (h : (env x).answers (.getData (.nextAccount coin_id)) w a w')
    (ho : offered a = some k) {base l : List ℤ}
    (hl : (w.db.users coin_id).map (·.account_id) = base ++ l) :
    Next base ((w.db.accounts coin_id).map (·.account_id)) l k := by
  obtain ⟨-, hread⟩ := rows_of_answer [.INT, .STRING, .STRING] h
  unfold offered at ho
  cases hj : readRows [.INT, .STRING, .STRING] a with
  | error e => simp [hj, Except.toOption] at ho
  | ok j =>
    rcases hread j hj with rfl | ⟨js, rfl, hrows⟩
    · simp [hj, Json.idx, Json.getInt, Except.toOption] at ho
    cases js with
    | nil => exact absurd rfl hrows.some_row
    | cons j js =>
      obtain ⟨m, b, hm, hb, hdata⟩ := nextAccount_eval hrows
      obtain ⟨address, tag, -, -, hint, rfl⟩ := rowData_account hdata
      obtain rfl : b.account_id = k := by
        simpa [hj, Json.idx, getInt_int hint, Except.toOption] using ho
      obtain ⟨hmem, hlt, hmin⟩ := above_eq_some hb
      refine ⟨m, hl ▸ hm, hlt, List.mem_map_of_mem hmem, fun k' hk' hlt' => ?_⟩
      obtain ⟨c, hc, rfl⟩ := List.mem_map.mp hk'
      exact hmin c hc hlt'

lemma coin_of_coinOf {c : ℤ} (h : (env x).answers (.getData q) w a w') (hc : coinOf a = .ok c)
    (hq : ∀ rows, q.Fetches x.injected w.db (some rows) → ∀ row ∈ rows, row = [.int coin_id]) :
    c = coin_id := by
  obtain ⟨j, hj, hcoin⟩ := bind_eq_ok.mp hc
  obtain ⟨-, hread⟩ := rows_of_answer [.INT] h
  rcases hread j hj with rfl | ⟨js, rfl, hrows⟩
  · cases hcoin
  obtain ⟨row, rest, v, js', rfl, hdata, hjs⟩ := head_of_read hj hrows.size.ne'
  obtain ⟨-, hfetches⟩ := h
  obtain rfl := hq _ (hfetches.resolve_left (by simp)) row List.mem_cons_self
  simp only [Monitor.rowData, List.zip_cons_cons, List.zip_nil_right, List.mapM_cons,
    List.mapM_nil, bind_eq_ok, convert_int, pure_eq_ok, Except.ok.injEq] at hdata
  obtain ⟨_, ⟨_, ⟨hint, rfl⟩, _, rfl, rfl⟩, rfl⟩ := hdata
  rw [hjs] at hcoin
  simpa [Json.idx, getInt_int hint, eq_comm] using hcoin

end

section

variable {params : Json} {h : Calls} {d : Db}

lemma Coined.eq {c : ℤ} (hc : Coined params h c) (hknown : ∀ e ∈ h, Known coin_id params d e) :
    c = coin_id := by
  obtain ⟨q, a, hq, hmem, ha⟩ := hc
  exact (hknown _ hmem).1 hq c ha

lemma Read.owns {user_id : ℤ} {i : AccountInfo} (hr : Read h user_id coin_id i)
    (hknown : ∀ e ∈ h, Known coin_id params d e) : Owns d user_id coin_id i := by
  rcases hr with ⟨a, hmem, ha⟩ | ⟨hins, a, hmem, ha⟩
  · exact ((hknown _ hmem).2 i ha).1 user_id rfl
  · have hpooled := ((hknown _ hmem).2 i ha).2 rfl
    exact ⟨hknown _ hins rfl rfl, hpooled.account, hpooled.int⟩

lemma encode_user_injective {u v : ℤ} (he : encode_user u coin_id = encode_user v coin_id) :
    u = v :=
  Numeral.int_toString_injective ((String.append_left_inj _).mp he)

/-- What an answered call of a request does. -/
structure Goes (coin_id : ℤ) (params : Json) (w : World) (e : Event Ans) (w' : World) : Prop where
  users : w'.db.users coin_id = w.db.users coin_id ++ (row coin_id e).toList
  accounts : w'.db.accounts coin_id = w.db.accounts coin_id
  coin : w'.db.cat.coin = w.db.cat.coin
  token : w'.db.cat.token = w.db.cat.token
  known : Known coin_id params w'.db e
  cache : ∀ user_id i, w'.s_usercoin_accountinfo.lookup (encode_user user_id coin_id) = some i →
    w.s_usercoin_accountinfo.lookup (encode_user user_id coin_id) = some i ∨
      Owns w'.db user_id coin_id i
  offered : ∀ k, act coin_id e = .look (some k) → ∀ base l,
    (w.db.users coin_id).map (·.account_id) = base ++ l →
    Next base ((w.db.accounts coin_id).map (·.account_id)) l k

lemma goes {x : Weather} {w w' : World} {o : Op} {r : Ans o} (hans : (env x).answers o w r w')
    (hasks : Asks params h o) (hknown : ∀ e ∈ h, Known coin_id params w.db e)
    (hcoin : ∀ q, Queries params q → ∀ rows, q.Fetches x.injected w.db (some rows) →
      ∀ row ∈ rows, row = [.int coin_id])
    (hcache : ∀ user_id i, w.s_usercoin_accountinfo.lookup (encode_user user_id coin_id) = some i →
      Owns w.db user_id coin_id i) : Goes coin_id params w ⟨o, r⟩ w' := by
  have hoffered : ∀ k, act coin_id ⟨o, r⟩ = .look (some k) → ∀ base l,
      (w.db.users coin_id).map (·.account_id) = base ++ l →
      Next base ((w.db.accounts coin_id).map (·.account_id)) l k := by
    intro k hk base l hl
    obtain ⟨a, he, ha⟩ := act_eq_look hk
    cases he
    exact next_of_offered hans ha hl
  -- the calls that change neither the tables nor the cache
  have hquiet : ∀ {w' : World}, w'.db = w.db →
      w'.s_usercoin_accountinfo = w.s_usercoin_accountinfo → row coin_id ⟨o, r⟩ = none →
      Known coin_id params w'.db ⟨o, r⟩ → Goes coin_id params w ⟨o, r⟩ w' := by
    intro w' hdb hc hrow hk
    exact ⟨by simp [hdb, hrow], by rw [hdb], by rw [hdb], by rw [hdb], hk,
      fun _ _ hi => Or.inl (hc ▸ hi), hoffered⟩
  cases o with
  | getData q =>
    obtain rfl : w' = w := hans.1
    refine hquiet rfl rfl rfl
      ⟨fun hq c hc => coin_of_coinOf hans hc (hcoin q hq), fun i hi => ⟨?_, ?_⟩⟩
    · rintro user_id rfl
      exact owns_of_userAccount hans hi
    · rintro rfl
      exact pooled_of_nextAccount hans hi
  | find key =>
    obtain ⟨rfl, rfl⟩ := hans
    refine hquiet rfl rfl rfl ?_
    rintro user_id i rfl hi
    exact hcache user_id i hi
  | refreshDB u =>
    cases r with
    | false =>
      obtain rfl : w' = w := hans
      exact hquiet rfl rfl rfl nofun
    | true =>
      obtain rfl : w' = { w with db := w.db.insertUser u } := hans
      refine ⟨?_, rfl, rfl, rfl, fun _ _ => by simp [Db.insertUser], fun _ _ hi => Or.inl hi,
        hoffered⟩
      simp only [Db.users, Db.insertUser, List.filter_append, row]
      by_cases hu : u.coin_id = coin_id <;> simp [hu]
  | insert key i =>
    obtain rfl : w' = _ := hans
    refine ⟨by simp [row], rfl, rfl, rfl, trivial, fun user_id i' hi' => ?_, hoffered⟩
    obtain ⟨user, c, huser, hc, rfl, hread⟩ := hasks
    obtain rfl := hc.eq hknown
    rw [List.lookup_cons] at hi'
    split at hi'
    · next hkey =>
      obtain rfl := encode_user_injective (beq_iff_eq.mp hkey)
      obtain rfl := Option.some.inj hi'
      exact Or.inr (hread.owns hknown)
    · exact Or.inl hi'
  | batchRefreshDB rows => exact hasks.elim
  | openDB | putWallet =>
    refine hquiet ?_ ?_ rfl trivial
    all_goals
      rw [show w' = if r then _ else _ from hans]
      split <;> rfl
  | curl | createAccount | get => exact hquiet (by rw [hans.2]) (by rw [hans.2]) rfl trivial
  | getWallet => exact hquiet (by rw [hans.1]) (by rw [hans.1]) rfl trivial
  | closeDB | openWallet | offlineSign | offlineSignERC20 | put =>
    exact hquiet (by rw [show w' = _ from hans]) (by rw [show w' = _ from hans]) rfl trivial

end

/-! ### What a run keeps -/

section

variable [DecidableEq ι] {x : Weather} {calls : ι → Bool × Json} {w₀ : World} {s s' : Requesters ι}

variable (coin_id calls w₀) in
/-- The invariant of the runs. -/
structure Going (s : Requesters ι) : Prop where
  follows : ∀ i, (s.prog i).Follows (Asks (calls i).2) (Tells (calls i).2) (s.hist i)
  users : s.world.db.users coin_id = w₀.db.users coin_id ++ inserted coin_id s.trace
  orderly : Orderly (Next ((w₀.db.users coin_id).map (·.account_id))
    ((s.world.db.accounts coin_id).map (·.account_id)))
    (s.trace.map fun e => (e.1, act coin_id e.2))
  own : ∀ i r, (i, ⟨.refreshDB r, true⟩) ∈ s.trace → userOf (calls i).2 = .ok r.user_id
  once : ((inserted coin_id s.trace).map (·.user_id)).Nodup
  known : ∀ e ∈ s.trace, Known coin_id (calls e.1).2 s.world.db e.2
  coin : s.world.db.cat.coin = w₀.db.cat.coin
  token : s.world.db.cat.token = w₀.db.cat.token
  cache : ∀ user_id i,
    s.world.s_usercoin_accountinfo.lookup (encode_user user_id coin_id) = some i →
    Owns s.world.db user_id coin_id i

lemma Going.start (h : Begins x coin_id calls w₀) : Going coin_id calls w₀ (begin calls w₀) where
  follows i := follows_getrechargeaddress _ _
  users := by simp [Server.begin, Threads.init, inserted]
  orderly := ⟨by simp [Server.begin, Threads.init], by simp [Server.begin, Threads.init]⟩
  own := by simp [Server.begin, Threads.init]
  once := by simp [Server.begin, Threads.init, inserted]
  known := by simp [Server.begin, Threads.init]
  coin := rfl
  token := rfl
  cache := h.cache

lemma Going.call (hbegins : Begins x coin_id calls w₀) (h : Going coin_id calls w₀ s) {i : ι} {o : Op}
    {k : Ans o → Srv Json} {r : Ans o} {w : World} (hp : s.prog i = .call o k)
    (hans : (env x).answers o s.world r w)
    (hf : ∀ j, ((s.after i (k r) w ⟨o, r⟩).prog j).Follows (Asks (calls j).2) (Tells (calls j).2)
      ((s.after i (k r) w ⟨o, r⟩).hist j)) :
    Going coin_id calls w₀ (s.after i (k r) w ⟨o, r⟩) := by
  have hasks : Asks (calls i).2 (s.hist i) o := by
    have hfollows := h.follows i
    rw [hp] at hfollows
    exact hfollows.1
  have hgoes : Goes coin_id (calls i).2 s.world ⟨o, r⟩ w := by
    exact goes hans hasks (fun e he => h.known _ (Threads.mem_hist.mp he))
      (fun q hq => hbegins.coin i q hq _ h.coin h.token) h.cache
  have hgrown : Grown coin_id s.world.db w.db := by
    refine ⟨?_, ?_⟩
    · rw [hgoes.users]
      exact List.subset_append_left _ _
    · rw [hgoes.accounts]
      exact List.Subset.refl _
  have hinserted : inserted coin_id (s.trace ++ [(i, ⟨o, r⟩)]) =
      inserted coin_id s.trace ++ (row coin_id ⟨o, r⟩).toList := by
    rw [inserted, List.filterMap_append]
    cases hrow : row coin_id ⟨o, r⟩ <;> simp [inserted, hrow]
  constructor
  case follows => exact hf
  case users =>
    change w.db.users coin_id = _ ++ inserted coin_id (s.trace ++ [(i, ⟨o, r⟩)])
    rw [hgoes.users, h.users, hinserted, List.append_assoc]
  case orderly =>
    change Orderly (Next _ ((w.db.accounts coin_id).map (·.account_id)))
      ((s.trace ++ [(i, (⟨o, r⟩ : Event Ans))]).map fun e => (e.1, act coin_id e.2))
    rw [hgoes.accounts, List.map_append]
    refine h.orderly.concat (fun k hk => ?_) fun k hk => ?_
    · obtain ⟨u, hu, rfl⟩ := act_eq_take.mp hk
      obtain ⟨he, rfl⟩ := row_eq_some.mp hu
      cases he
      obtain ⟨-, -, h', a, hhist, ha⟩ := hasks
      obtain ⟨pre, mid, htrace, hmid⟩ := Threads.exists_last hhist
      refine ⟨pre.map fun e => (e.1, act u.coin_id e.2),
        mid.map fun e => (e.1, act u.coin_id e.2), ?_, ?_⟩
      · simp [htrace, act, ha]
      · intro e' he'
        obtain ⟨e, he, rfl⟩ := List.mem_map.mp he'
        exact hmid e he
    · refine hgoes.offered k hk _ _ ?_
      rw [h.users, List.map_append, taken_act]
  case own =>
    intro j u hmem
    rcases List.mem_append.mp hmem with hmem | hmem
    · exact h.own j u hmem
    · cases List.mem_singleton.mp hmem
      exact hasks.1
  case once =>
    change ((inserted coin_id (s.trace ++ [(i, ⟨o, r⟩)])).map (·.user_id)).Nodup
    rw [hinserted]
    cases hrow : row coin_id ⟨o, r⟩ with
    | none => simpa using h.once
    | some u =>
      obtain ⟨he, hcoin⟩ := row_eq_some.mp hrow
      cases he
      rw [List.map_append, List.nodup_append]
      refine ⟨h.once, by simp, fun user_id hmem v hv huv => ?_⟩
      obtain ⟨u', hu', rfl⟩ := List.mem_map.mp hmem
      obtain ⟨-, j, hj⟩ := mem_inserted.mp hu'
      obtain rfl : v = u.user_id := by simpa using hv
      -- the row of the same user was inserted by the same request, which inserts one
      obtain rfl : j = i := by
        by_contra hne
        exact hbegins.users j i hne _ (h.own j u' hj) (huv ▸ hasks.1)
      exact hasks.2.1 u' true (Threads.mem_hist.mpr hj)
  case known =>
    intro e hmem
    rcases List.mem_append.mp hmem with hmem | hmem
    · exact (h.known e hmem).mono hgrown
    · obtain rfl := List.mem_singleton.mp hmem
      exact hgoes.known
  case coin => exact hgoes.coin.trans h.coin
  case token => exact hgoes.token.trans h.token
  case cache =>
    intro user_id info hinfo
    rcases hgoes.cache user_id info hinfo with hold | hown
    · exact hgrown.owns (h.cache user_id info hold)
    · exact hown

lemma Going.move (h : Going coin_id calls w₀ s) {w : World} (hw : Besides coin_id s.world w) :
    Going coin_id calls w₀ { s with world := w } := by
  obtain ⟨rows, haccounts, hrows⟩ := hw.accounts
  have hgrown : Grown coin_id s.world.db w.db := by
    refine ⟨?_, ?_⟩
    · rw [hw.users]
      exact List.Subset.refl _
    · rw [haccounts]
      exact List.subset_append_left _ _
  constructor
  case follows => exact h.follows
  case users => exact hw.users.trans h.users
  case orderly =>
    refine h.orderly.mono fun l k hk => ?_
    change Next _ ((w.db.accounts coin_id).map (·.account_id)) l k
    rw [haccounts, List.map_append]
    refine hk.append ?_
    simpa using hrows
  case own => exact h.own
  case once => exact h.once
  case known => exact fun e hmem => (h.known e hmem).mono hgrown
  case coin => exact hw.coin.trans h.coin
  case token => exact hw.token.trans h.token
  case cache =>
    intro user_id i hi
    rw [show w.s_usercoin_accountinfo.lookup _ = _ from hw.cache user_id] at hi
    exact hgrown.owns (h.cache user_id i hi)

lemma Going.steps (hbegins : Begins x coin_id calls w₀)
    (hrun : Threads.Steps (env x) (Besides coin_id) (fun _ _ _ => True) (begin calls w₀) s) :
    Going coin_id calls w₀ s := by
  refine hrun.inv (Going.start hbegins) fun s s' h hst => ?_
  have hf := hst.follows h.follows
  cases hst with
  | call hp hans _ => exact h.call hbegins hp hans hf
  | move hw => exact h.move hw

/-- The users of the coin share no account exactly if no account was inserted twice. -/
lemma Going.unshared_iff (hbegins : Begins x coin_id calls w₀) (h : Going coin_id calls w₀ s) :
    Unshared s.world.db coin_id ↔ ((inserted coin_id s.trace).map (·.account_id)).Nodup := by
  have hnew : ∀ u ∈ inserted coin_id s.trace,
      u.account_id ∉ (w₀.db.users coin_id).map (·.account_id) := by
    intro u hu hmem
    have htaken : u.account_id ∈ taken (s.trace.map fun e => (e.1, act coin_id e.2)) := by
      rw [taken_act]
      exact List.mem_map_of_mem hu
    obtain ⟨l, hnext⟩ := h.orderly.exists_offers htaken
    exact hnext.notMem (List.mem_append_left l hmem)
  rw [Unshared, h.users]
  constructor
  · intro hun
    rw [List.Nodup, List.pairwise_map]
    refine (List.pairwise_map.mp h.once).imp_of_mem fun hu hv huv => ?_
    exact hun _ (List.mem_append_right _ hu) _ (List.mem_append_right _ hv) huv
  · intro hnodup u hu v hv huv hid
    rcases List.mem_append.mp hu with hu | hu <;> rcases List.mem_append.mp hv with hv | hv
    · exact hbegins.rows u hu v hv huv hid
    · exact hnew v hv (hid ▸ List.mem_map_of_mem hu)
    · exact hnew u hu (hid ▸ List.mem_map_of_mem hv)
    · exact huv (congrArg UserRow.user_id (List.inj_on_of_nodup_map hnodup hu hv hid))

lemma Going.answer (h : Going coin_id calls w₀ s) {i : ι} {p : String × String}
    (hp : answered (outcome (s.prog i)) = some p) : ∃ user_id info,
      userOf (calls i).2 = .ok user_id ∧ Owns s.world.db user_id coin_id info ∧
        p = (info.address, info.tag) := by
  have hfollows := h.follows i
  have hknown : ∀ e ∈ s.hist i, Known coin_id (calls i).2 s.world.db e :=
    fun e he => h.known _ (Threads.mem_hist.mp he)
  cases hprog : s.prog i with
  | ret json_result =>
    rw [hprog] at hp hfollows
    obtain ⟨user_id, c, info, huser, hcoin, hanswered, hread⟩ := hfollows
    obtain rfl := hcoin.eq hknown
    refine ⟨user_id, info, huser, ?_, Option.some.inj (hp.symm.trans hanswered)⟩
    rcases hread with hfind | hread
    · exact hknown _ hfind user_id info rfl rfl
    · exact hread.owns hknown
  | raise | call =>
    rw [hprog] at hp
    cases hp

/-- **Users keep their accounts to themselves exactly if no request inserts a row between the
selection and the insertion of another**, in every run of requests of users for a coin. -/
theorem private_iff (hbegins : Begins x coin_id calls w₀)
    (hrun : Threads.Steps (env x) (Besides coin_id) (fun _ _ _ => True) (begin calls w₀) s) :
    Private coin_id s ↔ Undisturbed coin_id s := by
  have h := Going.steps hbegins hrun
  have hnodup : Unshared s.world.db coin_id ↔ Undisturbed coin_id s := by
    rw [h.unshared_iff hbegins, ← taken_act]
    exact nodup_taken_iff h.orderly (fun l k hk hmem => hk.notMem (List.mem_append_right _ hmem))
      fun l k k' => Next.unique
  rw [← hnodup]
  refine ⟨Private.rows, fun hun => ⟨hun, fun hdistinct i j hij p hi hj => ?_⟩⟩
  obtain ⟨user_id, info, huser, howns, rfl⟩ := h.answer hi
  obtain ⟨user_id', info', huser', howns', hp⟩ := h.answer hj
  obtain ⟨haddress, htag⟩ := Prod.mk.inj hp
  have hid : info.account_id = info'.account_id := by
    refine hdistinct _ (mem_accounts.mpr ⟨howns.account, rfl⟩) _
      (mem_accounts.mpr ⟨howns'.account, rfl⟩) ?_ ?_
    · exact congrArg some haddress
    · exact congrArg some htag
  have hne : user_id ≠ user_id' := fun hu => hbegins.users i j hij _ huser (hu ▸ huser')
  exact hun _ (mem_users.mpr ⟨howns.row, rfl⟩) _ (mem_users.mpr ⟨howns'.row, rfl⟩) hne hid

end

end

/-- Coin 1 with three accounts, of which the first is given. -/
def leftDb : Db where
  cat := {
    coin := [⟨1, some 1, some "BTC"⟩]
    node := []
    token := []
    account := [⟨0, 1, some "A", some ""⟩, ⟨1, 1, some "B", some ""⟩, ⟨2, 1, some "C", some ""⟩]
    coin_key := by simp }
  user := [⟨0, 0, 1⟩]

/-- Requesters of users 1 and 2. -/
def twoUsers (second : Bool) : Bool × Json :=
  (false, .arr [.str "BTC", .bool false, .int (if second then 2 else 1)])

/-- Both select the next account before either inserts its row. -/
def overlapping : Requesters Bool :=
  Threads.play (serve (fun _ _ => .down) fun _ => .null)
    (List.replicate 5 false ++ List.replicate 5 true ++ [false, true])
    (begin twoUsers (asked leftDb))

lemma overlapping_steps : Threads.Steps (env (.clear (fun _ _ => .down) fun _ => .null)) (Besides 1)
    (fun _ _ _ => True) (begin twoUsers (asked leftDb)) overlapping :=
  Threads.steps_play (serve_answers _ _) _ fun _ _ _ _ _ _ _ => trivial

lemma twoUsers_begins :
    Begins (.clear (fun _ _ => .down) fun _ => .null) 1 twoUsers (asked leftDb) where
  users i j hij u hu hu' := by
    have huser : ∀ second, userOf (twoUsers second).2 = .ok (if second then 2 else 1) := by
      decide
    rw [huser] at hu hu'
    have heq := Except.ok.inj (hu.trans hu'.symm)
    cases i <;> cases j <;> simp at hij heq
  coin := by
    rintro i _ ⟨coin_name, is_token, hname, htoken, rfl⟩ d hcoin - rows hrows row hrow
    obtain rfl := Except.ok.inj hname
    obtain rfl := Except.ok.inj htoken
    have heval : (coinQuery "BTC" false).eval d = some [[.int 1]] := by
      simp [coinQuery, Query.eval, hcoin, asked, leftDb]
    rw [Query.fetches_iff (by decide), heval] at hrows
    rcases hrows with hrows | ⟨-, rows', _, hrows', hperm, hrows⟩
    · obtain rfl := Option.some.inj hrows
      exact List.mem_singleton.mp hrow
    · obtain rfl := Option.some.inj hrows'
      obtain rfl := Option.some.inj hrows
      rw [← List.singleton_perm.mp hperm] at hrow
      exact List.mem_singleton.mp hrow
  cache _ _ h := by cases h
  rows u hu v hv hne := by
    have husers : leftDb.users 1 = [⟨0, 0, 1⟩] := by decide
    rw [asked, husers, List.mem_singleton] at hu hv
    exact absurd (congrArg UserRow.user_id (hu.trans hv.symm)) hne

lemma overlapping_not_private : ¬ Private 1 overlapping := by
  have husers : overlapping.world.db.users 1 = [⟨0, 0, 1⟩, ⟨1, 1, 1⟩, ⟨2, 1, 1⟩] := by
    decide +kernel
  intro h
  have hrows := h.rows
  rw [Unshared, husers] at hrows
  exact hrows ⟨1, 1, 1⟩ (by simp) ⟨2, 1, 1⟩ (by simp) (by decide) rfl

theorem overlapping_disturbed : ¬ Undisturbed 1 overlapping := fun h =>
  overlapping_not_private ((private_iff twoUsers_begins overlapping_steps).mpr h)

/-- Users 1 and 2 are given one account. -/
theorem accounts_shared : ¬ ∀ (ι : Type) [DecidableEq ι] (coin_id : ℤ) (x : Weather)
    (calls : ι → Bool × Json) (w₀ : World) (s : Requesters ι), Begins x coin_id calls w₀ →
    Threads.Steps (env x) (Besides coin_id) (fun _ _ _ => True) (begin calls w₀) s →
    Private coin_id s := fun h =>
  overlapping_not_private (h Bool 1 _ _ _ _ twoUsers_begins overlapping_steps)

end OpenWallet.Server
