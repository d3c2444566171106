import OpenWallet.Server.Accounts

/-!
Requests with the cache and without it. The key of the cache is two numbers one after the
other, so that it stands for one user and one coin only as long as no two requests meet in it.
-/

namespace OpenWallet.Server

open Lib Prog
open Monitor (Cell rowData)

/-- A request, whether the database lets it connect and write, and what it finds where the name
has made another statement of the lookup. -/
structure Ask where
  fHelp : Bool
  params : Json
  opens : Bool
  writes : Bool
  injected : Option (List Cell)

namespace Ask

/-- What a query gives the request. -/
def fetch (a : Ask) (d : Db) (q : Query) : Option (List (List Cell)) :=
  if q.injects then a.injected.map (·.map fun c => [c]) else q.eval d

/-- A request asks no node and makes no account. -/
def serve (a : Ask) : (o : Op) → World → Ans o × World
  | .getData q, w => (a.fetch w.db q, w)
  | .openDB, w => if a.opens then Server.serve (fun _ _ => .down) (fun _ => .null) .openDB w
    else (false, w)
  | .refreshDB r, w =>
    if a.writes then Server.serve (fun _ _ => .down) (fun _ => .null) (.refreshDB r) w
    else (false, w)
  | o, w => Server.serve (fun _ _ => .down) (fun _ => .null) o w

def run (cached : Bool) (a : Ask) (w : World) : Outcome Exn Json × World :=
  Lib.run a.serve (getrechargeaddress cached a.fHelp a.params) w

end Ask

/-- The address and the tag of an answer. -/
def answered : Outcome Exn Json → Option (String × String)
  | .done json_result =>
    match json_result.find? "address", json_result.find? "tag" with
    | some (.str address), some (.str tag) => some (address, tag)
    | _, _ => none
  | _ => none

/-- What requests are answered, one after the other. -/
def answers (cached : Bool) : List Ask → World → List (Option (String × String))
  | [], _ => []
  | a :: asks, w => answered (a.run cached w).1 :: answers cached asks (a.run cached w).2

/-- Where requests leave the server. -/
def after (cached : Bool) : List Ask → World → World
  | [], w => w
  | a :: asks, w => after cached asks (a.run cached w).2

/-- A new process over a database. -/
def asked (db : Db) : World := ⟨.fresh, [], db, [], 0, [], []⟩

/-- The request is one of the user for the coin, by the tables of coins and tokens, or by what it
finds there otherwise. -/
structure Names (cat : Catalog) (a : Ask) (coin_name : String) (user_id coin_id : ℤ) : Prop where
  size : a.params.size = 3
  name : a.params.idx 0 >>= Json.getStr = .ok coin_name
  user : a.params.idx 2 >>= Json.getInt = .ok user_id
  coin : ∃ is_token js, a.params.idx 1 >>= Json.getBool = .ok is_token ∧
    readRows [.INT] (a.fetch ⟨cat, []⟩ (coinQuery coin_name is_token)) =
      .ok (.arr (.arr [.int coin_id] :: js))

/-- The pairs of a user and a coin that requests name. -/
def Named (cat : Catalog) (asks : List Ask) (p : ℤ × ℤ) : Prop :=
  ∃ a ∈ asks, a.fHelp = false ∧ a.opens = true ∧ ∃ coin_name, Names cat a coin_name p.1 p.2

section

variable {a : Ask} {w : World} {coin_name : String} {user_id coin_id : ℤ}

lemma wp_getData_of {q : Query} {col_type : List Monitor.DataType} {Q : Json → World → Prop}
    {D : World → Prop} : wp (Env.of a.serve) (getData q col_type) Q D w ↔
      (∀ j, readRows col_type (a.fetch w.db q) = .ok j → Q j w) ∧
        ∀ e, readRows col_type (a.fetch w.db q) = .error e → D w := by
  simp only [getData, wp_bind, wp_op_of, liftM_eq, wp_lift]
  rfl

lemma wp_fail_same {α : Type} {w₀ : World} {what : String} {Q : α → World → Prop}
    (hcache : w.s_usercoin_accountinfo = w₀.s_usercoin_accountinfo) (hdb : w.db = w₀.db) :
    wp (Env.of a.serve) (fail what : Srv α) Q (Same w₀) w := by
  simp only [fail, closeDB, wp_bind, wp_op_of, wp_raise]
  exact ⟨hcache, hdb⟩

/-- Clear weather but for the lookup. -/
def Ask.weather (a : Ask) : Weather :=
  { Weather.clear (fun _ _ => .down) (fun _ => .null) with
    injected := fun _ _ cells => cells = a.injected }

lemma Ask.fetches_fetch (a : Ask) (q : Query) (d : Db) :
    q.Fetches a.weather.injected d (a.fetch d q) := by
  unfold Query.Fetches Ask.fetch
  split
  · exact ⟨a.injected, rfl, rfl⟩
  · exact Or.inl rfl

lemma serve_sure (a : Ask) (o : Op) (w : World) {r : Ans o} {w' : World}
    (h : a.serve o w = (r, w')) :
    ((env a.weather).only Sure).answers o w r w' := by
  have hclear := serve_answers (fun _ _ => .down) (fun _ => .null) o w
  cases o with
  | openDB =>
    rw [Ask.serve] at h
    split at h
    · cases h
      exact ⟨hclear, trivial⟩
    · cases h
      exact ⟨rfl, trivial⟩
  | refreshDB u =>
    rw [Ask.serve] at h
    split at h
    · cases h
      exact ⟨hclear, trivial⟩
    · cases h
      exact ⟨rfl, trivial⟩
  | getData q =>
    obtain ⟨rfl, rfl⟩ := Prod.mk.inj h
    refine ⟨⟨rfl, Or.inr (a.fetches_fetch q w.db)⟩, ?_⟩
    cases q <;> first | exact trivial | exact fun hnone hne => absurd hnone hne
  | _ =>
    obtain ⟨rfl, rfl⟩ := Prod.mk.inj h
    exact ⟨hclear, trivial⟩

lemma wp_assignMissed_of (a : Ask) (coin_name : String) (user_id coin_id : ℤ) (h : Kept w.db) :
    wp (Env.of a.serve) (assignMissed coin_name user_id coin_id)
      (fun j w' => ∃ i, Answered w coin_name user_id coin_id i j w') (Same w) w := by
  refine wp_mono (wp_fewer (fun o w r w' hr => serve_sure a o w hr) (fun _ _ _ hd => hd.elim)
    (wp_assignMissed coin_name user_id coin_id h)) (fun _ _ hq => hq) fun w' hd => ?_
  rcases hd with hsame | ⟨hcrash, -⟩
  · exact hsame
  · exact hcrash.elim

end

section

variable {w : World} {user_id coin_id : ℤ} {i : AccountInfo}

lemma wp_assignMissed_owned (a : Ask) (coin_name : String) (h : Kept w.db)
    (ho : Owns w.db user_id coin_id i) :
    wp (Env.of a.serve) (assignMissed coin_name user_id coin_id)
      (fun j w' => j = json_result user_id coin_name i.address i.tag ∧ w'.db = w.db)
      (fun _ => False) w := by
  have hfetch : a.fetch w.db (.userAccount coin_id user_id) =
      (Query.userAccount coin_id user_id).eval w.db := rfl
  simp only [assignMissed, wp_bind, wp_getData_of, hfetch, h.reads ho, Except.ok.injEq, forall_eq',
    reduceCtorEq, false_implies, implies_true, and_true, Json.size, List.length_singleton,
    gt_iff_lt, zero_lt_one, if_true, answer, liftM_eq, accountInfo_json ho.int, wp_lift, insert,
    closeDB, wp_op_of, pure_eq, wp_ret, true_and]
  rfl

lemma run_assignMissed_owned (a : Ask) (coin_name : String) (h : Kept w.db)
    (ho : Owns w.db user_id coin_id i) :
    (run a.serve (assignMissed coin_name user_id coin_id) w).1 =
        .done (json_result user_id coin_name i.address i.tag) ∧
      (run a.serve (assignMissed coin_name user_id coin_id) w).2.db = w.db := by
  have hpost := run_post a.serve w (wp_assignMissed_owned a coin_name h ho)
  generalize run a.serve (assignMissed coin_name user_id coin_id) w = r at hpost
  obtain ⟨_ | _ | _, w'⟩ := r
  · exact ⟨congrArg Outcome.done hpost.1, hpost.2⟩
  · exact hpost.elim
  · exact hpost.elim

end

section

variable {a : Ask} {w : World} {cat : Catalog}

/-- The databases have the same coins and tokens. -/
structure Coins (cat : Catalog) (d : Db) : Prop where
  coin : d.cat.coin = cat.coin
  token : d.cat.token = cat.token

lemma Coins.fetch {d : Db} (h : Coins cat d) (a : Ask) (coin_name : String) (is_token : Bool) :
    a.fetch d (coinQuery coin_name is_token) = a.fetch ⟨cat, []⟩ (coinQuery coin_name is_token) := by
  have heval : (coinQuery coin_name is_token).eval d =
      (coinQuery coin_name is_token).eval ⟨cat, []⟩ := by
    cases is_token <;> simp [coinQuery, Query.eval, h.coin, h.token]
  rw [Ask.fetch, Ask.fetch, heval]

lemma column_of_fetch {d : Db} {coin_name : String} {is_token : Bool} {rows : List (List Cell)}
    (h : a.fetch d (coinQuery coin_name is_token) = some rows) : ∀ row ∈ rows, ∃ c, row = [c] := by
  unfold Ask.fetch at h
  split at h
  · exact column_of_cells h
  · exact column_of_eval h

lemma wp_lookupCoin_of (h : Coins cat w.db) :
    wp (Env.of a.serve) (lookupCoin a.fHelp a.params)
      (fun r w' => (a.fHelp = false ∧ a.opens = true ∧ Names cat a r.1 r.2.1 r.2.2) ∧
        Same w w') (Same w) w := by
  have hself : Same w w := ⟨rfl, rfl⟩
  unfold lookupCoin
  split
  · exact hself
  next hargs =>
  obtain ⟨hfHelp, hsize⟩ : a.fHelp = false ∧ a.params.size = 3 := by simpa using hargs
  rw [wp_bind, openDB, wp_op_of, Ask.serve]
  split
  · next hopens =>
    simp only [Server.serve, Bool.not_true, Bool.false_eq_true, if_false, wp_bind, liftM_eq]
    have hopen : Same w { w with connections := w.connections + 1 } := ⟨rfl, rfl⟩
    refine wp_lift_ok hopen fun j₀ h₀ => wp_lift_ok hopen fun coin_name hname => ?_
    refine wp_lift_ok hopen fun j₁ h₁ => wp_lift_ok hopen fun is_token htoken => ?_
    refine wp_lift_ok hopen fun j₂ h₂ => wp_lift_ok hopen fun user_id huser => ?_
    rw [wp_getData_of]
    refine ⟨fun j hj => ?_, fun _ _ => hopen⟩
    split
    · exact wp_fail_same rfl rfl
    next hne =>
    obtain ⟨coin_id, js, rfl, hint⟩ := coin_of_read hj hne fun _ => column_of_fetch
    simp only [Json.idx, List.getD_cons_zero, wp_bind, wp_lift, Except.ok.injEq, forall_eq', getInt_int hint,
      reduceCtorEq, false_implies, implies_true, and_true]
    refine ⟨⟨hfHelp, hopens, hsize, ?_, ?_, is_token, js, ?_, ?_⟩, rfl, rfl⟩
    · rw [h₀, ok_bind, hname]
    · rw [h₂, ok_bind, huser]
    · rw [h₁, ok_bind, htoken]
    · rw [← h.fetch]
      exact hj
  · exact hself

end

/-- The calls of a request that do not look into the cache. -/
def Stored : Op → Prop
  | .openDB | .closeDB | .getData _ | .refreshDB _ | .insert _ _ => True
  | _ => False

lemma serve_alike (a : Ask) (o : Op) (w w' : World) (ho : Stored o) (h : w.db = w'.db) :
    (a.serve o w).1 = (a.serve o w').1 ∧ (a.serve o w).2.db = (a.serve o w').2.db := by
  cases o with
  | openDB =>
    simp only [Ask.serve]
    split
    · exact ⟨rfl, h⟩
    · exact ⟨rfl, h⟩
  | refreshDB r =>
    simp only [Ask.serve]
    split
    · exact ⟨rfl, congrArg (·.insertUser r) h⟩
    · exact ⟨rfl, h⟩
  | getData q => exact ⟨congrArg (a.fetch · q) h, h⟩
  | closeDB | insert => exact ⟨rfl, h⟩
  | _ => exact absurd ho id

/-- The calls that change nothing but the connections. -/
def Looks : Op → Prop
  | .openDB | .closeDB | .getData _ => True
  | _ => False

lemma stored_of_looks (o : Op) (h : Looks o) : Stored o := by
  cases o <;> first | exact trivial | exact h.elim

lemma fail_looks {α : Type} (what : String) : (fail what : Srv α).Within Looks fun _ => True :=
  within_bind (P := fun _ => True) (within_op trivial fun _ => trivial) fun _ _ => trivial

lemma getData_looks (q : Query) (col_type : List Monitor.DataType) :
    (getData q col_type).Within Looks fun _ => True :=
  within_bind (P := fun _ => True) (within_op trivial fun _ => trivial) fun _ _ =>
    within_lift fun _ => trivial

section

variable (coin_name : String) (user_id coin_id : ℤ)

lemma answer_within (json_data : Json) :
    (answer coin_name user_id coin_id json_data).Within Stored fun _ => True := by
  refine within_bind (P := fun _ => True) (within_lift fun _ => trivial) fun _ _ => ?_
  refine within_bind (P := fun _ => True) (within_op trivial fun _ => trivial) fun _ _ => ?_
  exact within_bind (P := fun _ => True) (within_op trivial fun _ => trivial) fun _ _ => trivial

lemma assignMissed_within :
    (assignMissed coin_name user_id coin_id).Within Stored fun _ => True := by
  refine within_bind (within_mono (getData_looks _ _) stored_of_looks) fun _ _ => ?_
  split
  · exact answer_within _ _ _ _
  refine within_bind (within_mono (getData_looks _ _) stored_of_looks) fun _ _ => ?_
  split
  · exact within_mono (fail_looks _) stored_of_looks
  refine within_bind (P := fun _ => True) (within_lift fun _ => trivial) fun _ _ => ?_
  refine within_bind (P := fun _ => True) (within_lift fun _ => trivial) fun _ _ => ?_
  refine within_bind (P := fun _ => True) (within_lift fun _ => trivial) fun _ _ => ?_
  refine within_bind (P := fun _ => True) (within_op trivial fun _ => trivial) fun _ _ => ?_
  split
  · exact within_mono (fail_looks _) stored_of_looks
  · exact answer_within _ _ _ _

end

lemma lookupCoin_looks (fHelp : Bool) (params : Json) :
    (lookupCoin fHelp params).Within Looks fun _ => True := by
  unfold lookupCoin
  split
  · trivial
  refine within_bind (P := fun _ => True) (within_op trivial fun _ => trivial) fun _ _ => ?_
  split
  · trivial
  iterate 6 refine within_bind (P := fun _ => True) (within_lift fun _ => trivial) fun _ _ => ?_
  refine within_bind (getData_looks _ _) fun _ _ => ?_
  split
  · exact fail_looks _
  iterate 3 refine within_bind (P := fun _ => True) (within_lift fun _ => trivial) fun _ _ => ?_
  trivial

/-! ### The cache and the tables agree -/

lemma run_assign_hit (a : Ask) {w : World} {coin_name : String} {user_id coin_id : ℤ}
    {i : AccountInfo} (h : w.s_usercoin_accountinfo.lookup (encode_user user_id coin_id) = some i) :
    run a.serve (assign true coin_name user_id coin_id) w =
      (.done (json_result user_id coin_name i.address i.tag),
        { w with connections := w.connections - 1 }) := by
  have hfind : run a.serve (cacheFind true (encode_user user_id coin_id)) w = (.done (some i), w) :=
    congrArg (fun r => (Outcome.done r, w)) h
  rw [assign, run_bind_of _ _ hfind]
  rfl

lemma run_assign_miss (a : Ask) (cached : Bool) {w : World} {coin_name : String}
    {user_id coin_id : ℤ} (h : cached = true →
      w.s_usercoin_accountinfo.lookup (encode_user user_id coin_id) = none) :
    run a.serve (assign cached coin_name user_id coin_id) w =
      run a.serve (assignMissed coin_name user_id coin_id) w := by
  have hfind : run a.serve (cacheFind cached (encode_user user_id coin_id)) w = (.done none, w) := by
    cases cached with
    | false => rfl
    | true => exact congrArg (fun r => (Outcome.done r, w)) (h rfl)
  rw [assign, run_bind_of _ _ hfind]

/-- Without the account in the cache, a request answers with an account of the user, or fails. -/
lemma run_assignMissed_cases (a : Ask) {w : World} (coin_name : String) (user_id coin_id : ℤ)
    (h : Kept w.db) :
    (∃ i j, (run a.serve (assignMissed coin_name user_id coin_id) w).1 = .done j ∧
      Answered w coin_name user_id coin_id i j
        (run a.serve (assignMissed coin_name user_id coin_id) w).2) ∨
    (answered (run a.serve (assignMissed coin_name user_id coin_id) w).1 = none ∧
      Same w (run a.serve (assignMissed coin_name user_id coin_id) w).2) := by
  have hpost := run_post a.serve w (wp_assignMissed_of a coin_name user_id coin_id h)
  generalize run a.serve (assignMissed coin_name user_id coin_id) w = r at hpost
  obtain ⟨j | _ | _, w'⟩ := r
  · obtain ⟨i, hi⟩ := hpost
    exact Or.inl ⟨i, j, rfl, hi⟩
  · exact Or.inr ⟨rfl, hpost⟩
  · exact Or.inr ⟨rfl, hpost⟩

/-- What is in the cache are accounts that the users of certain pairs have. -/
structure Agree (cat : Catalog) (S : ℤ × ℤ → Prop) (w : World) : Prop where
  coins : Coins cat w.db
  kept : Kept w.db
  cache : ∀ key i, w.s_usercoin_accountinfo.lookup key = some i →
    ∃ p, S p ∧ key = encode_user p.1 p.2 ∧ Owns w.db p.1 p.2 i

section

variable {cat : Catalog} {S : ℤ × ℤ → Prop} {w w' : World}

lemma Agree.same (h : Agree cat S w) (hs : Same w w') : Agree cat S w' := by
  refine ⟨hs.db ▸ h.coins, hs.db ▸ h.kept, fun key i hi => ?_⟩
  rw [hs.cache] at hi
  rw [hs.db]
  exact h.cache key i hi

lemma Agree.answered {coin_name : String} {user_id coin_id : ℤ} {i : AccountInfo} {j : Json}
    (h : Agree cat S w) (hS : S (user_id, coin_id))
    (ha : Answered w coin_name user_id coin_id i j w') : Agree cat S w' := by
  obtain ⟨hcoins, howns⟩ : Coins cat w'.db ∧
      ∀ (p : ℤ × ℤ) i, Owns w.db p.1 p.2 i → Owns w'.db p.1 p.2 i := by
    rcases ha.db with hdb | ⟨account_id, hg⟩
    · rw [hdb]
      exact ⟨h.coins, fun _ _ => id⟩
    · rw [hg.insert]
      exact ⟨⟨h.coins.coin, h.coins.token⟩, fun _ _ ho => ho.insertUser _⟩
  refine ⟨hcoins, ha.kept, fun key i' hi' => ?_⟩
  rw [ha.cache, List.lookup_cons] at hi'
  split at hi'
  · next hkey =>
    obtain rfl := Option.some.inj hi'
    exact ⟨_, hS, by simpa using hkey, ha.owns⟩
  · obtain ⟨p, hp, hkey, ho⟩ := h.cache key i' hi'
    exact ⟨p, hp, hkey, howns p i' ho⟩

/-- A request that meets only its own pair in the cache is answered as without it. -/
lemma Agree.run {a : Ask} (h : Agree cat S w) (hdb : w.db = w'.db)
    (hS : ∀ p, Named cat [a] p → S p)
    (hinj : ∀ p q, S p → S q → encode_user p.1 p.2 = encode_user q.1 q.2 → p = q) :
    (a.run true w).1 = (a.run false w').1 ∧ (a.run true w).2.db = (a.run false w').2.db ∧
      Agree cat S (a.run true w).2 := by
  have halike := run_alike (R := fun w w' => w.db = w'.db) a.serve
    (within_mono (lookupCoin_looks a.fHelp a.params) stored_of_looks) (serve_alike a) hdb
  have hpost := run_post a.serve w (wp_lookupCoin_of h.coins)
  simp only [Ask.run, getrechargeaddress, run_bind]
  generalize Lib.run a.serve (lookupCoin a.fHelp a.params) w = r at halike hpost
  generalize Lib.run a.serve (lookupCoin a.fHelp a.params) w' = r' at halike
  obtain ⟨o, w₁⟩ := r
  obtain ⟨o', w₁'⟩ := r'
  obtain ⟨rfl, hdb₁⟩ : o = o' ∧ w₁.db = w₁'.db := halike
  cases o with
  | threw e => exact ⟨rfl, hdb₁, h.same hpost⟩
  | died => exact ⟨rfl, hdb₁, h.same hpost⟩
  | done r =>
    obtain ⟨coin_name, user_id, coin_id⟩ := r
    obtain ⟨⟨hfHelp, hopens, hnames⟩, hsame⟩ := hpost
    have hSp : S (user_id, coin_id) :=
      hS _ ⟨a, List.mem_singleton_self a, hfHelp, hopens, coin_name, hnames⟩
    have h₁ := h.same hsame
    simp only [resume_done]
    cases hhit : w₁.s_usercoin_accountinfo.lookup (encode_user user_id coin_id) with
    | some i =>
      obtain ⟨p, hp, hkey, ho⟩ := h₁.cache _ i hhit
      obtain rfl := hinj _ p hSp hp hkey
      rw [run_assign_hit a hhit, run_assign_miss a false (by simp)]
      rw [hdb₁] at ho
      obtain ⟨hans, hdb'⟩ := run_assignMissed_owned a coin_name (hdb₁ ▸ h₁.kept) ho
      exact ⟨hans.symm, by rw [hdb', ← hdb₁], h₁.same ⟨rfl, rfl⟩⟩
    | none =>
      rw [run_assign_miss a _ fun _ => hhit, run_assign_miss a false (by simp)]
      have halike := run_alike (R := fun w w' => w.db = w'.db) a.serve
        (assignMissed_within coin_name user_id coin_id) (serve_alike a) hdb₁
      refine ⟨halike.1, halike.2, ?_⟩
      rcases run_assignMissed_cases a coin_name user_id coin_id h₁.kept with ⟨i, j, -, hi⟩ | ⟨-, hsame⟩
      · exact h₁.answered hSp hi
      · exact h₁.same hsame

lemma Agree.answers {asks : List Ask} (h : Agree cat S w) (hdb : w.db = w'.db)
    (hS : ∀ p, Named cat asks p → S p)
    (hinj : ∀ p q, S p → S q → encode_user p.1 p.2 = encode_user q.1 q.2 → p = q) :
    answers true asks w = answers false asks w' := by
  induction asks generalizing w w' with
  | nil => rfl
  | cons a asks ih =>
    obtain ⟨hans, hdb₁, h₁⟩ := h.run (a := a) hdb
      (fun p ⟨b, hb, hp⟩ => hS p ⟨b, List.mem_cons.mpr (Or.inl (List.mem_singleton.mp hb)), hp⟩) hinj
    rw [answers, answers, hans]
    congr 1
    exact ih h₁ hdb₁ fun p ⟨b, hb, hp⟩ => hS p ⟨b, List.mem_cons_of_mem a hb, hp⟩

end

/-! ### Two pairs in one key -/

section

variable {cat : Catalog} {w w' : World}

lemma answered_json_result (user_id : ℤ) (coin_name address tag : String) :
    answered (.done (json_result user_id coin_name address tag)) = some (address, tag) := rfl

end

end OpenWallet.Server
