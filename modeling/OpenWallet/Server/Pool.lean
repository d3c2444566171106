import OpenWallet.Lib.Segment
import OpenWallet.Server.Rows
import OpenWallet.Server.Start

/-!
The pool of accounts of a coin: requests take the accounts in the order of their identifiers,
and `getNewAddress` appends accounts after the last one, with gaps where something failed.
-/

namespace OpenWallet.Server

open Lib Prog
open Monitor (NodeInfo)

namespace Db

variable (d : Db) (coin_id : ℤ)

def accountIds : List ℤ := (d.accounts coin_id).map (·.account_id)
def userIds : List ℤ := (d.users coin_id).map (·.account_id)

end Db

/-- The accounts that users have are the first of the coin, each once. -/
abbrev Pool (d : Db) (coin_id : ℤ) : Prop := Segment (d.userIds coin_id) (d.accountIds coin_id)

section

variable {d d' : Db} {c : ℤ}

lemma Pool.gives {user_id coin_id account_id : ℤ} (h : Pool d c)
    (hg : Gives d user_id coin_id account_id d') : Pool d' c := by
  obtain ⟨⟨m, a, hm, ha, rfl⟩, rfl⟩ := hg
  by_cases hc : coin_id = c
  · subst hc
    obtain ⟨hmem, hma, hleast⟩ := above_eq_some ha
    have hids : (d.insertUser ⟨user_id, a.account_id, coin_id⟩).userIds coin_id =
        d.userIds coin_id ++ [a.account_id] := by
      simp [Db.userIds, Db.users, Db.insertUser]
    have htake := Segment.take h hm (List.mem_map_of_mem hmem) hma ?_
    · rw [Pool, hids]
      exact htake
    · rintro b hb hmb
      obtain ⟨b, hb', rfl⟩ := List.mem_map.mp hb
      exact hleast b hb' hmb
  · have hids : (d.insertUser ⟨user_id, a.account_id, coin_id⟩).userIds c = d.userIds c := by
      simp [Db.userIds, Db.users, Db.insertUser, hc]
    rw [Pool, hids]
    exact h

lemma Pool.asked {w w' : World} (h : Pool w.db c) (ha : Asked w w') : Pool w'.db c := by
  rcases ha.db with hdb | ⟨_, _, _, hg⟩
  · rwa [hdb]
  · exact h.gives hg

/-- The rows are of another coin, or come after all accounts of this one. -/
def Follows (cat : Catalog) (c : ℤ) (rows : List AccountRow) : Prop :=
  (∀ r ∈ rows, r.coin_id ≠ c) ∨ (rows.map (·.account_id)).Nodup ∧
    ∀ a ∈ cat.account, a.coin_id = c → ∀ r ∈ rows, a.account_id < r.account_id

lemma Follows.sublist {cat : Catalog} {rows rows' : List AccountRow} (h : Follows cat c rows)
    (hs : rows'.Sublist rows) : Follows cat c rows' := by
  rcases h with h | ⟨hnodup, hlt⟩
  · exact Or.inl fun r hr => h r (hs.subset hr)
  · exact Or.inr ⟨hnodup.sublist (hs.map _), fun a ha hc r hr => hlt a ha hc r (hs.subset hr)⟩

lemma Pool.insert {rows : List AccountRow} (h : Pool d c) (hf : Follows d.cat c rows) :
    Pool (d.insertAccounts rows) c := by
  have hids : (d.insertAccounts rows).accountIds c =
      d.accountIds c ++ (rows.filter fun a => a.coin_id = c).map (·.account_id) := by
    simp [Db.accountIds, Db.accounts, Db.insertAccounts]
  change Segment (d.userIds c) ((d.insertAccounts rows).accountIds c)
  rw [hids]
  rcases hf with hf | ⟨hnodup, hlt⟩
  · rw [List.filter_eq_nil_iff.mpr fun r hr => by simpa using hf r hr]
    simpa using h
  · refine h.grow (hnodup.sublist (List.filter_sublist.map _)) fun a ha b hb => ?_
    obtain ⟨a, ha', rfl⟩ := List.mem_map.mp ha
    obtain ⟨b, hb', rfl⟩ := List.mem_map.mp hb
    obtain ⟨hmem, hac⟩ := List.mem_filter.mp ha'
    exact hlt a hmem (by simpa using hac) b (List.mem_filter.mp hb').1

/-- As long as the identifiers stay below `2 ^ 31`, the rows of a call come last. -/
lemma Numbered.follows {coin_id : ℤ} {count_user count_account max_account_id n : ℕ}
    {rows : List AccountRow} (h : Numbered coin_id max_account_id n rows)
    (hc : Counted d coin_id count_user count_account max_account_id)
    (hroom : coin_id = c → ∀ a ∈ d.accounts c, a.account_id + n < 2 ^ 31) :
    Follows d.cat c rows := by
  by_cases hcoin : coin_id = c
  · subst hcoin
    obtain ⟨m, hm, -, -⟩ := hc.last
    obtain ⟨hmem, hmax⟩ := List.max?_eq_some_iff.mp hm
    obtain ⟨a, ha, rfl⟩ := List.mem_map.mp hmem
    have hlt := hroom rfl a ha
    have hid : ∀ i < n, newId max_account_id i = a.account_id + i + 1 := fun i hi =>
      hc.newId_eq hm (by omega)
    have hmap : (List.range n).map (newId max_account_id) =
        (List.range n).map fun i : ℕ => a.account_id + i + 1 :=
      List.map_congr_left fun i hi => hid i (List.mem_range.mp hi)
    refine Or.inr ⟨?_, fun b hb hbc r hr => ?_⟩
    · refine List.Nodup.sublist h.ids ?_
      rw [hmap]
      exact List.nodup_range.map fun i j hij => by simpa using hij
    · have hr' := h.ids.subset (List.mem_map_of_mem hr)
      rw [hmap, List.mem_map] at hr'
      obtain ⟨i, -, hi⟩ := hr'
      have hle := hmax b.account_id (List.mem_map_of_mem
        (List.mem_filter.mpr ⟨hb, by simpa using hbc⟩))
      omega
  · exact Or.inl fun r hr => h.coin r hr ▸ hcoin

end

/-- The identifiers a call may need for the coin fit into an `int`. -/
def Room (c : ℤ) (coin_name : String) (address_quantity : ℕ) (w : World) : Prop :=
  w.vars.s_coinName_coinid_.lookup coin_name = some c →
    ∀ a ∈ w.db.accounts c, a.account_id + address_quantity < 2 ^ 31

section

variable {x : Weather} {c : ℤ}

lemma wp_getNewAddress_pool {coin_name : String} {address_quantity : ℕ} {w : World}
    (hroom : Room c coin_name address_quantity w) (h : Pool w.db c) :
    wp ((env x).among (Requested x)) (getNewAddress coin_name address_quantity)
      (fun _ w' => Pool w'.db c) (fun w' => Pool w'.db c) w := by
  have hcat : ∀ w₁ w₂, Requested x w₁ w₂ → w₂.db.cat = w₁.db.cat := by
    intro w₁ w₂ hr
    rcases hr.asked.db with hdb | ⟨_, _, _, hg⟩
    · rw [hdb]
    · rw [hg.insert]
      rfl
  refine wp_getNewAddress (P := fun w' => Pool w'.db c ∧ w'.db.cat = w.db.cat)
    (K := fun rows w' => (Pool w'.db c ∧ w'.db.cat = w.db.cat) ∧ Follows w.db.cat c rows)
    (fun w₁ w₂ h hr => ⟨h.1.asked hr.asked, (hcat _ _ hr).trans h.2⟩) (fun _ _ h => h)
    (fun _ h => h.1)
    (fun rows w₁ w₂ h hr => ⟨⟨h.1.1.asked hr.asked, (hcat _ _ hr).trans h.1.2⟩, h.2⟩)
    (fun _ _ h => h.1.1) (fun _ _ h hr => Pool.asked h hr.asked) (fun _ _ h => h) (fun _ h => h)
    (fun rows rows' w₁ h hs => h.1.1.insert (h.1.2 ▸ h.2.sublist hs)) ?_ ⟨h, rfl⟩
  intro w₁ coin_id node count_user count_account max_account_id h₁ _ hcoin _ hcount
  have hw := wp_within_among (E := env x) (R := Requested x)
    (I := fun w' => Pool w'.db c ∧ w'.db.cat = w.db.cat)
    (newRows_within node coin_id max_account_id address_quantity)
    (fun w₂ w₃ h hr => ⟨h.1.asked hr.asked, (hcat _ _ hr).trans h.2⟩)
    (fun o w₂ w₃ _ h hd => by rwa [hd.2]) (fun o w₂ r w₃ ho h ha => by rwa [ho.db ha]) h₁
  refine wp_mono hw (fun r w₂ hr => ?_) fun _ h => h.1
  cases r with
  | none => exact hr.2.1
  | some rows =>
    have hnum := hr.1 rows rfl
    refine ⟨hr.2, h₁.2 ▸ hnum.follows hcount fun hc a ha => ?_⟩
    refine hroom (hc ▸ hcoin) a ?_
    rwa [Db.accounts, ← h₁.2]

def left (d : Db) (c : ℤ) : ℕ := ((d.accountIds c).filter (· ∉ d.userIds c)).length

/-- **Users have the first accounts of a coin, each once, in every state of every run** in which
the identifiers stay below `2 ^ 31`; so the difference that `getNewAddress` computes is the
number of accounts that are left. -/
theorem pool_kept {g_json_config : Json} {w₀ w : World} {b : Bool} (h₀ : Pool w₀.db c)
    (hr : Serves x g_json_config (Room c) w₀ b w) :
    Pool w.db c ∧ ∀ count_user count_account max_account_id,
      Counted w.db c count_user count_account max_account_id →
      count_user ≤ count_account ∧ unassigned count_account count_user = left w.db c := by
  have hpool : Pool w.db c := by
    refine (hr.inv (I := fun w => Pool w.db c) (J := fun w => Pool w.db c) (fun _ h => h) h₀
      (fun w h => ?_) (fun _ _ h hreq => Pool.asked h hreq.asked) fun _ _ _ hok h =>
        wp_getNewAddress_pool hok h).1
    refine wp_mono (wp_init g_json_config rfl) (fun _ w' hw => ?_) fun w' hw => ?_
    · rw [hw.1.db]
      exact h
    · rw [hw.db]
      exact h
  refine ⟨hpool, fun count_user count_account max_account_id hc => ?_⟩
  have hleft := hpool.length_left
  have hlt := hc.accounts_lt
  have hu : count_user = (w.db.userIds c).length := by simp [hc.users, Db.userIds]
  have ha : count_account = (w.db.accountIds c).length := by simp [hc.accounts, Db.accountIds]
  rw [← hu, ← ha] at hleft
  refine ⟨by omega, ?_⟩
  unfold unassigned left
  omega

end

/-- A node that has an address for every request. -/
def addressNode (_ : ℕ) (_ : Request) : Answer := .body (.obj [("result", .str "A")])

/-- BTC with one account, which a user has. -/
def smallPool (account_id : ℤ) : World where
  vars := .fresh
  s_usercoin_accountinfo := []
  db := { user := [⟨1, account_id, 7⟩], cat := {
    coin := [⟨7, some 1, some "BTC"⟩]
    node := [⟨1, some "u", some "", some "", some ""⟩]
    token := []
    account := [⟨account_id, 7, some "B", some "BTC"⟩]
    coin_key := by simp } }
  wallet := []
  connections := 0
  wire := []
  made := []

lemma smallPool_pool (account_id : ℤ) : Pool (smallPool account_id).db 7 :=
  ⟨List.nodup_singleton _, List.nodup_singleton _, List.cons_ne_nil _ _, fun _ h => h,
    fun _ ha _ hu _ => (List.mem_singleton.mp ha).trans (List.mem_singleton.mp hu).symm ▸ hu⟩

/-- The account after the last `int` comes first. -/
theorem pool_overflow : ¬ ∀ (x : Weather) (g_json_config : Json) (c : ℤ) (w₀ w : World) (b : Bool),
    ¬ x.sqlFails → Pool w₀.db c → Serves x g_json_config (fun _ _ _ => True) w₀ b w →
    Pool w.db c := by
  intro h
  have hpool := h _ _ 7 _ _ _ id (smallPool_pool (2 ^ 31 - 1))
    (serves_play (fun _ _ _ => True) addressNode (fun _ => .null) smallConfig [.address "BTC" 1] _
      fun _ _ _ _ _ => trivial)
  have haccounts : (play addressNode (fun _ => .null) smallConfig [.address "BTC" 1]
      (smallPool (2 ^ 31 - 1))).2.db.accountIds 7 = [2 ^ 31 - 1, -2 ^ 31] := by decide +kernel
  have husers : (play addressNode (fun _ => .null) smallConfig [.address "BTC" 1]
      (smallPool (2 ^ 31 - 1))).2.db.userIds 7 = [2 ^ 31 - 1] := by decide +kernel
  rw [Pool, haccounts, husers] at hpool
  have hmem := hpool.below (-2 ^ 31) (by simp) (2 ^ 31 - 1) (by simp) (by norm_num)
  norm_num at hmem

/-- Two new accounts, of which a second user gets the first. -/
theorem pool_kept_small : Pool (play addressNode (fun _ => .null) smallConfig
      [.address "BTC" 2, .request (.arr [.str "BTC", .bool false, .int 5])] (smallPool 3)).2.db 7 ∧
    left (play addressNode (fun _ => .null) smallConfig
      [.address "BTC" 2, .request (.arr [.str "BTC", .bool false, .int 5])] (smallPool 3)).2.db 7 =
        1 := by
  refine ⟨(pool_kept (smallPool_pool 3) (serves_play (Room 7) addressNode
    (fun _ => .null) smallConfig _ _ ?_)).1, by decide +kernel⟩
  intro pre coin_name address_quantity post h
  rcases pre with _ | ⟨_, _ | ⟨_, pre⟩⟩
  · obtain ⟨⟨rfl, rfl⟩, -⟩ : ("BTC" = coin_name ∧ 2 = address_quantity) ∧ _ = post := by
      simpa using h
    have haccounts : (play addressNode (fun _ => .null) smallConfig []
        (smallPool 3)).2.db.accounts 7 = [⟨3, 7, some "B", some "BTC"⟩] := by decide +kernel
    intro _ a ha
    rw [haccounts, List.mem_singleton] at ha
    subst ha
    norm_num
  · simp at h
  · simp at h

end OpenWallet.Server
