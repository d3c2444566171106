import OpenWallet.Lib.Counter
import OpenWallet.Server.Pool

/-!
The accounts of XRP and of EOS, which share a base address: the counter of tags, which a new
process reads off the account with the largest identifier.
-/

namespace OpenWallet.Server

open Lib Prog
open Monitor (NodeInfo)

/-- The coins whose accounts share an address. -/
inductive Shared
  | xrp | eos

namespace Shared

/-- The name that `init` knows the coin by. -/
def short_name : Shared → String
  | xrp => "XRP"
  | eos => "EOS"

/-- The node that `getNewAddress` knows the coin by. -/
def node_id : Shared → ℤ
  | xrp => 3
  | eos => 4

def base_address_ : Shared → Vars → String
  | xrp, v => v.xrp_base_address_
  | eos, v => v.eos_base_address_

def max_tag_ : Shared → Vars → ℕ
  | xrp, v => v.max_xrp_tag_
  | eos, v => v.max_eos_tag_

end Shared

/-- The number that a tag is read as, where it fits into a `uint32_t`. -/
def tagNumber (tag : Option String) : Option ℕ :=
  tag.bind fun s => match Text.stoul s with
    | .ok n => if n < 2 ^ 32 then some n else none
    | .error _ => none

lemma tagNumber_toString {n : ℕ} (h : n < 2 ^ 32) : tagNumber (some (toString n)) = some n := by
  rw [tagNumber, Option.bind_some, Text.stoul_toString (h.trans (by norm_num))]
  exact if_pos h

/-- The accounts of a coin have distinct identifiers, and distinct pairs of an address and a tag,
and under the address of the last one the tags rise with the identifiers. -/
abbrev Tagged (rows : List AccountRow) : Prop :=
  Counter.Sound AccountRow.account_id AccountRow.address AccountRow.tag tagNumber rows

/-- The tag in the statics is ahead of the tags of an address. -/
abbrev Ahead (rows : List AccountRow) (address : String) (max_tag : ℕ) : Prop :=
  Counter.Counts AccountRow.account_id AccountRow.address AccountRow.tag tagNumber rows
    (some address) max_tag

/-- The rows of a call are the next ones of an address. -/
abbrev Issued (rows new : List AccountRow) (address : String) (max_tag : ℕ) : Prop :=
  Counter.Pending AccountRow.account_id AccountRow.address AccountRow.tag tagNumber rows new
    (some address) max_tag

/-- The address can be proposed after a number of exchanges. -/
def Proposed (x : Weather) (t : ℕ) (address : String) : Prop :=
  ∃ url auth json_reply privkey, x.net t (propose url auth) (.body json_reply) ∧
    Proposes json_reply address privkey

/-- Every address that is proposed is a new one. -/
structure Fresh (x : Weather) (d : Db) : Prop where
  once : ∀ t t' address, Proposed x t address → Proposed x t' address → t = t'
  new : ∀ t address, Proposed x t address → ∀ r ∈ d.cat.account, r.address ≠ some address

def Seen (x : Weather) (d : Db) (w : World) (address : String) : Prop :=
  (∃ r ∈ d.cat.account, r.address = some address) ∨ ∃ t < w.wire.length, Proposed x t address

lemma Fresh.not_seen {x : Weather} {d : Db} {w : World} {address : String} (h : Fresh x d)
    (hp : Proposed x w.wire.length address) : ¬ Seen x d w address := by
  rintro (⟨r, hr, ha⟩ | ⟨t, ht, hp'⟩)
  · exact h.new _ _ hp r hr ha
  · exact absurd (h.once _ _ _ hp hp') ht.ne'

section

variable (x : Weather) (k : Shared) (w₀ : World) (c : ℤ) (w : World)

structure Orderly : Prop where
  coin : w.db.cat.coin = w₀.db.cat.coin
  tagged : Tagged (w.db.accounts c)
  seen : ∀ r ∈ w.db.accounts c, ∀ address, r.address = some address → Seen x w₀.db w address

/-- The base address and the tag in the statics, or none. -/
def Memory : Prop :=
  k.base_address_ w.vars = "" ∧ k.max_tag_ w.vars = 0 ∨
    Ahead (w.db.accounts c) (k.base_address_ w.vars) (k.max_tag_ w.vars) ∧
      Seen x w₀.db w (k.base_address_ w.vars)

/-- A process, which knows the coin `c` by its name. -/
structure Ready : Prop extends Orderly x w₀ c w where
  mapped : Mapped w.db.cat w.vars
  memory : w.vars.s_coinName_coinid_.lookup k.short_name = some c → Memory x k w₀ c w

end

/-- The accounts of a coin are the same, and the node may have answered more. -/
structure Later (c : ℤ) (w w' : World) : Prop where
  coin : w'.db.cat.coin = w.db.cat.coin
  accounts : w'.db.accounts c = w.db.accounts c
  wire : w.wire.length ≤ w'.wire.length

section

variable {x : Weather} {k : Shared} {w₀ : World} {c : ℤ} {w w' : World}

lemma Later.of_cat (hcat : w'.db.cat = w.db.cat) (hwire : w.wire.length ≤ w'.wire.length) :
    Later c w w' :=
  ⟨by rw [hcat], by rw [Db.accounts, hcat, Db.accounts], hwire⟩

lemma Asked.later (h : Asked w w') : Later c w w' := by
  refine .of_cat ?_ (h.wire ▸ le_rfl)
  rcases h.db with hdb | ⟨_, _, _, hg⟩
  · rw [hdb]
  · rw [hg.insert]
    rfl

lemma Later.wired (w : World) (r : Request) (a : Answer) :
    Later c w { w with wire := w.wire ++ [(r, a)] } :=
  .of_cat rfl (by simp)

lemma Makes.later {o : Op} {r : Ans o} (ho : Makes o) (h : (env x).answers o w r w') :
    Later c w w' ∧ w'.vars = w.vars := by
  cases o with
  | curl | createAccount =>
    rw [h.2]
    exact ⟨.of_cat rfl (by simp), rfl⟩
  | openWallet =>
    rw [show w' = w from h]
    exact ⟨.of_cat rfl le_rfl, rfl⟩
  | putWallet =>
    rw [show w' = if r then _ else _ from h]
    split
    all_goals exact ⟨.of_cat rfl le_rfl, rfl⟩
  | _ => exact absurd ho id

lemma Seen.later {d : Db} {address : String} (h : Seen x d w address) (hl : Later c w w') :
    Seen x d w' address :=
  h.imp_right fun ⟨t, ht, hp⟩ => ⟨t, ht.trans_le hl.wire, hp⟩

lemma Orderly.later (h : Orderly x w₀ c w) (hl : Later c w w') : Orderly x w₀ c w' := by
  refine ⟨hl.coin ▸ h.coin, hl.accounts ▸ h.tagged, fun r hr address ha => ?_⟩
  rw [hl.accounts] at hr
  exact (h.seen r hr address ha).later hl

lemma Memory.later (h : Memory x k w₀ c w) (hl : Later c w w')
    (hbase : k.base_address_ w'.vars = k.base_address_ w.vars)
    (htag : k.max_tag_ w'.vars = k.max_tag_ w.vars) : Memory x k w₀ c w' := by
  unfold Memory at h ⊢
  rw [hbase, htag, hl.accounts]
  exact h.imp_right fun ⟨ha, hs⟩ => ⟨ha, hs.later hl⟩

/-- The names and the nodes are the same. -/
structure Vars.Alike (v v' : Vars) : Prop where
  node : v'.s_coinid_NodeInfo_ = v.s_coinid_NodeInfo_
  name : v'.s_coinName_coinid_ = v.s_coinName_coinid_

lemma Mapped.alike {cat cat' : Catalog} {v v' : Vars} (h : Mapped cat v) (hv : v.Alike v')
    (hcoin : cat'.coin = cat.coin) : Mapped cat' v' := by
  constructor
  · rw [hv.node, hcoin]
    exact h.node
  · rw [hv.name, hcoin]
    exact h.name

lemma Ready.later (h : Ready x k w₀ c w) (hl : Later c w w') (hv : w.vars.Alike w'.vars)
    (hsame : w.vars.s_coinName_coinid_.lookup k.short_name = some c →
      k.base_address_ w'.vars = k.base_address_ w.vars ∧ k.max_tag_ w'.vars = k.max_tag_ w.vars) :
    Ready x k w₀ c w' := by
  refine ⟨h.toOrderly.later hl, h.mapped.alike hv hl.coin, fun hc => ?_⟩
  rw [hv.name] at hc
  exact (h.memory hc).later hl (hsame hc).1 (hsame hc).2

lemma Ready.still (h : Ready x k w₀ c w) (hl : Later c w w') (hv : w'.vars = w.vars) :
    Ready x k w₀ c w' :=
  h.later hl (hv ▸ ⟨rfl, rfl⟩) fun _ => hv ▸ ⟨rfl, rfl⟩

lemma Ready.requested (h : Ready x k w₀ c w) (hr : Requested x w w') : Ready x k w₀ c w' :=
  h.still hr.asked.later hr.asked.vars

/-! ### The rows of a call -/

section

variable (x : Weather) (k : Shared) (w₀ : World) (c m : ℤ) (T i : ℕ) (rows : List AccountRow)
variable (w : World)

/-- Rows on the way to the table after `i` passes of the loop of a coin, whose tag was at most `T`
before. -/
structure Issuing (address : String) (tag : ℕ) : Prop where
  issued : Issued (w.db.accounts c) rows address tag
  seen : Seen x w₀.db w address
  tag_le : tag ≤ T + i
  tag_pos : rows ≠ [] → tag ≠ 0

/-- The rows of a coin whose last identifier was `m` before: the statics are those that they
leave. -/
structure Tracked : Prop extends Orderly x w₀ c w where
  mapped : Mapped w.db.cat w.vars
  ids : ∀ r ∈ w.db.accounts c ++ rows, r.account_id ≤ m + i
  coin_id : ∀ r ∈ rows, r.coin_id = c
  memory : rows = [] ∧ k.base_address_ w.vars = "" ∧ k.max_tag_ w.vars = 0 ∨
    Issuing x w₀ c T i rows w (k.base_address_ w.vars) (k.max_tag_ w.vars)

end

section

variable {m : ℤ} {T i : ℕ} {rows : List AccountRow} {address : String} {tag : ℕ}

lemma Issuing.later (h : Issuing x w₀ c T i rows w address tag) (hl : Later c w w') :
    Issuing x w₀ c T i rows w' address tag :=
  ⟨hl.accounts ▸ h.issued, h.seen.later hl, h.tag_le, h.tag_pos⟩

lemma Tracked.later (h : Tracked x k w₀ c m T i rows w) (hl : Later c w w') (hv : w'.vars = w.vars) :
    Tracked x k w₀ c m T i rows w' := by
  refine ⟨h.toOrderly.later hl, hv ▸ h.mapped.alike ⟨rfl, rfl⟩ hl.coin, ?_, h.coin_id, ?_⟩
  · rw [hl.accounts]
    exact h.ids
  · rw [hv]
    exact h.memory.imp_right fun h => h.later hl

lemma Tracked.requested (h : Tracked x k w₀ c m T i rows w) (hr : Requested x w w') :
    Tracked x k w₀ c m T i rows w' :=
  h.later hr.asked.later hr.asked.vars

lemma Tracked.mono {j : ℕ} (h : Tracked x k w₀ c m T i rows w) (hij : i ≤ j) :
    Tracked x k w₀ c m T j rows w := by
  refine ⟨h.toOrderly, h.mapped, fun r hr => ?_, h.coin_id, h.memory.imp_right fun h => ?_⟩
  · have hid := h.ids r hr
    omega
  · exact ⟨h.issued, h.seen, h.tag_le.trans (by omega), h.tag_pos⟩

lemma Tracked.row {M : ℕ} {v : Vars} (h : Tracked x k w₀ c m T i rows w)
    (hi : Issuing x w₀ c T i rows w address tag) (hid : newId M i = m + i + 1)
    (hT : T + i + 1 < 2 ^ 32) (hv : w.vars.Alike v) (hbase : k.base_address_ v = address)
    (htag : k.max_tag_ v = next tag) :
    Tracked x k w₀ c m T (i + 1) (rows ++ [newRow c M i address (toString (next tag))])
      { w with vars := v } := by
  have hle := hi.tag_le
  have hnext : next tag = tag + 1 := Nat.mod_eq_of_lt (by omega)
  rw [hnext] at htag ⊢
  refine ⟨⟨h.coin, h.tagged, h.seen⟩, h.mapped.alike hv rfl, fun r hr => ?_, fun r hr => ?_,
    Or.inr ?_⟩
  · rw [← List.append_assoc] at hr
    push_cast
    rcases List.mem_append.mp hr with hr | hr
    · have hr := h.ids r hr
      omega
    · rw [List.mem_singleton.mp hr, newRow, hid, add_assoc]
  · rcases List.mem_append.mp hr with hr | hr
    · exact h.coin_id r hr
    · rw [List.mem_singleton.mp hr]
      rfl
  · dsimp only
    rw [hbase, htag]
    refine ⟨hi.issued.concat (fun r hr => ?_) rfl (tagNumber_toString (by omega)) (by omega),
      hi.seen, by omega, by simp⟩
    rw [newRow, hid]
    exact Int.lt_add_one_iff.mpr (h.ids r hr)

lemma Orderly.first (h : Orderly x w₀ c w) (hseen : Seen x w₀.db w address)
    (hnew : ∀ r ∈ w.db.accounts c, r.address ≠ some address) :
    Issuing x w₀ c T i [] w address 0 :=
  ⟨.nil h.tagged (.fresh hnew), hseen, Nat.zero_le _, by simp⟩

/-- The rows that the table takes keep it in order, and the statics ahead. -/
lemma Tracked.insert {rows' : List AccountRow} (h : Tracked x k w₀ c m T i rows w)
    (hs : rows'.Sublist rows) : Ready x k w₀ c { w with db := w.db.insertAccounts rows' } := by
  have haccounts : (w.db.insertAccounts rows').accounts c = w.db.accounts c ++ rows' := by
    have hself : rows'.filter (fun a => a.coin_id = c) = rows' :=
      List.filter_eq_self.mpr fun r hr => by simpa using h.coin_id r (hs.subset hr)
    rw [Db.accounts, Db.insertAccounts, List.filter_append, hself, Db.accounts]
  have hmapped : Mapped (w.db.insertAccounts rows').cat w.vars := h.mapped.alike ⟨rfl, rfl⟩ rfl
  rcases h.memory with ⟨rfl, hbase, htag⟩ | hi
  · obtain rfl := List.sublist_nil.mp hs
    have hl : Later c w { w with db := w.db.insertAccounts [] } :=
      ⟨rfl, haccounts.trans (List.append_nil _), le_rfl⟩
    exact ⟨h.toOrderly.later hl, hmapped, fun _ => Or.inl ⟨hbase, htag⟩⟩
  · have happend := (hi.issued.sublist hs).append
    rw [← haccounts] at happend
    refine ⟨⟨h.coin, happend.1, fun r hr address ha => ?_⟩, hmapped,
      fun _ => Or.inr ⟨happend.2, hi.seen⟩⟩
    rw [haccounts] at hr
    rcases List.mem_append.mp hr with hr | hr
    · exact h.seen r hr address ha
    · have hkey := hi.issued.key_eq r (hs.subset hr)
      obtain rfl := Option.some.inj (ha.symm.trans hkey)
      exact hi.seen

end

/-! ### The loops -/

section

variable {node : NodeInfo} {coin_id m : ℤ} {T M q : ℕ}

/-- A new base address of XRP, which no account has. -/
structure Chosen (x : Weather) (w₀ : World) (c m : ℤ) (T i : ℕ) (rows : List AccountRow)
    (address : String) (w : World) : Prop extends Tracked x .xrp w₀ c m T i rows w where
  none_yet : rows = []
  tag_eq : w.vars.max_xrp_tag_ = 0
  chosen : Seen x w₀.db w address
  new : ∀ r ∈ w.db.accounts c, r.address ≠ some address

lemma Chosen.later {i : ℕ} {rows : List AccountRow} {address : String}
    (h : Chosen x w₀ c m T i rows address w) (hl : Later c w w') (hv : w'.vars = w.vars) :
    Chosen x w₀ c m T i rows address w' := by
  refine ⟨h.toTracked.later hl hv, h.none_yet, hv ▸ h.tag_eq, h.chosen.later hl, ?_⟩
  rw [hl.accounts]
  exact h.new

lemma wp_newXRP_tracked (hx : Fresh x w₀.db) (hnode : node.node_id = 3)
    (hid : ∀ i < q, newId M i = m + i + 1) (hT : T + q < 2 ^ 32)
    (h : Tracked x .xrp w₀ c m T 0 [] w) :
    wp ((env x).among (Requested x)) (newXRP node c M q) (Tracked x .xrp w₀ c m T q)
      (Orderly x w₀ c) w := by
  refine wp_newXRP (I := Tracked x .xrp w₀ c m T)
    (M := fun _ i rows address _ => Chosen x w₀ c m T i rows address) hnode
    (fun _ _ _ _ h => h.requested)
    (fun _ _ _ _ _ _ _ h hr => h.later hr.asked.later hr.asked.vars)
    (fun _ _ _ _ _ _ h => h.toTracked) (fun _ _ _ h => h.toOrderly) (fun _ _ _ hi h => h.mono hi)
    (fun i _ _ h => h.mono (Nat.le_succ i)) (fun _ _ w r a h => h.later (.wired w r a) rfl)
    ?_ (fun _ _ _ _ _ h => h.later (.of_cat rfl le_rfl) rfl) ?_ ?_ h
  · intro i rows w a k j h htag hnet hp
    have hl : Later c w { w with
        wire := w.wire ++ [(propose node.node_url node.node_auth, .body j)] } := .wired w _ _
    have hproposed : Proposed x w.wire.length a := ⟨_, _, j, k, hnet, hp⟩
    have hrows : rows = [] := by
      rcases h.memory with ⟨hrows, -, -⟩ | hi
      · exact hrows
      · by_contra hne
        exact hi.tag_pos hne htag
    refine ⟨h.later hl rfl, hrows, htag, Or.inr ⟨w.wire.length, by simp, hproposed⟩, ?_⟩
    rw [hl.accounts]
    exact fun r hr ha => hx.not_seen hproposed (h.seen r hr a ha)
  · intro i rows a k w hi h
    have hfirst : Issuing x w₀ c T i rows w a w.vars.max_xrp_tag_ := by
      rw [h.none_yet, h.tag_eq]
      exact h.toOrderly.first h.chosen h.new
    exact h.toTracked.row hfirst (hid i hi) (by omega) ⟨rfl, rfl⟩ rfl rfl
  · intro i rows w hi h htag _
    have hissuing := h.memory.resolve_left fun hnone => htag hnone.2.2
    exact h.row hissuing (hid i hi) (by omega) ⟨rfl, rfl⟩ rfl rfl

lemma wp_newEOS_tracked (hid : ∀ i < q, newId M i = m + i + 1) (hT : T + q < 2 ^ 32)
    (h : Tracked x .eos w₀ c m T 0 [] w) :
    wp ((env x).among (Requested x)) (newEOS c M q) (Tracked x .eos w₀ c m T q)
      (Orderly x w₀ c) w := by
  refine wp_newEOS (I := Tracked x .eos w₀ c m T) (fun _ _ _ _ h => h.requested)
    (fun _ _ _ h => h.toOrderly) (fun _ _ _ hi h => h.mono hi)
    (fun i _ _ h => h.mono (Nat.le_succ i)) ?_ h
  intro i rows w hi h hbase
  have hissuing := h.memory.resolve_left fun hnone => hbase hnone.2.1
  exact h.row hissuing (hid i hi) (by omega) ⟨rfl, rfl⟩ rfl rfl

lemma wp_newRows_tracked (hx : Fresh x w₀.db) (hnode : node.node_id = k.node_id)
    (hid : ∀ i < q, newId M i = m + i + 1) (hT : T + q < 2 ^ 32)
    (h : Tracked x k w₀ c m T 0 [] w) :
    wp ((env x).among (Requested x)) (newRows node c M q) (fun r w' => ∃ rows, r = some rows ∧
      Tracked x k w₀ c m T q rows w') (Orderly x w₀ c) w := by
  unfold newRows
  cases k with
  | xrp =>
    change node.node_id = 3 at hnode
    rw [if_neg (by omega), if_neg (by omega), if_pos hnode, wp_bind]
    exact wp_mono (wp_newXRP_tracked hx hnode hid hT h) (fun rows _ h => ⟨rows, rfl, h⟩)
      fun _ h => h
  | eos =>
    change node.node_id = 4 at hnode
    rw [if_neg (by omega), if_neg (by omega), if_neg (by omega), if_pos hnode, wp_bind]
    exact wp_mono (wp_newEOS_tracked hid hT h) (fun rows _ h => ⟨rows, rfl, h⟩) fun _ h => h

/-- A call for another coin; where it is one of the same kind, the statics are not those of the
coin `c`. -/
structure Aside (x : Weather) (k : Shared) (w₀ : World) (c : ℤ) (node : NodeInfo) (w : World) :
    Prop extends Ready x k w₀ c w where
  other : node.node_id = k.node_id → w.vars.s_coinName_coinid_.lookup k.short_name ≠ some c

lemma Aside.still (h : Aside x k w₀ c node w) (hl : Later c w w') (hv : w'.vars = w.vars) :
    Aside x k w₀ c node w' :=
  ⟨h.toReady.still hl hv, hv ▸ h.other⟩

lemma Aside.requested (h : Aside x k w₀ c node w) (hr : Requested x w w') :
    Aside x k w₀ c node w' :=
  h.still hr.asked.later hr.asked.vars

lemma Aside.vars (k' : Shared) {v : Vars} (h : Aside x k w₀ c node w)
    (hnode : node.node_id = k'.node_id) (hv : w.vars.Alike v)
    (hsame : k ≠ k' → k.base_address_ v = k.base_address_ w.vars ∧
      k.max_tag_ v = k.max_tag_ w.vars) : Aside x k w₀ c node { w with vars := v } := by
  refine ⟨h.toReady.later (.of_cat rfl le_rfl) hv fun hc => hsame ?_, hv.name ▸ h.other⟩
  rintro rfl
  exact h.other hnode hc

lemma wp_makes {α : Type} {p : Srv α} {Q : α → Prop} (hp : p.Within Makes Q)
    (h : Aside x k w₀ c node w) :
    wp ((env x).among (Requested x)) p (fun _ => Ready x k w₀ c) (Orderly x w₀ c) w := by
  refine wp_mono (wp_within_among (I := Aside x k w₀ c node) hp (fun _ _ h => h.requested) ?_ ?_ h)
    (fun _ _ h => h.2.toReady) fun _ h => h.toOrderly
  · rintro o w₁ w₂ - h₁ ⟨-, rfl⟩
    exact h₁
  · intro o w₁ r w₂ ho h₁ ha
    obtain ⟨hl, hv⟩ := ho.later ha
    exact h₁.still hl hv

lemma wp_newRows_aside (h : Aside x k w₀ c node w) :
    wp ((env x).among (Requested x)) (newRows node coin_id M q) (fun _ => Ready x k w₀ c)
      (Orderly x w₀ c) w := by
  have hI := fun (_ : ℕ) (_ : List AccountRow) w (h : Aside x k w₀ c node w) => h.toOrderly
  unfold newRows
  split
  · exact (wp_bind _ _).mpr (wp_makes (newLocal_within (fun _ => trivial) _ _ _ _ _) h)
  split
  · exact (wp_bind _ _).mpr (wp_makes (newETH_within (fun _ => id) _ _ _ _) h)
  split
  · next hnode =>
    refine (wp_bind _ _).mpr (wp_mono (wp_newXRP (I := fun _ _ => Aside x k w₀ c node)
      (M := fun _ _ _ _ _ => Aside x k w₀ c node) hnode (fun _ _ _ _ h => h.requested)
      (fun _ _ _ _ _ _ _ h => h.requested) (fun _ _ _ _ _ _ h => h) hI (fun _ _ _ _ h => h)
      (fun _ _ _ h => h) (fun _ _ w r a h => h.still (.wired w r a) rfl)
      (fun _ _ w _ _ _ h _ _ _ => h.still (.wired w _ _) rfl)
      (fun _ _ _ _ _ h => h.still (.of_cat rfl le_rfl) rfl) ?_ ?_ h) (fun _ _ h => h.toReady)
      fun _ h => h)
    · intro _ _ _ _ w _ h
      refine h.vars .xrp hnode ⟨rfl, rfl⟩ fun hk => ?_
      cases k with
      | xrp => exact absurd rfl hk
      | eos => exact ⟨rfl, rfl⟩
    · intro _ _ w _ h _ _
      refine h.vars .xrp hnode ⟨rfl, rfl⟩ fun hk => ?_
      cases k with
      | xrp => exact absurd rfl hk
      | eos => exact ⟨rfl, rfl⟩
  split
  · next hnode =>
    refine (wp_bind _ _).mpr (wp_mono (wp_newEOS (I := fun _ _ => Aside x k w₀ c node)
      (fun _ _ _ _ h => h.requested) hI (fun _ _ _ _ h => h) (fun _ _ _ h => h) ?_ h)
      (fun _ _ h => h.toReady) fun _ h => h)
    intro _ _ w _ h _
    refine h.vars .eos hnode ⟨rfl, rfl⟩ fun hk => ?_
    cases k with
    | xrp => exact ⟨rfl, rfl⟩
    | eos => exact absurd rfl hk
  split
  · exact (wp_bind _ _).mpr (wp_makes (newLocal_within (fun _ => trivial) _ _ _ _ _) h)
  · exact h.toReady

end

/-! ### Every run -/

/-- The identifiers and the tags that a call may need for the coin fit into their types. -/
def Spare (k : Shared) (c : ℤ) (coin_name : String) (address_quantity : ℕ) (w : World) : Prop :=
  Room c coin_name address_quantity w ∧ (w.vars.s_coinName_coinid_.lookup coin_name = some c →
    k.max_tag_ w.vars + address_quantity < 2 ^ 32)

/-- The catalog has the coin `c` as a coin of the kind, and the kind by its node. -/
structure Listed (k : Shared) (c : ℤ) (cat : Catalog) : Prop where
  coin : ∃ r ∈ cat.coin, r.coin_id = c ∧ r.short_name = some k.short_name
  node : ∀ r ∈ cat.coin, r.short_name = some k.short_name ↔ r.node_id = some k.node_id

lemma Ready.insert {rows : List AccountRow} (h : Ready x k w₀ c w)
    (hrows : ∀ r ∈ rows, r.coin_id ≠ c) :
    Ready x k w₀ c { w with db := w.db.insertAccounts rows } := by
  refine h.later ⟨rfl, ?_, le_rfl⟩ ⟨rfl, rfl⟩ fun _ => ⟨rfl, rfl⟩
  have hnone : rows.filter (fun a => a.coin_id = c) = [] :=
    List.filter_eq_nil_iff.mpr fun r hr => by simpa using hrows r hr
  rw [Db.accounts, Db.insertAccounts, List.filter_append, hnone, List.append_nil, Db.accounts]

lemma wp_getNewAddress_tags {coin_name : String} {address_quantity : ℕ} (hx : Fresh x w₀.db)
    (hlist : Listed k c w₀.db.cat) (hok : Spare k c coin_name address_quantity w)
    (h : Ready x k w₀ c w) :
    wp ((env x).among (Requested x)) (getNewAddress coin_name address_quantity)
      (fun _ => Ready x k w₀ c) (Orderly x w₀ c) w := by
  let K := fun rows w => (Ready x k w₀ c w ∧ ∀ r ∈ rows, r.coin_id ≠ c) ∨
    ∃ m T i, Tracked x k w₀ c m T i rows w
  have hK : ∀ rows w w', K rows w → Requested x w w' → K rows w' := by
    rintro rows w w' (⟨h, hrows⟩ | ⟨m, T, i, h⟩) hr
    · exact Or.inl ⟨h.requested hr, hrows⟩
    · exact Or.inr ⟨m, T, i, h.requested hr⟩
  refine wp_getNewAddress (K := K)
    (P := fun w' => Ready x k w₀ c w' ∧ w'.db.accounts c = w.db.accounts c)
    (fun _ _ h hr => ⟨h.1.requested hr, hr.asked.later.accounts.trans h.2⟩)
    (fun _ _ h => ⟨h.1.still (.of_cat rfl le_rfl) rfl, h.2⟩) (fun _ h => h.1) hK ?_
    (fun _ _ h hr => h.requested hr) (fun _ _ h => h.still (.of_cat rfl le_rfl) rfl)
    (fun _ h => h.toOrderly) ?_ ?_ ⟨h, rfl⟩
  · rintro rows w (⟨h, -⟩ | ⟨m, T, i, h⟩)
    · exact h.toOrderly
    · exact h.toOrderly
  · rintro rows rows' w (⟨h, hrows⟩ | ⟨m, T, i, h⟩) hs
    · exact h.insert fun r hr => hrows r (hs.subset hr)
    · exact h.insert hs
  intro w₁ coin_id node count_user count_account M ⟨h₁, haccounts⟩ hv hcoin hnode hcount
  rw [← hv] at hcoin hnode
  obtain ⟨r, hr, hname, hrcoin⟩ := h₁.mapped.lookup hcoin
  have hrnode := h₁.mapped.unique hnode hr hrcoin
  by_cases hc : coin_id = c
  · subst hc
    -- the call is one for the coin `c`, under the name of its kind
    obtain ⟨r', hr', hcoin', hname'⟩ := hlist.coin
    obtain rfl := List.inj_on_of_nodup_map w₁.db.cat.coin_key hr (h₁.coin ▸ hr')
      (hrcoin.trans hcoin'.symm)
    obtain rfl : coin_name = k.short_name := Option.some.inj (hname.symm.trans hname')
    have hkind : node.node_id = k.node_id :=
      Option.some.inj (hrnode.symm.trans ((hlist.node r hr').mp hname'))
    obtain ⟨m, hm, -, -⟩ := hcount.last
    obtain ⟨hmem, hmax⟩ := List.max?_eq_some_iff.mp hm
    obtain ⟨a, ha, rfl⟩ := List.mem_map.mp hmem
    have hroom := hok.1 (hv ▸ hcoin) a (haccounts ▸ ha)
    have htags := hok.2 (hv ▸ hcoin)
    have htracked : Tracked x k w₀ coin_id a.account_id (k.max_tag_ w.vars) 0 [] w₁ := by
      refine ⟨h₁.toOrderly, h₁.mapped, fun b hb => ?_, by simp,
        (h₁.memory hcoin).imp (fun hnone => ⟨rfl, hnone⟩) fun ⟨hahead, hseen⟩ =>
          ⟨.nil h₁.tagged hahead, hseen, (congrArg k.max_tag_ hv).le, by simp⟩⟩
      rw [List.append_nil] at hb
      simpa using hmax _ (List.mem_map_of_mem hb)
    refine wp_mono (wp_newRows_tracked hx hkind (fun i hi => hcount.newId_eq hm (by omega)) htags
      htracked) ?_ fun _ h => h
    rintro _ w₂ ⟨rows, rfl, h₂⟩
    exact Or.inr ⟨_, _, _, h₂⟩
  · have haside : Aside x k w₀ c node w₁ := by
      refine ⟨h₁, fun hkind hlookup => hc ?_⟩
      rw [hkind] at hrnode
      obtain rfl : coin_name = k.short_name :=
        Option.some.inj (hname.symm.trans ((hlist.node r (h₁.coin ▸ hr)).mpr hrnode))
      exact Option.some.inj (hcoin.symm.trans hlookup)
    refine wp_mono (wp_newRows_numbered (wp_newRows_aside haside)) ?_ fun _ h => h
    rintro (_ | rows) w₂ ⟨h₂, hnum⟩
    · exact h₂
    · exact Or.inl ⟨h₂, fun r hr => (hnum rows rfl).coin r hr ▸ hc⟩

/-- A new process finds the base address and its tag in the last account. -/
lemma Orderly.start (h : Orderly x w₀ c w) (hq : Quiet w.restarted w')
    (hs : Started w.restarted.db w'.vars) : Ready x k w₀ c w' := by
  have hl : Later c w w' := .of_cat (congrArg Db.cat hq.db) (congrArg List.length hq.wire).ge
  have hw' := h.later hl
  refine ⟨hw', ?_, fun hc => ?_⟩
  · rw [hq.db]
    exact hs.mapped
  have htag : (k.base_address_ w'.vars = "" ∧ k.max_tag_ w'.vars = 0) ∨
      Last w'.db w'.vars k.short_name (k.max_tag_ w'.vars) (k.base_address_ w'.vars) := by
    rw [hq.db]
    cases k with
    | xrp => exact hs.xrp.imp_left And.symm
    | eos => exact hs.eos.imp_left And.symm
  refine htag.imp_right fun ⟨_, hlookup, r, hr, s, t, hs, ht, htag, ha⟩ => ?_
  obtain rfl := Option.some.inj (hlookup.symm.trans hc)
  have hlast : Counter.IsLast AccountRow.account_id _ r := mem_lastRows.mp hr
  obtain ⟨m, hrises⟩ := hw'.tagged.rises r hlast
  obtain ⟨n, -, hn⟩ := hrises.marked r hlast.1 rfl
  have hnt : n = t ∧ t < 2 ^ 32 := by
    simp only [tagNumber, hs, Option.bind_some, ht] at hn
    split at hn
    · next hlt => exact ⟨(Option.some.inj hn).symm, hlt⟩
    · cases hn
  rw [htag, Nat.mod_eq_of_lt hnt.2, ← hnt.1]
  have hcounts := hw'.tagged.restart hlast hn
  rw [ha] at hcounts
  exact ⟨hcounts, hw'.seen r hlast.1 _ ha⟩

/-- **No two accounts of a coin have an address and a tag in common, and the tag in the statics is
at least every tag of the base address**, in every state of every run in which the identifiers and
the tags fit into their types and every proposed address is a new one. -/
theorem tags_unique {g_json_config : Json} {b : Bool} (hx : Fresh x w₀.db)
    (hlist : Listed k c w₀.db.cat) (h₀ : Tagged (w₀.db.accounts c))
    (hr : Serves x g_json_config (Spare k c) w₀ b w) :
    ((w.db.accounts c).map fun r => (r.address, r.tag)).Nodup ∧
      (b = true → w.vars.s_coinName_coinid_.lookup k.short_name = some c →
        k.base_address_ w.vars ≠ "" →
        ∀ r ∈ w.db.accounts c, r.address = some (k.base_address_ w.vars) →
          ∃ n ≤ k.max_tag_ w.vars, tagNumber r.tag = some n) := by
  have hbegin : Orderly x w₀ c w₀ :=
    ⟨rfl, h₀, fun r hr address ha => Or.inl ⟨r, (mem_accounts.mp hr).1, ha⟩⟩
  have hinv := hr.inv (I := Ready x k w₀ c) (J := Orderly x w₀ c) (fun _ h => h.toOrderly) hbegin
    (fun w h => ?_) (fun _ _ h hreq => h.requested hreq)
    fun _ _ w hok h => wp_getNewAddress_tags hx hlist hok h
  · refine ⟨hinv.1.tagged.pairs, fun hb hc hbase r hr ha => ?_⟩
    have hmemory := ((hinv.2 hb).memory hc).resolve_left fun hnone => hbase hnone.1
    exact hmemory.1.rises.marked r hr ha
  · refine wp_mono (wp_init g_json_config rfl) (fun _ w' hw => h.start hw.1 hw.2) fun w' hq => ?_
    exact h.later (.of_cat (congrArg Db.cat hq.db) (congrArg List.length hq.wire).ge)

end

/-! ### Runs on a small database -/

/-- XRP or EOS with these accounts, the first of which a user has. -/
def sharedPool (k : Shared) (account : List AccountRow) : World where
  vars := .fresh
  s_usercoin_accountinfo := []
  db := { user := (account.take 1).map fun a => ⟨1, a.account_id, k.node_id⟩, cat := {
    coin := [⟨k.node_id, some k.node_id, some k.short_name⟩]
    node := [⟨k.node_id, some "u", some "", some "", some ""⟩]
    token := []
    account := account
    coin_key := by simp } }
  wallet := []
  connections := 0
  wire := []
  made := []

lemma sharedPool_listed (k : Shared) (account : List AccountRow) :
    Listed k k.node_id (sharedPool k account).db.cat :=
  ⟨⟨_, List.mem_singleton_self _, rfl, rfl⟩, by simp [sharedPool]⟩

abbrev silent : Weather := .clear (fun _ _ => .down) fun _ => .null

lemma silent_fresh (d : Db) : Fresh silent d := by
  have hnone : ∀ t address, ¬ Proposed silent t address := by
    rintro t address ⟨url, auth, j, k, hnet, -⟩
    cases hnet
  exact ⟨fun t _ address h => absurd h (hnone t address), fun t address h => absurd h (hnone t address)⟩

def eosAfter (calls : List Call) (account : List AccountRow) : World :=
  (play (fun _ _ => .down) (fun _ => .null) smallConfig calls (sharedPool .eos account)).2

/-- From accounts in order, calls come to two accounts with an address and a tag in common. -/
structure Clash (calls : List Call) (account : List AccountRow) : Prop where
  fresh : Fresh silent (sharedPool .eos account).db
  listed : Listed .eos 4 (sharedPool .eos account).db.cat
  tagged : Tagged ((sharedPool .eos account).db.accounts 4)
  run : ∃ b, Serves silent smallConfig (fun _ _ _ => True) (sharedPool .eos account) b
    (eosAfter calls account)
  clash : ¬ (((eosAfter calls account).db.accounts 4).map fun r => (r.address, r.tag)).Nodup

lemma Clash.of {calls : List Call} {account : List AccountRow}
    (htagged : Tagged ((sharedPool .eos account).db.accounts 4))
    (hclash : ¬ (((eosAfter calls account).db.accounts 4).map fun r => (r.address, r.tag)).Nodup) :
    Clash calls account :=
  ⟨silent_fresh _, sharedPool_listed .eos account, htagged,
    ⟨_, serves_play (fun _ _ _ => True) (fun _ _ => .down) (fun _ => .null) smallConfig calls
      (sharedPool .eos account) fun _ _ _ _ _ => trivial⟩, hclash⟩

/-- The account after the last `int` is not the last one; the tag after the last `uint32_t` is
zero; and a tag above is not read as it is. -/
theorem tags_overflow :
    Clash [.address "EOS" 1, .start, .address "EOS" 2] [⟨2147483647, 4, some "B", some "5"⟩] ∧
    Clash [.address "EOS" 2]
      [⟨1, 4, some "B", some "1"⟩, ⟨2, 4, some "B", some "4294967295"⟩] ∧
    (Text.stoul "4294967296" = .ok 4294967296 ∧
      (eosAfter [] [⟨1, 4, some "B", some "4294967296"⟩]).vars.eos_base_address_ = "B" ∧
      (eosAfter [] [⟨1, 4, some "B", some "4294967296"⟩]).vars.max_eos_tag_ = 0) := by
  refine ⟨.of ?_ (by decide +kernel), .of ?_ (by decide +kernel), by decide +kernel⟩
  · exact Counter.Sound.singleton (n := 5) (by decide +kernel)
  · have hfirst : Issued [] [⟨1, 4, some "B", some "1"⟩] "B" 1 :=
      Counter.Pending.concat (m := 0) .empty (by simp) rfl (by decide +kernel) (by norm_num)
    have hsecond : Issued [] ([⟨1, 4, some "B", some "1"⟩] ++
        [⟨2, 4, some "B", some "4294967295"⟩]) "B" 4294967295 :=
      hfirst.concat (by simp) rfl (by decide +kernel) (by norm_num)
    exact hsecond.append.1

/-- A node that proposes one address. -/
def proposer (t : ℕ) (_ : Request) : Answer :=
  if t = 0 then .body (.obj [("result", .obj [("account_id", .str "A"), ("master_seed", .str "S")])])
  else .down

/-- XRP after some calls, with one account to begin with. -/
def xrpAfter (calls : List Call) : World :=
  (play proposer (fun _ => .null) smallConfig calls
    (sharedPool .xrp [⟨3, 3, some "B", some "0"⟩])).2

/-- A base address that is proposed and gets three tags, with a restart in between. -/
theorem tags_unique_xrp :
    (((xrpAfter [.address "XRP" 1, .start, .address "XRP" 3]).db.accounts 3).map
      fun r => (r.address, r.tag)).Nodup := by
  refine (tags_unique (k := .xrp) ?_ (sharedPool_listed .xrp _) ?_ (serves_play (Spare .xrp 3) proposer
    (fun _ => .null) smallConfig [.address "XRP" 1, .start, .address "XRP" 3]
    (sharedPool .xrp [⟨3, 3, some "B", some "0"⟩]) ?_)).1
  · have honce : ∀ t address, Proposed (.clear proposer fun _ => .null) t address →
        t = 0 ∧ address = "A" := by
      rintro t address ⟨url, auth, j, k, hnet, result, hresult, haddress, -⟩
      change _ = if t = 0 then _ else _ at hnet
      split at hnet
      · next ht =>
        cases hnet
        cases hresult
        exact ⟨ht, (Except.ok.inj haddress).symm⟩
      · cases hnet
    refine ⟨fun t t' address h h' => (honce t _ h).1.trans (honce t' _ h').1.symm,
      fun t address h r hr => ?_⟩
    rw [(honce t _ h).2, List.mem_singleton.mp hr]
    decide
  · exact Counter.Sound.singleton (n := 0) (by decide +kernel)
  · intro pre coin_name address_quantity post h
    rcases pre with _ | ⟨_, _ | ⟨_, _ | ⟨_, pre⟩⟩⟩
    · obtain ⟨⟨rfl, rfl⟩, -⟩ : ("XRP" = coin_name ∧ 1 = address_quantity) ∧ _ = post := by
        simpa using h
      exact ⟨fun _ => by decide +kernel, fun _ => by decide +kernel⟩
    · simp at h
    · obtain ⟨rfl, rfl, ⟨rfl, rfl⟩, -⟩ : Call.address "XRP" 1 = _ ∧ Call.start = _ ∧
          ("XRP" = coin_name ∧ 3 = address_quantity) ∧ post = [] := by simpa using h
      exact ⟨fun _ => by decide +kernel, fun _ => by decide +kernel⟩
    · simp at h

end OpenWallet.Server
