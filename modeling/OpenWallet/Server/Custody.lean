import OpenWallet.Server.Rows
import OpenWallet.Server.Start

/-!
The keys of the addresses of ETH and XRP: which generator returned them, and whether the key store
has them before an account with the address is in the table.
-/

namespace OpenWallet.Server

open Lib Prog
open Monitor (NodeInfo)

/-- A generator has returned the key with the address. -/
def Generated (w : World) (address privkey : String) : Prop :=
  (∃ pyResp ∈ w.made, ∃ publicKey,
    getResult pyResp ⟨"", "", ""⟩ = (true, ⟨address, publicKey, privkey⟩)) ∨
  ∃ url auth json_reply, (propose url auth, Answer.body json_reply) ∈ w.wire ∧
    Proposes json_reply address privkey

/-- Under the address, which is not empty, is a key that a generator returned with it. -/
def Keyed (w : World) (address : String) : Prop :=
  address ≠ "" ∧ ∃ privkey, w.wallet.lookup address = some privkey ∧ Generated w address privkey

/-- An account of ETH or XRP has an address whose key is stored. -/
def Held (w : World) (r : AccountRow) : Prop :=
  ∀ c ∈ w.db.cat.coin, c.coin_id = r.coin_id → c.node_id = some 2 ∨ c.node_id = some 3 →
    ∃ address, r.address = some address ∧ Keyed w address

/-- The key of the base address is stored. -/
def Based (w : World) : Prop :=
  ∀ c ∈ w.db.cat.coin, c.short_name = some "XRP" → ∀ r ∈ lastRows w.db c.coin_id,
    ∀ address, r.address = some address → address = "" ∨ Keyed w address

/-- The generators never fail but return an address, with a key. -/
structure Generates (x : Weather) : Prop where
  createAccount : ∀ t pyResp, x.python t pyResp →
    ∃ account, getResult pyResp ⟨"", "", ""⟩ = (true, account) ∧ account.address ≠ ""
  wallet_propose : ∀ t url auth json_reply address privkey,
    x.net t (propose url auth) (.body json_reply) → Proposes json_reply address privkey →
    address ≠ ""

/-- The catalog is the same, and every account since a start is in custody. -/
structure Guarded (w₀ w : World) : Prop where
  coin : w.db.cat.coin = w₀.db.cat.coin
  rows : ∃ new, w.db.cat.account = w₀.db.cat.account ++ new ∧ ∀ r ∈ new, Held w r
  based : Based w

/-- What a process relies on. -/
structure Live (w₀ w : World) : Prop extends Guarded w₀ w where
  mapped : Mapped w.db.cat w.vars
  base : w.vars.max_xrp_tag_ ≠ 0 → w.vars.xrp_base_address_ = "" ∨ Keyed w w.vars.xrp_base_address_

/-- The accounts are the same, and nothing is taken from the key store. -/
structure Safe (w w' : World) : Prop where
  cat : w'.db.cat = w.db.cat
  generated : ∀ address privkey, Generated w address privkey → Generated w' address privkey
  keyed : ∀ address, Keyed w address → Keyed w' address

/-- The statics are the same as well. -/
structure Still (w w' : World) : Prop extends Safe w w' where
  vars : w'.vars = w.vars

section

variable {x : Weather} {w₀ w w' : World}

lemma Safe.of_eq (hcat : w'.db.cat = w.db.cat) (hwallet : w'.wallet = w.wallet)
    (hwire : w'.wire = w.wire) (hmade : w'.made = w.made) : Safe w w' := by
  have hgen : ∀ address privkey, Generated w address privkey → Generated w' address privkey := by
    intro address privkey hg
    unfold Generated
    rwa [hmade, hwire]
  refine ⟨hcat, hgen, ?_⟩
  rintro address ⟨hne, privkey, hlookup, hg⟩
  exact ⟨hne, privkey, by rwa [hwallet], hgen _ _ hg⟩

lemma Asked.still (h : Asked w w') : Still w w' := by
  refine ⟨.of_eq ?_ h.wallet h.wire h.made, h.vars⟩
  rcases h.db with hdb | ⟨_, _, _, hg⟩
  · rw [hdb]
  · rw [hg.insert]
    rfl

lemma Still.connections (w : World) (n : ℤ) : Still w { w with connections := n } :=
  ⟨.of_eq rfl rfl rfl rfl, rfl⟩

lemma Still.wire (w : World) (r : Request) (a : Answer) :
    Still w { w with wire := w.wire ++ [(r, a)] } := by
  have hgen : ∀ address privkey, Generated w address privkey →
      Generated { w with wire := w.wire ++ [(r, a)] } address privkey := by
    rintro address privkey (h | ⟨url, auth, j, h, hp⟩)
    · exact Or.inl h
    · exact Or.inr ⟨url, auth, j, List.mem_append_left _ h, hp⟩
  exact ⟨⟨rfl, hgen, fun _ ⟨hne, privkey, hlookup, hg⟩ =>
    ⟨hne, privkey, hlookup, hgen _ _ hg⟩⟩, rfl⟩

lemma Still.made (w : World) (a : PyResp) : Still w { w with made := w.made ++ [a] } := by
  have hgen : ∀ address privkey, Generated w address privkey →
      Generated { w with made := w.made ++ [a] } address privkey := by
    rintro address privkey (⟨pyResp, h, hp⟩ | h)
    · exact Or.inl ⟨pyResp, List.mem_append_left _ h, hp⟩
    · exact Or.inr h
  exact ⟨⟨rfl, hgen, fun _ ⟨hne, privkey, hlookup, hg⟩ =>
    ⟨hne, privkey, hlookup, hgen _ _ hg⟩⟩, rfl⟩

lemma Still.wallet {address privkey : String} (hg : Generated w address privkey) :
    Still w { w with wallet := (address, privkey) :: w.wallet } := by
  refine ⟨⟨rfl, fun _ _ => id, fun address' hk => ?_⟩, rfl⟩
  obtain ⟨hne, privkey', hlookup, hg'⟩ := hk
  by_cases heq : address' = address
  · subst heq
    exact ⟨hne, privkey, List.lookup_cons_self, hg⟩
  · refine ⟨hne, privkey', ?_, hg'⟩
    rw [List.lookup_cons, beq_false_of_ne heq]
    exact hlookup

lemma lastRows_of_cat {d d' : Db} (h : d'.cat = d.cat) (coin_id : ℤ) :
    lastRows d' coin_id = lastRows d coin_id := by
  unfold lastRows Db.accounts
  rw [h]

lemma Held.safe {r : AccountRow} (h : Held w r) (hs : Safe w w') : Held w' r := by
  intro c hc hcoin hnode
  rw [hs.cat] at hc
  obtain ⟨address, ha, hk⟩ := h c hc hcoin hnode
  exact ⟨address, ha, hs.keyed address hk⟩

lemma Guarded.safe (h : Guarded w₀ w) (hs : Safe w w') : Guarded w₀ w' := by
  refine ⟨hs.cat ▸ h.coin, ?_, fun c hc hname r hr address ha => ?_⟩
  · obtain ⟨new, hnew, hheld⟩ := h.rows
    exact ⟨new, hs.cat ▸ hnew, fun r hr => (hheld r hr).safe hs⟩
  · rw [hs.cat] at hc
    rw [lastRows_of_cat hs.cat] at hr
    exact (h.based c hc hname r hr address ha).imp_right (hs.keyed address)

lemma Live.still (h : Live w₀ w) (hs : Still w w') : Live w₀ w' := by
  refine ⟨h.toGuarded.safe hs.toSafe, ?_, fun htag => ?_⟩
  · rw [hs.cat, hs.vars]
    exact h.mapped
  · rw [hs.vars] at htag ⊢
    exact (h.base htag).imp_right (hs.keyed _)

lemma Live.requested (h : Live w₀ w) (hr : Requested x w w') : Live w₀ w' := h.still hr.asked.still

variable {P D : World → Prop} in
lemma wp_createAddressOffline {node : NodeInfo} {address privkey : String} (hx : Generates x)
    (hnode : node.node_id = 2) (hP : ∀ w w', P w → Still w w' → P w') (hPD : ∀ w, P w → D w)
    (h : P w) :
    wp ((env x).among (Requested x)) (createAddressOffline node address privkey)
      (fun r w' => P w' ∧ r.2.1 ≠ "" ∧ Generated w' r.2.1 r.2.2) D w := by
  rw [createAddressOffline, if_pos hnode]
  simp only [createAccount, wp_bind, bind_assoc]
  refine wp_op_among (fun w w' h hr => hP w w' h hr.asked.still) h fun w₁ h₁ =>
    ⟨fun w' hw => hw.2 ▸ hPD _ h₁, ?_⟩
  rintro pyResp w₂ ⟨hpython, rfl⟩
  obtain ⟨⟨address, publicKey, privkey⟩, hres, hne⟩ := hx.createAccount _ _ hpython
  simp only [pure_eq, wp_ret, hres]
  refine ⟨hP _ _ h₁ (.made w₁ pyResp), hne, Or.inl ⟨pyResp, ?_, publicKey, hres⟩⟩
  exact List.mem_append_right _ (List.mem_singleton_self _)

/-! ### The rows of a call -/

/-- The address of a row is one whose key is stored. -/
def Stocked (w : World) (rows : List AccountRow) : Prop :=
  ∀ r ∈ rows, ∃ address, r.address = some address ∧ Keyed w address

lemma Stocked.still {rows : List AccountRow} (h : Stocked w rows) (hs : Still w w') :
    Stocked w' rows := fun r hr =>
  let ⟨address, ha, hk⟩ := h r hr
  ⟨address, ha, hs.keyed address hk⟩

lemma Stocked.concat {rows : List AccountRow} (h : Stocked w rows) {coin_id : ℤ}
    {max_account_id i : ℕ} {address tag : String} (hk : Keyed w address) :
    Stocked w (rows ++ [newRow coin_id max_account_id i address tag]) := by
  intro r hr
  rcases List.mem_append.mp hr with hr | hr
  · exact h r hr
  · rw [List.mem_singleton.mp hr]
    exact ⟨address, rfl, hk⟩

section

variable {node : NodeInfo} {coin_id : ℤ} {max_account_id address_quantity : ℕ}

/-- A process with rows on the way to the table. -/
def Stocking (w₀ : World) (rows : List AccountRow) (w : World) : Prop := Live w₀ w ∧ Stocked w rows

lemma Stocking.still {rows : List AccountRow} (h : Stocking w₀ rows w) (hs : Still w w') :
    Stocking w₀ rows w' :=
  ⟨h.1.still hs, h.2.still hs⟩

lemma Stocking.requested {rows : List AccountRow} (h : Stocking w₀ rows w) (hr : Requested x w w') :
    Stocking w₀ rows w' :=
  h.still hr.asked.still

lemma Live.vars (h : Live w₀ w) {v : Vars} (hm : Mapped w.db.cat v)
    (hv : v.max_xrp_tag_ ≠ 0 → v.xrp_base_address_ = "" ∨ Keyed w v.xrp_base_address_) :
    Live w₀ { w with vars := v } :=
  ⟨⟨h.coin, h.rows, h.based⟩, hm, hv⟩

/-- An address with its key, before it is in the key store and after. -/
def Keying (w₀ : World) (stored : Bool) (rows : List AccountRow) (address privkey : String)
    (w : World) : Prop :=
  Stocking w₀ rows w ∧ address ≠ "" ∧ Generated w address privkey ∧
    (stored = true → Keyed w address)

section

variable {stored : Bool} {rows : List AccountRow} {address privkey : String}

lemma Keying.requested (h : Keying w₀ stored rows address privkey w) (hr : Requested x w w') :
    Keying w₀ stored rows address privkey w' :=
  have hs := hr.asked.still
  ⟨h.1.still hs, h.2.1, hs.generated _ _ h.2.2.1, fun hst => hs.keyed _ (h.2.2.2 hst)⟩

lemma Keying.put (h : Keying w₀ false rows address privkey w) :
    Keying w₀ true rows address privkey { w with wallet := (address, privkey) :: w.wallet } :=
  have hs := Still.wallet h.2.2.1
  have hg := hs.generated _ _ h.2.2.1
  ⟨h.1.still hs, h.2.1, hg, fun _ => ⟨h.2.1, privkey, List.lookup_cons_self, hg⟩⟩

end

lemma wp_newETH (hx : Generates x) (hnode : node.node_id = 2) (h : Live w₀ w) :
    wp ((env x).among (Requested x)) (newETH node coin_id max_account_id address_quantity)
      (Stocking w₀) (Guarded w₀) w := by
  rw [newETH, wp_bind]
  refine wp_loop_always (I := fun (b : String × String × List AccountRow) => Stocking w₀ b.2.2) _
    ⟨h, by simp [Stocked]⟩ ?_
  rintro i ⟨address, privkey, vect_sql⟩ w₁ h₁
  rw [wp_bind]
  refine wp_mono (wp_createAddressOffline hx hnode (fun _ _ h => h.still) (fun _ h => h.1.toGuarded)
    h₁) ?_ fun _ h => h
  rintro ⟨_ | _, address, privkey⟩ w₂ ⟨h₂, hne, hg⟩
  · exact h₂
  simp only [if_true, wp_bind]
  have hkey : Keying w₀ false vect_sql address privkey w₂ := ⟨h₂, hne, hg, by simp⟩
  refine wp_mono (wp_setPrivateKey address privkey (fun _ _ h => h.requested) (fun _ h => h.put)
    (fun _ h => h.1.1.toGuarded) hkey) ?_ fun _ h => h
  rintro (_ | _) w₃ h₃
  · exact h₃.1
  · exact ⟨h₃.1.1, h₃.1.2.concat (h₃.2.2.2 rfl)⟩

lemma wp_newXRP_stocking (hx : Generates x) (hnode : node.node_id = 3) (h : Live w₀ w) :
    wp ((env x).among (Requested x)) (newXRP node coin_id max_account_id address_quantity)
      (Stocking w₀) (Guarded w₀) w := by
  refine wp_newXRP (I := fun _ => Stocking w₀)
    (M := fun stored _ rows address privkey => Keying w₀ stored rows address privkey) hnode
    (fun _ _ _ _ h => h.requested) (fun _ _ _ _ _ _ _ h => h.requested)
    (fun _ _ _ _ _ _ h => h.1) (fun _ _ _ h => h.1.toGuarded) (fun _ _ _ _ h => h)
    (fun _ _ _ h => h) (fun _ _ w r a h => h.still (.wire w r a)) ?_ (fun _ _ _ _ _ h => h.put)
    ?_ ?_ ⟨h, by simp [Stocked]⟩
  · intro _ rows w a k j h _ hnet hp
    refine ⟨h.still (.wire w _ _), hx.wallet_propose _ _ _ _ _ _ hnet hp,
      Or.inr ⟨node.node_url, node.node_auth, j, ?_, hp⟩, nofun⟩
    exact List.mem_append_right _ (List.mem_singleton_self _)
  · intro i rows a k w _ h
    have hk := h.2.2.2 rfl
    exact ⟨h.1.1.vars ⟨h.1.1.mapped.node, h.1.1.mapped.name⟩ fun _ => Or.inr hk, h.1.2.concat hk⟩
  · intro i rows w _ h htag hbase
    have hk := (h.1.base htag).resolve_left hbase
    exact ⟨h.1.vars ⟨h.1.mapped.node, h.1.mapped.name⟩ fun _ => Or.inr hk, h.2.concat hk⟩

/-- A node that makes its addresses itself is asked, and nothing else. -/
lemma wp_newLocal {tag : String} (h : Live w₀ w) :
    wp ((env x).among (Requested x)) (newLocal tag node coin_id max_account_id address_quantity)
      (fun _ => Live w₀) (Guarded w₀) w := by
  have hw := newLocal_within (S := fun o => ∃ r, o = .curl r) (fun r => ⟨r, rfl⟩) tag node coin_id
    max_account_id address_quantity
  refine wp_mono (wp_within_among (I := Live w₀) hw (fun _ _ h hr => h.requested hr) ?_ ?_ h)
    (fun _ _ h => h.2) fun _ h => h.toGuarded
  · rintro o w₁ w₂ - h₁ ⟨-, rfl⟩
    exact h₁
  · rintro o w₁ r w₂ ⟨r, rfl⟩ h₁ ⟨-, rfl⟩
    exact h₁.still (.wire w₁ _ _)

lemma wp_newEOS_live (h : Live w₀ w) :
    wp ((env x).among (Requested x)) (newEOS coin_id max_account_id address_quantity)
      (fun _ => Live w₀) (Guarded w₀) w :=
  wp_newEOS (I := fun _ _ => Live w₀) (fun _ _ _ _ h => h.requested) (fun _ _ _ h => h.toGuarded)
    (fun _ _ _ _ h => h) (fun _ _ _ h => h)
    (fun _ _ _ _ h _ => h.vars ⟨h.mapped.node, h.mapped.name⟩ h.base) h

lemma wp_newRows (hx : Generates x) (h : Live w₀ w)
    (hnode : ∀ c ∈ w₀.db.cat.coin, c.coin_id = coin_id → c.node_id = some node.node_id) :
    wp ((env x).among (Requested x)) (newRows node coin_id max_account_id address_quantity)
      (fun r w' => match r with
        | none => Live w₀ w'
        | some rows => Live w₀ w' ∧ ∀ r ∈ rows, Held w' r) (Guarded w₀) w := by
  have hrows : wp ((env x).among (Requested x))
      (newRows node coin_id max_account_id address_quantity) (fun r w' => Live w₀ w' ∧
        ∀ rows, r = some rows → node.node_id = 2 ∨ node.node_id = 3 → Stocked w' rows)
      (Guarded w₀) w := by
    have hlive : ∀ {p : Srv (List AccountRow)}, node.node_id ≠ 2 → node.node_id ≠ 3 →
        wp ((env x).among (Requested x)) p (fun _ => Live w₀) (Guarded w₀) w →
        wp ((env x).among (Requested x)) (p >>= fun rows => pure (some rows)) (fun r w' =>
          Live w₀ w' ∧ ∀ rows, r = some rows → node.node_id = 2 ∨ node.node_id = 3 →
            Stocked w' rows) (Guarded w₀) w := fun h2 h3 hp =>
      (wp_bind _ _).mpr (wp_mono hp (fun _ _ h => ⟨h, fun _ _ hn => (hn.elim h2 h3).elim⟩)
        fun _ h => h)
    have hstocking : ∀ {p : Srv (List AccountRow)},
        wp ((env x).among (Requested x)) p (Stocking w₀) (Guarded w₀) w →
        wp ((env x).among (Requested x)) (p >>= fun rows => pure (some rows)) (fun r w' =>
          Live w₀ w' ∧ ∀ rows, r = some rows → node.node_id = 2 ∨ node.node_id = 3 →
            Stocked w' rows) (Guarded w₀) w := fun hp =>
      (wp_bind _ _).mpr (wp_mono hp (fun _ _ h => ⟨h.1, fun _ hr _ => Option.some.inj hr ▸ h.2⟩)
        fun _ h => h)
    unfold newRows
    split
    · exact hlive (by omega) (by omega) (wp_newLocal h)
    split
    · next hn => exact hstocking (wp_newETH hx hn h)
    split
    · next hn => exact hstocking (wp_newXRP_stocking hx hn h)
    split
    · exact hlive (by omega) (by omega) (wp_newEOS_live h)
    split
    · exact hlive (by omega) (by omega) (wp_newLocal h)
    · exact ⟨h, by simp⟩
  refine wp_mono (wp_newRows_numbered hrows) (fun r w' hr => ?_) fun _ h => h
  obtain ⟨⟨hlive, hstocked⟩, hnum⟩ := hr
  cases r with
  | none => exact hlive
  | some rows =>
    refine ⟨hlive, fun r hr c hc hcoin hn => hstocked rows rfl ?_ r hr⟩
    rw [hlive.coin] at hc
    rw [hnode c hc (hcoin.trans ((hnum rows rfl).coin r hr))] at hn
    exact hn.imp Option.some.inj Option.some.inj

lemma Live.insert (hxrp : ∀ c ∈ w₀.db.cat.coin, c.short_name = some "XRP" → c.node_id = some 3)
    {rows : List AccountRow} (h : Live w₀ w) (hheld : ∀ r ∈ rows, Held w r) :
    Live w₀ { w with db := w.db.insertAccounts rows } := by
  refine ⟨⟨h.coin, ?_, fun c hc hname r hr address ha => ?_⟩, ⟨h.mapped.node, h.mapped.name⟩, h.base⟩
  · obtain ⟨new, hnew, hold⟩ := h.rows
    refine ⟨new ++ rows, ?_, fun r hr => (List.mem_append.mp hr).elim (hold r) (hheld r)⟩
    rw [← List.append_assoc, ← hnew]
    rfl
  · obtain ⟨hmem, hmax⟩ := mem_lastRows.mp hr
    obtain ⟨hmem, hcoin⟩ := mem_accounts.mp hmem
    rcases List.mem_append.mp hmem with hold | hnew
    · refine h.based c hc hname r (mem_lastRows.mpr ⟨mem_accounts.mpr ⟨hold, hcoin⟩, ?_⟩) address ha
      intro b hb
      obtain ⟨hb, hbcoin⟩ := mem_accounts.mp hb
      exact hmax b (mem_accounts.mpr ⟨List.mem_append_left _ hb, hbcoin⟩)
    · have hthree := hxrp c (h.coin ▸ hc) hname
      obtain ⟨address', ha', hk⟩ := hheld r hnew c hc hcoin.symm (Or.inr hthree)
      obtain rfl : address' = address := Option.some.inj (ha'.symm.trans ha)
      exact Or.inr hk

end

/-- **Every account of ETH and XRP has an address whose key is stored**, in every run in which the
generators return an account whenever they are asked for one, from a database on in which the base
address of XRP is one. -/
theorem custody_kept {g_json_config : Json} {ok : String → ℕ → World → Prop} {b : Bool}
    (hx : Generates x)
    (hxrp : ∀ c ∈ w₀.db.cat.coin, c.short_name = some "XRP" → c.node_id = some 3)
    (hbase : Based w₀) (hr : Serves x g_json_config ok w₀ b w) :
    ∃ new, w.db.cat.account = w₀.db.cat.account ++ new ∧ ∀ r ∈ new, Held w r := by
  refine (hr.inv (I := Live w₀) (J := Guarded w₀) (fun _ h => h.toGuarded)
    ⟨rfl, ⟨[], by simp, by simp⟩, hbase⟩ (fun w h => ?_) (fun _ _ h hreq => h.requested hreq)
    fun coin_name address_quantity w _ h => ?_).1.rows
  · refine wp_mono (wp_init g_json_config rfl) (fun _ w' ⟨hq, hs⟩ => ?_) fun w' hq => ?_
    · have hsafe : Safe w w' := .of_eq (congrArg Db.cat hq.db) hq.wallet hq.wire hq.made
      refine ⟨h.safe hsafe, ?_, fun htag => ?_⟩
      · rw [hq.db]
        exact hs.mapped
      · rcases hs.xrp with ⟨hzero, -⟩ | ⟨_, hlookup, r, hr, _, _, -, -, -, haddress⟩
        · exact absurd hzero htag
        · obtain ⟨c, hc, hname, rfl⟩ := hs.mapped.lookup hlookup
          exact (h.based c hc hname r hr _ haddress).imp_right (hsafe.keyed _)
    · exact h.safe (.of_eq (congrArg Db.cat hq.db) hq.wallet hq.wire hq.made)
  · refine wp_getNewAddress (P := Live w₀) (I := Live w₀) (D := Guarded w₀)
      (K := fun rows w => Live w₀ w ∧ ∀ r ∈ rows, Held w r) (fun _ _ h hr => h.requested hr)
      (fun w n h => h.still (.connections w n)) (fun _ h => h)
      (fun rows _ _ h hr => ⟨h.1.requested hr, fun r hmem => (h.2 r hmem).safe hr.asked.still.toSafe⟩)
      (fun _ _ h => h.1.toGuarded) (fun _ _ h hr => h.requested hr)
      (fun w n h => h.still (.connections w n)) (fun _ h => h.toGuarded)
      (fun rows rows' w h hs => h.1.insert hxrp fun r hr => h.2 r (hs.subset hr)) ?_ h
    intro w₁ coin_id node _ _ _ h₁ hv _ hnode _
    rw [← hv] at hnode
    refine wp_newRows hx h₁ fun c hc hcoin => h₁.mapped.unique hnode ?_ hcoin
    rwa [h₁.coin]

end

/-- ETH with one account, which a user has. -/
def ethPool : World where
  vars := .fresh
  s_usercoin_accountinfo := []
  db := { user := [⟨1, 1, 2⟩], cat := {
    coin := [⟨2, some 2, some "ETH"⟩]
    node := [⟨2, some "u", some "", some "", some ""⟩]
    token := []
    account := [⟨1, 2, some "B", some "ETH"⟩]
    coin_key := by simp } }
  wallet := []
  connections := 0
  wire := []
  made := []

/-- The Python wallet fails, and an account with an empty address is handed out. -/
theorem custody_lost : ¬ ∀ (x : Weather) (g_json_config : Json) (w₀ w : World) (b : Bool),
    (∀ c ∈ w₀.db.cat.coin, c.short_name = some "XRP" → c.node_id = some 3) → Based w₀ →
    Serves x g_json_config (fun _ _ _ => True) w₀ b w →
    ∃ new, w.db.cat.account = w₀.db.cat.account ++ new ∧ ∀ r ∈ new, Held w r := by
  intro h
  obtain ⟨new, hnew, hheld⟩ := h _ _ ethPool _ _ (by simp [ethPool]) (by simp [Based, ethPool])
    (serves_play (fun _ _ _ => True) (fun _ _ => .down) (fun _ => .null) smallConfig
      [.address "ETH" 1] ethPool fun _ _ _ _ _ => trivial)
  have haccounts : (play (fun _ _ => .down) (fun _ => .null) smallConfig [.address "ETH" 1]
      ethPool).2.db.cat.account = ethPool.db.cat.account ++ [⟨2, 2, some "", some "ETH"⟩] := by
    decide +kernel
  obtain rfl := List.append_cancel_left (hnew.symm.trans haccounts)
  obtain ⟨address, haddress, hne, -⟩ := hheld _ (List.mem_singleton_self _)
    ⟨2, some 2, some "ETH"⟩ (List.mem_singleton_self _) rfl (Or.inl rfl)
  exact hne (Option.some.inj haddress).symm

/-- A Python wallet that makes an account. -/
def goodPython (_ : ℕ) : PyResp :=
  .reply (.obj [("code", .int 0), ("data", .str "")])
    (some (.obj [("address", .str "A"), ("publicKey", .str "P"), ("privateKey", .str "K")]))

/-- An account of ETH whose key is stored. -/
theorem custody_kept_eth : ∃ new, (play (fun _ _ => .down) goodPython smallConfig
      [.address "ETH" 1] ethPool).2.db.cat.account = ethPool.db.cat.account ++ new ∧
    ∀ r ∈ new, Held (play (fun _ _ => .down) goodPython smallConfig [.address "ETH" 1] ethPool).2 r := by
  have hx : Generates (.clear (fun _ _ => .down) goodPython) := by
    refine ⟨fun t pyResp h => ⟨⟨"A", "P", "K"⟩, ?_, by simp⟩, fun t _ _ j _ _ h => by cases h⟩
    rw [show pyResp = _ from h]
    rfl
  exact custody_kept hx (by simp [ethPool]) (by simp [Based, ethPool])
    (serves_play (fun _ _ _ => True) (fun _ _ => .down) goodPython smallConfig [.address "ETH" 1]
      ethPool fun _ _ _ _ _ => trivial)

end OpenWallet.Server
