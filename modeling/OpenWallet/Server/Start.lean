import OpenWallet.Server.Runs

/-!
What a new process takes from the database: the coins with their nodes, and for a coin with a
shared address that address and its tag, from the last account of the coin.
-/

namespace OpenWallet.Server

open Lib Prog
open Monitor (Cell NodeInfo rowData)

/-! ### What the statics hold -/

/-- The statics name coins of the catalog and their nodes. -/
structure Mapped (cat : Catalog) (v : Vars) : Prop where
  node : ∀ coin_id node, (coin_id, node) ∈ v.s_coinid_NodeInfo_ →
    ∃ c ∈ cat.coin, c.coin_id = coin_id ∧ c.node_id = some node.node_id
  name : ∀ name coin_id, (name, coin_id) ∈ v.s_coinName_coinid_ →
    ∃ c ∈ cat.coin, c.short_name = some name ∧ c.coin_id = coin_id

/-- The accounts of a coin with the largest identifier. -/
def lastRows (d : Db) (coin_id : ℤ) : List AccountRow :=
  (d.accounts coin_id).filter fun a =>
    some a.account_id = ((d.accounts coin_id).map (·.account_id)).max?

lemma mem_lastRows {d : Db} {coin_id : ℤ} {a : AccountRow} : a ∈ lastRows d coin_id ↔
    a ∈ d.accounts coin_id ∧ ∀ b ∈ d.accounts coin_id, b.account_id ≤ a.account_id := by
  rw [lastRows, List.mem_filter, decide_eq_true_eq, eq_comm, List.max?_eq_some_iff]
  refine and_congr_right fun ha => ⟨fun h b hb => h.2 _ (List.mem_map_of_mem hb), fun h =>
    ⟨List.mem_map_of_mem ha, fun m hm => ?_⟩⟩
  obtain ⟨b, hb, rfl⟩ := List.mem_map.mp hm
  exact h b hb

/-- The tag and the address of a last account of the coin that the statics know by this name. -/
def Last (d : Db) (v : Vars) (short_name : String) (tag : ℕ) (address : String) : Prop :=
  ∃ coin_id, v.s_coinName_coinid_.lookup short_name = some coin_id ∧ ∃ r ∈ lastRows d coin_id,
    ∃ s t, r.tag = some s ∧ Text.stoul s = .ok t ∧ tag = t % 2 ^ 32 ∧ r.address = some address

/-- What a process takes from a database. -/
structure Started (d : Db) (v : Vars) : Prop where
  mapped : Mapped d.cat v
  xrp : v.max_xrp_tag_ = 0 ∧ v.xrp_base_address_ = "" ∨
    Last d v "XRP" v.max_xrp_tag_ v.xrp_base_address_
  eos : v.max_eos_tag_ = 0 ∧ v.eos_base_address_ = "" ∨
    Last d v "EOS" v.max_eos_tag_ v.eos_base_address_

structure Blank (v : Vars) : Prop where
  xrp : v.max_xrp_tag_ = 0 ∧ v.xrp_base_address_ = ""
  eos : v.max_eos_tag_ = 0 ∧ v.eos_base_address_ = ""

/-- What a process that starts leaves as it was. -/
structure Quiet (w w' : World) : Prop where
  db : w'.db = w.db
  wallet : w'.wallet = w.wallet
  wire : w'.wire = w.wire
  made : w'.made = w.made

section

variable {x : Weather} {w₀ w : World}

/-- Between two steps of a start. -/
def Starting (w₀ w : World) : Prop := Quiet w₀ w ∧ Started w₀.db w.vars

lemma Starting.vars (h : Starting w₀ w) {v : Vars} (hv : Started w₀.db v) :
    Starting w₀ { w with vars := v } :=
  ⟨⟨h.1.db, h.1.wallet, h.1.wire, h.1.made⟩, hv⟩

lemma Starting.connections (h : Starting w₀ w) (n : ℤ) :
    Starting w₀ { w with connections := n } :=
  ⟨⟨h.1.db, h.1.wallet, h.1.wire, h.1.made⟩, h.2⟩

/-- Before the tags are read. -/
def Naming (w₀ w : World) : Prop := Starting w₀ w ∧ Blank w.vars

lemma Naming.vars (h : Naming w₀ w) {v : Vars} (hm : Mapped w₀.db.cat v) (hb : Blank v) :
    Naming w₀ { w with vars := v } :=
  ⟨h.1.vars ⟨hm, Or.inl hb.xrp, Or.inl hb.eos⟩, hb⟩

lemma rowData_node {n : NodeRow} {c : CoinRow} {j : Json}
    (h : rowData [.INT, .STRING, .STRING, .STRING, .STRING, .STRING, .INT]
      [.int n.node_id, .ofText c.short_name, .ofText n.node_url, .ofText n.node_auth,
        .ofText n.wallet_url, .ofText n.wallet_auth, .int c.coin_id] = .ok j) :
    ∃ short_name node_url node_auth wallet_url wallet_auth, c.short_name = some short_name ∧
      (-2 ^ 31 ≤ n.node_id ∧ n.node_id < 2 ^ 31) ∧ (-2 ^ 31 ≤ c.coin_id ∧ c.coin_id < 2 ^ 31) ∧
      j = .arr [.int n.node_id, .str short_name, .str node_url, .str node_auth, .str wallet_url,
        .str wallet_auth, .int c.coin_id] := by
  simp only [rowData, List.zip_cons_cons, List.zip_nil_right, List.mapM_cons, List.mapM_nil,
    bind_eq_ok, convert_int, convert_ofText, pure_eq_ok, Except.ok.injEq] at h
  obtain ⟨_, ⟨_, ⟨hn, rfl⟩, _, ⟨_, ⟨name, hname, rfl⟩, _, ⟨_, ⟨url, -, rfl⟩, _, ⟨_, ⟨auth, -, rfl⟩, _,
    ⟨_, ⟨wurl, -, rfl⟩, _, ⟨_, ⟨wauth, -, rfl⟩, _, ⟨_, ⟨hc, rfl⟩, _, rfl, rfl⟩, rfl⟩, rfl⟩, rfl⟩, rfl⟩,
    rfl⟩, rfl⟩, rfl⟩ := h
  exact ⟨name, url, auth, wurl, wauth, hname, hn, hc, rfl⟩

lemma wp_initNodes (h : Naming w₀ w) :
    wp (env x) initNodes (fun _ => Naming w₀) (Quiet w₀) w := by
  rw [initNodes, wp_bind]
  refine wp_getData h.1.1 (by simpa [Json.elems, forEach, lift] using h) fun js hrows => ?_
  simp only [Json.elems, wp_bind, liftM_eq, wp_lift, Except.ok.injEq, forall_eq', reduceCtorEq,
    false_implies, implies_true, and_true]
  have hdb := h.1.1.db
  refine wp_forEach (I := fun _ => Naming w₀) js h fun pre j post w₁ hjs h₁ => ?_
  obtain ⟨rows, he, row, hrow, hj⟩ := hrows.mem rfl (k := pre.length) (j := j) (by simp [hjs])
  simp only [Query.eval, Option.some.injEq] at he
  subst he
  simp only [List.mem_flatMap, List.mem_map, List.mem_filter, decide_eq_true_eq] at hrow
  obtain ⟨n, hn, c, ⟨hc, hnc⟩, rfl⟩ := hrow
  obtain ⟨short_name, node_url, node_auth, wallet_url, wallet_auth, hname, hnode, hcoin, rfl⟩ :=
    rowData_node hj
  rw [hdb] at hc
  simp only [Json.idx, List.getD_cons_zero, List.getD_cons_succ, wp_bind, wp_lift, Except.ok.injEq,
    forall_eq', reduceCtorEq, false_implies, implies_true, and_true, getInt_int hcoin,
    getInt_int hnode, Json.getStr_str, wp_modify]
  have hmapped := h₁.1.2.mapped
  refine ⟨fun _ => h₁.1.1, h₁.vars ⟨fun coin_id node hmem => ?_, fun name coin_id hmem => ?_⟩
    ⟨h₁.2.xrp, h₁.2.eos⟩⟩
  · rcases List.mem_cons.mp hmem with heq | hmem
    · cases heq
      exact ⟨c, hc, rfl, hnc.symm⟩
    · exact hmapped.node coin_id node hmem
  · rcases List.mem_cons.mp hmem with heq | hmem
    · cases heq
      exact ⟨c, hc, hname, rfl⟩
    · exact hmapped.name name coin_id hmem

lemma wp_initTokens (h : Naming w₀ w) :
    wp (env x) initTokens (fun _ => Naming w₀) (Quiet w₀) w := by
  rw [initTokens, wp_bind]
  refine wp_getData h.1.1 (by simpa [Json.elems, forEach, lift] using h) fun js hrows => ?_
  simp only [Json.elems, wp_bind, liftM_eq, wp_lift, Except.ok.injEq, forall_eq', reduceCtorEq,
    false_implies, implies_true, and_true]
  refine wp_forEach (I := fun _ => Naming w₀) js h fun pre j post w₁ hjs h₁ => ?_
  simp only [wp_bind]
  iterate 10 refine wp_lift_any h₁.1.1 fun _ => ?_
  have hmapped := h₁.1.2.mapped
  rw [wp_modify]
  exact ⟨fun _ => h₁.1.1, h₁.vars ⟨hmapped.node, hmapped.name⟩ ⟨h₁.2.xrp, h₁.2.eos⟩⟩

lemma wp_lastAccount {coin_id : ℤ} (h : Starting w₀ w) :
    wp (env x) (lastAccount coin_id) (fun r w' => w' = w ∧ ∀ tag address, r = some (tag, address) →
      ∃ a ∈ lastRows w₀.db coin_id, ∃ s t, a.tag = some s ∧ Text.stoul s = .ok t ∧
        tag = t % 2 ^ 32 ∧ a.address = some address) (Quiet w₀) w := by
  rw [lastAccount, wp_bind]
  refine wp_getData h.1 (by simp [Json.size]) fun js hrows => ?_
  rw [if_pos hrows.size]
  cases js with
  | nil => exact absurd rfl hrows.some_row
  | cons j js =>
    obtain ⟨rows, he, row, hrow, hj⟩ := hrows.mem rfl (k := 0) rfl
    simp only [Query.eval, Option.some.injEq] at he
    subst he
    obtain ⟨a, ha, rfl⟩ := List.mem_map.mp hrow
    simp only [rowData, List.zip_cons_cons, List.zip_nil_right, List.mapM_cons, List.mapM_nil,
      bind_eq_ok, convert_ofText, pure_eq_ok, Except.ok.injEq] at hj
    obtain ⟨_, ⟨_, ⟨s, hs, rfl⟩, _, ⟨_, ⟨address, haddress, rfl⟩, _, rfl, rfl⟩, rfl⟩, rfl⟩ := hj
    simp only [Json.idx, List.getD_cons_zero, List.getD_cons_succ, wp_bind, liftM_eq, wp_lift,
      Except.ok.injEq, forall_eq', reduceCtorEq, false_implies, implies_true, and_true,
      Json.getStr_str, pure_eq, wp_ret, Option.some.injEq, Prod.mk.injEq, true_and]
    refine ⟨fun t ht => ?_, fun _ _ => h.1⟩
    rintro tag _ ⟨rfl, rfl⟩
    rw [h.1.db] at ha
    exact ⟨a, ha, s, t, hs, ht, rfl, haddress⟩

lemma Mapped.lookup {cat : Catalog} {v : Vars} (h : Mapped cat v) {name : String} {coin_id : ℤ}
    (hc : v.s_coinName_coinid_.lookup name = some coin_id) :
    ∃ c ∈ cat.coin, c.short_name = some name ∧ c.coin_id = coin_id :=
  h.name name coin_id (List.lookup_eq_some_iff.mp hc |>.elim fun l ⟨l', hl, _⟩ => by simp [hl])

lemma Mapped.unique {cat : Catalog} {v : Vars} (h : Mapped cat v) {coin_id : ℤ} {node : NodeInfo}
    (hn : v.s_coinid_NodeInfo_.lookup coin_id = some node) {c : CoinRow} (hc : c ∈ cat.coin)
    (hcoin : c.coin_id = coin_id) : c.node_id = some node.node_id := by
  obtain ⟨l, l', hl, -⟩ := List.lookup_eq_some_iff.mp hn
  obtain ⟨c', hc', hcoin', hnode⟩ := h.node coin_id node (by simp [hl])
  obtain rfl := List.inj_on_of_nodup_map cat.coin_key hc hc' (hcoin.trans hcoin'.symm)
  exact hnode

lemma wp_initXRP (h : Starting w₀ w) :
    wp (env x) initXRP (fun _ => Starting w₀) (Quiet w₀) w := by
  rw [initXRP, wp_bind, wp_get]
  refine ⟨fun _ => h.1, ?_⟩
  split
  · exact h
  next coin_id hcoin =>
  rw [wp_bind]
  refine wp_mono (wp_lastAccount h) (fun r w₁ hr => ?_) fun _ h => h
  obtain ⟨rfl, hr⟩ := hr
  split
  · exact h
  next tag address =>
  split
  · rw [wp_modify]
    exact ⟨fun _ => h.1, h.vars ⟨⟨h.2.mapped.node, h.2.mapped.name⟩,
      Or.inr ⟨coin_id, hcoin, hr tag address rfl⟩, h.2.eos⟩⟩
  · rw [wp_modify]
    exact ⟨fun _ => h.1, h.vars ⟨⟨h.2.mapped.node, h.2.mapped.name⟩, Or.inl ⟨rfl, rfl⟩, h.2.eos⟩⟩

lemma wp_initEOS (h : Starting w₀ w) :
    wp (env x) initEOS (fun _ => Starting w₀) (Quiet w₀) w := by
  rw [initEOS, wp_bind, wp_get]
  refine ⟨fun _ => h.1, ?_⟩
  split
  · exact h
  next coin_id hcoin =>
  rw [wp_bind]
  refine wp_mono (wp_lastAccount h) (fun r w₁ hr => ?_) fun _ h => h
  obtain ⟨rfl, hr⟩ := hr
  split
  · exact h
  next tag address =>
  rw [wp_bind, wp_modify]
  exact ⟨fun _ => h.1, h.vars ⟨⟨h.2.mapped.node, h.2.mapped.name⟩, h.2.xrp,
    Or.inr ⟨coin_id, hcoin, hr tag address rfl⟩⟩⟩

/-- **A process starts with what the database says**, and changes nothing but its statics. -/
theorem wp_init (g_json_config : Json) (h : w.vars = .fresh) :
    wp (env x) (init g_json_config) (fun _ w' => Quiet w w' ∧ Started w.db w'.vars) (Quiet w) w := by
  have hm : Mapped w.db.cat w.vars := h ▸ ⟨nofun, nofun⟩
  have hb : Blank w.vars := h ▸ ⟨⟨rfl, rfl⟩, ⟨rfl, rfl⟩⟩
  have hw : Starting w w := ⟨⟨rfl, rfl, rfl, rfl⟩, hm, Or.inl hb.xrp, Or.inl hb.eos⟩
  have hopen := hw.connections (w.connections + 1)
  simp only [init, wp_bind, wp_openDB, liftM_eq]
  refine ⟨fun _ => hw.1, by simpa [Starting] using hw, ?_⟩
  simp only [Bool.not_true, Bool.false_eq_true, if_false, wp_bind]
  refine wp_lift_any hopen.1 fun fee_address_omni => ?_
  split
  · exact hopen
  simp only [wp_bind, wp_modify]
  refine wp_lift_any hopen.1 fun _ => ⟨fun _ => hopen.1, ?_⟩
  have hfee := fun s => hopen.vars (v := { w.vars with fee_address_omni_ := s })
    ⟨⟨hm.node, hm.name⟩, Or.inl hb.xrp, Or.inl hb.eos⟩
  refine wp_lift_any (hfee _).1 fun eos_public_key => ?_
  split
  · exact hfee _
  simp only [wp_bind, wp_modify]
  refine wp_lift_any (hfee _).1 fun _ => ⟨fun _ => (hfee _).1, ?_⟩
  have hkey := fun s t => (hfee s).vars (v := { w.vars with
      fee_address_omni_ := s, eos_public_key_ := t })
    ⟨⟨hm.node, hm.name⟩, Or.inl hb.xrp, Or.inl hb.eos⟩
  refine wp_mono (wp_initNodes ⟨hkey _ _, hb.xrp, hb.eos⟩) (fun _ w₁ h₁ => ?_) fun _ h => h
  refine wp_mono (wp_initTokens h₁) (fun _ w₂ h₂ => ?_) fun _ h => h
  refine wp_mono (wp_initXRP h₂.1) (fun _ w₃ h₃ => ?_) fun _ h => h
  refine wp_mono (wp_initEOS h₃) (fun _ w₄ h₄ => ?_) fun _ h => h
  rw [wp_closeDB]
  exact ⟨fun _ => h₄.1, h₄.connections _⟩

end

end OpenWallet.Server
