import OpenWallet.Server.Runs

/-!
The rows that a call of `getNewAddress` makes: whatever fails, they are rows of the coin, numbered
from its last account on.
-/

namespace OpenWallet.Server

open Lib Prog
open Monitor (NodeInfo)

/-- The calls that write no table. -/
def Reads : Op → Prop
  | .refreshDB _ | .batchRefreshDB _ => False
  | _ => True

lemma Reads.db {x : Weather} {o : Op} {w w' : World} {r : Ans o} (ho : Reads o)
    (h : (env x).answers o w r w') : w'.db = w.db := by
  cases o with
  | getData | getWallet => rw [h.1]
  | curl | createAccount | get | find => rw [h.2]
  | openWallet | offlineSign | offlineSignERC20 | put | insert | closeDB => rw [show w' = _ from h]
  | openDB | putWallet =>
    rw [show w' = if r then _ else _ from h]
    split <;> rfl
  | refreshDB | batchRefreshDB => exact absurd ho id

/-- The calls that make an address and store its key. -/
def Makes : Op → Prop
  | .curl _ | .createAccount | .openWallet | .putWallet _ _ => True
  | _ => False

lemma Makes.reads {o : Op} (h : Makes o) : Reads o := by
  cases o <;> trivial

/-- Rows of a coin with identifiers of the first `n` passes of a loop, in their order. -/
structure Numbered (coin_id : ℤ) (max_account_id n : ℕ) (rows : List AccountRow) : Prop where
  coin : ∀ r ∈ rows, r.coin_id = coin_id
  ids : (rows.map (·.account_id)).Sublist ((List.range n).map (newId max_account_id))

section

variable {coin_id : ℤ} {max_account_id n : ℕ} {rows : List AccountRow}

lemma Numbered.nil : Numbered coin_id max_account_id n [] := ⟨by simp, by simp⟩

lemma Numbered.mono {n' : ℕ} (h : Numbered coin_id max_account_id n rows) (hn : n ≤ n') :
    Numbered coin_id max_account_id n' rows :=
  ⟨h.coin, h.ids.trans ((List.range_sublist.mpr hn).map _)⟩

lemma Numbered.concat (h : Numbered coin_id max_account_id n rows) (address tag : String) :
    Numbered coin_id max_account_id (n + 1)
      (rows ++ [newRow coin_id max_account_id n address tag]) := by
  constructor
  · intro r hr
    rcases List.mem_append.mp hr with hr | hr
    · exact h.coin r hr
    · rw [List.mem_singleton.mp hr]
      rfl
  · simp only [List.map_append, List.range_succ, List.map_cons, List.map_nil, newRow]
    exact h.ids.append (List.Sublist.refl _)

end

section

variable {node : NodeInfo} {coin_id : ℤ} {max_account_id address_quantity : ℕ}

lemma callNodeRPC_within_of {S : Op → Prop} {strMethod url auth : String} {params : Json}
    (hS : S (.curl ⟨url, auth, structRpc strMethod params⟩)) :
    (CallNodeRPC strMethod params url auth).Within S fun _ => True := by
  refine within_bind (within_op hS fun _ => trivial) fun a _ => ?_
  cases a <;> trivial

lemma callNodeRPC_within {S : Op → Prop} (hS : ∀ r, S (.curl r)) (strMethod url auth : String)
    (params : Json) : (CallNodeRPC strMethod params url auth).Within S fun _ => True :=
  callNodeRPC_within_of (hS _)

lemma createAddressLocalChain_within {S : Op → Prop} (hS : ∀ r, S (.curl r)) (address : String) :
    (createAddressLocalChain node address).Within S fun _ => True := by
  unfold createAddressLocalChain
  split
  · refine within_bind (callNodeRPC_within hS _ _ _ _) ?_
    rintro ⟨_ | _, json_reply⟩ -
    · trivial
    · refine within_bind (within_lift fun _ => trivial) fun _ _ => ?_
      exact within_bind (within_lift fun _ => trivial) fun _ _ => trivial
  · trivial

lemma createAddressOffline_within {S : Op → Prop} (hS : ∀ o, Makes o → S o)
    (address privkey : String) :
    (createAddressOffline node address privkey).Within S fun _ => True := by
  unfold createAddressOffline
  split
  · refine within_bind (P := fun _ => True) ?_ fun _ _ => trivial
    exact within_bind (within_op (hS _ trivial) fun _ => trivial) fun _ _ => trivial
  split
  · refine within_bind (callNodeRPC_within (fun _ => hS _ trivial) _ _ _ _) ?_
    rintro ⟨_ | _, json_reply⟩ -
    · trivial
    · refine within_bind (within_lift fun _ => trivial) fun _ _ => ?_
      refine within_bind (within_lift fun _ => trivial) fun _ _ => ?_
      refine within_bind (within_lift fun _ => trivial) fun _ _ => ?_
      refine within_bind (within_lift fun _ => trivial) fun _ _ => ?_
      exact within_bind (within_lift fun _ => trivial) fun _ _ => trivial
  · trivial

lemma setPrivateKey_within {S : Op → Prop} (hopen : S .openWallet) (address private_key : String)
    (hput : S (.putWallet address private_key)) :
    (setPrivateKey address private_key).Within S fun _ => True := by
  refine within_bind (within_op hopen fun _ => trivial) fun b _ => ?_
  split
  · trivial
  · exact within_op hput fun _ => trivial

lemma get_within : get.Within Reads fun _ => True := within_op trivial fun _ => trivial

lemma modify_within (f : Vars → Vars) : (modify f).Within Reads fun _ => True :=
  within_bind get_within fun _ _ => within_op trivial fun _ => trivial

lemma newLocal_within {S : Op → Prop} (hS : ∀ r, S (.curl r)) (tag : String) (node : NodeInfo)
    (coin_id : ℤ) (max_account_id address_quantity : ℕ) :
    (newLocal tag node coin_id max_account_id address_quantity).Within S
      (Numbered coin_id max_account_id address_quantity) := by
  refine within_bind ?_ fun (r : Flow × String × List AccountRow)
    (h : Numbered coin_id max_account_id address_quantity r.2.2) => h
  refine within_loop (I := fun i (b : String × List AccountRow) =>
    Numbered coin_id max_account_id i b.2) _ .nil (fun _ _ hi h => h.mono hi) ?_
  rintro i ⟨address, vect_sql⟩ - h
  refine within_bind (createAddressLocalChain_within hS address) ?_
  rintro ⟨_ | _, address⟩ -
  · exact h.mono (Nat.le_succ i)
  · exact h.concat _ _

lemma newETH_within {S : Op → Prop} (hS : ∀ o, Makes o → S o) (node : NodeInfo) (coin_id : ℤ)
    (max_account_id address_quantity : ℕ) :
    (newETH node coin_id max_account_id address_quantity).Within S
      (Numbered coin_id max_account_id address_quantity) := by
  refine within_bind ?_ fun (r : Flow × String × String × List AccountRow)
    (h : Numbered coin_id max_account_id address_quantity r.2.2.2) => h
  refine within_loop (I := fun i (b : String × String × List AccountRow) =>
    Numbered coin_id max_account_id i b.2.2) _ .nil (fun _ _ hi h => h.mono hi) ?_
  rintro i ⟨address, privkey, vect_sql⟩ - h
  refine within_bind (createAddressOffline_within hS address privkey) ?_
  rintro ⟨_ | _, address, privkey⟩ -
  · exact h.mono (Nat.le_succ i)
  · refine within_bind (setPrivateKey_within (hS _ trivial) _ _ (hS _ trivial)) ?_
    rintro (_ | _) -
    · exact h.mono (Nat.le_succ i)
    · exact h.concat _ _

lemma newXRP_within : (newXRP node coin_id max_account_id address_quantity).Within Reads
    (Numbered coin_id max_account_id address_quantity) := by
  refine within_bind ?_ fun (r : Flow × String × String × List AccountRow)
    (h : Numbered coin_id max_account_id address_quantity r.2.2.2) => h
  refine within_loop (I := fun i (b : String × String × List AccountRow) =>
    Numbered coin_id max_account_id i b.2.2) _ .nil (fun _ _ hi h => h.mono hi) ?_
  rintro i ⟨address, privkey, vect_sql⟩ - h
  have hkeep : Numbered coin_id max_account_id (i + 1) vect_sql := h.mono (Nat.le_succ i)
  refine within_bind get_within fun v _ => ?_
  split
  · refine within_bind (createAddressOffline_within (fun _ => Makes.reads) address privkey) ?_
    rintro ⟨_ | _, address, privkey⟩ -
    · exact hkeep
    refine within_bind (setPrivateKey_within trivial _ _ trivial) ?_
    rintro (_ | _) -
    · exact hkeep
    refine within_bind (modify_within _) fun _ _ => within_bind get_within fun v _ => ?_
    exact h.concat _ _
  · split
    · exact hkeep
    refine within_bind (modify_within _) fun _ _ => within_bind get_within fun v _ => ?_
    exact h.concat _ _

lemma newEOS_within (coin_id : ℤ) (max_account_id address_quantity : ℕ) :
    (newEOS coin_id max_account_id address_quantity).Within Reads
      (Numbered coin_id max_account_id address_quantity) := by
  refine within_bind ?_ fun (r : Flow × List AccountRow)
    (h : Numbered coin_id max_account_id address_quantity r.2) => h
  refine within_loop (I := fun i (b : List AccountRow) => Numbered coin_id max_account_id i b) _
    .nil (fun _ _ hi h => h.mono hi) ?_
  rintro i vect_sql - h
  refine within_bind get_within fun v _ => ?_
  split
  · exact h.mono (Nat.le_succ i)
  · refine within_bind (modify_within _) fun _ _ => within_bind get_within fun v _ => ?_
    exact h.concat _ _

/-- **Whatever fails, the rows of a call are numbered from the last account on.** -/
theorem newRows_within (node : NodeInfo) (coin_id : ℤ) (max_account_id address_quantity : ℕ) :
    (newRows node coin_id max_account_id address_quantity).Within Reads fun r =>
      ∀ rows, r = some rows → Numbered coin_id max_account_id address_quantity rows := by
  have hsome : ∀ {p : Srv (List AccountRow)},
      p.Within Reads (Numbered coin_id max_account_id address_quantity) →
      (p >>= fun rows => pure (some rows)).Within Reads fun r => ∀ rows, r = some rows →
        Numbered coin_id max_account_id address_quantity rows :=
    fun hp => within_bind hp fun rows h rows' hr => Option.some.inj hr ▸ h
  unfold newRows
  split
  · exact hsome (newLocal_within (fun _ => trivial) "BTC" _ _ _ _)
  split
  · exact hsome (newETH_within (fun _ => Makes.reads) _ _ _ _)
  split
  · exact hsome newXRP_within
  split
  · exact hsome (newEOS_within _ _ _)
  split
  · exact hsome (newLocal_within (fun _ => trivial) "USDT" _ _ _ _)
  · rintro _ ⟨⟩

end

/-- Whatever else holds of the rows of a call, they are numbered. -/
lemma wp_newRows_numbered {x : Weather} {Q : Option (List AccountRow) → World → Prop}
    {D : World → Prop} {w : World} {node : NodeInfo} {coin_id : ℤ}
    {max_account_id address_quantity : ℕ}
    (h : wp ((env x).among (Requested x)) (newRows node coin_id max_account_id address_quantity)
      Q D w) :
    wp ((env x).among (Requested x)) (newRows node coin_id max_account_id address_quantity)
      (fun r w' => Q r w' ∧
        ∀ rows, r = some rows → Numbered coin_id max_account_id address_quantity rows) D w := by
  have hnum := wp_within_among (E := env x) (R := Requested x) (I := fun _ => True) (w := w)
    (newRows_within node coin_id max_account_id address_quantity) (fun _ _ _ _ => trivial)
    (fun _ _ _ _ _ _ => trivial) (fun _ _ _ _ _ _ _ => trivial) trivial
  exact wp_mono (wp_and h hnum) (fun _ _ h => ⟨h.1, h.2.1⟩) fun _ h => h.1

/-- The account that an answer to `wallet_propose` proposes. -/
def Proposes (json_reply : Json) (address privkey : String) : Prop :=
  ∃ result, json_reply.field "result" = .ok result ∧
    result.field "account_id" >>= Json.getStr = .ok address ∧
    result.field "master_seed" >>= Json.getStr = .ok privkey

/-- What a node is asked for a proposal. -/
def propose (url auth : String) : Request := ⟨url, auth, structRpc "wallet_propose" (.arr [])⟩

section

variable {x : Weather} {P D : World → Prop} {w : World} {node : NodeInfo}

lemma wp_propose (address privkey : String) (hnode : node.node_id = 3)
    (hR : ∀ w w', P w → Requested x w w' → P w')
    (hwire : ∀ w r a, P w → P { w with wire := w.wire ++ [(r, a)] }) (hPD : ∀ w, P w → D w)
    (h : P w) :
    wp ((env x).among (Requested x)) (createAddressOffline node address privkey)
      (fun r w' => P w' ∧ (r.1 = true → ∃ w₁ json_reply, P w₁ ∧
        x.net w₁.wire.length (propose node.node_url node.node_auth) (.body json_reply) ∧
        Proposes json_reply r.2.1 r.2.2 ∧ w' = { w₁ with
          wire := w₁.wire ++ [(propose node.node_url node.node_auth, .body json_reply)] })) D w := by
  unfold createAddressOffline
  rw [if_neg (by omega), if_pos hnode]
  simp only [CallNodeRPC, wp_bind, bind_assoc]
  refine wp_op_among hR h fun w₁ h₁ => ⟨fun w' hw => hw.2 ▸ hPD _ h₁, ?_⟩
  rintro answer w₂ ⟨hnet, rfl⟩
  have h₂ := hwire w₁ (propose node.node_url node.node_auth) answer h₁
  cases answer with
  | down => exact ⟨h₂, by simp⟩
  | garbage => exact hPD _ h₂
  | body j =>
    simp only [pure_eq, wp_ret, Bool.not_true, Bool.false_eq_true, if_false, liftM_eq, wp_bind]
    refine wp_lift_ok (hPD _ h₂) fun result hresult => ?_
    refine wp_lift_ok (hPD _ h₂) fun j₁ hj₁ => wp_lift_ok (hPD _ h₂) fun address ha => ?_
    refine wp_lift_ok (hPD _ h₂) fun j₂ hj₂ => wp_lift_ok (hPD _ h₂) fun privkey hk => ?_
    refine ⟨h₂, fun _ => ⟨w₁, j, h₁, hnet, ⟨result, hresult, ?_, ?_⟩, rfl⟩⟩
    · rw [hj₁, ok_bind, ha]
    · rw [hj₂, ok_bind, hk]

lemma wp_setPrivateKey {Q : World → Prop} (address privkey : String)
    (hR : ∀ w w', P w → Requested x w w' → P w')
    (hput : ∀ w, P w → Q { w with wallet := (address, privkey) :: w.wallet })
    (hPD : ∀ w, P w → D w) (h : P w) :
    wp ((env x).among (Requested x)) (setPrivateKey address privkey)
      (fun ok w' => match ok with
        | true => Q w'
        | false => P w') D w := by
  rw [setPrivateKey, wp_bind]
  refine wp_op_among hR h fun w₁ h₁ => ⟨fun w' hw => hw.2 ▸ hPD _ h₁, ?_⟩
  rintro b _ rfl
  rw [wp_ret]
  split
  · exact h₁
  refine wp_op_among hR h₁ fun w₂ h₂ => ⟨fun w' hw => hw.2 ▸ hPD _ h₂, ?_⟩
  rintro ok w₃ hw
  rw [show w₃ = if ok then _ else _ from hw]
  cases ok with
  | false => exact h₂
  | true => exact hput w₂ h₂

section

variable {coin_id : ℤ} {max_account_id address_quantity : ℕ}
  {I : ℕ → List AccountRow → World → Prop}

/-- The rule for EOS: a pass gives the next tag to the base address. -/
lemma wp_newEOS (hR : ∀ i rows w w', I i rows w → Requested x w w' → I i rows w')
    (hD : ∀ i rows w, I i rows w → D w)
    (hle : ∀ i rows w, i ≤ address_quantity → I i rows w → I address_quantity rows w)
    (hskip : ∀ i rows w, I i rows w → I (i + 1) rows w)
    (hrow : ∀ i rows w, i < address_quantity → I i rows w → w.vars.eos_base_address_ ≠ "" →
      I (i + 1) (rows ++ [newRow coin_id max_account_id i w.vars.eos_base_address_
          (toString (next w.vars.max_eos_tag_))])
        { w with vars := { w.vars with max_eos_tag_ := next w.vars.max_eos_tag_ } })
    (h : I 0 [] w) :
    wp ((env x).among (Requested x)) (newEOS coin_id max_account_id address_quantity)
      (I address_quantity) D w := by
  rw [newEOS, wp_bind]
  refine wp_loop_range address_quantity h hle fun i rows w₁ hi h₁ => ?_
  rw [wp_bind]
  refine wp_get_among (hR i rows) (hD i rows) h₁ fun w₂ h₂ hv => ?_
  rw [← hv]
  split
  · exact hskip i rows w₂ h₂
  next hbase =>
  rw [wp_bind]
  refine wp_modify_among (hR i rows) (hD i rows) h₂ fun w₃ h₃ hv => ?_
  rw [← hv] at hbase ⊢
  rw [wp_bind]
  exact wp_get_among (hR _ _) (hD _ _) (hrow i rows w₃ hi h₃ hbase) fun w₄ h₄ _ => h₄

/-- The rule for XRP: a pass gives the next tag to the base address, or makes a base address, of
which `M` holds, first when it is proposed and then when its key is stored. -/
lemma wp_newXRP {M : Bool → ℕ → List AccountRow → String → String → World → Prop}
    (hnode : node.node_id = 3)
    (hR : ∀ i rows w w', I i rows w → Requested x w w' → I i rows w')
    (hMR : ∀ b i rows a k w w', M b i rows a k w → Requested x w w' → M b i rows a k w')
    (hMI : ∀ b i rows a k w, M b i rows a k w → I i rows w)
    (hD : ∀ i rows w, I i rows w → D w)
    (hle : ∀ i rows w, i ≤ address_quantity → I i rows w → I address_quantity rows w)
    (hskip : ∀ i rows w, I i rows w → I (i + 1) rows w)
    (hwire : ∀ i rows w r a, I i rows w → I i rows { w with wire := w.wire ++ [(r, a)] })
    (hpropose : ∀ i rows w a k j, I i rows w → w.vars.max_xrp_tag_ = 0 →
      x.net w.wire.length (propose node.node_url node.node_auth) (.body j) → Proposes j a k →
      M false i rows a k { w with
        wire := w.wire ++ [(propose node.node_url node.node_auth, .body j)] })
    (hput : ∀ i rows a k w, M false i rows a k w →
      M true i rows a k { w with wallet := (a, k) :: w.wallet })
    (hbase : ∀ i rows a k w, i < address_quantity → M true i rows a k w →
      I (i + 1) (rows ++ [newRow coin_id max_account_id i a (toString (next w.vars.max_xrp_tag_))])
        { w with vars := { w.vars with
          xrp_base_address_ := a, max_xrp_tag_ := next w.vars.max_xrp_tag_ } })
    (hrow : ∀ i rows w, i < address_quantity → I i rows w → w.vars.max_xrp_tag_ ≠ 0 →
      w.vars.xrp_base_address_ ≠ "" →
      I (i + 1) (rows ++ [newRow coin_id max_account_id i w.vars.xrp_base_address_
          (toString (next w.vars.max_xrp_tag_))])
        { w with vars := { w.vars with max_xrp_tag_ := next w.vars.max_xrp_tag_ } })
    (h : I 0 [] w) :
    wp ((env x).among (Requested x)) (newXRP node coin_id max_account_id address_quantity)
      (I address_quantity) D w := by
  rw [newXRP, wp_bind]
  refine wp_loop_range (I := fun i (b : String × String × List AccountRow) => I i b.2.2)
    address_quantity h (fun i b w => hle i b.2.2 w) ?_
  rintro i ⟨address, privkey, rows⟩ w₁ hi h₁
  rw [wp_bind]
  refine wp_get_among (hR i rows) (hD i rows) h₁ fun w₂ h₂ hv => ?_
  rw [← hv]
  split
  · next htag =>
    rw [wp_bind]
    -- until the node has answered, the counter stays at zero
    have hR' : ∀ w w', I i rows w ∧ w.vars.max_xrp_tag_ = 0 → Requested x w w' →
        I i rows w' ∧ w'.vars.max_xrp_tag_ = 0 :=
      fun w w' h hr => ⟨hR i rows w w' h.1 hr, hr.asked.vars ▸ h.2⟩
    refine wp_mono (wp_propose address privkey hnode hR' (fun w r a h => ⟨hwire i rows w r a h.1, h.2⟩)
      (fun w h => hD i rows w h.1) ⟨h₂, htag⟩) ?_ fun _ h => h
    rintro ⟨_ | _, a, k⟩ w₃ ⟨h₃, hmade⟩
    · exact hskip i rows w₃ h₃.1
    obtain ⟨w', j, h', hnet, hp, rfl⟩ := hmade rfl
    have hM := hpropose i rows w' a k j h'.1 h'.2 hnet hp
    have hMD : ∀ b w, M b i rows a k w → D w := fun b w h => hD i rows w (hMI b i rows a k w h)
    simp only [Bool.not_true, Bool.false_eq_true, if_false, wp_bind]
    refine wp_mono (wp_setPrivateKey a k (hMR false i rows a k) (hput i rows a k) (hMD false) hM) ?_
      fun _ h => h
    rintro (_ | _) w₄ h₄
    · exact hskip i rows w₄ (hMI _ i rows a k w₄ h₄)
    simp only [Bool.not_true, Bool.false_eq_true, if_false, wp_bind]
    refine wp_modify_among (hMR true i rows a k) (hMD true) h₄ fun w₅ h₅ hv => ?_
    rw [← hv]
    exact wp_get_among (hR _ _) (hD _ _) (hbase i rows a k w₅ hi h₅) fun w₆ h₆ _ => h₆
  · next htag =>
    split
    · exact hskip i rows w₂ h₂
    next hbase' =>
    rw [wp_bind]
    refine wp_modify_among (hR i rows) (hD i rows) h₂ fun w₃ h₃ hv => ?_
    rw [← hv] at htag hbase' ⊢
    rw [wp_bind]
    exact wp_get_among (hR _ _) (hD _ _) (hrow i rows w₃ hi h₃ htag hbase') fun w₄ h₄ _ => h₄

end

end

end OpenWallet.Server
