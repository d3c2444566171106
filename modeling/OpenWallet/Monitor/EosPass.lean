import OpenWallet.Monitor.Pass
import OpenWallet.Monitor.Eos

/-!
`scanEOS` as a scanner. It starts at the same block in every call, leaves a block with a
checkpoint also when a transaction of it could not be read, and passes a block over that was
answered with an error or without transactions.
-/

namespace OpenWallet.Monitor.Eos

open Lib Prog

variable (x : Weather) (t₀ : ℕ) (node : NodeInfo) (base : String)

def get_info : Json := .obj []
def get_block (i : ℕ) : Json := .obj [("block_num_or_id", .int i)]
def get_transaction (trx : String) : Json := .obj [("id", .str trx)]

abbrev Tip (w : World) (height : ℕ) : Prop :=
  Learnt x t₀ w ("http://" ++ node.node_url ++ "/v1/chain/get_info") node.node_auth get_info
    lastIrreversible height

abbrev Listed (w : World) (i : ℕ) (txs : Option (List Json)) : Prop :=
  Learnt x t₀ w ("http://" ++ node.node_url ++ "/v1/chain/get_block") node.node_auth
    (get_block i) transactions txs

/-- The transaction has been answered, with its actions or without. -/
abbrev Read (w : World) (trx : String) (acts : Option (List Json)) : Prop :=
  Learnt x t₀ w ("http://" ++ node.node_url ++ "/v1/history/get_transaction") node.node_auth
    (get_transaction trx) actions acts

def Lost (w : World) (json_transaction : Json) : Prop :=
  ∃ trx, id? json_transaction = some (.str trx) ∧
    Refused x t₀ w ("http://" ++ node.node_url ++ "/v1/history/get_transaction") node.node_auth
      (get_transaction trx)

def row (src : Src) (trx quantity : String) (flag : Option ℕ) : Txutxo :=
  ⟨trx, 0, base, quantity, flag, src⟩

/-- What is kept of an action has a row. -/
def ActDone (trx : String) (l : List Stmt) (json_action : Json) : Prop :=
  ∀ quantity flag, action base json_action = .ok (some (quantity, flag)) →
    ∃ src, .txutxo (row base src trx quantity flag) ∈ l

/-- The transaction has been answered, and each of its actions dealt with; one without an
identifier is not asked for. -/
def TxDone (w : World) (json_transaction : Json) : Prop :=
  ∀ trx, id? json_transaction = some (.str trx) → ∃ acts, Read x t₀ node w trx acts ∧
    ∀ as, acts = some as → ∀ a ∈ as, ActDone base trx (otc.total w) a

def Done (w : World) (i : ℕ) : Prop :=
  ∃ txs, Listed x t₀ node w i (some txs) ∧
    ((∀ t ∈ txs, TxDone x t₀ node base w t) ∨ ∃ t ∈ txs, Lost x t₀ node w t)

def grounds (coin_id : ℤ) (height : ℕ) : Grounds where
  coin_id := coin_id
  credit i s b w := ∃ src txs json_transaction trx acts json_action quantity flag,
    Listed x t₀ node w i (some txs) ∧ txs[src.tx]? = some json_transaction ∧
    id? json_transaction = some (.str trx) ∧ Read x t₀ node w trx (some acts) ∧
    acts[src.out]? = some json_action ∧
    action base json_action = .ok (some (quantity, flag)) ∧ src.height = i ∧
    s = .txutxo (row base src trx quantity flag) ∧
    b = some (callback "toAddress" quantity "EOS" 0 base trx false)
  track _ _ _ := False
  done i w := Done x t₀ node base w i
  marks i := i % 100 = 0 ∨ i = height
  skip i w := Listed x t₀ node w i none

section

variable {x t₀ node base} {w w' : World}

lemma ActDone.mono {trx : String} {l l' : List Stmt} {json_action : Json}
    (h : ActDone base trx l json_action) (hl : l ⊆ l') : ActDone base trx l' json_action := by
  intro quantity flag ha
  obtain ⟨src, hs⟩ := h quantity flag ha
  exact ⟨src, hl hs⟩

lemma TxDone.mono {json_tx : Json} (h : TxDone x t₀ node base w json_tx)
    (hw : w.wire <+: w'.wire) (hl : otc.total w ⊆ otc.total w') :
    TxDone x t₀ node base w' json_tx := by
  intro trx htrx
  obtain ⟨acts, h1, h2⟩ := h trx htrx
  exact ⟨acts, h1.mono hw, fun as has a ha => (h2 as has a ha).mono hl⟩

variable {coin_id : ℤ} {height i : ℕ} {G : Grounds}

lemma wp_scanAction {j k : ℕ} {trx : String} {json_transaction json_action : Json}
    {txs acts : List Json} (hG : G = grounds x t₀ node base coin_id height)
    (hbase : w.vars.eos_base_address_ = base)
    (hlist : Listed x t₀ node w (i + 1) (some txs)) (hj : txs[j]? = some json_transaction)
    (htrx : id? json_transaction = some (.str trx)) (hread : Read x t₀ node w trx (some acts))
    (hk : acts[k]? = some json_action) :
    wp (env x) (scanAction coin_id (i + 1) j trx json_action k)
      (fun _ w₁ => Steps x G ⟨w, i, place j k 0 0⟩ ⟨w₁, i, place j (k + 1) 0 0⟩ ∧
        ActDone base trx (otc.total w₁) json_action)
      (Fallen x G ⟨w, i, place j k 0 0⟩) w := by
  simp only [scanAction, wp_bind, wp_get, liftM_eq, wp_lift]
  refine ⟨fun _ => fallen_self _, fun r hr => ?_, fun _ _ => fallen_self _⟩
  rw [hbase] at hr
  cases r with
  | none =>
    refine ⟨.single (.room (by simp [place_le])), fun quantity flag h => ?_⟩
    rw [hr] at h
    cases h
  | some r =>
    obtain ⟨quantity, flag⟩ := r
    have hc : G.credit (i + 1)
        (.txutxo (row base ⟨coin_id, i + 1, j, k, 0⟩ trx quantity flag))
        (some (callback "toAddress" quantity "EOS" 0 base trx false)) w := by
      subst hG
      exact ⟨_, txs, _, trx, acts, _, quantity, flag, hlist, hj, htrx, hread, hk, hr, rfl, rfl,
        rfl⟩
    rw [hbase]
    refine wp_mono (wp_credit (q := place j k 0 1) (r := place j (k + 1) 0 0) hc ?_ ?_ ?_)
      (fun _ w₁ h => ⟨h.1, fun quantity' flag' h' => ?_⟩) fun _ hf => hf
    · subst hG; rfl
    · simp [place_le]
    · simp [place_lt]
    · rw [hr] at h'
      cases h'
      exact ⟨_, h.2⟩

lemma wp_scanTrx {j : ℕ} {json_transaction : Json} {trx : String} {txs : List Json}
    (hG : G = grounds x t₀ node base coin_id height) (hbase : w.vars.eos_base_address_ = base)
    (ht : t₀ ≤ w.wire.length) (hlist : Listed x t₀ node w (i + 1) (some txs))
    (hj : txs[j]? = some json_transaction) :
    wp (env x) (scanTrx node coin_id (i + 1) json_transaction j trx) (fun r w₁ => match r.1 with
        | .next => Steps x G ⟨w, i, place j 0 0 0⟩ ⟨w₁, i, place (j + 1) 0 0 0⟩ ∧
          TxDone x t₀ node base w₁ json_transaction
        | .brk => (∃ p, Steps x G ⟨w, i, place j 0 0 0⟩ ⟨w₁, i, p⟩) ∧
          Lost x t₀ node w₁ json_transaction)
      (Fallen x G ⟨w, i, place j 0 0 0⟩) w := by
  simp only [scanTrx]
  cases hid : id? json_transaction with
  | none =>
    refine ⟨.single (.room (by simp [place_le])), fun trx h => ?_⟩
    rw [hid] at h
    cases h
  | some json_id =>
    simp only [wp_bind, liftM_eq, wp_lift, Json.getStr_eq_ok]
    refine ⟨fun trx htrx => ?_, fun _ _ => fallen_self _⟩
    subst htrx
    refine wp_mono (wp_callRpc rfl ht) (fun r w₁ hpost => ?_) fun _ h => h
    obtain ⟨hs, htold, hrefused⟩ := hpost
    rcases r with jr | _ | jr
    · have hfall : Fallen x G ⟨w, i, place j 0 0 0⟩ w₁ := ⟨_, hs, rfl, rfl⟩
      simp only [wp_bind, wp_lift]
      refine ⟨fun acts hacts => ?_, fun _ _ => hfall⟩
      have hread : Read x t₀ node w₁ trx acts := ⟨jr, htold jr rfl, hacts⟩
      have hone : ∀ w₂ trx', id? json_transaction = some (.str trx') →
          (∀ as, acts = some as → ∀ a ∈ as, ActDone base trx (otc.total w₂) a) →
          w₁.wire <+: w₂.wire → ∃ acts, Read x t₀ node w₂ trx' acts ∧
            ∀ as, acts = some as → ∀ a ∈ as, ActDone base trx' (otc.total w₂) a := by
        intro w₂ trx' htrx' h hw
        rw [hid] at htrx'
        cases htrx'
        exact ⟨acts, hread.mono hw, h⟩
      cases acts with
      | none =>
        exact ⟨hs.tail (.room (by simp [place_le])),
          fun trx' h => hone w₁ trx' h (by simp) (List.prefix_refl _)⟩
      | some acts =>
        simp only [wp_bind]
        refine wp_mono (wp_forEach_zipIdx (I := fun l w₂ =>
            Steps x G ⟨w₁, i, place j 0 0 0⟩ ⟨w₂, i, place j l.length 0 0⟩ ∧
            ∀ a ∈ l, ActDone base trx (otc.total w₂) a) acts ⟨.refl, by simp⟩ ?_)
          (fun _ w₂ h => ⟨?_, fun trx' h' => ?_⟩) fun _ hf => Fallen.of_steps hs hf
        · rintro l a l' w₂ hl ⟨hs₂, hdone⟩
          have hf := hs.frame.trans hs₂.frame
          refine wp_mono (wp_scanAction hG (hf.eos.trans hbase) (hlist.mono hf.wire) hj hid
            (hread.mono hs₂.frame.wire) (k := l.length) (by simp [hl])) (fun _ w₃ h => ?_)
            fun _ hf => hf.of_steps hs₂
          refine ⟨by simpa using hs₂.trans h.1, fun a' ha' => ?_⟩
          rcases List.mem_append.mp ha' with ha' | ha'
          · exact (hdone a' ha').mono h.1.total_subset
          · exact List.mem_singleton.mp ha' ▸ h.2
        · exact (hs.trans h.1).tail (.room (by simp [place_le]))
        · exact hone w₂ trx' h' (by rintro _ ⟨⟩; exact h.2) h.1.frame.wire
    · exact ⟨⟨_, hs⟩, trx, hid, hrefused (by simp)⟩
    · exact ⟨⟨_, hs⟩, trx, hid, hrefused (by simp)⟩

lemma wp_scanBlock (hG : G = grounds x t₀ node base coin_id height)
    (hbase : w.vars.eos_base_address_ = base) (ht : t₀ ≤ w.wire.length) :
    wp (env x) (scanBlock node coin_id height (i + 1)) (fun fl w₁ => match fl with
        | .next => Steps x G ⟨w, i, ⊥⟩ ⟨w₁, i + 1, ⊥⟩
        | .brk => (∃ p, Steps x G ⟨w, i, ⊥⟩ ⟨w₁, i, p⟩) ∧ Stopped x t₀ w₁)
      (Fallen x G ⟨w, i, ⊥⟩) w := by
  simp only [scanBlock, wp_bind]
  refine wp_mono (wp_callRpc rfl ht) (fun r w₁ hpost => ?_) fun _ h => h
  obtain ⟨hs, htold, hrefused⟩ := hpost
  rcases r with j | _ | j
  · have hfall : Fallen x G ⟨w, i, ⊥⟩ w₁ := ⟨_, hs, rfl, rfl⟩
    have ht₁ : t₀ ≤ w₁.wire.length := ht.trans hs.frame.wire.length_le
    simp only [wp_bind, liftM_eq, wp_lift]
    refine ⟨fun txs htxs => ?_, fun _ _ => hfall⟩
    have hlist : Listed x t₀ node w₁ (i + 1) txs := ⟨j, htold j rfl, htxs⟩
    cases txs with
    | none =>
      refine hs.tail (.skip (Or.inr ?_))
      subst hG
      exact hlist
    | some txs =>
      simp only [wp_bind]
      refine wp_mono (wp_txs (T := TxDone x t₀ node base) (L := Lost x t₀ node) txs ""
        (fun _ _ _ hw hl h => h.mono hw hl) ?_) ?_ fun _ hf => Fallen.of_steps hs hf
      · intro l json_tx l' trx w₂ hl hs₂ _
        have hf := hs₂.frame
        exact wp_scanTrx hG ((hs.frame.trans hf).eos.trans hbase)
          (ht₁.trans hf.wire.length_le) (hlist.mono hf.wire) (by simp [hl])
      · rintro ⟨fl, trx⟩ w₂ ⟨⟨p, hs₂⟩, h⟩
        have hd : G.done (i + 1) w₂ := by
          subst hG
          exact ⟨txs, hlist.mono hs₂.frame.wire, by cases fl; exacts [Or.inl h, Or.inr h]⟩
        have hall := hs.trans hs₂
        subst hG
        refine wp_mono (wp_leave hd Iff.rfl) ?_ fun _ hf => Fallen.of_steps hall hf
        rintro _ w₃ ⟨rfl, h⟩
        exact hall.trans h
  · exact ⟨⟨_, hs⟩, _, _, _, hrefused (by simp)⟩
  · exact ⟨⟨_, hs⟩, _, _, _, hrefused (by simp)⟩

lemma wp_scanFrom {w₀ : World} {s : ℕ} (hG : G = grounds x w₀.wire.length node base coin_id height)
    (hbase : w₀.vars.eos_base_address_ = base) (hs : Steps x G ⟨w₀, s, ⊥⟩ ⟨w, s, ⊥⟩) :
    wp (env x) (scanFrom s node coin_id height)
      (fun _ w₁ => Ended x G w₀ s height w₁ ∧ w.wire <+: w₁.wire) (Fallen x G ⟨w₀, s, ⊥⟩) w := by
  rw [scanFrom, wp_bind]
  refine wp_mono (wp_blocks (J := fun _ _ => True) trivial hs ?_) (fun _ w₁ h => h) fun _ h => h
  intro i b w₁ _ _ hs₁ _
  have hw := hs₁.frame
  rw [wp_bind]
  refine wp_mono (wp_scanBlock hG (hw.eos.trans hbase) hw.wire.length_le) ?_ fun _ h => h
  intro fl w₂ h
  cases fl with
  | next => exact ⟨h, trivial⟩
  | brk => exact h

/-- **`scanEOS` is a scanner**, unless there is no base address to watch; each call of it starts
where the first one did. -/
theorem wp_scanEOS (w : World) :
    wp (env x) scanEOS
      (fun _ w' => (w' = w ∧ w.vars.eos_base_address_ = "") ∨ Returned x "EOS" (fun _ => start)
        (fun node => grounds x w.wire.length node w.vars.eos_base_address_)
        (fun node height w' => Tip x w.wire.length node w' height) w w')
      (Broken x "EOS" (fun _ => start)
        (fun node => grounds x w.wire.length node w.vars.eos_base_address_) w)
      w := by
  simp only [scanEOS, wp_bind, wp_get]
  refine ⟨fun _ => Or.inl ⟨rfl, rfl⟩, ?_⟩
  split
  · next h => exact Or.inl ⟨rfl, h⟩
  refine wp_mono (wp_begin rfl fun coin_id pre_height node j a hbegun hs htold => ?_)
    (fun _ _ h => Or.inr h) fun _ h => h
  simp only [wp_bind, liftM_eq, wp_lift]
  refine ⟨fun height hheight => ?_, fun _ _ => ⟨0, _, hs 0, rfl, rfl⟩⟩
  have htip : Tip x w.wire.length node (w.sent _ a) height := ⟨j, htold, hheight⟩
  have hs' := hs height
  beta_reduce at hs' ⊢
  generalize start = s at hs' ⊢
  exact wp_mono (wp_scanFrom rfl rfl hs')
    (fun _ w₁ h => ⟨height, h.1, htip.mono h.2⟩) fun _ hf => ⟨height, hf⟩

end

end OpenWallet.Monitor.Eos
