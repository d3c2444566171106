import OpenWallet.Monitor.Pass
import OpenWallet.Monitor.Omni

/-!
`scanOMNI_USDT` as a scanner. It leaves a block with a checkpoint also when a transaction of it
could not be read, and passes a block over that was answered with no transactions.
-/

namespace OpenWallet.Monitor.Omni

open Lib Prog

variable (x : Weather) (t₀ : ℕ) (node : NodeInfo) (S : List (String × ℤ))

def getblockcount : Json := structRpc "getblockcount" (.arr [])
def omni_listblocktransactions (i : ℕ) : Json :=
  structRpc "omni_listblocktransactions" (.arr [.int i])
def omni_gettransaction (txid : String) : Json :=
  structRpc "omni_gettransaction" (.arr [.str txid])

abbrev Tip (w : World) (height : ℕ) : Prop :=
  Learnt x t₀ w node.node_url node.node_auth getblockcount blockCount height

abbrev Listed (w : World) (i : ℕ) (txs : Option (List Json)) : Prop :=
  Learnt x t₀ w node.node_url node.node_auth (omni_listblocktransactions i) transactions txs

/-- The transaction has been answered, and this is kept of it. -/
abbrev Read (w : World) (txid : String) (kept : Option (String × String × ℕ)) : Prop :=
  Learnt x t₀ w node.node_url node.node_auth (omni_gettransaction txid) (detail S) kept

def Lost (w : World) (json_tx : Json) : Prop :=
  ∃ txid, json_tx = .str txid ∧
    Refused x t₀ w node.node_url node.node_auth (omni_gettransaction txid)

def row (src : Src) (txid address amount : String) (flag : ℕ) : Txutxo :=
  ⟨txid, 0, address, amount, some flag, src⟩

/-- The transaction has been answered, and what is kept of it has a row. -/
def TxDone (w : World) (json_tx : Json) : Prop :=
  ∃ txid kept, json_tx = .str txid ∧ Read x t₀ node S w txid kept ∧
    ∀ address amount flag, kept = some (address, amount, flag) →
      ∃ src, .txutxo (row src txid address amount flag) ∈ otc.total w

def Done (w : World) (i : ℕ) : Prop :=
  ∃ txs, Listed x t₀ node w i (some txs) ∧
    ((∀ t ∈ txs, TxDone x t₀ node S w t) ∨ ∃ t ∈ txs, Lost x t₀ node w t)

def grounds (coin_id : ℤ) (height : ℕ) : Grounds where
  coin_id := coin_id
  credit i s b w := ∃ src txs txid address amount flag, Listed x t₀ node w i (some txs) ∧
    txs[src.tx]? = some (.str txid) ∧ Read x t₀ node S w txid (some (address, amount, flag)) ∧
    src.height = i ∧ s = .txutxo (row src txid address amount flag) ∧
    b = some (callback "address" amount "OMNI_USDT" 0 address txid true)
  track _ _ _ := False
  done i w := Done x t₀ node S w i
  marks i := i % 100 = 0 ∨ i = height
  skip i w := Listed x t₀ node w i none

section

variable {x t₀ node S} {w w' : World}

lemma TxDone.mono {json_tx : Json} (h : TxDone x t₀ node S w json_tx)
    (hw : w.wire <+: w'.wire) (hl : otc.total w ⊆ otc.total w') :
    TxDone x t₀ node S w' json_tx := by
  obtain ⟨txid, kept, h1, h2, h3⟩ := h
  refine ⟨txid, kept, h1, h2.mono hw, fun address amount flag hp => ?_⟩
  obtain ⟨src, hs⟩ := h3 address amount flag hp
  exact ⟨src, hl hs⟩

variable {coin_id : ℤ} {height i : ℕ} {G : Grounds}

lemma wp_scanTx {j : ℕ} {json_tx : Json} {txs : List Json}
    (hG : G = grounds x t₀ node S coin_id height) (hS : w.vars.s_address_id_omni_usdt = S)
    (ht : t₀ ≤ w.wire.length) (hlist : Listed x t₀ node w (i + 1) (some txs))
    (hj : txs[j]? = some json_tx) :
    wp (env x) (scanTx node coin_id (i + 1) json_tx j) (fun r w₁ => match r.1 with
        | .next => Steps x G ⟨w, i, place j 0 0 0⟩ ⟨w₁, i, place (j + 1) 0 0 0⟩ ∧
          TxDone x t₀ node S w₁ json_tx
        | .brk => (∃ p, Steps x G ⟨w, i, place j 0 0 0⟩ ⟨w₁, i, p⟩) ∧ Lost x t₀ node w₁ json_tx)
      (Fallen x G ⟨w, i, place j 0 0 0⟩) w := by
  simp only [scanTx, wp_bind, liftM_eq, wp_lift, Json.getStr_eq_ok]
  refine ⟨fun txid htx => ?_, fun _ _ => fallen_self _⟩
  refine wp_mono (wp_callRpc rfl ht) (fun r w₁ hpost => ?_) fun _ h => h
  obtain ⟨hs, htold, hrefused⟩ := hpost
  rcases r with jr | _ | jr
  · have hfall : Fallen x G ⟨w, i, place j 0 0 0⟩ w₁ := ⟨_, hs, rfl, rfl⟩
    simp only [wp_bind, wp_get, wp_lift]
    refine ⟨fun _ => hfall, fun kept hkept => ?_, fun _ _ => hfall⟩
    rw [hs.frame.omni, hS] at hkept
    have hread : Read x t₀ node S w₁ txid kept := ⟨jr, htold jr rfl, hkept⟩
    rcases kept with _ | ⟨address, amount, flag⟩
    · exact ⟨hs.tail (.room (by simp [place_le])), txid, none, htx, hread, by simp⟩
    · simp only [wp_bind]
      refine wp_push_back hfall ?_
      have hc : G.credit (i + 1)
          (.txutxo (row ⟨coin_id, i + 1, j, 0, 0⟩ txid address amount flag))
          (some (callback "address" amount "OMNI_USDT" 0 address txid true)) w₁ := by
        subst hG
        exact ⟨_, txs, txid, address, amount, flag, hlist.mono hs.frame.wire,
          by simpa [htx] using hj, hread, rfl, rfl, rfl⟩
      refine wp_mono (wp_notify (q := place j 0 0 1) (r := place (j + 1) 0 0 0) hc ?_ ?_ ?_)
        (fun _ w₂ h => ?_) fun _ hf => Fallen.of_steps hs hf
      · subst hG; rfl
      · simp [place_le]
      · simp [place_lt]
      · refine ⟨hs.trans h.1, txid, _, htx, hread.mono h.1.frame.wire, ?_⟩
        rintro _ _ _ ⟨⟩
        exact ⟨_, h.2⟩
  · exact ⟨⟨_, hs⟩, txid, htx, hrefused (by simp)⟩
  · exact ⟨⟨_, hs⟩, txid, htx, hrefused (by simp)⟩

lemma wp_scanBlock {txid : String} (hG : G = grounds x t₀ node S coin_id height)
    (hS : w.vars.s_address_id_omni_usdt = S) (ht : t₀ ≤ w.wire.length) :
    wp (env x) (scanBlock node coin_id height (i + 1) txid) (fun r w₁ => match r.1 with
        | .next => Steps x G ⟨w, i, ⊥⟩ ⟨w₁, i + 1, ⊥⟩
        | .brk => (∃ p, Steps x G ⟨w, i, ⊥⟩ ⟨w₁, i, p⟩) ∧ Stopped x t₀ w₁)
      (Fallen x G ⟨w, i, ⊥⟩) w := by
  simp only [scanBlock, wp_bind]
  refine wp_mono (wp_callRpc rfl ht) (fun r w₁ hpost => ?_) fun _ h => h
  obtain ⟨hs, htold, hrefused⟩ := hpost
  rcases r with j | _ | j
  · have hfall : Fallen x G ⟨w, i, ⊥⟩ w₁ := ⟨_, hs, rfl, rfl⟩
    have ht₁ : t₀ ≤ w₁.wire.length := ht.trans hs.frame.wire.length_le
    simp only [wp_bind, liftM_eq, wp_lift]
    refine ⟨fun txs htxs => ?_, fun _ _ => hfall⟩
    have hlist : Listed x t₀ node w₁ (i + 1) txs := ⟨j, htold j rfl, htxs⟩
    cases txs with
    | none =>
      refine hs.tail (.skip (Or.inr ?_))
      subst hG
      exact hlist
    | some txs =>
      simp only [wp_bind]
      refine wp_mono (wp_txs (T := TxDone x t₀ node S) (L := Lost x t₀ node) txs txid
        (fun _ _ _ hw hl h => h.mono hw hl) ?_) ?_ fun _ hf => Fallen.of_steps hs hf
      · intro l json_tx l' _ w₂ hl hs₂ _
        have hf := hs₂.frame
        exact wp_scanTx hG ((hs.frame.trans hf).omni.trans hS)
          (ht₁.trans hf.wire.length_le) (hlist.mono hf.wire) (by simp [hl])
      · rintro ⟨fl, txid⟩ w₂ ⟨⟨p, hs₂⟩, h⟩
        have hd : G.done (i + 1) w₂ := by
          subst hG
          exact ⟨txs, hlist.mono hs₂.frame.wire, by cases fl; exacts [Or.inl h, Or.inr h]⟩
        have hall := hs.trans hs₂
        subst hG
        refine wp_mono (wp_leave hd Iff.rfl) ?_ fun _ hf => Fallen.of_steps hall hf
        rintro _ w₃ ⟨rfl, h⟩
        exact hall.trans h
  · exact ⟨⟨_, hs⟩, _, _, _, hrefused (by simp)⟩
  · exact ⟨⟨_, hs⟩, _, _, _, hrefused (by simp)⟩

/-- **`scanOMNI_USDT` is a scanner.** -/
theorem wp_scanOMNI_USDT (w : World) :
    wp (env x) scanOMNI_USDT
      (fun _ => Returned x "USDT" id
        (fun node => grounds x w.wire.length node w.vars.s_address_id_omni_usdt)
        (fun node height w' => Tip x w.wire.length node w' height) w)
      (Broken x "USDT" id
        (fun node => grounds x w.wire.length node w.vars.s_address_id_omni_usdt) w)
      w := by
  refine wp_begin rfl fun coin_id pre_height node j a hbegun hs htold => ?_
  simp only [wp_bind, liftM_eq, wp_lift]
  refine ⟨fun height hheight => ?_, fun _ _ => ⟨0, _, hs 0, rfl, rfl⟩⟩
  have htip : Tip x w.wire.length node (w.sent _ a) height := ⟨j, htold, hheight⟩
  refine wp_mono (wp_blocks (J := fun _ _ => True) trivial (hs height) ?_)
    (fun _ w₁ h => ⟨height, h.1, htip.mono h.2⟩) fun _ hf => ⟨height, hf⟩
  intro i txid w₁ _ _ hs₁ _
  have hw := hs₁.frame
  refine wp_mono (wp_scanBlock rfl hw.omni hw.wire.length_le) ?_ fun _ h => h
  rintro ⟨fl, b⟩ w₂ h
  cases fl with
  | next => exact ⟨h, trivial⟩
  | brk => exact h

end

end OpenWallet.Monitor.Omni
