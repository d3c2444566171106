import OpenWallet.Monitor.Pass
import OpenWallet.Monitor.Xrp

/-!
`scanXRP` as a scanner. It leaves a ledger with a checkpoint also when a transaction of it could
not be read, and passes a ledger over that was not answered with success.
-/

namespace OpenWallet.Monitor.Xrp

open Lib Prog

variable (x : Weather) (t₀ : ℕ) (node : NodeInfo) (base : String)

def ledgerValidated : Json :=
  structRpc "ledger" (.arr [.obj [("ledger_index", .str "validated")]])
def ledger (i : ℕ) : Json := structRpc "ledger" (.arr [.obj
  [("binary", .bool true), ("ledger_index", .int i), ("transactions", .bool true)]])
def tx (hash : String) : Json :=
  structRpc "tx" (.arr [.obj [("binary", .bool false), ("transaction", .str hash)]])

abbrev Tip (w : World) (height : ℕ) : Prop :=
  Learnt x t₀ w node.node_url node.node_auth ledgerValidated ledgerIndex height

/-- The ledger has been answered, with its transactions or without success. -/
abbrev Listed (w : World) (i : ℕ) (txs : Option (List Json)) : Prop :=
  Learnt x t₀ w node.node_url node.node_auth (ledger i) transactions txs

/-- The transaction has been answered, and holds this payment or none. -/
abbrev Read (w : World) (hash : String) (r : Option (String × Option Payment)) : Prop :=
  Learnt x t₀ w node.node_url node.node_auth (tx hash) (payment base) r

def Lost (w : World) (json_tx : Json) : Prop :=
  ∃ hash, json_tx = .str hash ∧ Refused x t₀ w node.node_url node.node_auth (tx hash)

def row (src : Src) (p : Payment) : Txutxo := ⟨p.hash, 0, base, p.amount, some p.flag, src⟩

/-- The transaction has been answered, and its payment has a row. -/
def TxDone (w : World) (json_tx : Json) : Prop :=
  ∃ hash r, json_tx = .str hash ∧ Read x t₀ node base w hash r ∧
    ∀ h p, r = some (h, some p) → ∃ src, .txutxo (row base src p) ∈ otc.total w

def Done (w : World) (i : ℕ) : Prop :=
  ∃ txs, Listed x t₀ node w i (some txs) ∧
    ((∀ t ∈ txs, TxDone x t₀ node base w t) ∨ ∃ t ∈ txs, Lost x t₀ node w t)

def grounds (coin_id : ℤ) (height : ℕ) : Grounds where
  coin_id := coin_id
  credit i s b w := ∃ src txs hash h p, Listed x t₀ node w i (some txs) ∧
    txs[src.tx]? = some (.str hash) ∧ Read x t₀ node base w hash (some (h, some p)) ∧
    src.height = i ∧ src.out = 0 ∧ src.slot = 0 ∧ s = .txutxo (row base src p) ∧
    b = some (callback "toAddress" p.amount "XRP" 0 base p.hash false)
  track _ _ _ := False
  done i w := Done x t₀ node base w i
  marks i := i % 100 = 0 ∨ i = height
  skip i w := Listed x t₀ node w i none

section

variable {x t₀ node base} {w w' : World}

lemma TxDone.mono {json_tx : Json} (h : TxDone x t₀ node base w json_tx)
    (hw : w.wire <+: w'.wire) (hl : otc.total w ⊆ otc.total w') :
    TxDone x t₀ node base w' json_tx := by
  obtain ⟨hash, r, h1, h2, h3⟩ := h
  refine ⟨hash, r, h1, h2.mono hw, fun h p hp => ?_⟩
  obtain ⟨src, hs⟩ := h3 h p hp
  exact ⟨src, hl hs⟩

variable {coin_id : ℤ} {height i : ℕ} {G : Grounds}

lemma wp_scanTx {j : ℕ} {json_tx : Json} {hash : String} {txs : List Json}
    (hG : G = grounds x t₀ node base coin_id height) (hbase : w.vars.xrp_base_address_ = base)
    (ht : t₀ ≤ w.wire.length) (hlist : Listed x t₀ node w (i + 1) (some txs))
    (hj : txs[j]? = some json_tx) :
    wp (env x) (scanTx node coin_id (i + 1) json_tx j hash) (fun r w₁ => match r.1 with
        | .next => Steps x G ⟨w, i, place j 0 0 0⟩ ⟨w₁, i, place (j + 1) 0 0 0⟩ ∧
          TxDone x t₀ node base w₁ json_tx
        | .brk => (∃ p, Steps x G ⟨w, i, place j 0 0 0⟩ ⟨w₁, i, p⟩) ∧ Lost x t₀ node w₁ json_tx)
      (Fallen x G ⟨w, i, place j 0 0 0⟩) w := by
  simp only [scanTx, wp_bind, liftM_eq, wp_lift, Json.getStr_eq_ok]
  refine ⟨fun tx htx => ?_, fun _ _ => fallen_self _⟩
  refine wp_mono (wp_callRpc rfl ht) (fun r w₁ hpost => ?_) fun _ h => h
  obtain ⟨hs, htold, hrefused⟩ := hpost
  rcases r with jr | _ | jr
  · have hfall : Fallen x G ⟨w, i, place j 0 0 0⟩ w₁ := ⟨_, hs, rfl, rfl⟩
    simp only [wp_bind, wp_get, wp_lift]
    refine ⟨fun _ => hfall, fun r hr => ?_, fun _ _ => hfall⟩
    rw [hs.frame.xrp, hbase] at hr
    have hread : Read x t₀ node base w₁ tx r := ⟨jr, htold jr rfl, hr⟩
    rcases r with _ | ⟨h, _ | p⟩
    · exact ⟨hs.tail (.room (by simp [place_le])), tx, none, htx, hread, by simp⟩
    · exact ⟨hs.tail (.room (by simp [place_le])), tx, some (h, none), htx, hread, by simp⟩
    · simp only [wp_bind]
      refine wp_push_back hfall ?_
      have hc : G.credit (i + 1) (.txutxo (row base ⟨coin_id, i + 1, j, 0, 0⟩ p))
          (some (callback "toAddress" p.amount "XRP" 0 base p.hash false)) w₁ := by
        subst hG
        exact ⟨_, txs, tx, h, p, hlist.mono hs.frame.wire, by simpa [htx] using hj, hread, rfl,
          rfl, rfl, rfl, rfl⟩
      rw [hs.frame.xrp, hbase]
      refine wp_mono (wp_notify (q := place j 0 0 1) (r := place (j + 1) 0 0 0) hc ?_ ?_ ?_)
        (fun _ w₂ h => ?_) fun _ hf => Fallen.of_steps hs hf
      · subst hG; rfl
      · simp [place_le]
      · simp [place_lt]
      · refine ⟨hs.trans h.1, tx, _, htx, hread.mono h.1.frame.wire, ?_⟩
        rintro _ _ ⟨⟩
        exact ⟨_, h.2⟩
  · exact ⟨⟨_, hs⟩, tx, htx, hrefused (by simp)⟩
  · exact ⟨⟨_, hs⟩, tx, htx, hrefused (by simp)⟩

lemma wp_scanBlock (hG : G = grounds x t₀ node base coin_id height)
    (hbase : w.vars.xrp_base_address_ = base) (ht : t₀ ≤ w.wire.length) :
    wp (env x) (scanBlock node coin_id height (i + 1)) (fun fl w₁ => match fl with
        | .next => Steps x G ⟨w, i, ⊥⟩ ⟨w₁, i + 1, ⊥⟩
        | .brk => (∃ p, Steps x G ⟨w, i, ⊥⟩ ⟨w₁, i, p⟩) ∧ Stopped x t₀ w₁)
      (Fallen x G ⟨w, i, ⊥⟩) w := by
  simp only [scanBlock, wp_bind]
  refine wp_mono (wp_callRpc rfl ht) (fun r w₁ hpost => ?_) fun _ h => h
  obtain ⟨hs, htold, hrefused⟩ := hpost
  rcases r with j | _ | j
  · have hfall : Fallen x G ⟨w, i, ⊥⟩ w₁ := ⟨_, hs, rfl, rfl⟩
    have ht₁ : t₀ ≤ w₁.wire.length := ht.trans hs.frame.wire.length_le
    simp only [wp_bind, liftM_eq, wp_lift]
    refine ⟨fun txs htxs => ?_, fun _ _ => hfall⟩
    have hlist : Listed x t₀ node w₁ (i + 1) txs := ⟨j, htold j rfl, htxs⟩
    cases txs with
    | none =>
      refine hs.tail (.skip (Or.inr ?_))
      subst hG
      exact hlist
    | some txs =>
      simp only [wp_bind]
      refine wp_mono (wp_txs (T := TxDone x t₀ node base) (L := Lost x t₀ node) txs ""
        (fun _ _ _ hw hl h => h.mono hw hl) ?_) ?_ fun _ hf => Fallen.of_steps hs hf
      · intro l json_tx l' hash w₂ hl hs₂ _
        have hf := hs₂.frame
        exact wp_scanTx hG ((hs.frame.trans hf).xrp.trans hbase)
          (ht₁.trans hf.wire.length_le) (hlist.mono hf.wire) (by simp [hl])
      · rintro ⟨fl, hash⟩ w₂ ⟨⟨p, hs₂⟩, h⟩
        have hd : G.done (i + 1) w₂ := by
          subst hG
          exact ⟨txs, hlist.mono hs₂.frame.wire, by cases fl; exacts [Or.inl h, Or.inr h]⟩
        have hall := hs.trans hs₂
        subst hG
        refine wp_mono (wp_leave hd Iff.rfl) ?_ fun _ hf => Fallen.of_steps hall hf
        rintro _ w₃ ⟨rfl, h⟩
        exact hall.trans h
  · exact ⟨⟨_, hs⟩, _, _, _, hrefused (by simp)⟩
  · exact ⟨⟨_, hs⟩, _, _, _, hrefused (by simp)⟩

/-- **`scanXRP` is a scanner**, unless there is no base address to watch. -/
theorem wp_scanXRP (w : World) :
    wp (env x) scanXRP
      (fun _ w' => (w' = w ∧ w.vars.xrp_base_address_ = "") ∨ Returned x "XRP" id
        (fun node => grounds x w.wire.length node w.vars.xrp_base_address_)
        (fun node height w' => Tip x w.wire.length node w' height) w w')
      (Broken x "XRP" id (fun node => grounds x w.wire.length node w.vars.xrp_base_address_) w)
      w := by
  simp only [scanXRP, wp_bind, wp_get]
  refine ⟨fun _ => Or.inl ⟨rfl, rfl⟩, ?_⟩
  split
  · next h => exact Or.inl ⟨rfl, h⟩
  refine wp_mono (wp_begin rfl fun coin_id pre_height node j a hbegun hs htold => ?_)
    (fun _ _ h => Or.inr h) fun _ h => h
  simp only [wp_bind, liftM_eq, wp_lift]
  have hfall : ∃ height, Fallen x (grounds x w.wire.length node w.vars.xrp_base_address_ coin_id
      height) ⟨w, pre_height, ⊥⟩ (w.sent _ a) := ⟨0, _, hs 0, rfl, rfl⟩
  refine ⟨fun height hheight => ?_, fun _ _ => hfall⟩
  have htip : Tip x w.wire.length node (w.sent _ a) height := ⟨j, htold, hheight⟩
  refine wp_mono (wp_blocks (J := fun _ _ => True) trivial (hs height) ?_)
    (fun _ w₁ h => ⟨height, h.1, htip.mono h.2⟩) fun _ hf => ⟨height, hf⟩
  intro i b w₁ _ _ hs₁ _
  have hw := hs₁.frame
  rw [wp_bind]
  refine wp_mono (wp_scanBlock rfl hw.xrp hw.wire.length_le) ?_ fun _ h => h
  intro fl w₂ h
  cases fl with
  | next => exact ⟨h, trivial⟩
  | brk => exact h

end

end OpenWallet.Monitor.Xrp
