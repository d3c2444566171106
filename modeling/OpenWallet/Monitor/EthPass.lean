import OpenWallet.Monitor.Pass
import OpenWallet.Monitor.Eth

/-!
`scanETH` as a scanner. It stores a height only where it is the number of the pending block and
a multiple of 500, and passes a block over that was answered without a result; a result that is
null counts as a block without transactions.
-/

namespace OpenWallet.Monitor.Eth

open Lib Prog

variable (x : Weather) (t₀ : ℕ) (node : NodeInfo) (C S : List (String × ℤ))

/-- The pending block has been answered with this number, or with none. -/
abbrev Pending (w : World) (number : Option String) : Prop :=
  Learnt x t₀ w node.node_url node.node_auth (getBlockByNumber "pending") pendingNumber number

def Tip (w : World) (height : ℕ) : Prop :=
  ∃ number, Pending x t₀ node w number ∧
    height = (number.map fun s => (Text.readHex s).1).getD 0

/-- The text a block is asked for by: its number in base sixteen, where the number of the
pending block left nothing in the stream. -/
def Named (w : World) (i : ℕ) (hex_height : String) : Prop :=
  ∃ number, Pending x t₀ node w (some number) ∧
    ((Text.readHex number).2 = "" → hex_height = Text.hex i)

/-- The block has been answered, with its transactions or without a result. -/
def Listed (w : World) (i : ℕ) (txs : Option (List Json)) : Prop :=
  ∃ hex_height, Named x t₀ node w i hex_height ∧
    Learnt x t₀ w node.node_url node.node_auth (getBlockByNumber ("0x" ++ hex_height))
      transactions txs

/-- What is kept of the transaction has its two rows. -/
def TxDone (l : List Stmt) (json_tran : Json) : Prop :=
  ∃ r, credit C S json_tran = .ok r ∧ ∀ txid c, r = some (txid, some c) →
    ∃ coin_id src, .txaccount (c.txaccount coin_id src) ∈ l ∧ .txutxo (c.txutxo src) ∈ l

def Done (w : World) (i : ℕ) : Prop :=
  ∃ txs, Listed x t₀ node w i (some txs) ∧ ∀ t ∈ txs, TxDone C S (otc.total w) t

def grounds (coin_id : ℤ) (height : ℕ) : Grounds where
  coin_id := coin_id
  credit i s b w := ∃ src txs json_tran txid c, Listed x t₀ node w i (some txs) ∧
    txs[src.tx]? = some json_tran ∧ credit C S json_tran = .ok (some (txid, some c)) ∧
    src.height = i ∧ (s = .txaccount (c.txaccount coin_id src) ∧ b = some c.notice ∨
      s = .txutxo (c.txutxo src) ∧ b = none)
  track _ _ _ := False
  done i w := Done x t₀ node C S w i
  marks i := i % 500 = 0 ∧ i = height
  skip i w := Listed x t₀ node w i none

section

variable {x t₀ node C S} {w w' : World}

lemma Named.mono {i : ℕ} {hex_height : String} (h : Named x t₀ node w i hex_height)
    (hw : w.wire <+: w'.wire) : Named x t₀ node w' i hex_height := by
  obtain ⟨number, h1, h2⟩ := h
  exact ⟨number, h1.mono hw, h2⟩

lemma Listed.mono {i : ℕ} {txs : Option (List Json)} (h : Listed x t₀ node w i txs)
    (hw : w.wire <+: w'.wire) : Listed x t₀ node w' i txs := by
  obtain ⟨hex_height, h1, h2⟩ := h
  exact ⟨hex_height, h1.mono hw, h2.mono hw⟩

lemma TxDone.mono {l l' : List Stmt} {json_tran : Json} (h : TxDone C S l json_tran)
    (hl : l ⊆ l') : TxDone C S l' json_tran := by
  obtain ⟨r, h1, h2⟩ := h
  refine ⟨r, h1, fun txid c hc => ?_⟩
  obtain ⟨coin_id, src, ha, hu⟩ := h2 txid c hc
  exact ⟨coin_id, src, hl ha, hl hu⟩

variable {coin_id : ℤ} {height i : ℕ} {G : Grounds}

lemma push_notify (w : World) (s : Stmt) (b : Json) (a : Answer) :
    (w.notify b a).push s = (w.push s).notify b a := by
  unfold World.notify; split <;> rfl

/-- One transaction; here the notice goes out before the rows are appended. -/
lemma wp_scanTran {j : ℕ} {json_tran : Json} {txid : String} {txs : List Json}
    (hG : G = grounds x t₀ node C S coin_id height)
    (hC : w.vars.s_ethcontranct_tokenid = C) (hS : w.vars.s_address_id_eth = S)
    (hlist : Listed x t₀ node w (i + 1) (some txs)) (hj : txs[j]? = some json_tran) :
    wp (env x) (scanTran coin_id (i + 1) json_tran j txid)
      (fun _ w₁ => Steps x G ⟨w, i, place j 0 0 0⟩ ⟨w₁, i, place (j + 1) 0 0 0⟩ ∧
        TxDone C S (otc.total w₁) json_tran)
      (Fallen x G ⟨w, i, place j 0 0 0⟩) w := by
  simp only [scanTran, wp_bind, wp_get, liftM_eq, wp_lift, hC, hS]
  refine ⟨fun _ => fallen_self _, fun r hr => ?_, fun _ _ => fallen_self _⟩
  rcases r with _ | ⟨h, _ | c⟩
  · exact ⟨.single (.room (by simp [place_le])), none, hr, by simp⟩
  · exact ⟨.single (.room (by simp [place_le])), some (h, none), hr, by simp⟩
  · simp only [wp_bind]
    refine wp_callbackTransaction (fallen_self _) fun a ha => ?_
    have hacc : Steps x G ⟨w, i, place j 0 0 0⟩
        ⟨(w.push (.txaccount (c.txaccount coin_id ⟨coin_id, i + 1, j, 0, 0⟩))).notify c.notice a,
          i, place j 0 0 1⟩ := by
      subst hG
      exact .single (.credit (Credit.notify (by exact ⟨_, txs, _, _, c, hlist, hj, hr, rfl,
        Or.inl ⟨rfl, rfl⟩⟩) ha) (q := place j 0 0 0) rfl le_rfl (by simp [place_lt]))
    have hfall : Fallen x G ⟨w, i, place j 0 0 0⟩ (w.notify c.notice a) :=
      ⟨_, hacc, by simp [World.push], by rw [notify_wire, notify_wire]; rfl⟩
    refine ⟨⟨_, hacc, by simp [World.push, World.sent], by rw [notify_wire]; rfl⟩, fun _ _ => ?_⟩
    refine wp_push_back hfall (wp_push_back hfall ?_)
    rw [push_notify]
    have hutxo : Steps x G ⟨w, i, place j 0 0 0⟩
        ⟨((w.push (.txaccount (c.txaccount coin_id ⟨coin_id, i + 1, j, 0, 0⟩))).notify
          c.notice a).push (.txutxo (c.txutxo ⟨coin_id, i + 1, j, 0, 0⟩)),
          i, place (j + 1) 0 0 0⟩ := by
      subst hG
      exact hacc.tail (.credit (Credit.push (by exact ⟨_, txs, _, _, c,
        hlist.mono hacc.frame.wire, hj, hr, rfl, Or.inr ⟨rfl, rfl⟩⟩)) (q := place j 0 0 1) rfl
        le_rfl (by simp [place_lt]))
    refine ⟨hutxo, _, hr, ?_⟩
    rintro _ _ ⟨⟩
    exact ⟨coin_id, ⟨coin_id, i + 1, j, 0, 0⟩, by simp [Store.total, otc, World.push],
      by simp [Store.total, otc, World.push]⟩

lemma wp_scanBlock {hex_height : String} (hG : G = grounds x t₀ node C S coin_id height)
    (hC : w.vars.s_ethcontranct_tokenid = C) (hS : w.vars.s_address_id_eth = S)
    (ht : t₀ ≤ w.wire.length) (hname : Named x t₀ node w (i + 1) hex_height) :
    wp (env x) (scanBlock node coin_id height (i + 1) hex_height) (fun fl w₁ => match fl with
        | .next => Steps x G ⟨w, i, ⊥⟩ ⟨w₁, i + 1, ⊥⟩
        | .brk => (∃ p, Steps x G ⟨w, i, ⊥⟩ ⟨w₁, i, p⟩) ∧ Stopped x t₀ w₁)
      (Fallen x G ⟨w, i, ⊥⟩) w := by
  simp only [scanBlock, wp_bind]
  refine wp_mono (wp_callRpc rfl ht) (fun r w₁ hpost => ?_) fun _ h => h
  obtain ⟨hs, htold, hrefused⟩ := hpost
  rcases r with j | _ | j
  · have hfall : Fallen x G ⟨w, i, ⊥⟩ w₁ := ⟨_, hs, rfl, rfl⟩
    simp only [wp_bind, liftM_eq, wp_lift]
    refine ⟨fun txs htxs => ?_, fun _ _ => hfall⟩
    have hlist : Listed x t₀ node w₁ (i + 1) txs :=
      ⟨hex_height, hname.mono hs.frame.wire, j, htold j rfl, htxs⟩
    cases txs with
    | none =>
      refine hs.tail (.skip (Or.inr ?_))
      subst hG
      exact hlist
    | some txs =>
      simp only [scanTrans, wp_bind]
      refine wp_mono (wp_txs (T := fun w => TxDone C S (otc.total w)) (L := fun _ _ => False)
        txs "" (fun _ _ _ _ hl h => h.mono hl) ?_) ?_ fun _ hf => Fallen.of_steps hs hf
      · intro l json_tran l' txid w₂ hl hs₂ _
        have hf' := hs.frame.trans hs₂.frame
        rw [wp_bind]
        exact wp_mono (wp_scanTran hG (hf'.contract.trans hC) (hf'.eth.trans hS)
          (hlist.mono hs₂.frame.wire) (by simp [hl])) (fun _ w₃ h => h) fun _ hf => hf
      · rintro ⟨fl, txid⟩ w₂ ⟨⟨p, hs₂⟩, h⟩
        have hd : G.done (i + 1) w₂ := by
          subst hG
          refine ⟨txs, hlist.mono hs₂.frame.wire, ?_⟩
          cases fl
          · exact h
          · obtain ⟨-, -, h⟩ := h
            exact h.elim
        have hall := hs.trans hs₂
        subst hG
        refine wp_mono (wp_leave hd Iff.rfl) ?_ fun _ hf => Fallen.of_steps hall hf
        rintro _ w₃ ⟨rfl, h⟩
        exact hall.trans h
  · exact ⟨⟨_, hs⟩, _, _, _, hrefused (by simp)⟩
  · exact ⟨⟨_, hs⟩, _, _, _, hrefused (by simp)⟩

/-- **`scanETH` is a scanner.** -/
theorem wp_scanETH (w : World) :
    wp (env x) scanETH
      (fun _ => Returned x "ETH" id
        (fun node => grounds x w.wire.length node w.vars.s_ethcontranct_tokenid
          w.vars.s_address_id_eth)
        (fun node height w' => Tip x w.wire.length node w' height) w)
      (Broken x "ETH" id
        (fun node => grounds x w.wire.length node w.vars.s_ethcontranct_tokenid
          w.vars.s_address_id_eth) w)
      w := by
  refine wp_begin rfl fun coin_id pre_height node j a hbegun hs htold => ?_
  simp only [wp_bind, liftM_eq, wp_lift]
  refine ⟨fun number hnumber => ?_, fun _ _ => ⟨0, _, hs 0, rfl, rfl⟩⟩
  have hpend : Pending x w.wire.length node (w.sent _ a) number := ⟨j, htold, hnumber⟩
  cases number with
  | none =>
    exact ⟨0, ⟨_, _, hs 0, Or.inl ⟨by simp, rfl⟩⟩, none, hpend, rfl⟩
  | some number =>
    set height := (Text.readHex number).1 with hheight
    simp only [wp_bind]
    refine wp_mono (wp_blocks (J := fun _ ss => (Text.readHex number).2 = "" → ss = "")
      (fun h => h) (hs height) ?_)
      (fun _ w₁ h => ⟨height, h.1, some number, hpend.mono h.2, rfl⟩) fun _ hf => ⟨height, hf⟩
    intro i ss w₁ _ hss hs₁ hw'
    have hw := hs₁.frame
    have hname : Named x w.wire.length node w₁ (i + 1) (Text.word (ss ++ Text.hex (i + 1))).1 := by
      exact ⟨number, hpend.mono hw', fun h => by rw [hss h, Text.word_hex]⟩
    rw [wp_bind]
    refine wp_mono (wp_scanBlock rfl hw.contract hw.eth hw.wire.length_le hname) ?_ fun _ h => h
    intro fl w₂ h
    cases fl with
    | next => exact ⟨h, fun h' => by rw [hss h', Text.word_hex]⟩
    | brk => exact h

end

end OpenWallet.Monitor.Eth
