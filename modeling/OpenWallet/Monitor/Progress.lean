import OpenWallet.Monitor.EosActions

/-!
How far the calls of `scanETH`, `scanEOS` and `scanOMNI_USDT` come where no request of theirs
fails: which blocks a call asks for, which heights it stores, and what it leaves in the buffer.
-/

namespace OpenWallet.Monitor

open Lib Prog

/-- The answer is no error, and this is read off it. -/
def Gives {α : Type} (a : Answer) (read : Json → Except Exn α) (r : α) : Prop :=
  ∃ j, reply a = .ok (.ok j) ∧ read j = .ok r

lemma Gives.unique {α : Type} {a : Answer} {read : Json → Except Exn α} {r r' : α}
    (h : Gives a read r) (h' : Gives a read r') : r = r' := by
  obtain ⟨j, hj, hr⟩ := h
  obtain ⟨j', hj', hr'⟩ := h'
  rw [hj] at hj'
  cases hj'
  rw [hr] at hr'
  exact Except.ok.inj hr'

/-- Every notice is answered with a code. -/
def Heeds (net : ℕ → Request → Answer) (url : String) : Prop :=
  ∀ t d, isNotice d = true → (spoken (net t ⟨url, "", d⟩)).isSome

/-- No checkpoint waits in the buffer. -/
def Clean (w : World) : Prop := ∀ k m, ¬ otc.Marked k m w.vars.vect_sql_

/-- The call has gone on without a checkpoint, and of its requests those in `B` are these. -/
structure Talks (B : Json → Bool) (w w' : World) (l : List Json) : Prop where
  url : w'.vars.callback_url_ = w.vars.callback_url_
  db : w'.db = w.db
  clean : Clean w → Clean w'
  asks : ∃ es, w'.wire = w.wire ++ es ∧ (es.map (·.1.data)).filter B = l

section

variable {net : ℕ → Request → Answer} {B : Json → Bool} {w w₁ w' : World} {l l' : List Json}

lemma Talks.refl (w : World) : Talks B w w [] :=
  ⟨rfl, rfl, fun h => h, [], by simp, rfl⟩

lemma Talks.trans (h : Talks B w w₁ l) (h' : Talks B w₁ w' l') : Talks B w w' (l ++ l') := by
  obtain ⟨es, hw, rfl⟩ := h.asks
  obtain ⟨es', hw', rfl⟩ := h'.asks
  exact ⟨h'.url.trans h.url, h'.db.trans h.db, fun hc => h'.clean (h.clean hc), es ++ es',
    by rw [hw', hw, List.append_assoc], by rw [List.map_append, List.filter_append]⟩

lemma Talks.wire_le (h : Talks B w w' l) : w.wire.length ≤ w'.wire.length := by
  obtain ⟨es, hw, -⟩ := h.asks
  rw [hw, List.length_append]
  exact Nat.le_add_right _ _

lemma talks_sent (w : World) (r : Request) (a : Answer) :
    Talks B w (w.sent r a) (if B r.data then [r.data] else []) :=
  ⟨rfl, rfl, fun h => h, [(r, a)], rfl, by simp [List.filter_cons]⟩

lemma talks_retry (w : World) (j : Json) : Talks B w (w.retry j) [] :=
  ⟨rfl, rfl, fun h => h, [], by simp [World.retry], rfl⟩

lemma talks_push {s : Stmt} (hs : s.mark = none) : Talks B w (w.push s) [] := by
  refine ⟨rfl, rfl, fun h k m hm => ?_, [], by simp [World.push], rfl⟩
  rw [World.push, Store.marked_append, Store.marked_singleton] at hm
  rcases hm with hm | hm
  · exact h k m hm
  · simp [otc, hs] at hm

lemma talks_notify {d : Json} (hB : B d = false) (a : Answer) : Talks B w (w.notify d a) [] := by
  have hsent := talks_sent (B := B) w ⟨w.vars.callback_url_, "", d⟩ a
  simp only [hB, Bool.false_eq_true, if_false] at hsent
  unfold World.notify
  split
  · exact hsent.trans (talks_retry _ _)
  · exact hsent

lemma wp_callRpc_gives {α : Type} {url auth : String} {post : Json} {read : Json → Except Exn α}
    {r : α} (h : Gives (net w.wire.length ⟨url, auth, post⟩) read r) :
    wp (env (.clear net)) (callRpc url auth post) (fun rep w' => ∃ j, rep = .ok j ∧
      read j = .ok r ∧ Talks B w w' (if B post then [post] else [])) (fun _ => False) w := by
  obtain ⟨j, hj, hr⟩ := h
  unfold callRpc
  rw [wp_bind, wp_curl]
  refine ⟨False.elim, ?_⟩
  rintro a rfl
  rw [liftM_eq, wp_lift]
  refine ⟨fun rep hrep => ?_, fun e he => ?_⟩
  · rw [hj] at hrep
    cases hrep
    exact ⟨j, rfl, hr, talks_sent w ⟨url, auth, post⟩ _⟩
  · rw [hj] at he
    cases he

lemma wp_callback_heeded {d : Json} (hd : isNotice d = true) (hB : B d = false)
    (hheeds : Heeds net w.vars.callback_url_) :
    wp (env (.clear net)) (callbackTransaction d) (fun _ w' => Talks B w w' [])
      (fun _ => False) w := by
  refine wp_callbackTransaction_of False.elim ?_
  rintro a rfl
  refine ⟨False.elim, fun e he => ?_, fun c _ => talks_notify hB _⟩
  exact not_spoken_of_code he (hheeds _ d hd)

lemma wp_push_row {s : Stmt} (hs : s.mark = none) :
    wp (env (.clear net)) (push_back s) (fun _ w' => Talks B w w' []) (fun _ => False) w := by
  rw [push_back, wp_modify]
  exact ⟨False.elim, talks_push hs⟩

end

/-! ### Leaving blocks -/

/-- A block is left, with its height stored or not. -/
structure Left (c : ℤ) (n : ℕ) (stored : Prop) (w w' : World) : Prop where
  url : w'.vars.callback_url_ = w.vars.callback_url_
  cat : w'.db.cat = w.db.cat
  wire : w'.wire = w.wire
  clean : Clean w'
  marks : ∀ k m, otc.Marked k m w'.db.log ↔
    otc.Marked k m w.db.log ∨ stored ∧ k = c ∧ m = n
  flushed : stored → w'.vars.vect_sql_ = []

/-- The call has asked for the blocks `l`, one after the other, and stored the heights of those
in `G`. -/
structure Went (R : ℕ → Json) (B : Json → Bool) (c : ℤ) (G : ℕ → Prop) (w : World)
    (l : List ℕ) (w' : World) : Prop where
  url : w'.vars.callback_url_ = w.vars.callback_url_
  cat : w'.db.cat = w.db.cat
  clean : Clean w'
  asks : ∃ es, w'.wire = w.wire ++ es ∧ (es.map (·.1.data)).filter B = l.map R
  marks : ∀ k m, otc.Marked k m w'.db.log ↔
    otc.Marked k m w.db.log ∨ k = c ∧ m ∈ l ∧ G m
  flushed : ∀ n, l.getLast? = some n → G n → w'.vars.vect_sql_ = []

section

variable {net : ℕ → Request → Answer} {B : Json → Bool} {R : ℕ → Json} {c : ℤ} {G : ℕ → Prop}
  {w w₁ w₂ w' : World} {l : List ℕ} {n : ℕ}

lemma left_unstored (hclean : Clean w) {stored : Prop} (h : ¬ stored) : Left c n stored w w :=
  ⟨rfl, rfl, rfl, hclean, fun k m => by simp [h], fun h' => absurd h' h⟩

lemma left_stored (hclean : Clean w) {hash : String} {stored : Prop} (h : stored) :
    Left c n stored w (w.push (.block ⟨c, hash, n⟩)).flush := by
  refine ⟨rfl, rfl, rfl, fun k m hm => ?_, fun k m => ?_, fun _ => rfl⟩
  · simp [World.flush, Store.Marked] at hm
  · have hlog : (w.push (.block ⟨c, hash, n⟩)).flush.db.log =
        w.db.log ++ (w.vars.vect_sql_ ++ [.block ⟨c, hash, n⟩]) := rfl
    rw [hlog, Store.marked_append, Store.marked_append, Store.marked_singleton]
    constructor
    · rintro (hm | hm | hm)
      · exact Or.inl hm
      · exact absurd hm (hclean k m)
      · obtain ⟨rfl, rfl⟩ : c = k ∧ n = m := by simpa [otc, Stmt.mark] using hm
        exact Or.inr ⟨h, rfl, rfl⟩
    · rintro (hm | ⟨-, rfl, rfl⟩)
      · exact Or.inl hm
      · exact Or.inr (Or.inr rfl)

lemma wp_leave_block {α : Type} {hash : String} {r : α} {stored : Prop} [Decidable stored]
    (hclean : Clean w) :
    wp (env (.clear net)) (if stored then
        push_back (.block ⟨c, hash, n⟩) >>= fun _ => refreshDB >>= fun _ => (pure r : Scan α)
      else pure r)
      (fun r' w' => r' = r ∧ Left c n stored w w') (fun _ => False) w := by
  split
  · next h =>
    rw [wp_bind, push_back, wp_modify]
    refine ⟨False.elim, ?_⟩
    change wp _ _ _ _ (w.push (.block ⟨c, hash, n⟩))
    rw [wp_bind, refreshDB, wp_bind, wp_get]
    refine ⟨False.elim, ?_⟩
    rw [if_pos (by simp [World.push]), wp_bind, wp_op]
    refine ⟨fun w₁ hd => hd.1, ?_⟩
    rintro - _ rfl
    rw [wp_modify]
    exact ⟨False.elim, rfl, left_stored hclean h⟩
  · next h => exact ⟨rfl, left_unstored hclean h⟩

lemma Went.start (hclean : Clean w) : Went R B c G w [] w :=
  ⟨rfl, rfl, hclean, ⟨[], by simp, rfl⟩, fun k m => by simp, fun n hn => by simp at hn⟩

lemma Went.leave (h : Went R B c G w l w₁) (ht : Talks B w₁ w₂ [R n])
    (hl : Left c n (G n) w₂ w') : Went R B c G w (l ++ [n]) w' where
  url := hl.url.trans (ht.url.trans h.url)
  cat := hl.cat.trans ((congrArg Db.cat ht.db).trans h.cat)
  clean := hl.clean
  asks := by
    obtain ⟨es, hw, hes⟩ := h.asks
    obtain ⟨es', hw', hes'⟩ := ht.asks
    refine ⟨es ++ es', by rw [hl.wire, hw', hw, List.append_assoc], ?_⟩
    rw [List.map_append, List.filter_append, hes, hes', List.map_append, List.map_singleton]
  marks k m := by
    rw [hl.marks, ht.db, h.marks, List.mem_append, List.mem_singleton]
    constructor
    · rintro ((hm | ⟨rfl, hm, hG⟩) | ⟨hG, rfl, rfl⟩)
      · exact Or.inl hm
      · exact Or.inr ⟨rfl, Or.inl hm, hG⟩
      · exact Or.inr ⟨rfl, Or.inr rfl, hG⟩
    · rintro (hm | ⟨rfl, hm | rfl, hG⟩)
      · exact Or.inl (Or.inl hm)
      · exact Or.inl (Or.inr ⟨rfl, hm, hG⟩)
      · exact Or.inr ⟨hG, rfl, rfl⟩
  flushed m hm hG := by
    obtain rfl : n = m := by simpa using hm
    exact hl.flushed hG

lemma wp_blocks_went {β : Type} {body : ℕ → β → Scan (Flow × β)} {J : β → Prop}
    {pre height : ℕ} {b : β} (hJ : J b) (hclean : Clean w)
    (hbody : ∀ i b w₁, i ≤ height → J b → Clean w₁ → w.wire.length ≤ w₁.wire.length →
      w₁.vars.callback_url_ = w.vars.callback_url_ →
      wp (env (.clear net)) (body i b) (fun r w' => r.1 = .next ∧ J r.2 ∧
        ∃ w₂, Talks B w₁ w₂ [R i] ∧ Left c i (G i) w₂ w') (fun _ => False) w₁) :
    wp (env (.clear net)) (loop body (List.range' (pre + 1) (height - pre)) b)
      (fun _ => Went R B c G w (List.range' (pre + 1) (height - pre))) (fun _ => False) w := by
  refine wp_mono (wp_loop (I := fun l b w₁ => J b ∧ Went R B c G w l w₁)
    (B := fun _ _ _ => False) _ ⟨hJ, Went.start hclean⟩ ?_) ?_ fun _ h => h
  · intro l i l' b w₁ hl ⟨hj, h⟩
    obtain ⟨rfl, hlt⟩ := range'_split hl
    obtain ⟨es, hw, -⟩ := h.asks
    refine wp_mono (hbody _ b w₁ (by omega) hj h.clean (by simp [hw]) h.url) ?_ fun _ h => h
    rintro ⟨fl, b'⟩ w' ⟨rfl, hj', w₂, ht, hleft⟩
    exact ⟨hj', h.leave ht hleft⟩
  · rintro ⟨fl, b'⟩ w' h
    cases fl with
    | next => exact h.2
    | brk =>
      obtain ⟨-, -, -, h⟩ := h
      exact h.elim

variable {pre height : ℕ}

lemma Went.stored_iff (h : Went R B c G w (List.range' (n + 1) (height - n)) w')
    (hpre : w.db.maxHeight c = some pre) (hlt : pre < height) (hn : n < height) :
    w'.db.maxHeight c = some height ↔ G height := by
  have hmem : height ∈ List.range' (n + 1) (height - n) := by
    rw [List.mem_range'_1]
    omega
  obtain ⟨-, hmax⟩ := Db.maxHeight_eq_some.mp hpre
  constructor
  · intro hs
    have hm := marked_iff.mpr (Db.maxHeight_eq_some.mp hs).1
    rcases (h.marks c height).mp hm with hold | ⟨-, -, hG⟩
    · have hle := hmax height (marked_iff.mp hold)
      omega
    · exact hG
  · intro hG
    refine Db.maxHeight_eq_some.mpr ⟨marked_iff.mp ((h.marks c height).mpr
      (Or.inr ⟨rfl, hmem, hG⟩)), fun m hm => ?_⟩
    rcases (h.marks c m).mp (marked_iff.mpr hm) with hold | ⟨-, hnew, -⟩
    · have hle := hmax m (marked_iff.mp hold)
      omega
    · rw [List.mem_range'_1] at hnew
      omega

lemma Went.flushed_last (h : Went R B c G w (List.range' (n + 1) (height - n)) w')
    (hn : n < height) (hG : G height) : w'.vars.vect_sql_ = [] := by
  refine h.flushed height ?_ hG
  rw [List.getLast?_range', if_neg (by omega), Option.some.injEq]
  omega

end

namespace Eth

variable (net : ℕ → Request → Answer) (node : NodeInfo)

/-- The number of the pending block, as the node gives it. -/
def Reports (t tip : ℕ) : Prop :=
  ∃ number, Gives (net t ⟨node.node_url, node.node_auth, getBlockByNumber "pending"⟩)
    pendingNumber (some number) ∧ (Text.readHex number).2 = "" ∧ tip = (Text.readHex number).1

/-- The node answers for the pending block, and for every block up to it, with transactions that
can be read. -/
structure Serves : Prop where
  tip : ∀ t, ∃ n, Reports net node t n
  block : ∀ t n t' i, Reports net node t n → t ≤ t' → i ≤ n → ∃ txs,
    Gives (net t' ⟨node.node_url, node.node_auth, getBlockByNumber ("0x" ++ Text.hex i)⟩)
      transactions (some txs) ∧
    ∀ json_tran ∈ txs, ∀ contracts S, ∃ r, credit contracts S json_tran = .ok r

def request (i : ℕ) : Json := getBlockByNumber ("0x" ++ Text.hex i)

/-- A request for a block by its number. -/
def isBlock : Json → Bool
  | .obj [_, _, ("method", .str method), ("params", .arr [.str number, _])] =>
    method = "eth_getBlockByNumber" ∧ number ≠ "pending"
  | _ => false

variable {net node} {w : World}

lemma isBlock_request (i : ℕ) : isBlock (request i) = true := by
  have hne : "0x" ++ Text.hex i ≠ "pending" := by
    intro h
    have hlist := congrArg String.toList h
    simp at hlist
  simp [request, getBlockByNumber, structRpc, isBlock, hne]

lemma wp_scanTran_talks {coin_id : ℤ} {height j : ℕ} {json_tran : Json} {txid : String}
    (hread : ∀ contracts S, ∃ r, credit contracts S json_tran = .ok r)
    (hheeds : Heeds net w.vars.callback_url_) :
    wp (env (.clear net)) (scanTran coin_id height json_tran j txid)
      (fun _ w' => Talks isBlock w w' []) (fun _ => False) w := by
  obtain ⟨r, hr⟩ := hread w.vars.s_ethcontranct_tokenid w.vars.s_address_id_eth
  simp only [scanTran, wp_bind, wp_get, liftM_eq, wp_lift, hr, Except.ok.injEq, forall_eq',
    reduceCtorEq, false_implies, implies_true, and_true]
  refine ⟨False.elim, ?_⟩
  rcases r with _ | ⟨h, _ | c⟩
  · exact Talks.refl w
  · exact Talks.refl w
  · simp only [wp_bind]
    refine wp_mono (wp_callback_heeded (B := isBlock) rfl rfl hheeds) (fun _ w₁ h₁ => ?_) fun _ h => h
    refine wp_mono (wp_push_row (B := isBlock) rfl) (fun _ w₂ h₂ => ?_) fun _ h => h
    refine wp_mono (wp_push_row (B := isBlock) rfl) (fun _ w₃ h₃ => ?_) fun _ h => h
    exact (h₁.trans h₂).trans h₃

lemma wp_scanBlock_left {coin_id : ℤ} {height i : ℕ} {txs : List Json} (hclean : Clean w)
    (hheeds : Heeds net w.vars.callback_url_)
    (hgives : Gives (net w.wire.length ⟨node.node_url, node.node_auth, request i⟩)
      transactions (some txs))
    (hread : ∀ json_tran ∈ txs, ∀ contracts S, ∃ r, credit contracts S json_tran = .ok r) :
    wp (env (.clear net)) (scanBlock node coin_id height i (Text.hex i)) (fun fl w' =>
      fl = .next ∧ ∃ w₁, Talks isBlock w w₁ [request i] ∧
        Left coin_id i (i % 500 = 0 ∧ i = height) w₁ w') (fun _ => False) w := by
  rw [scanBlock, wp_bind]
  refine wp_mono (wp_callRpc_gives (B := isBlock) hgives) ?_ fun _ h => h
  rintro _ w₁ ⟨j, rfl, hj, h₁⟩
  change Talks isBlock w w₁ (if isBlock (request i) then [request i] else []) at h₁
  rw [isBlock_request, if_pos rfl] at h₁
  simp only [wp_bind, liftM_eq, wp_lift, hj, Except.ok.injEq, forall_eq', reduceCtorEq,
    false_implies, implies_true, and_true]
  refine wp_mono (wp_loop_zipIdx (I := fun _ _ w' => Talks isBlock w w' [request i])
    (B := fun _ _ _ => False) txs h₁ ?_) ?_ fun _ h => h
  · intro l json_tran l' txid w₂ hl h
    have hheeds' : Heeds net w₂.vars.callback_url_ := by rw [h.url]; exact hheeds
    rw [wp_bind]
    refine wp_mono (wp_scanTran_talks (hread json_tran (by simp [hl])) hheeds') ?_ fun _ h => h
    intro _ w₃ h'
    simpa using h.trans h'
  · rintro ⟨fl, txid⟩ w₂ h
    cases fl with
    | next =>
      refine wp_mono (wp_leave_block (h.clean hclean)) ?_ fun _ h => h
      exact fun _ w₃ h' => ⟨h'.1, w₂, h, h'.2⟩
    | brk =>
      obtain ⟨-, -, -, h⟩ := h
      exact h.elim

end Eth

/-! ### `scanEOS` -/

namespace Eos

variable (net : ℕ → Request → Answer) (node : NodeInfo)

/-- The last irreversible block, as the node gives it. -/
def Reports (t tip : ℕ) : Prop :=
  Gives (net t ⟨"http://" ++ node.node_url ++ "/v1/chain/get_info", node.node_auth, get_info⟩)
    lastIrreversible tip

/-- The node answers for its tip, for every block up to it, and for the transactions in these,
all of whose actions can be read. -/
structure Serves : Prop where
  tip : ∀ t, ∃ n, Reports net node t n
  block : ∀ t n t' i, Reports net node t n → t ≤ t' → i ≤ n → ∃ txs,
    Gives (net t' ⟨"http://" ++ node.node_url ++ "/v1/chain/get_block", node.node_auth,
      get_block i⟩) transactions (some txs) ∧
    ∀ json_transaction ∈ txs, ∀ v, id? json_transaction = some v → ∃ trx, v = .str trx ∧
      ∀ t'' ≥ t', ∃ acts, Gives (net t'' ⟨"http://" ++ node.node_url ++
        "/v1/history/get_transaction", node.node_auth, get_transaction trx⟩) actions acts ∧
        ∀ json_actions, acts = some json_actions → ∀ a ∈ json_actions, Readable a

def isBlock : Json → Bool
  | .obj [("block_num_or_id", _)] => true
  | _ => false

variable {net node} {w : World}

lemma wp_scanAction_talks {coin_id : ℤ} {height j k : ℕ} {trx : String} {json_action : Json}
    (hread : Readable json_action) (hheeds : Heeds net w.vars.callback_url_) :
    wp (env (.clear net)) (scanAction coin_id height j trx json_action k)
      (fun _ w' => Talks isBlock w w' []) (fun _ => False) w := by
  obtain ⟨r, hr⟩ := (reads_iff w.vars.eos_base_address_ json_action).mp hread
  simp only [scanAction, wp_bind, wp_get, liftM_eq, wp_lift, hr, Except.ok.injEq, forall_eq',
    reduceCtorEq, false_implies, implies_true, and_true]
  refine ⟨False.elim, ?_⟩
  rcases r with _ | ⟨quantity, flag⟩
  · exact Talks.refl w
  · rw [wp_bind]
    refine wp_mono (wp_push_row (B := isBlock) rfl) (fun _ w₁ h₁ => ?_) fun _ h => h
    have hheeds' : Heeds net w₁.vars.callback_url_ := by rw [h₁.url]; exact hheeds
    refine wp_mono (wp_callback_heeded (B := isBlock) rfl rfl hheeds') (fun _ w₂ h₂ => ?_)
      fun _ h => h
    exact h₁.trans h₂

lemma wp_scanTrx_talks {coin_id : ℤ} {height j : ℕ} {trx : String} {json_transaction : Json}
    (hread : ∀ v, id? json_transaction = some v → ∃ trx, v = .str trx ∧ ∃ acts,
      Gives (net w.wire.length ⟨"http://" ++ node.node_url ++ "/v1/history/get_transaction",
        node.node_auth, get_transaction trx⟩) actions acts ∧
      ∀ json_actions, acts = some json_actions → ∀ a ∈ json_actions, Readable a)
    (hheeds : Heeds net w.vars.callback_url_) :
    wp (env (.clear net)) (scanTrx node coin_id height json_transaction j trx)
      (fun r w' => r.1 = .next ∧ Talks isBlock w w' []) (fun _ => False) w := by
  rw [scanTrx_eq]
  cases hid : id? json_transaction with
  | none => exact ⟨rfl, Talks.refl w⟩
  | some v =>
    obtain ⟨trx, rfl, acts, hgives, hacts⟩ := hread v hid
    simp only [Json.getStr_str, wp_bind, liftM_eq, wp_lift, Except.ok.injEq, forall_eq',
      reduceCtorEq, false_implies, implies_true, and_true]
    refine wp_mono (wp_callRpc_gives (B := isBlock) hgives) ?_ fun _ h => h
    rintro _ w₁ ⟨jr, rfl, hjr, h₁⟩
    change Talks isBlock w w₁ [] at h₁
    simp only [wp_bind, wp_lift, hjr, Except.ok.injEq, forall_eq', reduceCtorEq, false_implies,
      implies_true, and_true]
    cases acts with
    | none => exact ⟨rfl, h₁⟩
    | some json_actions =>
      rw [wp_bind, scanActions]
      refine wp_mono (wp_forEach_zipIdx (I := fun _ w' => Talks isBlock w w' [])
        json_actions h₁ ?_) (fun _ w₂ h => ⟨rfl, h⟩) fun _ h => h
      intro l a l' w₂ hl h
      have hheeds' : Heeds net w₂.vars.callback_url_ := by rw [h.url]; exact hheeds
      refine wp_mono (wp_scanAction_talks (hacts _ rfl a (by simp [hl])) hheeds')
        (fun _ w₃ h' => ?_) fun _ h => h
      exact h.trans h'

lemma wp_scanBlock_left {coin_id : ℤ} {height i : ℕ} (hclean : Clean w)
    (hheeds : Heeds net w.vars.callback_url_) {txs : List Json}
    (hgives : Gives (net w.wire.length ⟨"http://" ++ node.node_url ++ "/v1/chain/get_block",
      node.node_auth, get_block i⟩) transactions (some txs))
    (hread : ∀ json_transaction ∈ txs, ∀ v, id? json_transaction = some v → ∃ trx, v = .str trx ∧
      ∀ t ≥ w.wire.length, ∃ acts, Gives (net t ⟨"http://" ++ node.node_url ++
        "/v1/history/get_transaction", node.node_auth, get_transaction trx⟩) actions acts ∧
        ∀ json_actions, acts = some json_actions → ∀ a ∈ json_actions, Readable a) :
    wp (env (.clear net)) (scanBlock node coin_id height i) (fun fl w' =>
      fl = .next ∧ ∃ w₁, Talks isBlock w w₁ [get_block i] ∧
        Left coin_id i (i % 100 = 0 ∨ i = height) w₁ w') (fun _ => False) w := by
  rw [scanBlock, wp_bind]
  refine wp_mono (wp_callRpc_gives (B := isBlock) hgives) ?_ fun _ h => h
  rintro _ w₁ ⟨j, rfl, hj, h₁⟩
  change Talks isBlock w w₁ [get_block i] at h₁
  simp only [wp_bind, liftM_eq, wp_lift, hj, Except.ok.injEq, forall_eq', reduceCtorEq,
    false_implies, implies_true, and_true]
  refine wp_mono (wp_loop_zipIdx (I := fun _ _ w' => Talks isBlock w w' [get_block i])
    (B := fun _ _ _ => False) txs h₁ ?_) ?_ fun _ h => h
  · intro l json_transaction l' trx w₂ hl h
    have hheeds' : Heeds net w₂.vars.callback_url_ := by rw [h.url]; exact hheeds
    refine wp_mono (wp_scanTrx_talks (fun v hv => ?_) hheeds') ?_ fun _ h => h
    · obtain ⟨trx, htrx, hall⟩ := hread json_transaction (by simp [hl]) v hv
      exact ⟨trx, htrx, hall _ h.wire_le⟩
    · rintro ⟨fl, trx'⟩ w₃ ⟨rfl, h'⟩
      simpa using h.trans h'
  · rintro ⟨fl, trx⟩ w₂ h
    cases fl with
    | next =>
      refine wp_mono (wp_leave_block (h.clean hclean)) ?_ fun _ h => h
      exact fun _ w₃ h' => ⟨h'.1, w₂, h, h'.2⟩
    | brk =>
      obtain ⟨-, -, -, h⟩ := h
      exact h.elim

end Eos

namespace Omni

variable (net : ℕ → Request → Answer) (node : NodeInfo)

/-- The number of blocks, as the node gives it. -/
def Reports (t tip : ℕ) : Prop :=
  Gives (net t ⟨node.node_url, node.node_auth, getblockcount⟩) blockCount tip

/-- The node answers for its tip, for every block up to it with the Omni transactions that the
chain has in it, and for each of these with one that can be read. -/
structure Serves (blocks : ℕ → Option (List Json)) : Prop where
  tip : ∀ t, ∃ n, Reports net node t n
  block : ∀ t n t' i, Reports net node t n → t ≤ t' → i ≤ n →
    Gives (net t' ⟨node.node_url, node.node_auth, omni_listblocktransactions i⟩)
      transactions (blocks i)
  tx : ∀ i txs, blocks i = some txs → ∀ json_tx ∈ txs, ∃ txid, json_tx = .str txid ∧
    ∀ t S, ∃ kept, Gives (net t ⟨node.node_url, node.node_auth, omni_gettransaction txid⟩)
      (detail S) kept

def isBlock : Json → Bool
  | .obj [_, _, ("method", .str method), _] => method = "omni_listblocktransactions"
  | _ => false

variable {net node} {w : World}

lemma wp_scanTx_talks {coin_id : ℤ} {height j : ℕ} {json_tx : Json}
    (hread : ∃ txid, json_tx = .str txid ∧ ∀ S, ∃ kept, Gives (net w.wire.length
      ⟨node.node_url, node.node_auth, omni_gettransaction txid⟩) (detail S) kept)
    (hheeds : Heeds net w.vars.callback_url_) :
    wp (env (.clear net)) (scanTx node coin_id height json_tx j)
      (fun r w' => r.1 = .next ∧ Talks isBlock w w' []) (fun _ => False) w := by
  obtain ⟨txid, rfl, hkept⟩ := hread
  simp only [scanTx, Json.getStr_str, wp_bind, liftM_eq, wp_lift, Except.ok.injEq, forall_eq',
    reduceCtorEq, false_implies, implies_true, and_true]
  obtain ⟨-, jr, hjr, -⟩ := hkept []
  have hgives : Gives (net w.wire.length ⟨node.node_url, node.node_auth,
      omni_gettransaction txid⟩) Except.ok jr := ⟨jr, hjr, rfl⟩
  refine wp_mono (wp_callRpc_gives (B := isBlock) hgives) ?_ fun _ h => h
  rintro _ w₁ ⟨_, rfl, ⟨⟩, h₁⟩
  change Talks isBlock w w₁ [] at h₁
  simp only [wp_bind, wp_get, wp_lift]
  refine ⟨False.elim, fun kept hd => ?_, fun e he => ?_⟩
  · rcases kept with _ | ⟨address, amount, flag⟩
    · exact ⟨rfl, h₁⟩
    · simp only [wp_bind]
      refine wp_mono (wp_push_row (B := isBlock) rfl) (fun _ w₂ h₂ => ?_) fun _ h => h
      have hheeds' : Heeds net w₂.vars.callback_url_ := by rw [h₂.url, h₁.url]; exact hheeds
      refine wp_mono (wp_callback_heeded (B := isBlock) rfl rfl hheeds') (fun _ w₃ h₃ => ?_)
        fun _ h => h
      exact ⟨rfl, (h₁.trans h₂).trans h₃⟩
  · obtain ⟨kept, j, hj, hd⟩ := hkept w₁.vars.s_address_id_omni_usdt
    rw [hjr] at hj
    cases hj
    rw [hd] at he
    cases he

lemma wp_scanBlock_left {coin_id : ℤ} {height i : ℕ} {txid : String} (hclean : Clean w)
    (hheeds : Heeds net w.vars.callback_url_) {txs : Option (List Json)}
    (hgives : Gives (net w.wire.length ⟨node.node_url, node.node_auth,
      omni_listblocktransactions i⟩) transactions txs)
    (hread : ∀ json_txs, txs = some json_txs → ∀ json_tx ∈ json_txs, ∃ txid,
      json_tx = .str txid ∧ ∀ t S, ∃ kept, Gives (net t ⟨node.node_url, node.node_auth,
        omni_gettransaction txid⟩) (detail S) kept) :
    wp (env (.clear net)) (scanBlock node coin_id height i txid) (fun r w' =>
      r.1 = .next ∧ ∃ w₁, Talks isBlock w w₁ [omni_listblocktransactions i] ∧
        Left coin_id i ((i % 100 = 0 ∨ i = height) ∧ txs.isSome) w₁ w') (fun _ => False) w := by
  rw [scanBlock, wp_bind]
  refine wp_mono (wp_callRpc_gives (B := isBlock) hgives) ?_ fun _ h => h
  rintro _ w₁ ⟨j, rfl, hj, h₁⟩
  change Talks isBlock w w₁ [omni_listblocktransactions i] at h₁
  simp only [wp_bind, liftM_eq, wp_lift, hj, Except.ok.injEq, forall_eq', reduceCtorEq,
    false_implies, implies_true, and_true]
  cases txs with
  | none => exact ⟨rfl, w₁, h₁, left_unstored (h₁.clean hclean) (by simp)⟩
  | some json_txs =>
    rw [wp_bind]
    refine wp_mono (wp_loop_zipIdx
      (I := fun _ _ w' => Talks isBlock w w' [omni_listblocktransactions i])
      (B := fun _ _ _ => False) json_txs h₁ ?_) ?_ fun _ h => h
    · intro l json_tx l' txid w₂ hl h
      have hheeds' : Heeds net w₂.vars.callback_url_ := by rw [h.url]; exact hheeds
      obtain ⟨txid', htx, hall⟩ := hread _ rfl json_tx (by simp [hl])
      refine wp_mono (wp_scanTx_talks ⟨txid', htx, hall _⟩ hheeds') ?_ fun _ h => h
      rintro ⟨fl, txid''⟩ w₃ ⟨rfl, h'⟩
      simpa using h.trans h'
    · rintro ⟨fl, txid⟩ w₂ h
      cases fl with
      | next =>
        refine wp_mono (wp_leave_block (h.clean hclean)) ?_ fun _ h => h
        rintro _ w₃ ⟨rfl, h'⟩
        exact ⟨rfl, w₂, h, by simpa using h'⟩
      | brk =>
        obtain ⟨-, -, -, h⟩ := h
        exact h.elim

end Omni

/-! ### The calls -/

/-- The three scanners. -/
inductive Walk
  | ETH | EOS | OMNI_USDT
  deriving DecidableEq

namespace Walk

def coin : Walk → String
  | ETH => "ETH"
  | EOS => "EOS"
  | OMNI_USDT => "USDT"

def scan : Walk → Scan Unit
  | ETH => Eth.scanETH
  | EOS => Eos.scanEOS
  | OMNI_USDT => Omni.scanOMNI_USDT

/-- The block a call starts after. -/
def start : Walk → ℕ → ℕ
  | EOS, _ => Eos.start
  | _, pre_height => pre_height

/-- The request for a block. -/
def request : Walk → ℕ → Json
  | ETH => Eth.request
  | EOS => Eos.get_block
  | OMNI_USDT => Omni.omni_listblocktransactions

def isBlock : Walk → Json → Bool
  | ETH => Eth.isBlock
  | EOS => Eos.isBlock
  | OMNI_USDT => Omni.isBlock

/-- The blocks whose heights a call with this tip stores. -/
def Stored (blocks : ℕ → Option (List Json)) (tip : ℕ) : Walk → ℕ → Prop
  | ETH, i => i % 500 = 0 ∧ i = tip
  | EOS, i => i % 100 = 0 ∨ i = tip
  | OMNI_USDT, i => (i % 100 = 0 ∨ i = tip) ∧ (blocks i).isSome

def Reports (net : ℕ → Request → Answer) (node : NodeInfo) : Walk → ℕ → ℕ → Prop
  | ETH => Eth.Reports net node
  | EOS => Eos.Reports net node
  | OMNI_USDT => Omni.Reports net node

def Answers (net : ℕ → Request → Answer) (blocks : ℕ → Option (List Json)) (node : NodeInfo) :
    Walk → Prop
  | ETH => Eth.Serves net node
  | EOS => Eos.Serves net node
  | OMNI_USDT => Omni.Serves net node blocks

variable (net : ℕ → Request → Answer) (blocks : ℕ → Option (List Json)) (w : World) (s : Walk)

/-- What a call needs to return: the receiver answers notices with a code, the stored height and
the identifier of the coin fit into an `int`, and the node answers every request. -/
structure Serves : Prop where
  heeds : Heeds net w.vars.callback_url_
  fits : ∀ c pre, coinId w.db.cat s.coin = some (some c) → w.db.maxHeight c = some pre →
    (-2 ^ 31 ≤ c ∧ c < 2 ^ 31) ∧ pre < 2 ^ 31
  answers : ∀ c pre node, Begun w s.coin c pre node → s.Answers net blocks node

/-- The call finds this tip over this stored height. -/
def Finds (c : ℤ) (pre tip : ℕ) : Prop :=
  (s = EOS → w.vars.eos_base_address_ ≠ "") ∧
    ∃ node, Begun w s.coin c pre node ∧ s.Reports net node w.wire.length tip

/-- The requests for blocks that the call has made. -/
def asked (w w' : World) : List Json :=
  ((w'.wire.drop w.wire.length).map (·.1.data)).filter s.isBlock

/-- The call has come to the tip: it has stored it, with nothing left in the buffer, and it has
asked for the blocks after the stored height, each of them once. -/
def Progress (w' : World) : Prop :=
  ∀ c pre tip, s.Finds net w c pre tip →
    (pre < tip → w'.db.maxHeight c = some tip ∧ w'.vars.vect_sql_ = []) ∧
    s.asked w w' = (List.range' (pre + 1) (tip - pre)).map s.request

/-- The tip is one that the call stores, and the call starts after the stored height. -/
def Suits (pre tip : ℕ) : Walk → Prop
  | ETH => pre < tip → 500 ∣ tip
  | EOS => pre = Eos.start ∨ tip ≤ pre ∧ tip ≤ Eos.start
  | OMNI_USDT => pre < tip → (blocks tip).isSome

def Meets : Prop := ∀ c pre tip, s.Finds net w c pre tip → s.Suits blocks pre tip

end Walk

section

variable {net : ℕ → Request → Answer} {blocks : ℕ → Option (List Json)} {w w₁ w' : World}

lemma Went.after {B : Json → Bool} {R : ℕ → Json} {c : ℤ} {G : ℕ → Prop} {l : List ℕ}
    (ht : Talks B w w₁ []) (h : Went R B c G w₁ l w') : Went R B c G w l w' where
  url := h.url.trans ht.url
  cat := h.cat.trans (congrArg Db.cat ht.db)
  clean := h.clean
  asks := by
    obtain ⟨es, hw, hes⟩ := ht.asks
    obtain ⟨es', hw', hes'⟩ := h.asks
    refine ⟨es ++ es', by rw [hw', hw, List.append_assoc], ?_⟩
    rw [List.map_append, List.filter_append, hes, hes', List.nil_append]
  marks k m := by rw [h.marks, ht.db]
  flushed := h.flushed

lemma wp_getCurrentHeight_fits {coin : String} {Q : Option (ℤ × ℕ) → World → Prop}
    (hfits : ∀ c pre, coinId w.db.cat coin = some (some c) → w.db.maxHeight c = some pre →
      (-2 ^ 31 ≤ c ∧ c < 2 ^ 31) ∧ pre < 2 ^ 31)
    (hnone : (∀ c m, ¬ Current w.db coin c m) → Q none w)
    (hsome : ∀ c m, Current w.db coin c m → Q (some (c, m)) w) :
    wp (env (.clear net)) (getCurrentHeight coin) Q (fun _ => False) w := by
  simp only [getCurrentHeight, getData, wp_bind, wp_op]
  refine ⟨fun w₁ hd => hd.1, fun r w₁ hr => ?_⟩
  obtain ⟨rfl, hr⟩ := hr
  have hrows : ∀ rows rows', (Query.height coin).eval w₁.db = some rows → rows.Perm rows' →
      (rows' = [] ∧ ∀ c m, ¬ Current w₁.db coin c m) ∨ ∃ c m, coinId w₁.db.cat coin = some (some c) ∧
        w₁.db.maxHeight c = some m ∧ rows' = [[.int c, .int m]] := by
    intro rows rows' he hp
    rcases eval_height he with ⟨rfl, hn⟩ | ⟨c, m, hc, hm, rfl⟩
    · exact Or.inl ⟨List.nil_perm.mp hp, hn⟩
    · exact Or.inr ⟨c, m, hc, hm, List.singleton_perm.mp hp |>.symm⟩
  have hcases : ((r = none ∨ r = some []) ∧ ∀ c m, ¬ Current w₁.db coin c m) ∨
      ∃ c m, coinId w₁.db.cat coin = some (some c) ∧ w₁.db.maxHeight c = some m ∧
        r = some [[.int c, .int m]] := by
    obtain ⟨hf, -⟩ | rfl | ⟨rows, rows', he, hp, rfl⟩ := hr
    · exact hf.elim
    · cases he : (Query.height coin).eval w₁.db with
      | none => exact Or.inl ⟨Or.inl rfl, fun c m hcur => by simp [Query.eval, hcur.1] at he⟩
      | some rows => simpa using hrows rows rows he (List.Perm.refl _)
    · simpa using hrows rows rows' he hp
  rcases hcases with ⟨rfl | rfl, hn⟩ | ⟨c, m, hc, hm, rfl⟩
  · simpa [Json.size] using hnone hn
  · simpa [Json.size] using hnone hn
  · obtain ⟨hcr, hmr⟩ := hfits c m hc hm
    have hm31 : -2 ^ 31 ≤ (m : ℤ) ∧ (m : ℤ) < 2 ^ 31 := ⟨by omega, by exact_mod_cast hmr⟩
    have hrow : rowData [.INT, .INT] [.int c, .int m] = .ok (.arr [.int c, .int m]) := by
      simp only [rowData, List.zip_cons_cons, List.zip_nil_right, List.mapM_cons, List.mapM_nil,
        Cell.convert, if_pos hcr, if_pos hm31]
      rfl
    have hc31 : (Json.int c).getInt = .ok c := by
      rw [Json.getInt, Int.bmod_eq_of_le (by omega) (by omega)]
    have hm64 : (Json.int m).getUInt64 = .ok m := Json.getUInt64_natCast (by omega)
    simpa [List.mapM_cons, hrow, Json.size, Json.idx, hc31, hm64] using hsome c m ⟨hc, hm, hmr⟩

lemma wp_begin_fits {coin : String} {url auth : NodeInfo → String} {post : Json}
    {scan : ℤ → ℕ → NodeInfo → Json → Scan Unit} {Q : World → Prop}
    (hfits : ∀ c pre, coinId w.db.cat coin = some (some c) → w.db.maxHeight c = some pre →
      (-2 ^ 31 ≤ c ∧ c < 2 ^ 31) ∧ pre < 2 ^ 31)
    (hnot : (∀ c m n, ¬ Begun w coin c m n) → Q w)
    (hscan : ∀ c pre node, Begun w coin c pre node → wp (env (.clear net)) (do
      match ← callRpc (url node) (auth node) post with
      | .ok json_response => scan c pre node json_response
      | _ => pure ()) (fun _ => Q) (fun _ => False) w) :
    wp (env (.clear net)) (do
      match ← getCurrentHeight coin with
      | none => pure ()
      | some (coin_id, pre_height) =>
        let v ← get
        match v.map_coinid_node_.lookup coin_id with
        | none => pure ()
        | some node =>
          match ← callRpc (url node) (auth node) post with
          | .ok json_response => scan coin_id pre_height node json_response
          | _ => pure ()) (fun _ => Q) (fun _ => False) w := by
  rw [wp_bind]
  refine wp_getCurrentHeight_fits hfits (fun hn => hnot fun c m n hb => hn c m hb.current)
    fun c pre hcur => ?_
  simp only [wp_bind, wp_get]
  refine ⟨False.elim, ?_⟩
  split
  · next hnode =>
    refine hnot fun c' m n hb => ?_
    obtain ⟨rfl, -⟩ := hb.current.unique hcur
    rw [hb.node] at hnode
    cases hnode
  · next node hnode => exact hscan c pre node ⟨hcur, hnode⟩

variable (net blocks w) in
/-- How a call ends: it has not found a tip and not done anything, or it has asked for every
block up to the tip. -/
def Walk.Ends (s : Walk) (w' : World) : Prop :=
  ((∀ c pre tip, ¬ s.Finds net w c pre tip) ∧ Talks s.isBlock w w' []) ∨
  ∃ c pre tip, s.Finds net w c pre tip ∧ Went s.request s.isBlock c (s.Stored blocks tip) w
    (List.range' (s.start pre + 1) (tip - s.start pre)) w'

lemma Walk.ends_not {s : Walk} (h : ∀ c m n, ¬ Begun w s.coin c m n) :
    s.Ends net blocks w w :=
  Or.inl ⟨fun _ _ _ ⟨_, _, hb, _⟩ => h _ _ _ hb, Talks.refl w⟩

lemma wp_scanETH_ends (hclean : Clean w) (hs : Walk.ETH.Serves net blocks w) :
    wp (env (.clear net)) Eth.scanETH (fun _ => Walk.ETH.Ends net blocks w)
      (fun _ => False) w := by
  refine wp_begin_fits hs.fits (Walk.ends_not (s := .ETH)) fun c pre node hb => ?_
  have hserves : Eth.Serves net node := hs.answers c pre node hb
  obtain ⟨tip, hreports⟩ := hserves.tip w.wire.length
  have hfinds : Walk.ETH.Finds net w c pre tip := ⟨by simp, node, hb, hreports⟩
  obtain ⟨number, hgives, hrest, rfl⟩ := hreports
  rw [wp_bind]
  refine wp_mono (wp_callRpc_gives (B := Eth.isBlock) hgives) ?_ fun _ h => h
  rintro _ w₁ ⟨j, rfl, hj, h₁⟩
  change Talks Eth.isBlock w w₁ [] at h₁
  simp only [wp_bind, liftM_eq, wp_lift, hj, Except.ok.injEq, forall_eq', reduceCtorEq,
    false_implies, implies_true, and_true]
  refine wp_mono (wp_blocks_went (B := Eth.isBlock) (R := Eth.request) (c := c)
    (G := Walk.ETH.Stored blocks (Text.readHex number).1) (J := fun ss => ss = "") hrest
    (h₁.clean hclean) ?_) (fun _ w' h => Or.inr ⟨c, pre, _, hfinds, h.after h₁⟩) fun _ h => h
  rintro i _ w₂ hi rfl hclean₂ hle hurl
  obtain ⟨txs, htxs, hread⟩ := hserves.block _ _ w₂.wire.length i ⟨number, hgives, hrest, rfl⟩
    (h₁.wire_le.trans hle) hi
  have hheeds : Heeds net w₂.vars.callback_url_ := by rw [hurl, h₁.url]; exact hs.heeds
  rw [Text.word_hex, wp_bind]
  refine wp_mono (Eth.wp_scanBlock_left hclean₂ hheeds htxs hread) ?_ fun _ h => h
  rintro _ w₃ ⟨rfl, h⟩
  exact ⟨rfl, rfl, h⟩

lemma wp_scanEOS_ends (hclean : Clean w) (hs : Walk.EOS.Serves net blocks w) :
    wp (env (.clear net)) Eos.scanEOS (fun _ => Walk.EOS.Ends net blocks w)
      (fun _ => False) w := by
  rw [Eos.scanEOS, wp_bind, wp_get]
  refine ⟨False.elim, ?_⟩
  split
  · next hempty => exact Or.inl ⟨fun _ _ _ h => h.1 rfl hempty, Talks.refl w⟩
  next hbase =>
  refine wp_begin_fits hs.fits (Walk.ends_not (s := .EOS)) fun c pre node hb => ?_
  have hserves : Eos.Serves net node := hs.answers c pre node hb
  obtain ⟨tip, hreports⟩ := hserves.tip w.wire.length
  have hfinds : Walk.EOS.Finds net w c pre tip := ⟨fun _ => hbase, node, hb, hreports⟩
  rw [wp_bind]
  refine wp_mono (wp_callRpc_gives (B := Eos.isBlock) hreports) ?_ fun _ h => h
  rintro _ w₁ ⟨j, rfl, hj, h₁⟩
  change Talks Eos.isBlock w w₁ [] at h₁
  simp only [wp_bind, liftM_eq, wp_lift, hj, Except.ok.injEq, forall_eq', reduceCtorEq,
    false_implies, implies_true, and_true]
  have hends : ∀ w', Went Eos.get_block Eos.isBlock c (Walk.EOS.Stored blocks tip) w₁
      (List.range' (Eos.start + 1) (tip - Eos.start)) w' → Walk.EOS.Ends net blocks w w' :=
    fun w' h => Or.inr ⟨c, pre, tip, hfinds, h.after h₁⟩
  -- the number of the first block is not to be computed with
  generalize Eos.start = first at hends ⊢
  rw [Eos.scanFrom, wp_bind]
  refine wp_mono (wp_blocks_went (B := Eos.isBlock) (R := Eos.get_block) (c := c)
    (G := Walk.EOS.Stored blocks tip) (J := fun _ => True) trivial (h₁.clean hclean) ?_)
    (fun _ w' h => hends w' h) fun _ h => h
  intro i _ w₂ hi _ hclean₂ hle hurl
  obtain ⟨txs, htxs, hread⟩ := hserves.block _ _ w₂.wire.length i hreports
    (h₁.wire_le.trans hle) hi
  have hheeds : Heeds net w₂.vars.callback_url_ := by rw [hurl, h₁.url]; exact hs.heeds
  rw [wp_bind]
  refine wp_mono (Eos.wp_scanBlock_left hclean₂ hheeds htxs hread) ?_ fun _ h => h
  rintro _ w₃ ⟨rfl, h⟩
  exact ⟨rfl, trivial, h⟩

lemma wp_scanOMNI_ends (hclean : Clean w) (hs : Walk.OMNI_USDT.Serves net blocks w) :
    wp (env (.clear net)) Omni.scanOMNI_USDT (fun _ => Walk.OMNI_USDT.Ends net blocks w)
      (fun _ => False) w := by
  refine wp_begin_fits hs.fits (Walk.ends_not (s := .OMNI_USDT)) fun c pre node hb => ?_
  have hserves : Omni.Serves net node blocks := hs.answers c pre node hb
  obtain ⟨tip, hreports⟩ := hserves.tip w.wire.length
  have hfinds : Walk.OMNI_USDT.Finds net w c pre tip := ⟨by simp, node, hb, hreports⟩
  rw [wp_bind]
  refine wp_mono (wp_callRpc_gives (B := Omni.isBlock) hreports) ?_ fun _ h => h
  rintro _ w₁ ⟨j, rfl, hj, h₁⟩
  change Talks Omni.isBlock w w₁ [] at h₁
  simp only [wp_bind, liftM_eq, wp_lift, hj, Except.ok.injEq, forall_eq', reduceCtorEq,
    false_implies, implies_true, and_true]
  refine wp_mono (wp_blocks_went (B := Omni.isBlock) (R := Omni.omni_listblocktransactions)
    (c := c) (G := Walk.OMNI_USDT.Stored blocks tip) (J := fun _ => True) trivial
    (h₁.clean hclean) ?_) (fun _ w' h => Or.inr ⟨c, pre, _, hfinds, h.after h₁⟩) fun _ h => h
  intro i txid w₂ hi _ hclean₂ hle hurl
  have htxs := hserves.block _ _ w₂.wire.length i hreports (h₁.wire_le.trans hle) hi
  have hheeds : Heeds net w₂.vars.callback_url_ := by rw [hurl, h₁.url]; exact hs.heeds
  refine wp_mono (Omni.wp_scanBlock_left hclean₂ hheeds htxs (hserves.tx i)) ?_ fun _ h => h
  rintro ⟨fl, txid'⟩ w₃ ⟨rfl, h⟩
  exact ⟨rfl, trivial, h⟩

/-- **Where no request fails, every call returns**, and has asked for each block up to the tip
that it found. -/
theorem Walk.wp_scan {s : Walk} (hclean : Clean w) (hs : s.Serves net blocks w) :
    wp (env (.clear net)) s.scan (fun _ => s.Ends net blocks w) (fun _ => False) w := by
  cases s with
  | ETH => exact wp_scanETH_ends hclean hs
  | EOS => exact wp_scanEOS_ends hclean hs
  | OMNI_USDT => exact wp_scanOMNI_ends hclean hs

lemma Walk.Finds.unique {s : Walk} {c c' : ℤ} {pre pre' tip tip' : ℕ}
    (h : s.Finds net w c pre tip) (h' : s.Finds net w c' pre' tip') :
    c = c' ∧ pre = pre' ∧ tip = tip' := by
  obtain ⟨-, node, hb, hr⟩ := h
  obtain ⟨-, node', hb', hr'⟩ := h'
  obtain ⟨rfl, rfl⟩ := hb.current.unique hb'.current
  obtain rfl : node = node' := by
    have hnode := hb.node
    rw [hb'.node] at hnode
    exact (Option.some.inj hnode).symm
  refine ⟨rfl, rfl, ?_⟩
  cases s with
  | ETH =>
    obtain ⟨number, hgives, -, rfl⟩ := hr
    obtain ⟨number', hgives', -, rfl⟩ := hr'
    rw [Option.some.inj (hgives.unique hgives')]
  | EOS => exact Gives.unique hr hr'
  | OMNI_USDT => exact Gives.unique hr hr'

lemma Walk.asked_of {s : Walk} {l : List Json}
    (h : ∃ es, w'.wire = w.wire ++ es ∧ (es.map (·.1.data)).filter s.isBlock = l) :
    s.asked w w' = l := by
  obtain ⟨es, hw, rfl⟩ := h
  rw [asked, hw, List.drop_left]

/-- A call that ends comes to the tip exactly if it stores the tip. -/
lemma Walk.Ends.progress_iff {s : Walk} (h : s.Ends net blocks w w') :
    s.Progress net w w' ↔ s.Meets net blocks w := by
  rcases h with ⟨hnot, -⟩ | ⟨c, pre, tip, hfinds, hwent⟩
  · exact ⟨fun _ c pre tip hf => absurd hf (hnot c pre tip),
      fun _ c pre tip hf => absurd hf (hnot c pre tip)⟩
  obtain ⟨-, node, hb, -⟩ := id hfinds
  have hpre : w.db.maxHeight c = some pre := hb.current.2.1
  have hprogress : s.Progress net w w' ↔
      (pre < tip → w'.db.maxHeight c = some tip ∧ w'.vars.vect_sql_ = []) ∧
      (List.range' (s.start pre + 1) (tip - s.start pre)).map s.request =
        (List.range' (pre + 1) (tip - pre)).map s.request := by
    rw [← Walk.asked_of hwent.asks]
    refine ⟨fun h => h c pre tip hfinds, fun h c' pre' tip' hfinds' => ?_⟩
    obtain ⟨rfl, rfl, rfl⟩ := hfinds.unique hfinds'
    exact h
  have hmeets : s.Meets net blocks w ↔ s.Suits blocks pre tip := by
    refine ⟨fun h => h c pre tip hfinds, fun h c' pre' tip' hfinds' => ?_⟩
    obtain ⟨rfl, rfl, rfl⟩ := hfinds.unique hfinds'
    exact h
  have hstored : ∀ n, s.start pre = n → pre < tip → n < tip →
      (w'.db.maxHeight c = some tip ∧ w'.vars.vect_sql_ = [] ↔ s.Stored blocks tip tip) := by
    rintro n rfl hlt hn
    have hiff := hwent.stored_iff hpre hlt hn
    exact ⟨fun h => hiff.mp h.1, fun h => ⟨hiff.mpr h, hwent.flushed_last hn h⟩⟩
  rw [hprogress, hmeets]
  cases s with
  | ETH =>
    have hs : ∀ _ : pre < tip, _ := fun hlt => hstored pre rfl hlt hlt
    simp only [Walk.Stored, and_true] at hs
    simp only [Walk.start, Walk.Suits, and_true, Nat.dvd_iff_mod_eq_zero]
    exact forall_congr' fun hlt => hs hlt
  | OMNI_USDT =>
    have hs : ∀ _ : pre < tip, _ := fun hlt => hstored pre rfl hlt hlt
    simp only [Walk.Stored, or_true, true_and] at hs
    simp only [Walk.start, Walk.Suits, and_true]
    exact forall_congr' fun hlt => hs hlt
  | EOS =>
    simp only [Walk.start, Walk.Suits]
    constructor
    · rintro ⟨-, hlists⟩
      have hlen := congrArg List.length hlists
      simp only [List.length_map, List.length_range'] at hlen
      omega
    · rintro (rfl | ⟨h1, h2⟩)
      · exact ⟨fun hlt => (hstored _ rfl hlt hlt).mpr (Or.inr rfl), rfl⟩
      · refine ⟨fun hlt => absurd hlt (by omega), ?_⟩
        rw [Nat.sub_eq_zero_of_le h1, Nat.sub_eq_zero_of_le h2]
        rfl

/-- A call that is answered comes to the tip exactly if it is one that stores the tip. -/
lemma Walk.returns_progress_iff {s : Walk} (hclean : Clean w) (hs : s.Serves net blocks w) :
    Returns (env (.clear net)) s.scan (fun _ => s.Progress net w) w ↔ s.Meets net blocks w := by
  constructor
  · intro hret
    have hx := exec_serve net s.scan w
    obtain ⟨_, ho, hprogress⟩ := hret _ _ hx
    rw [ho] at hx
    have hends : s.Ends net blocks w _ := exec_post hx (Walk.wp_scan hclean hs)
    exact hends.progress_iff.mp hprogress
  · intro hmeets
    refine returns_of_wp (wp_mono (Walk.wp_scan hclean hs) (fun _ w' hends => ?_) fun _ h => h)
    exact hends.progress_iff.mpr hmeets

/-! ### Runs -/

/-- What else happens between two calls: the database grows, and the process may even be started
again, but no checkpoint waits in the buffer. -/
structure Beside (w w' : World) : Prop where
  cat : w'.db.cat = w.db.cat
  log : w.db.log ⊆ w'.db.log
  clean : Clean w'

variable (net) in
/-- Calls one after the other, each in a world that `ok` allows it in, with the requests for
blocks that each of them made. -/
inductive Walk.Calls (ok : Walk → World → Prop) (w₀ : World) :
    List (Walk × Json) → World → Prop
  | begin : Calls ok w₀ [] w₀
  | scan {l : List (Walk × Json)} {w w' : World} {o : Outcome Exn Unit} (s : Walk) :
      Calls ok w₀ l w → ok s w → Exec (env (.clear net)) s.scan w o w' →
      Calls ok w₀ (l ++ (s.asked w w').map (s, ·)) w'
  | other {l : List (Walk × Json)} {w w' : World} : Calls ok w₀ l w → Beside w w' →
      Calls ok w₀ l w'

/-- The requests so far were for different blocks, each at or below the stored height. -/
structure Walk.Passed (l : List (Walk × Json)) (w : World) : Prop where
  clean : Clean w
  once : l.Nodup
  below : ∀ s d, (s, d) ∈ l → ∃ i c m, d = s.request i ∧
    coinId w.db.cat s.coin = some (some c) ∧ w.db.maxHeight c = some m ∧ i ≤ m

lemma Walk.request_injective (s : Walk) : Function.Injective s.request := by
  intro i i' h
  cases s with
  | ETH =>
    have hhex : "0x" ++ Text.hex i = "0x" ++ Text.hex i' := by
      simpa [request, Eth.request, Eth.getBlockByNumber, structRpc] using h
    have hdigits : Nat.toDigits 16 i = Nat.toDigits 16 i' := by
      have hlist := congrArg String.toList hhex
      simpa [Text.hex] using hlist
    have hread := Numeral.read_toDigits (b := 16) (by norm_num) le_rfl i
    rw [hdigits, Numeral.read_toDigits (by norm_num) le_rfl] at hread
    exact (Option.some.inj hread).symm
  | EOS => simpa [request, Eos.get_block] using h
  | OMNI_USDT => simpa [request, Omni.omni_listblocktransactions, structRpc] using h

lemma maxHeight_mono {d d' : Db} {c : ℤ} {m : ℕ} (hd : ∀ n ∈ d.heights c, n ∈ d'.heights c)
    (h : d.maxHeight c = some m) : ∃ m', d'.maxHeight c = some m' ∧ m ≤ m' := by
  have hm := hd m (Db.maxHeight_eq_some.mp h).1
  cases hmax : d'.maxHeight c with
  | none =>
    rw [Db.maxHeight_eq_none.mp hmax] at hm
    cases hm
  | some m' => exact ⟨m', rfl, (Db.maxHeight_eq_some.mp hmax).2 m hm⟩

lemma Walk.Passed.grow {l : List (Walk × Json)} (h : Walk.Passed l w)
    (hcat : w'.db.cat = w.db.cat) (hclean : Clean w')
    (hheights : ∀ c, ∀ n ∈ w.db.heights c, n ∈ w'.db.heights c) : Walk.Passed l w' := by
  refine ⟨hclean, h.once, fun s d hd => ?_⟩
  obtain ⟨i, c, m, hreq, hc, hm, hi⟩ := h.below s d hd
  obtain ⟨m', hm', hle⟩ := maxHeight_mono (hheights c) hm
  exact ⟨i, c, m', hreq, by rw [hcat]; exact hc, hm', hi.trans hle⟩

/-- A call that comes to the tip asks for no block a second time. -/
lemma Walk.Passed.scan {l : List (Walk × Json)} {s : Walk} (h : Walk.Passed l w)
    (hends : s.Ends net blocks w w') (hmeets : s.Meets net blocks w) :
    Walk.Passed (l ++ (s.asked w w').map (s, ·)) w' := by
  have hprogress := hends.progress_iff.mpr hmeets
  rcases hends with ⟨-, htalks⟩ | ⟨c, pre, tip, hfinds, hwent⟩
  · rw [Walk.asked_of htalks.asks, List.map_nil, List.append_nil]
    exact h.grow (by rw [htalks.db]) (htalks.clean h.clean) fun c n hn => by rwa [htalks.db]
  obtain ⟨hstored, hasked⟩ := hprogress c pre tip hfinds
  obtain ⟨-, node, hb, -⟩ := hfinds
  obtain ⟨hc, hpre, -⟩ := hb.current
  have hgrow := h.grow hwent.cat hwent.clean fun c n hn =>
    marked_iff.mp ((hwent.marks c n).mpr (Or.inl (marked_iff.mpr hn)))
  have hmem : ∀ d, d ∈ s.asked w w' → ∃ i, d = s.request i ∧ pre < i ∧ i ≤ tip := by
    intro d hd
    rw [hasked] at hd
    obtain ⟨i, hi, rfl⟩ := List.mem_map.mp hd
    rw [List.mem_range'_1] at hi
    exact ⟨i, rfl, by omega, by omega⟩
  refine ⟨hgrow.clean, ?_, fun s' d hd => ?_⟩
  · rw [List.nodup_append]
    refine ⟨h.once, ?_, ?_⟩
    · rw [hasked, List.map_map]
      refine List.Nodup.map ?_ List.nodup_range'
      exact fun i i' hii => s.request_injective (Prod.mk.inj hii).2
    · rintro e he _ he' rfl
      obtain ⟨d, hd, rfl⟩ := List.mem_map.mp he'
      obtain ⟨i, rfl, hi, -⟩ := hmem d hd
      obtain ⟨i', c', m, hreq, hc', hm, hle⟩ := h.below s _ he
      obtain rfl := s.request_injective hreq
      rw [hc] at hc'
      cases hc'
      rw [hpre] at hm
      cases hm
      omega
  · rcases List.mem_append.mp hd with hd | hd
    · exact hgrow.below s' d hd
    · obtain ⟨d', hd', heq⟩ := List.mem_map.mp hd
      obtain ⟨rfl, rfl⟩ := Prod.mk.inj heq
      obtain ⟨i, rfl, hi, hle⟩ := hmem d' hd'
      exact ⟨i, c, tip, rfl, by rw [hwent.cat]; exact hc, (hstored (by omega)).1, hle⟩

/-- **Progress of the checkpoints.** In every run whose calls meet the condition, no block has
been asked for twice; and the next call returns, has stored the tip, and has asked for the
blocks after the stored height only, exactly if it meets the condition as well. -/
theorem Walk.progresses {w₀ : World} {l : List (Walk × Json)} (hclean : Clean w₀)
    (h : Walk.Calls net (fun s w => s.Serves net blocks w ∧ s.Meets net blocks w) w₀ l w) :
    l.Nodup ∧ ∀ s : Walk, s.Serves net blocks w →
      (Returns (env (.clear net)) s.scan (fun _ => s.Progress net w) w ↔
        s.Meets net blocks w) := by
  have hpassed : Walk.Passed l w := by
    induction h with
    | begin => exact ⟨hclean, List.nodup_nil, by simp⟩
    | @scan l w w' o s _ hok hx ih =>
      have hpost := exec_post hx (Walk.wp_scan ih.clean hok.1)
      cases o with
      | done => exact ih.scan hpost hok.2
      | threw | died => exact hpost.elim
    | other _ hb ih =>
      exact ih.grow hb.cat hb.clean fun c n hn =>
        marked_iff.mp ((marked_iff.mpr hn).mono hb.log)
  exact ⟨hpassed.once, fun s hs => Walk.returns_progress_iff hpassed.clean hs⟩

end

/-- A receiver that takes every notice, and a node whose blocks are empty. -/
def emptyNode (pending : String) (_ : ℕ) (r : Request) : Answer :=
  if r.url = "receiver" then .body (.obj [("code", .int 0)])
  else if r.data.find? "params" matches some (.arr [.str "pending", _]) then
    .body (.obj [("result", .obj [("number", .str pending)])])
  else .body (.obj [("result", .obj [("transactions", .arr [])])])

section

variable {pending : String} {pre : ℕ}

lemma reports_empty (hrest : (Text.readHex pending).2 = "") (node : NodeInfo)
    (hurl : node.node_url = "node") (t : ℕ) :
    Eth.Reports (emptyNode pending) node t (Text.readHex pending).1 := by
  refine ⟨pending, ⟨.obj [("result", .obj [("number", .str pending)]), ("error", .null)], ?_,
    rfl⟩, hrest, rfl⟩
  rw [hurl]
  rfl

lemma serves_empty (hrest : (Text.readHex pending).2 = "") (node : NodeInfo)
    (hurl : node.node_url = "node") : Eth.Serves (emptyNode pending) node := by
  refine ⟨fun t => ⟨_, reports_empty hrest node hurl t⟩, fun t n t' i _ _ _ => ⟨[], ?_, by simp⟩⟩
  have hne : "0x" ++ Text.hex i ≠ "pending" := by
    intro h
    have hlist := congrArg String.toList h
    simp at hlist
  refine ⟨.obj [("result", .obj [("transactions", .arr [])]), ("error", .null)], ?_, rfl⟩
  simp [emptyNode, hurl, Eth.getBlockByNumber, structRpc, List.lookup_cons, reply_result, hne]

lemma maxHeight_small (pre : ℕ) : (smallWorld [(2, pre)]).db.maxHeight 2 = some pre := by
  simp [smallWorld, Db.maxHeight, Db.heights, Db.block, Stmt.block?, Db.addBlock]

lemma begun_small (hpre : pre < 2 ^ 31) :
    ∃ node, node.node_url = "node" ∧ Begun (smallProcess [(2, pre)]) "ETH" 2 pre node :=
  ⟨⟨1, "node", "auth", "wallet", "auth"⟩, rfl, ⟨rfl, maxHeight_small pre, hpre⟩, rfl⟩

lemma clean_small (stored : List (ℤ × ℕ)) : Clean (smallProcess stored) := by
  rintro k m ⟨s, hs, -⟩
  cases hs

lemma serves_small (hrest : (Text.readHex pending).2 = "") (hpre : pre < 2 ^ 31) :
    Walk.ETH.Serves (emptyNode pending) (fun _ => none) (smallProcess [(2, pre)]) := by
  obtain ⟨node, hurl, hb⟩ := begun_small hpre
  refine ⟨fun t d _ => rfl, fun c m hc hm => ?_, fun c m n hb' => ?_⟩
  · have hc2 : coinId smallCatalog "ETH" = some (some 2) := rfl
    obtain rfl : c = 2 := by
      have h : coinId smallCatalog "ETH" = some (some c) := hc
      rw [hc2] at h
      simpa [eq_comm] using h
    have h : (smallWorld [(2, pre)]).db.maxHeight 2 = some m := hm
    rw [maxHeight_small] at h
    cases h
    exact ⟨by norm_num, hpre⟩
  · obtain ⟨rfl, rfl⟩ := hb.current.unique hb'.current
    have hnode := hb.node
    rw [hb'.node] at hnode
    cases hnode
    exact serves_empty hrest node hurl

lemma finds_small (hrest : (Text.readHex pending).2 = "") (hpre : pre < 2 ^ 31) :
    Walk.ETH.Finds (emptyNode pending) (smallProcess [(2, pre)]) 2 pre
      (Text.readHex pending).1 := by
  obtain ⟨node, hurl, hb⟩ := begun_small hpre
  exact ⟨by simp, node, hb, reports_empty hrest node hurl _⟩

end

/-- A pending block of number 500 is stored, and the next call starts after it. -/
theorem progresses_small :
    let w := (run (serve (emptyNode "0x1f4")) Eth.scanETH (smallProcess [(2, 498)])).2
    ((Walk.ETH.asked (smallProcess [(2, 498)]) w).map (Walk.ETH, ·)).Nodup ∧
    ∀ s : Walk, s.Serves (emptyNode "0x1f4") (fun _ => none) w →
      (Returns (env (.clear (emptyNode "0x1f4"))) s.scan
        (fun _ => s.Progress (emptyNode "0x1f4") w) w ↔
        s.Meets (emptyNode "0x1f4") (fun _ => none) w) := by
  have hrest : (Text.readHex "0x1f4").2 = "" := by decide
  refine Walk.progresses (clean_small [(2, 498)]) (.scan .ETH .begin ⟨serves_small hrest
    (by norm_num), fun c pre tip hf hlt => ?_⟩ (exec_serve _ _ _))
  obtain ⟨-, -, rfl⟩ := hf.unique (finds_small hrest (by norm_num))
  exact (by decide : 500 ∣ (Text.readHex "0x1f4").1)

/-- A pending block of number 501 is not: the call leaves the stored height at 500. -/
theorem not_progresses_small :
    Walk.ETH.Serves (emptyNode "0x1f5") (fun _ => none) (smallProcess [(2, 500)]) ∧
    Walk.ETH.Finds (emptyNode "0x1f5") (smallProcess [(2, 500)]) 2 500 501 ∧
    ¬ Returns (env (.clear (emptyNode "0x1f5"))) Walk.ETH.scan
      (fun _ => Walk.ETH.Progress (emptyNode "0x1f5") (smallProcess [(2, 500)]))
      (smallProcess [(2, 500)]) := by
  have hrest : (Text.readHex "0x1f5").2 = "" := by decide
  have htip : (Text.readHex "0x1f5").1 = 501 := by decide
  have hs := @serves_small "0x1f5" 500 hrest (by norm_num)
  have hfinds := @finds_small "0x1f5" 500 hrest (by norm_num)
  rw [htip] at hfinds
  refine ⟨hs, hfinds, fun hret => ?_⟩
  have hmeets := (Walk.returns_progress_iff (clean_small _) hs).mp hret
  have hdvd : 500 ∣ 501 := hmeets 2 500 501 hfinds (by norm_num)
  exact absurd hdvd (by norm_num)

end OpenWallet.Monitor
