import OpenWallet.Lib.Checkpoint
import OpenWallet.Monitor.Syncer
import Mathlib.Data.Prod.Lex

/-!
The scanners of `Syncer` as scanners over a store: the log is the database, the buffer is
`vect_sql_`, and the marks are the rows of `block`. A step here is an exchange with a node, a
payment recorded and notified, a block left, or a checkpoint. What is known of a reply is what
the wire says.
-/

namespace OpenWallet

open Lib Prog

/-- The position of a row in its block; `txaccount` comes before `txutxo`. -/
abbrev Place := ℕ ×ₗ ℕ ×ₗ ℕ ×ₗ ℕ

def place (tx out slot table : ℕ) : Place := toLex (tx, toLex (out, toLex (slot, table)))

lemma place_le {a b c d a' b' c' d' : ℕ} : place a b c d ≤ place a' b' c' d' ↔
    a < a' ∨ a = a' ∧ (b < b' ∨ b = b' ∧ (c < c' ∨ c = c' ∧ d ≤ d')) := by
  simp [place, Prod.Lex.toLex_le_toLex]

lemma place_lt {a b c d a' b' c' d' : ℕ} : place a b c d < place a' b' c' d' ↔
    a < a' ∨ a = a' ∧ (b < b' ∨ b = b' ∧ (c < c' ∨ c = c' ∧ d < d')) := by
  simp [place, Prod.Lex.toLex_lt_toLex]

def Stmt.mark : Stmt → Option (ℤ × ℕ)
  | .block r => some (r.coin_id, r.height)
  | _ => none

def Stmt.place : Stmt → Option (ℤ × ℕ × Place)
  | .txaccount r => some (r.src.coin_id, r.src.height,
      OpenWallet.place r.src.tx r.src.out r.src.slot 0)
  | .txutxo r => some (r.src.coin_id, r.src.height,
      OpenWallet.place r.src.tx r.src.out r.src.slot 1)
  | .block _ => none

namespace Monitor

def otc : Store World Stmt ℤ Place where
  log w := w.db.log
  buf w := w.vars.vect_sql_
  mark := Stmt.mark
  place := Stmt.place
  place_of_mark {s m} h := by cases s <;> simp_all [Stmt.mark, Stmt.place]

lemma marked_iff {c : ℤ} {n : ℕ} {w : World} :
    otc.Marked c n w.db.log ↔ n ∈ w.db.heights c := by
  rw [Db.mem_heights]
  constructor
  · rintro ⟨s, hs, hm⟩
    cases s <;> simp only [otc, Stmt.mark, reduceCtorEq, Option.some.injEq, Prod.mk.injEq] at hm
    exact ⟨_, hs, hm⟩
  · rintro ⟨r, hr, hc, hn⟩
    exact ⟨_, hr, by simp [otc, Stmt.mark, hc, hn]⟩

/-- The answer has come, after the exchange number `t₀`. -/
def Heard (x : Weather) (t₀ : ℕ) (w : World) (r : Request) (a : Answer) : Prop :=
  ∃ t ≥ t₀, w.wire[t]? = some (r, a) ∧ x.net t r a

/-- A call has been answered without an error. -/
def Told (x : Weather) (t₀ : ℕ) (w : World) (url auth : String) (json_post j : Json) : Prop :=
  ∃ a, Heard x t₀ w ⟨url, auth, json_post⟩ a ∧ reply a = .ok (.ok j)

/-- A call has been answered without an error, and this was read off the answer. -/
def Learnt {α : Type} (x : Weather) (t₀ : ℕ) (w : World) (url auth : String) (json_post : Json)
    (read : Json → Except Exn α) (a : α) : Prop :=
  ∃ j, Told x t₀ w url auth json_post j ∧ read j = .ok a

/-- A call has failed: the node is down, or its answer is an error. -/
def Refused (x : Weather) (t₀ : ℕ) (w : World) (url auth : String) (json_post : Json) : Prop :=
  ∃ a, Heard x t₀ w ⟨url, auth, json_post⟩ a ∧ ∀ j, reply a ≠ .ok (.ok j)

lemma reply_result (v : Json) :
    reply (.body (.obj [("result", v)])) = .ok (.ok (.obj [("result", v), ("error", .null)])) :=
  rfl

/-- The notice goes out, and is kept for later where the receiver answers with code 1. -/
def World.notify (w : World) (b : Json) (a : Answer) : World :=
  let w' := w.sent ⟨w.vars.callback_url_, "", b⟩ a
  if code a = .ok 1 then w'.retry b else w'

/-- Notices are the requests that name a coin. -/
def isNotice (j : Json) : Bool := (j.find? "coinCode").isSome

/-- The grounds a scanner acts on: what it records a row on, with the notice for it; what it
remembers a transaction on; on what it leaves a block, with a checkpoint at the heights `marks`
and without elsewhere; and on what it passes a block over. -/
structure Grounds where
  coin_id : ℤ
  credit : ℕ → Stmt → Option Json → World → Prop
  track : ℕ → String → World → Prop
  done : ℕ → World → Prop
  marks : ℕ → Prop
  skip : ℕ → World → Prop

variable (x : Weather) (G : Grounds)

/-- Between two checkpoints a scanner talks to its node and remembers transactions. -/
inductive Quiet (n : ℕ) : World → World → Prop
  | sent {w : World} {r : Request} {a : Answer} : x.net w.wire.length r a →
      isNotice r.data = false → Quiet n w (w.sent r a)
  | track {w : World} {txid : String} (address : String) : G.track n txid w →
      Quiet n w (w.track txid address)

inductive Credit (n : ℕ) (s : Stmt) : World → World → Prop
  | push {w : World} : G.credit n s none w → Credit n s w (w.push s)
  | notify {w : World} {b : Json} {a : Answer} : G.credit n s (some b) w →
      x.net w.wire.length ⟨w.vars.callback_url_, "", b⟩ a →
      Credit n s w ((w.push s).notify b a)

def scanner : Scanner otc where
  key := G.coin_id
  quiet n := Quiet x G n
  credit n s := Credit x G n s
  skip n w := (G.done n w ∧ ¬ G.marks n) ∨ G.skip n w
  store n s w w' := G.done n w ∧ G.marks n ∧ (∃ hash, s = .block ⟨G.coin_id, hash, n⟩) ∧
    w' = (w.push s).flush
  quiet_log h := by cases h <;> rfl
  quiet_buf h := by cases h <;> rfl
  credit_log h := by
    cases h with
    | push => rfl
    | notify => simp only [World.notify]; split <;> rfl
  credit_buf h := by
    cases h with
    | push => rfl
    | notify => simp only [World.notify]; split <;> rfl
  store_mark h := by
    obtain ⟨-, -, ⟨hash, rfl⟩, -⟩ := h
    rfl
  store_log h := by
    obtain ⟨-, -, -, rfl⟩ := h
    simp [World.flush, World.push, Db.commit, Store.total, otc]
  store_buf h := by
    obtain ⟨-, -, -, rfl⟩ := h
    rfl

variable {x G}

/-- The members no scanner assigns once they are set up, and the tables it only reads. -/
structure Frame (w w' : World) : Prop where
  nodes : w'.vars.map_coinid_node_ = w.vars.map_coinid_node_
  url : w'.vars.callback_url_ = w.vars.callback_url_
  eos : w'.vars.eos_base_address_ = w.vars.eos_base_address_
  xrp : w'.vars.xrp_base_address_ = w.vars.xrp_base_address_
  btc : w'.vars.s_address_id_btc = w.vars.s_address_id_btc
  eth : w'.vars.s_address_id_eth = w.vars.s_address_id_eth
  omni : w'.vars.s_address_id_omni_usdt = w.vars.s_address_id_omni_usdt
  contract : w'.vars.s_ethcontranct_tokenid = w.vars.s_ethcontranct_tokenid
  timers : w'.vars.timers = w.vars.timers
  cat : w'.db.cat = w.db.cat
  wire : w.wire <+: w'.wire

lemma Frame.refl (w : World) : Frame w w :=
  ⟨rfl, rfl, rfl, rfl, rfl, rfl, rfl, rfl, rfl, rfl, List.prefix_refl _⟩

lemma Frame.trans {w w₁ w₂ : World} (h : Frame w w₁) (h' : Frame w₁ w₂) : Frame w w₂ where
  nodes := h'.nodes.trans h.nodes
  url := h'.url.trans h.url
  eos := h'.eos.trans h.eos
  xrp := h'.xrp.trans h.xrp
  btc := h'.btc.trans h.btc
  eth := h'.eth.trans h.eth
  omni := h'.omni.trans h.omni
  contract := h'.contract.trans h.contract
  timers := h'.timers.trans h.timers
  cat := h'.cat.trans h.cat
  wire := h.wire.trans h'.wire

lemma frame_sent (w : World) (r : Request) (a : Answer) : Frame w (w.sent r a) :=
  ⟨rfl, rfl, rfl, rfl, rfl, rfl, rfl, rfl, rfl, rfl, List.prefix_append _ _⟩

lemma frame_retry (w : World) (j : Json) : Frame w (w.retry j) :=
  ⟨rfl, rfl, rfl, rfl, rfl, rfl, rfl, rfl, rfl, rfl, List.prefix_refl _⟩

lemma frame_push (w : World) (s : Stmt) : Frame w (w.push s) :=
  ⟨rfl, rfl, rfl, rfl, rfl, rfl, rfl, rfl, rfl, rfl, List.prefix_refl _⟩

lemma frame_flush (w : World) : Frame w w.flush :=
  ⟨rfl, rfl, rfl, rfl, rfl, rfl, rfl, rfl, rfl, rfl, List.prefix_refl _⟩

lemma frame_notify (w : World) (b : Json) (a : Answer) : Frame w (w.notify b a) := by
  unfold World.notify
  split
  · exact (frame_sent _ _ _).trans (frame_retry _ _)
  · exact frame_sent _ _ _

abbrev At := Scanner.At World Place
abbrev Steps (x : Weather) (G : Grounds) : At → At → Prop := (scanner x G).Steps

lemma step_frame {a b : At} (h : (scanner x G).Step a b) : Frame a.w b.w := by
  cases h with
  | quiet h =>
    cases h with
    | sent => exact frame_sent _ _ _
    | track => exact ⟨rfl, rfl, rfl, rfl, rfl, rfl, rfl, rfl, rfl, rfl, List.prefix_refl _⟩
  | room => exact Frame.refl _
  | credit h =>
    cases h with
    | push => exact frame_push _ _
    | notify => exact (frame_push _ _).trans (frame_notify _ _ _)
  | skip => exact Frame.refl _
  | store h =>
    obtain ⟨-, -, -, rfl⟩ := h
    exact (frame_push _ _).trans (frame_flush _)

lemma Steps.frame {a b : At} (h : Steps x G a b) : Frame a.w b.w := by
  induction h with
  | refl => exact Frame.refl _
  | tail _ hs ih => exact ih.trans (step_frame hs)

lemma Heard.mono {t₀ : ℕ} {w w' : World} {r : Request} {a : Answer} (h : Heard x t₀ w r a)
    (hw : w.wire <+: w'.wire) : Heard x t₀ w' r a := by
  obtain ⟨t, ht, hr, hn⟩ := h
  obtain ⟨l, hl⟩ := hw
  refine ⟨t, ht, ?_, hn⟩
  rw [← hl, List.getElem?_append_left (List.getElem?_eq_some_iff.mp hr).1, hr]

lemma Told.mono {t₀ : ℕ} {w w' : World} {url auth : String} {post j : Json}
    (h : Told x t₀ w url auth post j) (hw : w.wire <+: w'.wire) :
    Told x t₀ w' url auth post j := by
  obtain ⟨a, ha, hr⟩ := h
  exact ⟨a, ha.mono hw, hr⟩

lemma Learnt.mono {α : Type} {t₀ : ℕ} {w w' : World} {url auth : String} {post : Json}
    {read : Json → Except Exn α} {a : α} (h : Learnt x t₀ w url auth post read a)
    (hw : w.wire <+: w'.wire) : Learnt x t₀ w' url auth post read a := by
  obtain ⟨j, h1, h2⟩ := h
  exact ⟨j, h1.mono hw, h2⟩

lemma Learnt.ever {α : Type} {t₀ : ℕ} {w : World} {url auth : String} {post : Json}
    {read : Json → Except Exn α} {a : α} (h : Learnt x t₀ w url auth post read a) :
    Learnt x 0 w url auth post read a := by
  obtain ⟨j, ⟨a, ⟨t, -, hw⟩, hr⟩, hread⟩ := h
  exact ⟨j, ⟨a, ⟨t, Nat.zero_le t, hw⟩, hr⟩, hread⟩

lemma heard_sent {t₀ : ℕ} {w : World} {r : Request} {a : Answer} (ht : t₀ ≤ w.wire.length)
    (h : x.net w.wire.length r a) : Heard x t₀ (w.sent r a) r a :=
  ⟨_, ht, by simp [World.sent], h⟩

lemma notify_wire (w : World) (b : Json) (a : Answer) :
    (w.notify b a).wire = (w.sent ⟨w.vars.callback_url_, "", b⟩ a).wire := by
  unfold World.notify; split <;> rfl

@[simp] lemma notify_db (w : World) (b : Json) (a : Answer) : (w.notify b a).db = w.db := by
  unfold World.notify; split <;> rfl

@[simp] lemma notify_buf (w : World) (b : Json) (a : Answer) :
    (w.notify b a).vars.vect_sql_ = w.vars.vect_sql_ := by
  unfold World.notify; split <;> rfl

@[simp] lemma notify_txids (w : World) (b : Json) (a : Answer) :
    (w.notify b a).vars.s_txid_address = w.vars.s_txid_address := by
  unfold World.notify; split <;> rfl

section

variable {P : World → Stmt → Prop} {N : World → Json → Prop} {t₀ : ℕ}

variable (P N t₀) in
/-- Every entry has what `P` asks for it, and so has every notice since the exchange number
`t₀`. -/
structure Backed (w : World) : Prop where
  since : t₀ ≤ w.wire.length
  rows : ∀ s ∈ otc.total w, P w s
  notices : ∀ e ∈ w.wire.drop t₀, isNotice e.1.data → N w e.1.data

variable (hP : ∀ w w' s, w.wire <+: w'.wire → P w s → P w' s)
  (hN : ∀ w w' j, w.wire <+: w'.wire → N w j → N w' j)

include hP hN

lemma Backed.step {w w' : World} (h : Backed P N t₀ w) (l : List Stmt)
    (es : List (Request × Answer)) (ht : otc.total w' ⊆ otc.total w ++ l) (hw : w'.wire = w.wire ++ es)
    (hl : ∀ s ∈ l, P w s) (hes : ∀ e ∈ es, isNotice e.1.data → N w e.1.data) :
    Backed P N t₀ w' := by
  have hpre : w.wire <+: w'.wire := ⟨es, hw.symm⟩
  refine ⟨h.since.trans hpre.length_le, fun s hs => hP _ _ _ hpre ?_, fun e he hn => ?_⟩
  · exact (List.mem_append.mp (ht hs)).elim (h.rows s) (hl s)
  · rw [hw, List.drop_append_of_le_length h.since, List.mem_append] at he
    exact hN _ _ _ hpre (he.elim (fun he => h.notices e he hn) fun he => hes e he hn)

variable (hblock : ∀ w r, P w (.block r))
  (hcredit : ∀ n s b w, G.credit n s b w → P w s ∧ ∀ j, b = some j → N w j)

include hblock hcredit

lemma step_backed {a b : At} (h : (scanner x G).Step a b) (ha : Backed P N t₀ a.w) :
    Backed P N t₀ b.w := by
  cases h with
  | @quiet w w' i p h =>
    cases h with
    | @sent r a _ hquiet =>
      refine ha.step hP hN [] [(r, a)] (by simp [Store.total, otc, World.sent]) rfl
        (by simp) ?_
      simp [hquiet]
    | track =>
      exact ha.step hP hN [] [] (by simp [Store.total, otc, World.track])
        (by simp [World.track]) (by simp) (by simp)
  | room => exact ha
  | skip => exact ha
  | @store w w' i p s h =>
    obtain ⟨-, -, ⟨hash, rfl⟩, rfl⟩ := h
    refine ha.step hP hN [.block ⟨G.coin_id, hash, i + 1⟩] [] ?_
      (by simp [World.flush, World.push]) (by simpa using hblock w _) (by simp)
    simp [Store.total, otc, World.flush, World.push, Db.commit]
  | @credit w w' i p q r s h hplace hpq hqr =>
    cases h with
    | push hc =>
      obtain ⟨hs, -⟩ := hcredit _ _ _ _ hc
      exact ha.step hP hN [s] [] (by simp [Store.total, otc, World.push])
        (by simp [World.push]) (by simpa using hs) (by simp)
    | @notify j a hc hnet =>
      obtain ⟨hs, hn⟩ := hcredit _ _ _ _ hc
      refine ha.step hP hN [s] [(⟨w.vars.callback_url_, "", j⟩, a)]
        (by simp [Store.total, otc, World.push]) (by rw [notify_wire]; rfl) (by simpa using hs) ?_
      simpa using fun _ => hn j rfl

/-- **What a scanner appends and sends rests on its grounds.** -/
theorem Steps.backed {a b : At} (h : Steps x G a b) (ha : Backed P N t₀ a.w) :
    Backed P N t₀ b.w := by
  induction h with
  | refl => exact ha
  | tail _ hs ih => exact step_backed hP hN hblock hcredit hs ih

end

/-- A run that does not return leaves the log and the wire of some moment of the pass. -/
def Fallen (x : Weather) (G : Grounds) (a : At) (w : World) : Prop :=
  ∃ b, Steps x G a b ∧ w.db = b.w.db ∧ w.wire = b.w.wire

lemma fallen_self (a : At) : Fallen x G a a.w := ⟨a, .refl, rfl, rfl⟩

lemma Fallen.of_steps {a b : At} {w : World} (h : Steps x G a b) (hf : Fallen x G b w) :
    Fallen x G a w := by
  obtain ⟨c, hc, hw⟩ := hf
  exact ⟨c, h.trans hc, hw⟩

section Rules

variable {w : World} {i t₀ : ℕ} {p : Place} {ε α : Type}

lemma wp_callRpc_raw {url auth : String} {post : Json} {Q : Reply → World → Prop}
    {D : World → Prop} (hD : D w) (h : ∀ a, x.net w.wire.length ⟨url, auth, post⟩ a →
      D (w.sent ⟨url, auth, post⟩ a) ∧
      ∀ r, reply a = .ok r → Q r (w.sent ⟨url, auth, post⟩ a)) :
    wp (env x) (callRpc url auth post) Q D w := by
  unfold callRpc
  rw [wp_bind, wp_curl]
  refine ⟨fun _ => hD, fun a ha => ?_⟩
  rw [liftM_eq, wp_lift]
  exact ⟨(h a ha).2, fun _ _ => (h a ha).1⟩

lemma told_sent {url auth : String} {post j : Json} {a : Answer} (ht : t₀ ≤ w.wire.length)
    (ha : x.net w.wire.length ⟨url, auth, post⟩ a) (hr : reply a = .ok (.ok j)) :
    Told x t₀ (w.sent ⟨url, auth, post⟩ a) url auth post j :=
  ⟨a, heard_sent ht ha, hr⟩

lemma refused_sent {url auth : String} {post : Json} {a : Answer} {r : Reply}
    (ht : t₀ ≤ w.wire.length) (ha : x.net w.wire.length ⟨url, auth, post⟩ a)
    (hr : reply a = .ok r) (hj : ∀ j, r ≠ .ok j) :
    Refused x t₀ (w.sent ⟨url, auth, post⟩ a) url auth post := by
  refine ⟨a, heard_sent ht ha, fun j hj' => ?_⟩
  rw [hj'] at hr
  cases hr
  exact hj j rfl

lemma wp_callRpc {url auth : String} {post : Json} (hpost : isNotice post = false)
    (ht : t₀ ≤ w.wire.length) :
    wp (env x) (callRpc url auth post) (fun r w₁ => Steps x G ⟨w, i, p⟩ ⟨w₁, i, p⟩ ∧
        (∀ j, r = .ok j → Told x t₀ w₁ url auth post j) ∧
        ((∀ j, r ≠ .ok j) → Refused x t₀ w₁ url auth post))
      (Fallen x G ⟨w, i, p⟩) w := by
  refine wp_callRpc_raw (fallen_self _) fun a ha => ?_
  have hstep : Steps x G ⟨w, i, p⟩ ⟨w.sent ⟨url, auth, post⟩ a, i, p⟩ :=
    .single (.quiet (Quiet.sent ha hpost))
  exact ⟨⟨_, hstep, rfl, rfl⟩, fun r hr =>
    ⟨hstep, fun j hj => told_sent ht ha (hj ▸ hr), fun hj => refused_sent ht ha hr hj⟩⟩

lemma wp_push_back {s : Stmt} {Q : Unit → World → Prop} {D : World → Prop} (hD : D w)
    (hQ : Q () (w.push s)) : wp (env x) (push_back s) Q D w := by
  rw [push_back, wp_modify]
  exact ⟨fun _ => hD, hQ⟩

/-- The rule for a notice, with what it throws on apart from what it can die at. -/
lemma wp_callbackTransaction_of {b : Json} {Q : Unit → World → Prop} {D : World → Prop}
    (hD : x.crashes → D w) (h : ∀ a, x.net w.wire.length ⟨w.vars.callback_url_, "", b⟩ a →
      (x.crashes → D (w.sent ⟨w.vars.callback_url_, "", b⟩ a)) ∧
      (∀ e, code a = .error e → D (w.sent ⟨w.vars.callback_url_, "", b⟩ a)) ∧
      ∀ c, code a = .ok c → Q () (w.notify b a)) :
    wp (env x) (callbackTransaction b) Q D w := by
  simp only [callbackTransaction, wp_bind, wp_get, wp_curl, liftM_eq, wp_lift]
  refine ⟨hD, hD, fun a ha => ⟨fun c hc => ?_, (h a ha).2.1⟩⟩
  have hQ := (h a ha).2.2 c hc
  rw [World.notify] at hQ
  split
  · next h1 =>
    rw [if_pos (h1 ▸ hc)] at hQ
    rw [wp_modify]
    exact ⟨(h a ha).1, hQ⟩
  · next h1 =>
    rw [if_neg (by simpa [hc] using h1)] at hQ
    exact hQ

lemma wp_callbackTransaction {b : Json} {Q : Unit → World → Prop} {D : World → Prop}
    (hD : D w) (h : ∀ a, x.net w.wire.length ⟨w.vars.callback_url_, "", b⟩ a →
      D (w.sent ⟨w.vars.callback_url_, "", b⟩ a) ∧
      ∀ c, code a = .ok c → Q () (w.notify b a)) :
    wp (env x) (callbackTransaction b) Q D w :=
  wp_callbackTransaction_of (fun _ => hD) fun a ha =>
    ⟨fun _ => (h a ha).1, fun _ _ => (h a ha).1, (h a ha).2⟩

lemma wp_refreshDB {Q : Unit → World → Prop} {D : World → Prop} (hD : D w)
    (hD' : D { w with db := w.db.commit w.vars.vect_sql_ }) (hQ : Q () w.flush) :
    wp (env x) refreshDB Q D w := by
  simp only [refreshDB, wp_bind, wp_get]
  refine ⟨fun _ => hD, ?_⟩
  split
  · simp only [wp_bind, wp_op, wp_modify]
    refine ⟨fun w₁ h => h.2 ▸ hD, ?_⟩
    rintro _ w₁ rfl
    exact ⟨fun _ => hD', hQ⟩
  · next h =>
    obtain ⟨vars, db, wire⟩ := w
    have hnil : vars.vect_sql_ = [] := List.eq_nil_of_length_eq_zero (by simpa using h)
    have hw : World.flush ⟨vars, db, wire⟩ = ⟨vars, db, wire⟩ := by
      cases vars
      simp_all [World.flush, Db.commit]
    rwa [hw] at hQ

lemma wp_notify {s : Stmt} {b : Json} {q r : Place} (hc : G.credit (i + 1) s (some b) w)
    (hs : s.place = some (G.coin_id, i + 1, q)) (hp : p ≤ q) (hr : q < r) :
    wp (env x) (callbackTransaction b)
      (fun _ w₁ => Steps x G ⟨w, i, p⟩ ⟨w₁, i, r⟩ ∧ s ∈ otc.total w₁)
      (Fallen x G ⟨w, i, p⟩) (w.push s) := by
  refine wp_callbackTransaction ⟨_, .refl, rfl, rfl⟩ fun a ha => ?_
  have hstep : Steps x G ⟨w, i, p⟩ ⟨(w.push s).notify b a, i, r⟩ :=
    .single (.credit (Credit.notify hc ha) hs hp hr)
  exact ⟨⟨_, hstep, by simp [World.sent], by rw [notify_wire]⟩,
    fun _ _ => ⟨hstep, by simp [Store.total, otc, World.push]⟩⟩

lemma wp_credit {s : Stmt} {b : Json} {q r : Place} (hc : G.credit (i + 1) s (some b) w)
    (hs : s.place = some (G.coin_id, i + 1, q)) (hp : p ≤ q) (hr : q < r) :
    wp (env x) (push_back s >>= fun _ => callbackTransaction b)
      (fun _ w₁ => Steps x G ⟨w, i, p⟩ ⟨w₁, i, r⟩ ∧ s ∈ otc.total w₁)
      (Fallen x G ⟨w, i, p⟩) w := by
  rw [wp_bind]
  exact wp_push_back (fallen_self _) (wp_notify hc hs hp hr)

/-- The checkpoint at a height, once its row is appended. -/
lemma wp_checkpoint {hash : String} (hd : G.done (i + 1) w) (hm : G.marks (i + 1)) :
    wp (env x) refreshDB (fun _ w₁ => Steps x G ⟨w, i, p⟩ ⟨w₁, i + 1, ⊥⟩)
      (Fallen x G ⟨w, i, p⟩) (w.push (.block ⟨G.coin_id, hash, i + 1⟩)) := by
  have hstep : Steps x G ⟨w, i, p⟩
      ⟨(w.push (.block ⟨G.coin_id, hash, i + 1⟩)).flush, i + 1, ⊥⟩ :=
    .single (.store ⟨hd, hm, ⟨hash, rfl⟩, rfl⟩)
  exact wp_refreshDB ⟨_, .refl, rfl, rfl⟩ ⟨_, hstep, rfl, rfl⟩ hstep

lemma wp_leave {hash : String} {r : α} {c : Prop} [Decidable c] (hd : G.done (i + 1) w)
    (hc : G.marks (i + 1) ↔ c) :
    wp (env x) (if c then
        push_back (.block ⟨G.coin_id, hash, i + 1⟩) >>= fun _ =>
          refreshDB >>= fun _ => (pure r : Scan α)
      else pure r)
      (fun r' w₁ => r' = r ∧ Steps x G ⟨w, i, p⟩ ⟨w₁, i + 1, ⊥⟩) (Fallen x G ⟨w, i, p⟩) w := by
  split
  · next h =>
    rw [wp_bind]
    refine wp_push_back (fallen_self _) ?_
    rw [wp_bind]
    exact wp_mono (wp_checkpoint hd (hc.mpr h)) (fun _ w₁ hs => ⟨rfl, hs⟩) fun _ hf => hf
  · next h => exact ⟨rfl, .single (.skip (Or.inl ⟨hd, fun hm => h (hc.mp hm)⟩))⟩

end Rules

/-- The coin and the height `getCurrentHeight` reads. -/
def Current (d : Db) (coin : String) (coin_id : ℤ) (pre_height : ℕ) : Prop :=
  coinId d.cat coin = some (some coin_id) ∧ d.maxHeight coin_id = some pre_height ∧
    pre_height < 2 ^ 31

lemma Current.unique {d : Db} {coin : String} {c c' : ℤ} {m m' : ℕ} (h : Current d coin c m)
    (h' : Current d coin c' m') : c = c' ∧ m = m' := by
  obtain ⟨h1, h2, -⟩ := h
  obtain ⟨h1', h2', -⟩ := h'
  rw [h1] at h1'
  cases h1'
  rw [h2] at h2'
  cases h2'
  exact ⟨rfl, rfl⟩

lemma eval_height {d : Db} {coin : String} {rows : List (List Cell)}
    (h : (Query.height coin).eval d = some rows) :
    (rows = [] ∧ ∀ c m, ¬ Current d coin c m) ∨ ∃ c m, coinId d.cat coin = some (some c) ∧
      d.maxHeight c = some m ∧ rows = [[.int c, .int m]] := by
  simp only [Query.eval, Option.map_eq_some_iff] at h
  obtain ⟨c, hc, h⟩ := h
  cases c with
  | none =>
    refine Or.inl ⟨h.symm, fun c m ⟨h1, _, _⟩ => ?_⟩
    rw [hc] at h1
    cases h1
  | some c =>
    simp only at h
    split at h
    · next hm =>
      refine Or.inl ⟨h.symm, fun c' m ⟨h1, h2, _⟩ => ?_⟩
      rw [hc] at h1
      cases h1
      rw [hm] at h2
      cases h2
    · next m hm => exact Or.inr ⟨c, m, hc, hm, h.symm⟩

lemma wp_getData {q : Query} {w : World} {Q : Option (List (List Cell)) → World → Prop}
    {D : World → Prop} (hD : D w) (hnone : x.sqlFails ∨ q.eval w.db = none → Q none w)
    (h : ∀ rows rows', q.eval w.db = some rows → rows.Perm rows' → Q (some rows') w) :
    wp (env x) (Prog.op (Op.getData q) : Scan _) Q D w := by
  rw [wp_op]
  refine ⟨fun w₁ hw => hw.2 ▸ hD, fun r w₁ hr => ?_⟩
  obtain ⟨rfl, hr⟩ := hr
  rcases hr with ⟨hf, rfl⟩ | rfl | ⟨rows, rows', he, hp, rfl⟩
  · exact hnone (Or.inl hf)
  · cases he : q.eval w₁.db with
    | none => exact hnone (Or.inr he)
    | some rows => exact h rows rows he (List.Perm.refl _)
  · exact h rows rows' he hp

lemma rowData_ints (c m : ℤ) :
    (∃ e, rowData [.INT, .INT] [.int c, .int m] = .error e) ∨
      rowData [.INT, .INT] [.int c, .int m] = .ok (.arr [.int c, .int m]) ∧
        (-2 ^ 31 ≤ c ∧ c < 2 ^ 31) ∧ m < 2 ^ 31 := by
  simp only [rowData, List.zip_cons_cons, List.zip_nil_right, List.mapM_cons, List.mapM_nil,
    Cell.convert]
  by_cases hc : -2 ^ 31 ≤ c ∧ c < 2 ^ 31
  · by_cases hm : -2 ^ 31 ≤ m ∧ m < 2 ^ 31
    · rw [if_pos hc, if_pos hm]
      exact Or.inr ⟨rfl, hc, hm.2⟩
    · rw [if_pos hc, if_neg hm]
      exact Or.inl ⟨_, rfl⟩
  · rw [if_neg hc]
    exact Or.inl ⟨_, rfl⟩

lemma wp_getCurrentHeight {coin : String} {w : World} {Q : Option (ℤ × ℕ) → World → Prop}
    {D : World → Prop} (hD : D w)
    (hnone : (x.sqlFails ∨ ∀ c m, ¬ Current w.db coin c m) → Q none w)
    (hsome : ∀ c m, Current w.db coin c m → Q (some (c, m)) w) :
    wp (env x) (getCurrentHeight coin) Q D w := by
  simp only [getCurrentHeight, getData, wp_bind]
  refine wp_getData hD (fun h => ?_) fun rows rows' he hp => ?_
  · have hn := hnone (h.imp_right fun h c m hcur => by simp [Query.eval, hcur.1] at h)
    simpa [Json.size] using hn
  rcases eval_height he with ⟨rfl, hn⟩ | ⟨c, m, hc, hm, rfl⟩
  · rw [List.nil_perm.mp hp]
    simpa [Json.size] using hnone (Or.inr hn)
  · obtain rfl := List.singleton_perm.mp hp
    rcases rowData_ints c m with ⟨e, hrow⟩ | ⟨hrow, hcr, hmr⟩
    · simpa [List.mapM_cons, hrow] using hD
    · have hc31 : (Json.int c).getInt = .ok c := by
        rw [Json.getInt, Int.bmod_eq_of_le (by omega) (by omega)]
      have hm64 : (Json.int m).getUInt64 = .ok m := Json.getUInt64_natCast (by omega)
      have hm31 : m < 2 ^ 31 := by exact_mod_cast hmr
      simpa [List.mapM_cons, hrow, Json.size, Json.idx, hc31, hm64] using
        hsome c m ⟨hc, hm, hm31⟩

/-- Some call of the scan has failed. -/
def Stopped (x : Weather) (t₀ : ℕ) (w : World) : Prop :=
  ∃ url auth post, Refused x t₀ w url auth post

/-- A scan that returned: it has left every block up to the tip, or a call has failed. -/
def Ended (x : Weather) (G : Grounds) (w : World) (pre_height height : ℕ) (w' : World) : Prop :=
  ∃ i p, Steps x G ⟨w, pre_height, ⊥⟩ ⟨w', i, p⟩ ∧
    (i = max pre_height height ∧ p = ⊥ ∨ Stopped x w.wire.length w')

lemma range'_split {s n i : ℕ} {l l' : List ℕ} (h : List.range' s n = l ++ i :: l') :
    i = s + l.length ∧ l.length < n := by
  have hlen : l.length < n := by
    have := congrArg List.length h
    simp at this
    omega
  have hget := congrArg (·[l.length]?) h
  simp [hlen] at hget
  exact ⟨hget.symm, hlen⟩

lemma wp_blocks {β : Type} {body : ℕ → β → Scan (Flow × β)} {J : ℕ → β → Prop}
    {w₀ w : World} {pre_height height : ℕ} {b : β} (hJ : J pre_height b)
    (h0 : Steps x G ⟨w₀, pre_height, ⊥⟩ ⟨w, pre_height, ⊥⟩)
    (hbody : ∀ i b w₁, i < height → J i b → Steps x G ⟨w₀, pre_height, ⊥⟩ ⟨w₁, i, ⊥⟩ →
      w.wire <+: w₁.wire →
      wp (env x) (body (i + 1) b) (fun r w₂ => match r.1 with
        | .next => Steps x G ⟨w₁, i, ⊥⟩ ⟨w₂, i + 1, ⊥⟩ ∧ J (i + 1) r.2
        | .brk => (∃ p, Steps x G ⟨w₁, i, ⊥⟩ ⟨w₂, i, p⟩) ∧ Stopped x w₀.wire.length w₂)
        (Fallen x G ⟨w₁, i, ⊥⟩) w₁) :
    wp (env x) (loop body (List.range' (pre_height + 1) (height - pre_height)) b)
      (fun _ w₁ => Ended x G w₀ pre_height height w₁ ∧ w.wire <+: w₁.wire)
      (Fallen x G ⟨w₀, pre_height, ⊥⟩) w := by
  refine wp_mono (wp_loop (I := fun l b w₁ => Steps x G ⟨w₀, pre_height, ⊥⟩
      ⟨w₁, pre_height + l.length, ⊥⟩ ∧ J (pre_height + l.length) b ∧ w.wire <+: w₁.wire)
    (B := fun _ _ w₁ => (∃ i p, Steps x G ⟨w₀, pre_height, ⊥⟩ ⟨w₁, i, p⟩) ∧
      Stopped x w₀.wire.length w₁ ∧ w.wire <+: w₁.wire) _ ⟨h0, hJ, List.prefix_refl _⟩ ?_) ?_
    fun _ h => h
  · intro l i l' b w₁ hl ⟨hs, hj, hw⟩
    obtain ⟨rfl, hlt⟩ := range'_split hl
    have hi : pre_height + 1 + l.length = pre_height + l.length + 1 := by omega
    rw [hi]
    refine wp_mono (hbody _ b w₁ (by omega) hj hs hw) ?_ fun w₂ hf => hf.of_steps hs
    rintro ⟨fl, b'⟩ w₂ hr
    cases fl with
    | next =>
      simp only [List.length_append, List.length_singleton, ← Nat.add_assoc]
      exact ⟨hs.trans hr.1, hr.2, hw.trans hr.1.frame.wire⟩
    | brk =>
      obtain ⟨⟨p, hp⟩, hstop⟩ := hr
      exact ⟨⟨_, _, hs.trans hp⟩, hstop, hw.trans hp.frame.wire⟩
  · rintro ⟨fl, b'⟩ w₁ hr
    cases fl with
    | next =>
      refine ⟨⟨_, _, hr.1, Or.inl ⟨?_, rfl⟩⟩, hr.2.2⟩
      simp only [List.length_range']
      omega
    | brk =>
      obtain ⟨-, -, -, ⟨i, p, hs⟩, hstop, hw⟩ := hr
      exact ⟨⟨i, p, hs, Or.inr hstop⟩, hw⟩

/-- The loop over the transactions of a block, each of which is dealt with or, where a call for
it fails, lost. -/
lemma wp_txs {β : Type} {f : Json × ℕ → β → Scan (Flow × β)} {T L : World → Json → Prop}
    {w : World} {i : ℕ} (txs : List Json) (b : β)
    (hmono : ∀ w w' t, w.wire <+: w'.wire → otc.total w ⊆ otc.total w' → T w t → T w' t)
    (htx : ∀ l t l' b w₁, txs = l ++ t :: l' →
      Steps x G ⟨w, i, ⊥⟩ ⟨w₁, i, place l.length 0 0 0⟩ → (∀ t' ∈ l, T w₁ t') →
      wp (env x) (f (t, l.length) b) (fun r w₂ => match r.1 with
        | .next => Steps x G ⟨w₁, i, place l.length 0 0 0⟩
            ⟨w₂, i, place (l.length + 1) 0 0 0⟩ ∧ T w₂ t
        | .brk => (∃ p, Steps x G ⟨w₁, i, place l.length 0 0 0⟩ ⟨w₂, i, p⟩) ∧ L w₂ t)
        (Fallen x G ⟨w₁, i, place l.length 0 0 0⟩) w₁) :
    wp (env x) (loop f txs.zipIdx b) (fun r w₂ =>
        (∃ p, Steps x G ⟨w, i, ⊥⟩ ⟨w₂, i, p⟩) ∧ match r.1 with
          | .next => ∀ t ∈ txs, T w₂ t
          | .brk => ∃ t ∈ txs, L w₂ t)
      (Fallen x G ⟨w, i, ⊥⟩) w := by
  refine wp_mono (wp_loop_zipIdx (I := fun l _ w₂ =>
      Steps x G ⟨w, i, ⊥⟩ ⟨w₂, i, place l.length 0 0 0⟩ ∧ ∀ t ∈ l, T w₂ t)
    (B := fun l _ w₂ => (∃ p, Steps x G ⟨w, i, ⊥⟩ ⟨w₂, i, p⟩) ∧ ∃ t ∈ l, L w₂ t)
    txs ⟨.refl, by simp⟩ ?_) ?_ fun _ h => h
  · rintro l t l' b w₁ hl ⟨hs, hT⟩
    refine wp_mono (htx l t l' b w₁ hl hs hT) ?_ fun _ hf => hf.of_steps hs
    rintro ⟨fl, b'⟩ w₂ h
    cases fl with
    | next =>
      refine ⟨by simpa using hs.trans h.1, fun t' ht' => ?_⟩
      rcases List.mem_append.mp ht' with ht' | ht'
      · exact hmono _ _ _ h.1.frame.wire h.1.total_subset (hT t' ht')
      · exact List.mem_singleton.mp ht' ▸ h.2
    | brk =>
      obtain ⟨⟨p, hp⟩, hL⟩ := h
      exact ⟨⟨p, hs.trans hp⟩, t, by simp, hL⟩
  · rintro ⟨fl, b'⟩ w₂ h
    cases fl with
    | next => exact ⟨⟨_, h.1⟩, h.2⟩
    | brk =>
      obtain ⟨l, l', hl, hs, t, ht, hL⟩ := h
      exact ⟨hs, t, by simp [hl, ht], hL⟩

/-- A scan that gets as far as asking for the tip. -/
structure Begun (w : World) (coin : String) (coin_id : ℤ) (pre_height : ℕ) (node : NodeInfo) :
    Prop where
  current : Current w.db coin coin_id pre_height
  node : w.vars.map_coinid_node_.lookup coin_id = some node

/-- What is left of a call that returned: it did not begin, or it made a pass. -/
def Returned (x : Weather) (coin : String) (start : ℕ → ℕ) (G : NodeInfo → ℤ → ℕ → Grounds)
    (tip : NodeInfo → ℕ → World → Prop) (w w' : World) : Prop :=
  w' = w ∧ (x.sqlFails ∨ ∀ c m n, ¬ Begun w coin c m n) ∨
  ∃ coin_id pre_height node height, Begun w coin coin_id pre_height node ∧
    Ended x (G node coin_id height) w (start pre_height) height w' ∧
    (tip node height w' ∨ Stopped x w.wire.length w')

/-- What is left of a call that did not return. -/
def Broken (x : Weather) (coin : String) (start : ℕ → ℕ) (G : NodeInfo → ℤ → ℕ → Grounds)
    (w w' : World) : Prop :=
  w'.db = w.db ∧ w'.wire = w.wire ∨
  ∃ coin_id pre_height node height, Begun w coin coin_id pre_height node ∧
    Fallen x (G node coin_id height) ⟨w, start pre_height, ⊥⟩ w'

/-- A call that returned has also come to some moment of a pass. -/
lemma Returned.broken {coin : String} {start : ℕ → ℕ} {G : NodeInfo → ℤ → ℕ → Grounds}
    {tip : NodeInfo → ℕ → World → Prop} {w w' : World} (h : Returned x coin start G tip w w') :
    Broken x coin start G w w' := by
  rcases h with ⟨rfl, -⟩ | ⟨coin_id, pre_height, node, height, hb, ⟨i, p, hs, -⟩, -⟩
  · exact Or.inl ⟨rfl, rfl⟩
  · exact Or.inr ⟨coin_id, pre_height, node, height, hb, ⟨w', i, p⟩, hs, rfl, rfl⟩

/-- The way into a scan is the same for every coin: the stored height, the node, its tip. -/
lemma wp_begin {coin : String} {start : ℕ → ℕ} {G : NodeInfo → ℤ → ℕ → Grounds}
    {tip : NodeInfo → ℕ → World → Prop} {url auth : NodeInfo → String} {post : Json} {w : World}
    {scan : ℤ → ℕ → NodeInfo → Json → Scan Unit} (hpost : isNotice post = false)
    (hscan : ∀ coin_id pre_height node j a, Begun w coin coin_id pre_height node →
      (∀ height, Steps x (G node coin_id height) ⟨w, start pre_height, ⊥⟩
        ⟨w.sent ⟨url node, auth node, post⟩ a, start pre_height, ⊥⟩) →
      Told x w.wire.length (w.sent ⟨url node, auth node, post⟩ a) (url node) (auth node) post j →
      wp (env x) (scan coin_id pre_height node j)
        (fun _ w₁ => ∃ height, Ended x (G node coin_id height) w (start pre_height) height w₁ ∧
          tip node height w₁)
        (fun w₁ => ∃ height, Fallen x (G node coin_id height) ⟨w, start pre_height, ⊥⟩ w₁)
        (w.sent ⟨url node, auth node, post⟩ a)) :
    wp (env x) (do
      match ← getCurrentHeight coin with
      | none => pure ()
      | some (coin_id, pre_height) =>
        let v ← get
        match v.map_coinid_node_.lookup coin_id with
        | none => pure ()
        | some node =>
          match ← callRpc (url node) (auth node) post with
          | .ok json_response => scan coin_id pre_height node json_response
          | _ => pure ())
      (fun _ => Returned x coin start G tip w) (Broken x coin start G w) w := by
  rw [wp_bind]
  refine wp_getCurrentHeight (Or.inl ⟨rfl, rfl⟩)
    (fun h => Or.inl ⟨rfl, h.imp_right fun h c m n hb => h c m hb.current⟩)
    fun coin_id pre_height hcur => ?_
  simp only [wp_bind, wp_get]
  refine ⟨fun _ => Or.inl ⟨rfl, rfl⟩, ?_⟩
  split
  · next hnode =>
    refine Or.inl ⟨rfl, Or.inr fun c m n hb => ?_⟩
    obtain ⟨rfl, -⟩ := hb.current.unique hcur
    rw [hb.node] at hnode
    cases hnode
  · next node hnode =>
    have hbegun : Begun w coin coin_id pre_height node := ⟨hcur, hnode⟩
    rw [wp_bind]
    refine wp_callRpc_raw (Or.inl ⟨rfl, rfl⟩) fun a ha => ?_
    have hs : ∀ height, Steps x (G node coin_id height) ⟨w, start pre_height, ⊥⟩
        ⟨w.sent ⟨url node, auth node, post⟩ a, start pre_height, ⊥⟩ :=
      fun height => .single (.quiet (Quiet.sent ha hpost))
    refine ⟨Or.inr ⟨coin_id, pre_height, node, 0, hbegun, _, hs 0, rfl, rfl⟩, fun r hr => ?_⟩
    rcases r with j | _ | j
    · refine wp_mono (hscan coin_id pre_height node j a hbegun hs (told_sent le_rfl ha hr))
        (fun _ w₁ hpost => ?_) fun w₁ hpost => ?_
      · obtain ⟨height, he, ht⟩ := hpost
        exact Or.inr ⟨_, _, _, height, hbegun, he, Or.inl ht⟩
      · obtain ⟨height, hf⟩ := hpost
        exact Or.inr ⟨_, _, _, height, hbegun, hf⟩
    all_goals
      have hstop : Stopped x w.wire.length (w.sent ⟨url node, auth node, post⟩ a) :=
        ⟨_, _, _, refused_sent le_rfl ha hr (by simp)⟩
      exact Or.inr ⟨coin_id, pre_height, node, 0, hbegun, ⟨_, _, hs 0, Or.inr hstop⟩,
        Or.inr hstop⟩

end Monitor

end OpenWallet
