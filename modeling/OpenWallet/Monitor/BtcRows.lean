import OpenWallet.Lib.Decimal
import OpenWallet.Monitor.BtcSpend

/-!
What `scanBTC` writes for a block of a chain, to the entry: the rows it appends, the notices it
sends and the transactions it remembers, in their order. Read off that, the rows do not describe
the outputs they stand for, neither by number nor by amount.
-/

namespace OpenWallet.Monitor.Btc

open Lib Prog

abbrev Written := Txutxo × Json

abbrev Remembered (w : World) (txid : String) : Prop := (w.vars.s_txid_address.lookup txid).isSome

def notices (w : World) : List Json := (w.wire.map fun e => e.1.data).filter isNotice

/-- The entries are all that is written, and the transactions of those with flag 0 all that is
remembered. -/
structure Writes (w w' : World) (es : List Written) : Prop where
  db : w'.db = w.db
  buf : w'.vars.vect_sql_ = w.vars.vect_sql_ ++ es.map fun e => .txutxo e.1
  notices : notices w' = notices w ++ es.map Prod.snd
  memory : ∀ t, Remembered w' t ↔ Remembered w t ∨ ∃ e ∈ es, e.1.txid = t ∧ e.1.flag = some 0
  watch : w'.vars.s_address_id_btc = w.vars.s_address_id_btc

lemma Writes.refl (w : World) : Writes w w [] := ⟨rfl, by simp, by simp, by simp, rfl⟩

lemma Writes.trans {w w₁ w₂ : World} {es es' : List Written} (h : Writes w w₁ es)
    (h' : Writes w₁ w₂ es') : Writes w w₂ (es ++ es') where
  db := h'.db.trans h.db
  buf := by rw [h'.buf, h.buf, List.map_append, List.append_assoc]
  notices := by rw [h'.notices, h.notices, List.map_append, List.append_assoc]
  memory t := by
    rw [h'.memory, h.memory]
    simp only [List.mem_append, or_and_right, exists_or, or_assoc]
  watch := h'.watch.trans h.watch

lemma writes_sent {w : World} {r : Request} {a : Answer} (h : isNotice r.data = false) :
    Writes w (w.sent r a) [] :=
  ⟨rfl, by simp [World.sent], by simp [notices, World.sent, h], by simp [World.sent], rfl⟩

lemma notices_notify (w : World) (b : Json) (a : Answer) (h : isNotice b = true) :
    notices (w.notify b a) = notices w ++ [b] := by
  simp [notices, notify_wire, World.sent, h]

lemma writes_notify {w : World} {r : Txutxo} {b : Json} {a : Answer} (hb : isNotice b = true)
    (hflag : r.flag = some 0 → Remembered w r.txid) :
    Writes w ((w.push (.txutxo r)).notify b a) [(r, b)] := by
  refine ⟨by simp [World.push], by simp [World.push], ?_, fun t => ?_, ?_⟩
  · rw [notices_notify _ _ _ hb]
    rfl
  · simp only [Remembered, notify_txids, World.push, List.mem_singleton, exists_eq_left]
    constructor
    · exact Or.inl
    · rintro (h | ⟨rfl, h⟩)
      · exact h
      · exact hflag h
  · rw [(frame_notify _ _ _).btc]
    rfl

section

variable (c : Chain) (S : List (String × ℤ)) (coin_id : ℤ) (i : ℕ)

def addressEntries (src : Src) (txid : String) (vin : Bool) (number : ℤ)
    (value address : String) : List Written :=
  if watched S address ∨ vin = true then [(row S src txid vin number value address,
    callback "address" value "BTC" number address txid false)]
  else []

/-- What is written for the output `k` of the transaction `j` of block `i`. -/
def outEntries (j : ℕ) (txid : String) (vin : Bool) (o : Vout) (k : ℕ) : List Written :=
  (o.addresses.getD []).zipIdx.flatMap fun e => addressEntries S ⟨coin_id, i, j, k, e.2⟩ txid vin k
    (Text.to_string (10000000 * o.value)) e.1

def Chain.txEntries (j : ℕ) (txid : String) (vin : Bool) : List Written :=
  (c.tx txid).vout.zipIdx.flatMap fun e => outEntries S coin_id i j txid vin e.1 e.2

/-- What is written for transactions, with a verdict on each. -/
def Chain.blockEntries (txs : List (String × Bool)) : List Written :=
  txs.zipIdx.flatMap fun e => c.txEntries S coin_id i e.2 e.1.1 e.1.2

variable {c S coin_id i}

lemma mem_txEntries {j : ℕ} {txid : String} {vin : Bool} {e : Written} :
    e ∈ c.txEntries S coin_id i j txid vin ↔ ∃ (k : ℕ) (o : Vout) (slot : ℕ) (address : String),
      (c.tx txid).vout[k]? = some o ∧ (o.addresses.getD [])[slot]? = some address ∧
      (watched S address ∨ vin = true) ∧
      e = (row S ⟨coin_id, i, j, k, slot⟩ txid vin k (Text.to_string (10000000 * o.value)) address,
        callback "address" (Text.to_string (10000000 * o.value)) "BTC" k address txid false) := by
  simp only [Chain.txEntries, outEntries, addressEntries, List.mem_flatMap, Prod.exists,
    List.mem_zipIdx_iff_getElem?, List.mem_ite_nil_right, List.mem_singleton]
  constructor
  · rintro ⟨o, k, ho, address, slot, ha, h⟩
    exact ⟨k, o, slot, address, ho, ha, h⟩
  · rintro ⟨k, o, slot, address, ho, ha, h⟩
    exact ⟨o, k, ho, address, slot, ha, h⟩

lemma mem_blockEntries {txs : List (String × Bool)} {e : Written} :
    e ∈ c.blockEntries S coin_id i txs ↔ ∃ (j : ℕ) (txid : String) (vin : Bool),
      txs[j]? = some (txid, vin) ∧ e ∈ c.txEntries S coin_id i j txid vin := by
  simp only [Chain.blockEntries, List.mem_flatMap, Prod.exists, List.mem_zipIdx_iff_getElem?]
  constructor
  · rintro ⟨txid, vin, j, h⟩
    exact ⟨j, txid, vin, h⟩
  · rintro ⟨j, txid, vin, h⟩
    exact ⟨txid, vin, j, h⟩

variable {x : Weather} {w : World} {node : NodeInfo}

lemma wp_scanAddress_writes (src : Src) {txid : String} {vin : Bool} {number : ℤ}
    {value address : String} (hS : w.vars.s_address_id_btc = S) :
    wp (env x) (scanAddress src txid vin number value (.str address) src.slot)
      (fun _ w' => Writes w w' (addressEntries S src txid vin number value address))
      (fun _ => True) w := by
  -- the row goes out after the transaction is remembered, or without that
  have hrow : ∀ (w₁ : World) (r : Txutxo),
      (∀ b a, isNotice b = true → Writes w ((w₁.push (.txutxo r)).notify b a) [(r, b)]) →
      wp (env x) (do
        push_back (.txutxo r)
        callbackTransaction (callback "address" value "BTC" number address txid false))
      (fun _ w' => Writes w w' [(r, callback "address" value "BTC" number address txid false)])
      (fun _ => True) w₁ := by
    intro w₁ r hw
    rw [wp_bind]
    refine wp_push_back trivial (wp_callbackTransaction trivial fun a _ => ⟨trivial, fun _ _ => ?_⟩)
    exact hw _ a rfl
  simp only [scanAddress, wp_bind, liftM_eq, wp_lift, Json.getStr_str, Except.ok.injEq,
    forall_eq', wp_get, hS, reduceCtorEq, implies_true, and_true, addressEntries]
  by_cases hwatch : watched S address
  · rw [if_pos hwatch, if_pos (Or.inl hwatch)]
    have hr : row S src txid vin number value address =
        ⟨txid, src.slot, address, value, some (if vin then 2 else 0), src⟩ := if_pos hwatch
    rw [hr]
    cases vin with
    | true =>
      have hflag : ¬ (some 2 : Option ℕ) = some 0 := by decide
      exact ⟨trivial, hrow w _ fun b a hb => writes_notify hb fun h => absurd h hflag⟩
    | false =>
      simp only [Bool.not_false, if_true, wp_bind, wp_modify, implies_true, true_and,
        Bool.false_eq_true, if_false]
      refine hrow (w.track txid address) _ fun b a hb => ?_
      have hput := writes_notify (w := w.track txid address) (a := a) hb
        (r := ⟨txid, src.slot, address, value, some 0, src⟩) fun _ => by
          simp [Remembered, World.track]
      refine ⟨hput.db, hput.buf, hput.notices, fun t => ?_, hput.watch⟩
      rw [hput.memory]
      simp only [Remembered, World.track, List.lookup_cons, List.mem_singleton,
        exists_eq_left, and_true]
      by_cases ht : t = txid
      · simp [ht]
      · simp [show (t == txid) = false by simpa using ht, Ne.symm ht]
  · rw [if_neg hwatch]
    cases vin with
    | false =>
      simp only [hwatch, Bool.false_eq_true, or_self, if_false, true_and]
      exact Writes.refl w
    | true =>
      rw [if_pos (Or.inr rfl), if_pos rfl]
      have hr : row S src txid true number value address =
          ⟨txid, number, address, value, some 1, src⟩ := if_neg hwatch
      rw [hr]
      have hflag : ¬ (some 1 : Option ℕ) = some 0 := by decide
      exact ⟨trivial, hrow w _ fun b a hb => writes_notify hb fun h => absurd h hflag⟩

lemma wp_forEach_writes {α : Type} {body : Json × ℕ → Scan Unit} {js : List Json} {xs : List α}
    {R : α → ℕ → Json → Prop} (f : α × ℕ → List Written)
    (hR : List.Forall₂ (fun a j => R a.1 a.2 j) xs.zipIdx js)
    (hbody : ∀ a k j w₁, xs[k]? = some a → R a k j →
      w₁.vars.s_address_id_btc = w.vars.s_address_id_btc →
      wp (env x) (body (j, k)) (fun _ w₂ => Writes w₁ w₂ (f (a, k))) (fun _ => True) w₁) :
    wp (env x) (forEach body js.zipIdx) (fun _ w' => Writes w w' (xs.zipIdx.flatMap f))
      (fun _ => True) w := by
  have hlen : xs.zipIdx.length = js.length := hR.length_eq
  refine wp_mono (wp_forEach_zipIdx (I := fun pre w₁ =>
    Writes w w₁ ((xs.zipIdx.take pre.length).flatMap f)) js (by simpa using Writes.refl w) ?_)
    (fun _ w' h => ?_) fun _ h => h
  · intro pre j post w₁ hjs hw
    obtain ⟨⟨a, k⟩, ha, hr⟩ := forall₂_getElem? hR.flip (x := j) (k := pre.length) (by simp [hjs])
    obtain ⟨hk, rfl⟩ : xs[pre.length]? = some a ∧ pre.length = k := by
      simpa [List.getElem?_zipIdx] using ha
    refine wp_mono (hbody a _ j w₁ hk hr hw.watch) (fun _ w₂ h => ?_) fun _ h => h
    rw [List.length_append, List.length_singleton, List.take_add_one, ha, Option.toList_some,
      List.flatMap_append, List.flatMap_singleton]
    exact hw.trans h
  · rwa [← hlen, List.take_length] at h

lemma wp_scanVout_writes {j k : ℕ} {txid : String} {vin : Bool} {o : Vout} {json_vout : Json}
    (hS : w.vars.s_address_id_btc = S) (ho : o.Shows k json_vout) (hk : k < 2 ^ 31) :
    wp (env x) (scanVout coin_id i j txid vin json_vout k)
      (fun _ w' => Writes w w' (outEntries S coin_id i j txid vin o k)) (fun _ => True) w := by
  simp only [scanVout, wp_bind, liftM_eq, ho.vout hk, wp_lift, Except.ok.injEq, forall_eq',
    reduceCtorEq, implies_true, and_true, outEntries]
  cases has : o.addresses with
  | none => simpa using Writes.refl w
  | some as =>
    refine wp_forEach_writes (R := fun a _ j => j = .str a) _ ?_ ?_
    · rw [List.forall₂_map_right_iff]
      have hmap : as = as.zipIdx.map Prod.fst := by simp
      conv_rhs => rw [hmap]
      rw [List.forall₂_map_right_iff]
      exact List.forall₂_same.mpr fun _ _ => rfl
    · rintro address n _ w₁ - rfl hw
      exact wp_scanAddress_writes ⟨coin_id, i, j, k, n⟩ (hw.trans hS)

/-- The verdict on a transaction: some input names a transaction that is remembered. -/
def Chain.Found (c : Chain) (w : World) (txid : String) : Prop :=
  ∃ p, c.Names p txid ∧ Remembered w p

lemma spent_iff {txid : String} {vins : List Json}
    (h : List.Forall₂ Vin.Shows (c.tx txid).vin vins) :
    Spent w.vars.s_txid_address vins ↔ c.Found w txid := by
  constructor
  · rintro ⟨j, hj, p, hp, hknown⟩
    obtain ⟨i', hi', hs⟩ := forall₂_mem_right h hj
    have hfind := hs.1
    rw [hp] at hfind
    cases htxid : i'.txid with
    | none => simp [htxid] at hfind
    | some p' =>
      obtain rfl : p = p' := by simpa [htxid] using hfind
      exact ⟨p, ⟨i', hi', htxid⟩, hknown⟩
  · rintro ⟨p, ⟨i', hi', hp⟩, hknown⟩
    obtain ⟨j, hj, hs⟩ := forall₂_mem_left h hi'
    exact ⟨j, hj, p, by rw [hs.1, hp]; rfl, hknown⟩

variable (hc : c.Honest x)

include hc

/-- A transaction is written as the verdict on it says, or a call for it fails and nothing is. -/
lemma wp_scanTx_writes {j : ℕ} {txid : String} (hS : w.vars.s_address_id_btc = S) :
    wp (env x) (scanTx node coin_id i (.str txid) j) (fun fl w' => match fl with
        | .next => ∃ vin, (vin = true ↔ c.Found w txid) ∧
            Writes w w' (c.txEntries S coin_id i j txid vin)
        | .brk => Writes w w' []) (fun _ => True) w := by
  simp only [scanTx, wp_bind, liftM_eq, wp_lift, Json.getStr_str, Except.ok.injEq, forall_eq',
    reduceCtorEq, implies_true, and_true]
  refine wp_callRpc_raw trivial fun a ha => ⟨trivial, fun r hr => ?_⟩
  have hsent : Writes w (w.sent ⟨node.node_url, node.node_auth, getrawtransaction txid⟩ a) [] :=
    writes_sent rfl
  rcases r with json_response | _ | _
  · obtain ⟨result, hres, ⟨vins, hvins, hvin⟩, vouts, hvouts, hvout⟩ :=
      hc.tx _ _ _ _ _ _ ha hr
    simp only [Json.field_of_find? hres, Json.field_of_find? hvins, Json.field_of_find? hvouts,
      wp_bind, wp_lift, Except.ok.injEq, forall_eq', reduceCtorEq, implies_true, and_true,
      Json.elems_arr]
    refine wp_mono (wp_scanVins _ trivial) ?_ fun _ h => h
    rintro vin w₁ ⟨rfl, vins', helems, hspent⟩
    obtain rfl : vins = vins' := by simpa using helems
    refine wp_mono (wp_forEach_writes (R := Vout.Shows)
      (fun e => outEntries S coin_id i j txid vin e.1 e.2) hvout ?_)
      (fun _ w₂ h => ⟨vin, ?_, ?_⟩) fun _ h => h
    · intro o k json_vout w₂ hk hshow hw
      have hsmall := (List.getElem?_eq_some_iff.mp hk).1.trans (c.tx txid).small
      exact wp_scanVout_writes (hw.trans hS) hshow hsmall
    · rw [hspent]
      exact spent_iff hvin
    · exact hsent.trans h
  · exact hsent
  · exact hsent

lemma wp_scanTxs_keeps {I : ℕ → World → Prop} {txs : List String} (h0 : I 0 w)
    (hwatch : ∀ j w₁, I j w₁ → w₁.vars.s_address_id_btc = S)
    (hsent : ∀ j w₁ w₂, I j w₁ → Writes w₁ w₂ [] → I j w₂)
    (htx : ∀ j txid vin w₁ w₂, txs[j]? = some txid → I j w₁ → (vin = true ↔ c.Found w₁ txid) →
      Writes w₁ w₂ (c.txEntries S coin_id i j txid vin) → I (j + 1) w₂) :
    wp (env x) (loop (fun (json_tx, j) (_ : Unit) => do
        let fl ← scanTx node coin_id i json_tx j
        pure (fl, ())) (txs.map Json.str).zipIdx ())
      (fun r w' => match r.1 with
        | .next => I txs.length w'
        | .brk => ∃ j, I j w') (fun _ => True) w := by
  refine wp_mono (wp_loop_zipIdx (I := fun pre _ => I pre.length) (B := fun _ _ w' => ∃ j, I j w')
    (txs.map Json.str) h0 ?_) ?_ fun _ h => h
  · intro pre json_tx post _ w₁ htxs hI
    have hget : (txs.map Json.str)[pre.length]? = some json_tx := by simp [htxs]
    obtain ⟨txid, htxid, rfl⟩ : ∃ txid, txs[pre.length]? = some txid ∧ .str txid = json_tx := by
      simpa using hget
    rw [wp_bind]
    refine wp_mono (wp_scanTx_writes hc (hwatch _ _ hI)) ?_ fun _ h => h
    intro fl w₂ h
    cases fl with
    | next =>
      obtain ⟨vin, hvin, hw⟩ := h
      simp only [List.length_append, List.length_singleton]
      exact htx _ txid vin w₁ w₂ htxid hI hvin hw
    | brk => exact ⟨_, hsent _ _ _ hI h⟩
  · rintro ⟨fl, b⟩ w₁ h
    cases fl with
    | next => simpa using h
    | brk =>
      obtain ⟨-, -, -, h⟩ := h
      exact h

lemma wp_scanBlock_keeps {I : ℕ → World → Prop} {height : ℕ} (h0 : I 0 w)
    (hwatch : ∀ j w₁, I j w₁ → w₁.vars.s_address_id_btc = S)
    (hsent : ∀ j w₁ w₂, I j w₁ → Writes w₁ w₂ [] → I j w₂)
    (htx : ∀ j txid vin w₁ w₂, (c.block (c.hash i))[j]? = some txid → I j w₁ →
      (vin = true ↔ c.Found w₁ txid) → Writes w₁ w₂ (c.txEntries S coin_id i j txid vin) →
      I (j + 1) w₂) :
    wp (env x) (scanBlock node coin_id height i) (fun fl w' => match fl with
        | .next => ∃ w₁, I (c.block (c.hash i)).length w₁ ∧
            (w' = w₁ ∨ w' = (w₁.push (.block ⟨coin_id, c.hash i, i⟩)).flush)
        | .brk => ∃ j, I j w') (fun _ => True) w := by
  simp only [scanBlock, wp_bind]
  refine wp_callRpc_raw trivial fun a ha => ⟨trivial, fun r hr => ?_⟩
  have h₁ := hsent 0 w _ h0 (writes_sent (a := a)
    (r := ⟨node.node_url, node.node_auth, getblockhash i⟩) rfl)
  rcases r with json_response | _ | _
  · have hres := hc.blockhash _ _ _ _ _ _ ha hr
    simp only [Json.field_of_find? hres, wp_bind, liftM_eq, wp_lift, Except.ok.injEq,
      forall_eq', Json.getStr_str, reduceCtorEq, implies_true, and_true]
    refine wp_callRpc_raw trivial fun a' ha' => ⟨trivial, fun r' hr' => ?_⟩
    have h₂ := hsent 0 _ _ h₁ (writes_sent (a := a')
      (r := ⟨node.node_url, node.node_auth, getblock (c.hash i)⟩) rfl)
    rcases r' with json_response' | _ | _
    · obtain ⟨result, hres', htxs⟩ := hc.block _ _ _ _ _ _ ha' hr'
      simp only [Json.field_of_find? hres', Json.field_of_find? htxs, wp_bind, wp_lift,
        Except.ok.injEq, forall_eq', Json.elems_arr, reduceCtorEq, implies_true, and_true]
      refine wp_mono (wp_scanTxs_keeps hc h₂ hwatch hsent htx) ?_ fun _ h => h
      rintro ⟨fl, b⟩ w₁ h
      cases fl with
      | brk => exact h
      | next =>
        dsimp only
        split
        · rw [wp_bind]
          refine wp_push_back trivial ?_
          rw [wp_bind]
          exact (wp_refreshDB trivial trivial ⟨w₁, h, Or.inr rfl⟩)
        · exact ⟨w₁, h, Or.inl rfl⟩
    · exact ⟨0, h₂⟩
    · exact ⟨0, h₂⟩
  · exact ⟨0, h₁⟩
  · exact ⟨0, h₁⟩

end

/-! ### What the rows of a block say -/

def written (w w' : World) : List Txutxo :=
  ((otc.total w').drop (otc.total w).length).filterMap Stmt.txutxo?

def noticed (w w' : World) : List Json := (notices w').drop (notices w).length

def Chain.Satoshi (c : Chain) : Prop :=
  ∀ txid, ∀ o ∈ (c.tx txid).vout, ∃ s : ℕ, o.value = s / 10 ^ 8

/-- The output `k` of the transaction `j` of block `i` pays the address at `slot`. -/
structure Chain.Out (c : Chain) (i j : ℕ) (txid : String) (k : ℕ) (o : Vout) (slot : ℕ)
    (address : String) : Prop where
  tx : c.At i j txid
  out : (c.tx txid).vout[k]? = some o
  address : (o.addresses.getD [])[slot]? = some address

/-- The amount is the value of the output in satoshi. -/
def Vout.Amount (o : Vout) (amount : String) : Prop :=
  Decimal.denotes amount.toList = some (o.value * 10 ^ 8)

/-- The rows and notices describe the outputs of a block that pay a watched address. -/
structure Chain.Described (c : Chain) (S : List (String × ℤ)) (coin_id : ℤ) (i : ℕ)
    (rows : List Txutxo) (notes : List Json) : Prop where
  row : ∀ j txid k o slot address, c.Out i j txid k o slot address → watched S address →
    ∃ r ∈ rows, r.src = ⟨coin_id, i, j, k, slot⟩ ∧ r.txid = txid ∧ r.n = k ∧
      r.address = address ∧ o.Amount r.amount
  notice : ∀ j txid k o slot address, c.Out i j txid k o slot address → watched S address →
    ∃ amount, o.Amount amount ∧ callback "address" amount "BTC" k address txid false ∈ notes
  distinct : ∀ r ∈ rows, ∀ r' ∈ rows, r.txid = r'.txid → r.n = r'.n → r.address = r'.address →
    r.src.out = r'.src.out

section

variable {c : Chain} {S : List (String × ℤ)} {coin_id : ℤ} {i : ℕ} {x : Weather} {w w' : World}
  {node : NodeInfo}

lemma blockEntries_concat (txs : List (String × Bool)) (txid : String) (vin : Bool) :
    c.blockEntries S coin_id i (txs ++ [(txid, vin)]) =
      c.blockEntries S coin_id i txs ++ c.txEntries S coin_id i txs.length txid vin := by
  simp [Chain.blockEntries, List.zipIdx_append]

lemma Writes.written {es : List Written} (h : Writes w w' es) (l : List Stmt)
    (hl : l.filterMap Stmt.txutxo? = []) :
    ((otc.total w' ++ l).drop (otc.total w).length).filterMap Stmt.txutxo? =
      es.map Prod.fst := by
  have htotal : otc.total w' = otc.total w ++ es.map fun e => .txutxo e.1 := by
    simp [Store.total, otc, h.db, h.buf]
  rw [htotal, List.append_assoc, List.drop_left, List.filterMap_append, hl, List.append_nil,
    List.filterMap_map, ← List.filterMap_eq_map]
  rfl

/-- The rows and notices of a block are those of its entries, with some verdict on each
transaction. -/
lemma wp_scanBlock_entries (hc : c.Honest x) {height : ℕ} (hS : w.vars.s_address_id_btc = S) :
    wp (env x) (scanBlock node coin_id height i) (fun fl w' => fl = .next →
      ∃ vs : List Bool, vs.length = (c.block (c.hash i)).length ∧
        written w w' = (c.blockEntries S coin_id i ((c.block (c.hash i)).zip vs)).map Prod.fst ∧
        noticed w w' = (c.blockEntries S coin_id i ((c.block (c.hash i)).zip vs)).map Prod.snd)
      (fun _ => True) w := by
  set txs := c.block (c.hash i) with htxs
  refine wp_mono (wp_scanBlock_keeps hc (S := S) (I := fun j w₁ => ∃ vs : List Bool, vs.length = j ∧
    Writes w w₁ (c.blockEntries S coin_id i ((txs.take j).zip vs))) ?_ ?_ ?_ ?_) ?_ fun _ h => h
  · exact ⟨[], rfl, Writes.refl w⟩
  · rintro j w₁ ⟨vs, -, h⟩
    exact h.watch.trans hS
  · rintro j w₁ w₂ ⟨vs, hlen, h⟩ h'
    exact ⟨vs, hlen, by simpa using h.trans h'⟩
  · rintro j txid vin w₁ w₂ hj ⟨vs, rfl, h⟩ - h'
    have hlt : vs.length < txs.length := (List.getElem?_eq_some_iff.mp hj).1
    have htake : (txs.take vs.length).length = vs.length := by
      rw [List.length_take]
      omega
    have hzip : (txs.take (vs.length + 1)).zip (vs ++ [vin]) =
        (txs.take vs.length).zip vs ++ [(txid, vin)] := by
      rw [List.take_add_one, hj, Option.toList_some, List.zip_append htake]
      rfl
    refine ⟨vs ++ [vin], by simp, ?_⟩
    rw [hzip, blockEntries_concat, List.length_zip, htake, min_self]
    exact h.trans h'
  · rintro fl w' h rfl
    obtain ⟨w₁, ⟨vs, hlen, h⟩, hw'⟩ := h
    rw [List.take_length] at h
    have hnotes : noticed w w₁ = (c.blockEntries S coin_id i (txs.zip vs)).map Prod.snd := by
      rw [noticed, h.notices, List.drop_left]
    refine ⟨vs, hlen, ?_⟩
    rcases hw' with rfl | rfl
    · exact ⟨by simpa [written] using h.written [] rfl, hnotes⟩
    · refine ⟨?_, hnotes⟩
      rw [← h.written [.block ⟨coin_id, c.hash i, i⟩] rfl]
      simp [written, Store.total, otc, World.flush, World.push, Db.commit]

/-- A value in satoshi is stored with one digit too few. -/
lemma denotes_to_string {o : Vout} (h : ∃ s : ℕ, o.value = s / 10 ^ 8) :
    Decimal.denotes (Text.to_string (10000000 * o.value)).toList = some (10000000 * o.value) := by
  obtain ⟨s, hs⟩ := h
  have hmill : 10000000 * o.value * 10 ^ 6 = ((s * 10 ^ 5 : ℕ) : ℚ) := by
    rw [hs]
    push_cast
    ring
  have hround : ∀ n : ℕ, Double.roundEven n = n := fun n => by simp [Double.roundEven]
  have hnonneg : 0 ≤ 10000000 * o.value := by
    rw [hs]
    positivity
  have htext : Text.to_string (10000000 * o.value) =
      String.ofList (Decimal.fixed 6 (s * 10 ^ 5)) := by
    refine String.ext ?_
    rw [Text.to_string, abs_of_nonneg hnonneg, hmill, hround, Int.toNat_natCast,
      if_neg (not_lt.mpr hnonneg)]
    simp [Text.six, Decimal.fixed, Decimal.pad]
  rw [htext, String.toList_ofList, Decimal.denotes_fixed (by norm_num), ← hmill]
  congr 1
  ring

lemma amount_iff {o : Vout} (h : ∃ s : ℕ, o.value = s / 10 ^ 8) :
    o.Amount (Text.to_string (10000000 * o.value)) ↔ o.value = 0 := by
  rw [Vout.Amount, denotes_to_string h, Option.some.injEq]
  constructor
  · intro h
    linarith
  · intro h
    rw [h]
    norm_num

variable (coin_id) in
/-- A watched output has its row, with the position of the address for its number. -/
lemma blockEntries_row {vs : List Bool} (hlen : vs.length = (c.block (c.hash i)).length)
    {j : ℕ} {txid : String} {k : ℕ} {o : Vout} {slot : ℕ} {address : String}
    (h : c.Out i j txid k o slot address) (hw : watched S address) :
    ∃ flag, ((⟨txid, slot, address, Text.to_string (10000000 * o.value), flag,
        ⟨coin_id, i, j, k, slot⟩⟩ : Txutxo),
      callback "address" (Text.to_string (10000000 * o.value)) "BTC" k address txid false) ∈
        c.blockEntries S coin_id i ((c.block (c.hash i)).zip vs) := by
  have htx : (c.block (c.hash i))[j]? = some txid := h.tx
  obtain ⟨vin, hvin⟩ : ∃ vin, vs[j]? = some vin := by
    have hlt := (List.getElem?_eq_some_iff.mp htx).1
    exact ⟨_, List.getElem?_eq_getElem (hlen ▸ hlt)⟩
  refine ⟨some (if vin then 2 else 0), mem_blockEntries.mpr ⟨j, txid, vin, ?_,
    mem_txEntries.mpr ⟨k, o, slot, address, h.out, h.address, Or.inl hw, ?_⟩⟩⟩
  · simp [List.getElem?_zip_eq_some, htx, hvin]
  · rw [row, if_pos hw]

/-- And every row is that of an output. -/
lemma row_of_blockEntries {vs : List Bool} {e : Written}
    (h : e ∈ c.blockEntries S coin_id i ((c.block (c.hash i)).zip vs)) :
    ∃ j txid k o slot address, c.Out i j txid k o slot address ∧
      e.1.src = ⟨coin_id, i, j, k, slot⟩ ∧ e.1.txid = txid ∧ e.1.address = address ∧
      e.1.n = (if watched S address then (slot : ℤ) else k) ∧
      e.1.amount = Text.to_string (10000000 * o.value) := by
  obtain ⟨j, txid, vin, hj, he⟩ := mem_blockEntries.mp h
  obtain ⟨k, o, slot, address, ho, ha, -, rfl⟩ := mem_txEntries.mp he
  have htx : c.At i j txid := (List.getElem?_zip_eq_some.mp hj).1
  refine ⟨j, txid, k, o, slot, address, ⟨htx, ho, ha⟩, row_src .., row_txid .., row_address .., ?_,
    ?_⟩
  · rw [row]
    split <;> rfl
  · rw [row]
    split <;> rfl

lemma described_of_entries (hsat : c.Satoshi) {vs : List Bool}
    (hlen : vs.length = (c.block (c.hash i)).length) :
    c.Described S coin_id i
      ((c.blockEntries S coin_id i ((c.block (c.hash i)).zip vs)).map Prod.fst)
      ((c.blockEntries S coin_id i ((c.block (c.hash i)).zip vs)).map Prod.snd) ↔
    ∀ j txid k o slot address, c.Out i j txid k o slot address → watched S address →
      slot = k ∧ o.value = 0 := by
  have hvalue : ∀ {j txid k o slot address}, c.Out i j txid k o slot address →
      ∃ s : ℕ, o.value = s / 10 ^ 8 := fun h => hsat _ _ (List.mem_of_getElem? h.out)
  constructor
  · intro h j txid k o slot address hout hw
    obtain ⟨r, hr, hsrc, -, hn, haddress, hamount⟩ := h.row j txid k o slot address hout hw
    obtain ⟨e, he, rfl⟩ := List.mem_map.mp hr
    obtain ⟨j', txid', k', o', slot', address', hout', hsrc', -, ha', hn', hamount'⟩ :=
      row_of_blockEntries he
    obtain ⟨rfl, rfl, rfl⟩ : j = j' ∧ k = k' ∧ slot = slot' := by
      simpa [hsrc'] using hsrc.symm
    obtain rfl : txid = txid' := by
      simpa using (show some txid = some txid' from hout.tx.symm.trans hout'.tx)
    obtain rfl : o = o' := by simpa [hout.out] using hout'.out
    obtain rfl : address' = address := ha'.symm.trans haddress
    rw [if_pos hw, hn] at hn'
    rw [hamount'] at hamount
    exact ⟨by exact_mod_cast hn'.symm, (amount_iff (hvalue hout)).mp hamount⟩
  · intro h
    refine ⟨fun j txid k o slot address hout hw => ?_, fun j txid k o slot address hout hw => ?_,
      ?_⟩
    · obtain ⟨flag, he⟩ := blockEntries_row coin_id hlen hout hw
      obtain ⟨rfl, hzero⟩ := h j txid k o slot address hout hw
      exact ⟨_, List.mem_map_of_mem he, rfl, rfl, rfl, rfl, (amount_iff (hvalue hout)).mpr hzero⟩
    · obtain ⟨flag, he⟩ := blockEntries_row coin_id hlen hout hw
      obtain ⟨-, hzero⟩ := h j txid k o slot address hout hw
      exact ⟨_, (amount_iff (hvalue hout)).mpr hzero, List.mem_map.mpr ⟨_, he, rfl⟩⟩
    · intro r hr r' hr' htxid hn haddress
      obtain ⟨e, he, rfl⟩ := List.mem_map.mp hr
      obtain ⟨e', he', rfl⟩ := List.mem_map.mp hr'
      obtain ⟨j, txid, k, o, slot, address, hout, hsrc, -, ha, hnum, -⟩ := row_of_blockEntries he
      obtain ⟨j', txid', k', o', slot', address', hout', hsrc', -, ha', hnum', -⟩ :=
        row_of_blockEntries he'
      obtain rfl : address = address' := by rw [← ha, ← ha', haddress]
      rw [hsrc, hsrc']
      rw [hnum, hnum'] at hn
      by_cases hw : watched S address
      · obtain ⟨rfl, -⟩ := h _ _ _ _ _ _ hout hw
        obtain ⟨rfl, -⟩ := h _ _ _ _ _ _ hout' hw
        simpa [hw] using hn
      · simpa [hw] using hn

/-- **The rows describe the outputs** of a block exactly if each watched address stands in its
output where the output stands in its transaction, and is paid nothing. -/
theorem described_iff (hc : c.Honest x) (hsat : c.Satoshi) {height : ℕ}
    (hx : Exec (env x) (scanBlock node coin_id height i) w (.done .next) w') :
    c.Described w.vars.s_address_id_btc coin_id i (written w w') (noticed w w') ↔
      ∀ j txid k o slot address, c.Out i j txid k o slot address →
        watched w.vars.s_address_id_btc address → slot = k ∧ o.value = 0 := by
  obtain ⟨vs, hlen, hrows, hnotes⟩ := exec_post hx (wp_scanBlock_entries hc rfl) rfl
  rw [hrows, hnotes]
  exact described_of_entries hsat hlen

end

lemma oneTx_honest : oneTx.Honest (.clear fun _ => oneTx.node 1) :=
  honest_of_node (fun _ => 1) fun _ _ _ _ _ => Or.inr rfl

lemma oneTx_satoshi : oneTx.Satoshi := by
  intro txid o ho
  obtain rfl : o = ⟨1, some ["A"]⟩ := List.mem_singleton.mp ho
  exact ⟨10 ^ 8, by norm_num⟩

/-- The world after the block with the payment. -/
def oneTxScanned : World :=
  (run (serve fun _ => oneTx.node 1) (scanBlock ⟨1, "node", "auth", "wallet", "auth"⟩ 1 1 1)
    (smallProcess [])).2

lemma exec_oneTx : Exec (env (.clear fun _ => oneTx.node 1))
    (scanBlock ⟨1, "node", "auth", "wallet", "auth"⟩ 1 1 1) (smallProcess []) (.done .next)
    oneTxScanned := by
  have hx := exec_run (serve_answers fun _ => oneTx.node 1)
    (scanBlock ⟨1, "node", "auth", "wallet", "auth"⟩ 1 1 1) (smallProcess [])
  have ho : (run (serve fun _ => oneTx.node 1)
      (scanBlock ⟨1, "node", "auth", "wallet", "auth"⟩ 1 1 1) (smallProcess [])).1 = .done .next := by
    rfl
  rwa [ho] at hx

theorem described_oneTx : oneTx.Described (smallProcess []).vars.s_address_id_btc 1 1
    (written (smallProcess []) oneTxScanned) (noticed (smallProcess []) oneTxScanned) ↔
    ∀ j txid k o slot address, oneTx.Out 1 j txid k o slot address →
      watched (smallProcess []).vars.s_address_id_btc address → slot = k ∧ o.value = 0 :=
  described_iff oneTx_honest oneTx_satoshi exec_oneTx

/-- One bitcoin is recorded as a tenth of one. -/
theorem not_described_oneTx : ¬ ∀ (c : Chain) (x : Weather) (w w' : World) (node : NodeInfo)
    (coin_id : ℤ) (i height : ℕ), c.Honest x → c.Satoshi →
    Exec (env x) (scanBlock node coin_id height i) w (.done .next) w' →
    c.Described w.vars.s_address_id_btc coin_id i (written w w') (noticed w w') := by
  intro h
  have hdesc := h oneTx _ _ _ _ 1 1 1 oneTx_honest oneTx_satoshi exec_oneTx
  obtain ⟨vs, hlen, hrows, hnotes⟩ := exec_post exec_oneTx (wp_scanBlock_entries oneTx_honest rfl) rfl
  rw [hrows, hnotes, described_of_entries oneTx_satoshi hlen] at hdesc
  have hout : oneTx.Out 1 0 "txid" 0 ⟨1, some ["A"]⟩ 0 "A" := ⟨rfl, rfl, rfl⟩
  exact absurd (hdesc _ _ _ _ _ _ hout (by decide)).2 one_ne_zero

end OpenWallet.Monitor.Btc
