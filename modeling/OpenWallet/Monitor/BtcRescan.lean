import OpenWallet.Monitor.BtcRows

/-!
Scanning the same blocks again in one process. What is remembered from later transactions is
named by no earlier one, so the verdict on a transaction, and with it what is written for it, is
the same each time the scanner comes to it.
-/

namespace OpenWallet.Monitor.Btc

open Lib Prog

/-- A call of `scanBTC` from `w` comes to the transaction `j` of block `i` in the world `w₁`: it
has read the stored height and the tip, left the blocks before, listed this one, and left the
transactions before. -/
inductive Comes (x : Weather) (w : World) (coin_id : ℤ) (node : NodeInfo) (i j : ℕ)
    (txid : String) (w₁ : World) : Prop
  | mk {pre_height height : ℕ} {json_count json_hash json_block : Json} {hash : String}
      {txs : List Json} {wcount wblocks whash wblock : World}
      (current : Exec (env x) (getCurrentHeight "BTC") w (.done (some (coin_id, pre_height))) w)
      (found : w.vars.map_coinid_node_.lookup coin_id = some node)
      (count : Exec (env x) (callRpc node.node_url node.node_auth getblockcount) w
        (.done (.ok json_count)) wcount)
      (tip : blockCount json_count = .ok height)
      (above : pre_height < i) (below : i ≤ height)
      (blocks : Exec (env x) (loop (fun i (_ : Unit) => do
          let fl ← scanBlock node coin_id height i
          pure (fl, ())) (List.range' (pre_height + 1) (i - (pre_height + 1))) ()) wcount
        (.done (.next, ())) wblocks)
      (hashed : Exec (env x) (callRpc node.node_url node.node_auth (getblockhash i)) wblocks
        (.done (.ok json_hash)) whash)
      (named : blockHash json_hash = .ok hash)
      (block : Exec (env x) (callRpc node.node_url node.node_auth (getblock hash)) whash
        (.done (.ok json_block)) wblock)
      (listed : blockTxs json_block = .ok txs)
      (before : Exec (env x) (loop (fun (json_tx, j) (_ : Unit) => do
          let fl ← scanTx node coin_id i json_tx j
          pure (fl, ())) (txs.zipIdx.take j) ()) wblock (.done (.next, ())) w₁)
      (tx : txs[j]? = some (.str txid))

def Judges (x : Weather) (node : NodeInfo) (txid : String) (vin : Bool) (w₁ : World) : Prop :=
  ∃ json_response json_vins w₂ w₃,
    Exec (env x) (callRpc node.node_url node.node_auth (getrawtransaction txid)) w₁
      (.done (.ok json_response)) w₂ ∧
    (do (← json_response.field "result").field "vin") = .ok json_vins ∧
    Exec (env x) (scanVins json_vins) w₂ (.done vin) w₃

/-! ### What the process knows -/

section

variable {c : Chain} (hord : c.Ordered) (S : List (String × ℤ)) (coin_id : ℤ) (k : ℕ)
  (seed : String → Prop) (cat : Catalog)

/-- The scan has left the blocks from `k` up to `i` and the first `j` transactions of the next.
The transactions that are remembered are the seed and some that pay the wallet and are not taken
for spends, among them all of these that have been left. -/
structure Knows (i j : ℕ) (w : World) : Prop where
  watch : w.vars.s_address_id_btc = S
  tables : w.db.cat = cat
  kept : ∀ t, Remembered w t → seed t ∨
    c.After k t ∧ c.Pays (watched S) t ∧ ¬ Taken hord (watched S) k seed t
  seeded : ∀ t, seed t → Remembered w t
  left : ∀ n j' t, c.At n j' t → k < n → n ≤ i ∨ n = i + 1 ∧ j' < j →
    c.Pays (watched S) t → ¬ Taken hord (watched S) k seed t → Remembered w t
  marks : ∀ n, otc.Marked coin_id n w.db.log → n ≤ i
  start : otc.Marked coin_id k w.db.log
  clean : ∀ n, ¬ otc.Marked coin_id n w.vars.vect_sql_

variable {hord S coin_id k seed cat} {i j : ℕ} {w w' : World}

lemma Knows.le (h : Knows hord S coin_id k seed cat i j w) : k ≤ i := h.marks k h.start

lemma Knows.back (h : Knows hord S coin_id k seed cat i j w) {m : ℕ}
    (hm : w.db.maxHeight coin_id = some m) : Knows hord S coin_id k seed cat m 0 w := by
  obtain ⟨hmem, hmax⟩ := Db.maxHeight_eq_some.mp hm
  have hle : m ≤ i := h.marks m (marked_iff.mpr hmem)
  refine ⟨h.watch, h.tables, h.kept, h.seeded, fun n j' t hat hn hpos => ?_,
    fun n hn => hmax n (marked_iff.mp hn), h.start, h.clean⟩
  exact h.left n j' t hat hn (Or.inl (by omega))

/-- The scanner takes a transaction for a spend where it is one after the rule. -/
lemma Knows.found_iff (h : Knows hord S coin_id k seed cat i j w) {txid : String}
    (hat : c.At (i + 1) j txid) : c.Found w txid ↔ Taken hord (watched S) k seed txid := by
  have hafter : c.After k txid := ⟨_, _, Nat.lt_succ_of_le h.le, hat⟩
  rw [Chain.Found, Taken, fires_iff]
  constructor
  · rintro ⟨p, hnames, hknown⟩
    rcases h.kept p hknown with hseed | ⟨hafter', hpays, hnot⟩
    · exact Or.inl ⟨p, hnames, hseed⟩
    · exact Or.inr ⟨p, ⟨hnames, hafter', hafter⟩, hpays, hnot⟩
  · rintro (⟨p, hnames, hseed⟩ | ⟨p, ⟨hnames, ⟨n, j', hn, hp⟩, -⟩, hpays, hnot⟩)
    · exact ⟨p, hnames, h.seeded p hseed⟩
    · have hpos := hord _ _ _ hat p hnames _ _ hp
      refine ⟨p, hnames, h.left n j' p hp hn ?_ hpays hnot⟩
      omega

lemma Knows.sent (h : Knows hord S coin_id k seed cat i j w) (hw : Writes w w' []) :
    Knows hord S coin_id k seed cat i j w' := by
  have hmem : ∀ t, Remembered w' t ↔ Remembered w t := fun t => by simpa using hw.memory t
  have hbuf : w'.vars.vect_sql_ = w.vars.vect_sql_ := by simpa using hw.buf
  refine ⟨hw.watch.trans h.watch, ?_, fun t ht => h.kept t ((hmem t).mp ht),
    fun t ht => (hmem t).mpr (h.seeded t ht), fun n j' t hat hn hpos hpays hnot =>
      (hmem t).mpr (h.left n j' t hat hn hpos hpays hnot), ?_, ?_, ?_⟩
  · rw [hw.db]
    exact h.tables
  · rw [hw.db]
    exact h.marks
  · rw [hw.db]
    exact h.start
  · rw [hbuf]
    exact h.clean

/-- Entries with flag 0 stand for transactions that pay the wallet and were not taken for
spends, and each of these has one. -/
lemma flagged_iff (coin_id : ℤ) (n j : ℕ) {txid : String} {vin : Bool} :
    (∃ e ∈ c.txEntries S coin_id n j txid vin, e.1.flag = some 0) ↔
      vin = false ∧ c.Pays (watched S) txid := by
  constructor
  · rintro ⟨e, he, hflag⟩
    obtain ⟨k, o, slot, address, ho, ha, -, rfl⟩ := mem_txEntries.mp he
    by_cases hw : watched S address
    · rw [row, if_pos hw] at hflag
      refine ⟨by cases vin <;> simp_all, o, List.mem_of_getElem? ho, address,
        List.mem_of_getElem? ha, hw⟩
    · rw [row, if_neg hw] at hflag
      cases hflag
  · rintro ⟨rfl, o, ho, address, ha, hw⟩
    obtain ⟨k, hk⟩ := List.getElem?_of_mem ho
    obtain ⟨slot, hslot⟩ := List.getElem?_of_mem ha
    refine ⟨_, mem_txEntries.mpr ⟨k, o, slot, address, hk, hslot, Or.inl hw, rfl⟩, ?_⟩
    rw [row, if_pos hw]
    rfl

lemma Knows.step (h : Knows hord S coin_id k seed cat i j w) {txid : String} {vin : Bool}
    (hat : c.At (i + 1) j txid) (hvin : vin = true ↔ c.Found w txid)
    (hw : Writes w w' (c.txEntries S coin_id (i + 1) j txid vin)) :
    Knows hord S coin_id k seed cat i (j + 1) w' := by
  have htaken : vin = true ↔ Taken hord (watched S) k seed txid := hvin.trans (h.found_iff hat)
  have hnew : ∀ t, (∃ e ∈ c.txEntries S coin_id (i + 1) j txid vin, e.1.txid = t ∧
      e.1.flag = some 0) ↔ t = txid ∧ vin = false ∧ c.Pays (watched S) txid := by
    intro t
    rw [← flagged_iff coin_id (i + 1) j]
    constructor
    · rintro ⟨e, he, ht, hflag⟩
      obtain ⟨k, o, slot, address, -, -, -, rfl⟩ := mem_txEntries.mp he
      exact ⟨by simpa [eq_comm] using ht, _, he, hflag⟩
    · rintro ⟨rfl, e, he, hflag⟩
      obtain ⟨k, o, slot, address, -, -, -, rfl⟩ := mem_txEntries.mp he
      exact ⟨_, he, row_txid .., hflag⟩
  have hmem : ∀ t, Remembered w' t ↔ Remembered w t ∨ t = txid ∧ vin = false ∧
      c.Pays (watched S) txid := fun t => by rw [hw.memory, hnew]
  refine ⟨hw.watch.trans h.watch, ?_, fun t ht => ?_, fun t ht => (hmem t).mpr (Or.inl (h.seeded t ht)),
    fun n j' t hat' hn hpos hpays hnot => ?_, ?_, ?_, fun n hn => ?_⟩
  · rw [hw.db]
    exact h.tables
  · rcases (hmem t).mp ht with ht | ⟨rfl, rfl, hpays⟩
    · exact h.kept t ht
    · exact Or.inr ⟨⟨_, _, Nat.lt_succ_of_le h.le, hat⟩, hpays, fun ht => by cases htaken.mpr ht⟩
  · refine (hmem t).mpr ?_
    by_cases hlast : n = i + 1 ∧ j' = j
    · obtain ⟨rfl, rfl⟩ := hlast
      obtain rfl : t = txid := Option.some.inj (hat'.symm.trans hat)
      have hvin' : vin = false := by
        rw [← Bool.not_eq_true, htaken]
        exact hnot
      exact Or.inr ⟨rfl, hvin', hpays⟩
    · exact Or.inl (h.left n j' t hat' hn (by omega) hpays hnot)
  · rw [hw.db]
    exact h.marks
  · rw [hw.db]
    exact h.start
  · rw [hw.buf, Store.marked_append] at hn
    rcases hn with hn | ⟨s, hs, hmark⟩
    · exact h.clean n hn
    · obtain ⟨e, -, rfl⟩ := List.mem_map.mp hs
      cases hmark

/-- A block whose transactions have all been left is left, with a checkpoint or without. -/
lemma Knows.next {hash : String}
    (h : Knows hord S coin_id k seed cat i (c.block (c.hash (i + 1))).length w)
    (hw : w' = w ∨ w' = (w.push (.block ⟨coin_id, hash, i + 1⟩)).flush) :
    Knows hord S coin_id k seed cat (i + 1) 0 w' := by
  have hleft : ∀ n j' t, c.At n j' t → k < n → n ≤ i + 1 ∨ n = i + 1 + 1 ∧ j' < 0 →
      c.Pays (watched S) t → ¬ Taken hord (watched S) k seed t → Remembered w t := by
    intro n j' t hat hn hpos
    refine h.left n j' t hat hn ?_
    by_cases hn' : n = i + 1
    · subst hn'
      exact Or.inr ⟨rfl, (List.getElem?_eq_some_iff.mp hat).1⟩
    · omega
  rcases hw with rfl | rfl
  · exact ⟨h.watch, h.tables, h.kept, h.seeded, hleft, fun n hn => (h.marks n hn).trans (by omega),
      h.start, h.clean⟩
  · refine ⟨h.watch, h.tables, h.kept, h.seeded, hleft, fun n hn => ?_, ?_, ?_⟩
    · simp only [World.flush, World.push, Db.commit, Store.marked_append,
        Store.marked_singleton] at hn
      rcases hn with hn | hn | hmark
      · exact (h.marks n hn).trans (by omega)
      · exact absurd hn (h.clean n)
      · obtain rfl : i + 1 = n := by simpa [otc, Stmt.mark] using hmark
        exact le_rfl
    · exact Store.marked_append.mpr (Or.inl h.start)
    · rintro n ⟨s, hs, -⟩
      cases hs

/-! ### What a call keeps -/

variable {x : Weather} (hc : c.Honest x) {node : NodeInfo} {height : ℕ}

include hc

lemma wp_scanTxs_knows (h : Knows hord S coin_id k seed cat i 0 w) (m : ℕ) :
    wp (env x) (loop (fun (json_tx, j) (_ : Unit) => do
        let fl ← scanTx node coin_id (i + 1) json_tx j
        pure (fl, ())) (((c.block (c.hash (i + 1))).take m).map Json.str).zipIdx ())
      (fun r w' => match r.1 with
        | .next => Knows hord S coin_id k seed cat i
            ((c.block (c.hash (i + 1))).take m).length w'
        | .brk => ∃ j, Knows hord S coin_id k seed cat i j w') (fun _ => True) w := by
  refine wp_scanTxs_keeps hc h (fun _ _ h => h.watch) (fun _ _ _ h hw => h.sent hw) ?_
  intro j txid vin w₁ w₂ hj h₁ hvin hw
  rw [List.getElem?_take, Option.ite_none_right_eq_some] at hj
  exact h₁.step hj.2 hvin hw

lemma wp_scanBlock_knows (h : Knows hord S coin_id k seed cat i 0 w) :
    wp (env x) (scanBlock node coin_id height (i + 1)) (fun fl w' => match fl with
        | .next => Knows hord S coin_id k seed cat (i + 1) 0 w'
        | .brk => ∃ j, Knows hord S coin_id k seed cat i j w') (fun _ => True) w := by
  refine wp_mono (wp_scanBlock_keeps hc h (fun _ _ h => h.watch) (fun _ _ _ h hw => h.sent hw)
    fun j txid vin w₁ w₂ hj h₁ hvin hw => h₁.step hj hvin hw) ?_ fun _ h => h
  intro fl w' h
  cases fl with
  | next =>
    obtain ⟨w₁, h₁, hw'⟩ := h
    exact h₁.next hw'
  | brk => exact h

lemma wp_scanBlocks_knows (h : Knows hord S coin_id k seed cat i 0 w) (m : ℕ) :
    wp (env x) (loop (fun i (_ : Unit) => do
        let fl ← scanBlock node coin_id height i
        pure (fl, ())) (List.range' (i + 1) m) ())
      (fun r w' => match r.1 with
        | .next => Knows hord S coin_id k seed cat (i + m) 0 w'
        | .brk => ∃ i j, Knows hord S coin_id k seed cat i j w') (fun _ => True) w := by
  refine wp_mono (wp_loop
    (I := fun pre _ => Knows hord S coin_id k seed cat (i + pre.length) 0)
    (B := fun _ _ w' => ∃ i j, Knows hord S coin_id k seed cat i j w') _ h ?_) ?_ fun _ h => h
  · intro pre n post _ w₁ hl h₁
    obtain ⟨rfl, -⟩ := range'_split hl
    rw [wp_bind, show i + 1 + pre.length = i + pre.length + 1 by omega]
    refine wp_mono (wp_scanBlock_knows hc h₁) ?_ fun _ h => h
    intro fl w' h
    cases fl with
    | next =>
      simpa [← Nat.add_assoc] using h
    | brk => exact ⟨_, h⟩
  · rintro ⟨fl, b⟩ w' h
    cases fl with
    | next => simpa using h
    | brk =>
      obtain ⟨-, -, -, h⟩ := h
      exact h

/-- A call of the scanner goes on from the stored height, and leaves what it has come to know. -/
lemma wp_scanBTC_knows (hcoin : coinId cat "BTC" = some (some coin_id))
    (h : Knows hord S coin_id k seed cat i j w) :
    wp (env x) scanBTC (fun _ w' => ∃ i j, Knows hord S coin_id k seed cat i j w')
      (fun _ => True) w := by
  simp only [scanBTC, wp_bind]
  refine wp_getCurrentHeight trivial (fun _ => ⟨i, j, h⟩) fun c' m hcurrent => ?_
  obtain ⟨hc', hm, -⟩ := hcurrent
  obtain rfl : coin_id = c' := by
    rw [h.tables, hcoin] at hc'
    simpa using hc'
  simp only [wp_bind, wp_get]
  refine ⟨fun _ => trivial, ?_⟩
  split
  · exact ⟨i, j, h⟩
  · next node _ =>
    rw [wp_bind]
    refine wp_callRpc_raw trivial fun a _ => ⟨trivial, fun r _ => ?_⟩
    have hsent := (h.back hm).sent (writes_sent (a := a)
      (r := ⟨node.node_url, node.node_auth, getblockcount⟩) rfl)
    rcases r with json_response | _ | _
    · simp only [wp_bind, liftM_eq, wp_lift]
      refine ⟨fun result _ => ⟨fun height _ => ?_, fun _ _ => trivial⟩, fun _ _ => trivial⟩
      refine wp_mono (wp_scanBlocks_knows hc hsent _) ?_ fun _ h => h
      rintro ⟨fl, b⟩ w' h'
      cases fl with
      | next => exact ⟨_, _, h'⟩
      | brk => exact h'
    · exact ⟨_, _, hsent⟩
    · exact ⟨_, _, hsent⟩

omit hc in
lemma exec_callRpc {url auth : String} {post : Json} {r : Reply} (hpost : isNotice post = false)
    (hx : Exec (env x) (callRpc url auth post) w (.done r) w') :
    Writes w w' [] ∧ ∃ a, x.net w.wire.length ⟨url, auth, post⟩ a ∧ reply a = .ok r := by
  have hpost := exec_post hx (wp_callRpc_raw (D := fun _ => True) (Q := fun r w' =>
    Writes w w' [] ∧ ∃ a, x.net w.wire.length ⟨url, auth, post⟩ a ∧ reply a = .ok r) trivial
    fun a ha => ⟨trivial, fun _ hr => ⟨writes_sent hpost, a, ha, hr⟩⟩)
  exact hpost

lemma Comes.knows (hcoin : coinId cat "BTC" = some (some coin_id)) {i₀ j₀ : ℕ}
    (h : Knows hord S coin_id k seed cat i₀ j₀ w) {coin_id' : ℤ} {txid : String} {w₁ : World}
    (hcomes : Comes x w coin_id' node i j txid w₁) : ∃ i', i = i' + 1 ∧
      Knows hord S coin_id k seed cat i' j w₁ ∧ c.At i j txid := by
  obtain ⟨hcurrent, -, hcount, -, habove, -, hblocks, hhash, hnamed, hblock, hlisted, hbefore,
    htx⟩ := hcomes
  obtain ⟨hc', hm, -⟩ := exec_post hcurrent (wp_getCurrentHeight (D := fun _ => True)
    (Q := fun r _ => ∀ c m, r = some (c, m) → Current w.db "BTC" c m) trivial
    (fun _ => by simp) fun c m hcur c' m' he => by simp_all) _ _ rfl
  obtain rfl : coin_id = coin_id' := by
    rw [h.tables, hcoin] at hc'
    simpa using hc'
  rename_i pre_height _ _ _ _ hash txs _ _ _ _
  obtain ⟨i', rfl⟩ : ∃ i', i = i' + 1 := ⟨i - 1, by omega⟩
  have h₁ := (h.back hm).sent (exec_callRpc rfl hcount).1
  have h₂ : Knows hord S coin_id k seed cat (pre_height + (i' + 1 - (pre_height + 1))) 0 _ :=
    exec_post hblocks (wp_scanBlocks_knows hc h₁ _)
  rw [show pre_height + (i' + 1 - (pre_height + 1)) = i' by omega] at h₂
  obtain ⟨hw₃, a, ha, hr⟩ := exec_callRpc rfl hhash
  obtain ⟨hw₄, a', ha', hr'⟩ := exec_callRpc rfl hblock
  have hres := hc.blockhash _ _ _ _ _ _ ha hr
  obtain rfl : c.hash (i' + 1) = hash := by
    simpa [blockHash, Json.field_of_find? hres] using hnamed
  obtain ⟨result, hres', htxs⟩ := hc.block _ _ _ _ _ _ ha' hr'
  obtain rfl : (c.block (c.hash (i' + 1))).map .str = txs := by
    simpa [blockTxs, Json.field_of_find? hres', Json.field_of_find? htxs] using hlisted
  have hat : c.At (i' + 1) j txid := by simpa [Chain.At] using htx
  have htake : ((c.block (c.hash (i' + 1))).map Json.str).zipIdx.take j =
      (((c.block (c.hash (i' + 1))).take j).map Json.str).zipIdx := by
    refine List.ext_getElem? fun n => ?_
    simp only [List.getElem?_take, List.getElem?_zipIdx, List.getElem?_map]
    split <;> rfl
  rw [htake] at hbefore
  have h₅ := exec_post hbefore (wp_scanTxs_knows hc ((h₂.sent hw₃).sent hw₄) j)
  have hlen : ((c.block (c.hash (i' + 1))).take j).length = j := by
    have hlt : j < (c.block (c.hash (i' + 1))).length := (List.getElem?_eq_some_iff.mp hat).1
    rw [List.length_take]
    omega
  rw [hlen] at h₅
  exact ⟨i', rfl, h₅, hat⟩

end

section

variable {c : Chain} {S : List (String × ℤ)} {x : Weather}

/-- The columns that are written for a transaction. -/
def Chain.columns (c : Chain) (S : List (String × ℤ)) (txid : String) (vin : Bool) :
    List (String × ℤ × String × String × Option ℕ) :=
  (c.txEntries S 0 0 0 txid vin).map fun e => e.1.cols

lemma cols_txEntries (coin_id : ℤ) (i j : ℕ) (txid : String) (vin : Bool) :
    (c.txEntries S coin_id i j txid vin).map (fun e => e.1.cols) = c.columns S txid vin := by
  have haddress : ∀ (k n : ℕ) (value address : String),
      (addressEntries S ⟨coin_id, i, j, k, n⟩ txid vin k value address).map (fun e => e.1.cols) =
        (addressEntries S ⟨0, 0, 0, k, n⟩ txid vin k value address).map fun e => e.1.cols := by
    intro k n value address
    unfold addressEntries
    split
    · simp only [List.map_singleton, row]
      split <;> rfl
    · rfl
  simp only [Chain.columns, Chain.txEntries, outEntries, List.map_flatMap, haddress]

lemma session_knows (hc : c.Honest x) {hord : c.Ordered} {coin_id : ℤ} {k : ℕ}
    {seed : String → Prop} {cat : Catalog} (hcoin : coinId cat "BTC" = some (some coin_id))
    {w₀ w : World} {b : Bool} (h₀ : Knows hord S coin_id k seed cat k 0 w₀)
    (hr : Session x (fun p _ => p = scanBTC) w₀ b w) :
    b = true → ∃ i j, Knows hord S coin_id k seed cat i j w := by
  refine (hr.inv (I := fun w => ∃ i j, Knows hord S coin_id k seed cat i j w)
    (J := fun _ => True) (fun _ _ => trivial) ⟨k, 0, h₀⟩ ?_).2
  rintro p w rfl ⟨i, j, h⟩
  exact wp_scanBTC_knows hc hcoin h

lemma session_still {w₀ w : World} {b : Bool}
    (hnone : ∀ coin_id k, ¬ Current w₀.db "BTC" coin_id k)
    (hr : Session x (fun p _ => p = scanBTC) w₀ b w) : b = true → w.db = w₀.db := by
  refine (hr.inv (I := fun w => w.db = w₀.db) (J := fun _ => True) (fun _ _ => trivial) rfl ?_).2
  rintro p w rfl h
  simp only [scanBTC, wp_bind]
  refine wp_getCurrentHeight trivial (fun _ => h) fun c' m hcur => ?_
  rw [h] at hcur
  exact absurd hcur (hnone c' m)

end

/-- **Scanning again classifies the same way.** In one process, whatever it remembers at first
and whichever calls fail, there is one verdict on a transaction of the chain, and one list of
statements for it, each time the scanner comes to it. -/
theorem same_each_time {c : Chain} {x : Weather} (hc : c.Honest x) (hord : c.Ordered) (w₀ : World)
    (hclean : ∀ s ∈ w₀.vars.vect_sql_, s.mark = none) :
    ∃ (V : String → Bool) (sql : String → List (String × ℤ × String × String × Option ℕ)),
      ∀ w, Session x (fun p _ => p = scanBTC) w₀ true w →
      ∀ coin_id node i j txid w₁, Comes x w coin_id node i j txid w₁ →
        (∀ vin, Judges x node txid vin w₁ → vin = V txid) ∧
        ∀ w₂, Exec (env x) (scanTx node coin_id i (.str txid) j) w₁ (.done .next) w₂ →
          ∃ rows : List Txutxo, w₂.vars.vect_sql_ = w₁.vars.vect_sql_ ++ rows.map .txutxo ∧
            rows.map Txutxo.cols = sql txid := by
  classical
  by_cases hcur : ∃ coin_id k, Current w₀.db "BTC" coin_id k
  swap
  · refine ⟨fun _ => false, fun _ => [], fun w hw coin_id node i j txid w₁ hcomes => ?_⟩
    have hdb := session_still (fun coin_id k h => hcur ⟨coin_id, k, h⟩) hw rfl
    obtain ⟨hcurrent, -⟩ := hcomes
    have hread := exec_post hcurrent (wp_getCurrentHeight (D := fun _ => True)
      (Q := fun r _ => ∀ c m, r = some (c, m) → Current w.db "BTC" c m) trivial
      (fun _ => by simp) fun c m hcur c' m' he => by simp_all) _ _ rfl
    exact absurd ⟨_, _, hdb ▸ hread⟩ hcur
  obtain ⟨coin_id, k, hcoin, hmax, -⟩ := hcur
  set S := w₀.vars.s_address_id_btc with hS
  set seed := Remembered w₀ with hseed
  have h₀ : Knows hord S coin_id k seed w₀.db.cat k 0 w₀ := by
    obtain ⟨hmem, hle⟩ := Db.maxHeight_eq_some.mp hmax
    refine ⟨rfl, rfl, fun t ht => Or.inl ht, fun t ht => ht, fun n j' t _ hn hpos => ?_,
      fun n hn => hle n (marked_iff.mp hn), marked_iff.mpr hmem, ?_⟩
    · omega
    · rintro n ⟨s, hs, hmark⟩
      exact absurd (hclean s hs) (by simp [show s.mark = _ from hmark])
  refine ⟨fun txid => decide (Taken hord (watched S) k seed txid), fun txid => c.columns S txid
    (decide (Taken hord (watched S) k seed txid)), fun w hw coin_id' node i j txid w₁ hcomes => ?_⟩
  obtain ⟨i₀, j₀, h⟩ := session_knows hc hcoin h₀ hw rfl
  obtain ⟨i', rfl, h₁, hat⟩ := hcomes.knows hc hcoin h
  constructor
  · rintro vin ⟨json_response, json_vins, w₂, w₃, hcall, hvins, hscan⟩
    obtain ⟨hw₂, a, ha, hr⟩ := exec_callRpc rfl hcall
    obtain ⟨result, hres, ⟨vins, hvins', hshow⟩, -⟩ := hc.tx _ _ _ _ _ _ ha hr
    obtain rfl : .arr vins = json_vins := by
      simpa [Json.field_of_find? hres, Json.field_of_find? hvins'] using hvins
    obtain ⟨-, vins', helems, hspent⟩ := exec_post hscan (wp_scanVins _ (D := fun _ => True) trivial)
    obtain rfl : vins = vins' := by simpa using helems
    rw [Bool.eq_iff_iff, decide_eq_true_iff, hspent, spent_iff hshow,
      (h₁.sent hw₂).found_iff hat]
  · intro w₂ hx
    obtain ⟨vin, hvin, hw₂⟩ := exec_post hx (wp_scanTx_writes hc h₁.watch)
    have hv : vin = decide (Taken hord (watched S) k seed txid) := by
      rw [Bool.eq_iff_iff, decide_eq_true_iff, hvin, h₁.found_iff hat]
    refine ⟨(c.txEntries S coin_id' (i' + 1) j txid vin).map Prod.fst, ?_, ?_⟩
    · rw [hw₂.buf, List.map_map]
      rfl
    · change _ = c.columns S txid (decide (Taken hord (watched S) k seed txid))
      rw [List.map_map, ← hv]
      exact cols_txEntries coin_id' (i' + 1) j txid vin

/-- The node never gives the third block. -/
def twoBlocks (_ : ℕ) (r : Request) : Answer :=
  match r.data.find? "params" with
  | some (.arr [.int 3]) => .down
  | _ => twoTxs.node 3 r

lemma twoBlocks_honest : twoTxs.Honest (.clear twoBlocks) := by
  refine honest_of_node (fun _ => 3) fun t url auth d _ => ?_
  simp only [twoBlocks]
  split
  · exact Or.inl rfl
  · exact Or.inr rfl

abbrev btcNode : NodeInfo := ⟨1, "node", "auth", "wallet", "auth"⟩

def left {α : Type} (p : Scan α) (w : World) : World := (run (serve twoBlocks) p w).2

lemma exec_left {α : Type} {p : Scan α} {w : World} {a : α}
    (h : (run (serve twoBlocks) p w).1 = .done a) :
    Exec (env (.clear twoBlocks)) p w (.done a) (left p w) :=
  h ▸ exec_run (serve_answers twoBlocks) p w

def callNode (post : Json) : Scan Reply := callRpc "node" "auth" post

/-- The first block, which ends before the one with the spend. -/
def firstBlock : Scan (Flow × Unit) := loop (fun i (_ : Unit) => do
  let fl ← scanBlock btcNode 1 3 i
  pure (fl, ())) (List.range' 1 1) ()

/-- The world in which a scan comes to the spend. -/
def beforeSpend (w : World) : World :=
  left (callNode (getblock "second")) (left (callNode (getblockhash 2))
    (left firstBlock (left (callNode getblockcount) w)))

/-- The call of the scanner that the third block ends. -/
def interrupted : World := left scanBTC (smallProcess [(1, 0)])

lemma comes_spend {w : World}
    (hcurrent : (run (serve twoBlocks) (getCurrentHeight "BTC") w).1 = .done (some (1, 0)))
    (hleft : left (getCurrentHeight "BTC") w = w)
    (hnode : w.vars.map_coinid_node_.lookup 1 = some btcNode)
    (hfirst : (run (serve twoBlocks) firstBlock (left (callNode getblockcount) w)).1 =
      .done (.next, ())) :
    Comes (.clear twoBlocks) w 1 btcNode 2 0 "moved" (beforeSpend w) := by
  have hread := exec_left hcurrent
  rw [hleft] at hread
  have htip : blockCount (.obj [("result", .int 3), ("error", .null)]) = .ok 3 :=
    Json.getUInt64_natCast (n := 3) (by norm_num)
  refine .mk hread hnode (exec_left rfl) htip (by decide) (by decide) (exec_left hfirst)
    (exec_left rfl) rfl (exec_left rfl) rfl .ret rfl

lemma comes_first : Comes (.clear twoBlocks) (smallProcess [(1, 0)]) 1 btcNode 2 0 "moved"
    (beforeSpend (smallProcess [(1, 0)])) :=
  comes_spend rfl rfl rfl rfl

lemma comes_again : Comes (.clear twoBlocks) interrupted 1 btcNode 2 0 "moved"
    (beforeSpend interrupted) :=
  comes_spend rfl rfl rfl rfl

def spendRow : Txutxo := ⟨"moved", 0, "C", "10000000.000000", some 1, ⟨1, 2, 0, 0, 0⟩⟩

/-- After the interrupted call the payment, which comes after the stored height, is remembered;
and the call after it takes the spend for one and writes its row, as the first one did. -/
theorem same_twoTxs : Remembered interrupted "paid" ∧
    (∀ vin, Judges (.clear twoBlocks) btcNode "moved" vin (beforeSpend interrupted) → vin = true) ∧
    ∀ w₂, Exec (env (.clear twoBlocks)) (scanTx btcNode 1 2 (.str "moved") 0)
        (beforeSpend interrupted) (.done .next) w₂ →
      ∃ rows : List Txutxo, w₂.vars.vect_sql_ =
          (beforeSpend interrupted).vars.vect_sql_ ++ rows.map .txutxo ∧
        rows.map Txutxo.cols = [spendRow.cols] := by
  obtain ⟨V, sql, h⟩ := same_each_time twoBlocks_honest twoTxs_ordered (smallProcess [(1, 0)]) (by
    rintro s ⟨⟩)
  have hsession : Session (.clear twoBlocks) (fun p _ => p = scanBTC) (smallProcess [(1, 0)]) true
      interrupted := by
    refine session_calls twoBlocks [scanBTC] (smallProcess [(1, 0)]) fun pre p post hps => ?_
    have hp : p ∈ [scanBTC] := by simp [hps]
    simpa using hp
  obtain ⟨hverdict, hrows⟩ := h _ .begin _ _ _ _ _ _ comes_first
  have hV : V "moved" = true :=
    (hverdict true ⟨_, _, _, left (scanVins (.arr [(⟨some "paid", 1⟩ : Vin).json])) _,
      exec_left rfl, rfl, exec_left rfl⟩).symm
  have hsql : sql "moved" = [spendRow.cols] := by
    obtain ⟨rows, hbuf, hcols⟩ := hrows _ (exec_left rfl)
    have hwritten : (left (scanTx btcNode 1 2 (.str "moved") 0)
        (beforeSpend (smallProcess [(1, 0)]))).vars.vect_sql_ =
        (beforeSpend (smallProcess [(1, 0)])).vars.vect_sql_ ++ [spendRow].map .txutxo := by
      decide +kernel
    have hmap := List.append_cancel_left (hbuf.symm.trans hwritten)
    rw [← hcols, List.map_injective_iff.mpr (fun _ _ => Stmt.txutxo.inj) hmap]
    rfl
  obtain ⟨hverdict', hrows'⟩ := h _ hsession _ _ _ _ _ _ comes_again
  refine ⟨by decide, fun vin hvin => (hverdict' vin hvin).trans hV, fun w₂ hx => ?_⟩
  rw [← hsql]
  exact hrows' w₂ hx

end OpenWallet.Monitor.Btc
