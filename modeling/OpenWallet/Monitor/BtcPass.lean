import OpenWallet.Monitor.Pass
import OpenWallet.Monitor.Btc

/-!
`scanBTC` as a scanner: the grounds on which it records an output, leaves a block and stores a
height, and the proof that it acts on no others.
-/

namespace OpenWallet.Monitor.Btc

open Lib Prog

variable (x : Weather) (t₀ : ℕ) (node : NodeInfo)

def getblockhash (i : ℕ) : Json := structRpc "getblockhash" (.arr [.int i])
def getblock (block_hash : String) : Json := structRpc "getblock" (.arr [.str block_hash])
def getrawtransaction (txid : String) : Json :=
  structRpc "getrawtransaction" (.arr [.str txid, .bool true])

/-- What `scanBlock` reads off a `getblockhash` and a `getblock` reply. -/
def blockHash (j : Json) : Except Exn String := do (← j.field "result").getStr
def blockTxs (j : Json) : Except Exn (List Json) := do
  (← (← j.field "result").field "tx").elems

/-- What `scanTx` reads off a `getrawtransaction` reply. -/
def txVins (j : Json) : Except Exn (List Json) := do
  (← (← j.field "result").field "vin").elems
def txVouts (j : Json) : Except Exn (List Json) := do
  (← (← j.field "result").field "vout").elems

/-- What `scanBTC` reads off a `getblockcount` reply. -/
def blockCount (j : Json) : Except Exn ℕ := do (← j.field "result").getUInt64

def getblockcount : Json := structRpc "getblockcount" (.arr [])

abbrev Tip (w : World) (height : ℕ) : Prop :=
  Learnt x t₀ w node.node_url node.node_auth getblockcount blockCount height

def Listed (w : World) (i : ℕ) (txs : List Json) : Prop :=
  ∃ hash, Learnt x t₀ w node.node_url node.node_auth (getblockhash i) blockHash hash ∧
    Learnt x t₀ w node.node_url node.node_auth (getblock hash) blockTxs txs

abbrev Read (w : World) (txid : String) (vouts : List Json) : Prop :=
  Learnt x t₀ w node.node_url node.node_auth (getrawtransaction txid) txVouts vouts

abbrev Inputs (w : World) (txid : String) (vins : List Json) : Prop :=
  Learnt x t₀ w node.node_url node.node_auth (getrawtransaction txid) txVins vins

variable {x t₀ node} in
lemma Listed.mono {w w' : World} {i : ℕ} {txs : List Json} (h : Listed x t₀ node w i txs)
    (hw : w.wire <+: w'.wire) : Listed x t₀ node w' i txs := by
  obtain ⟨hash, h1, h2⟩ := h
  exact ⟨hash, h1.mono hw, h2.mono hw⟩

variable (S : List (String × ℤ))

abbrev watched (address : String) : Prop := (S.lookup address).isSome

def row (src : Src) (txid : String) (vin : Bool) (number : ℤ) (value address : String) :
    Txutxo :=
  if watched S address then ⟨txid, src.slot, address, value, some (if vin then 2 else 0), src⟩
  else ⟨txid, number, address, value, some 1, src⟩

section

variable (src : Src) (txid : String) (vin : Bool) (number : ℤ) (value address : String)

@[simp] lemma row_src : (row S src txid vin number value address).src = src := by
  unfold row; split <;> rfl

@[simp] lemma row_txid : (row S src txid vin number value address).txid = txid := by
  unfold row; split <;> rfl

@[simp] lemma row_address : (row S src txid vin number value address).address = address := by
  unfold row; split <;> rfl

end

/-- Some input names a transaction that is remembered. -/
def Spent (K : List (String × String)) (vins : List Json) : Prop :=
  ∃ json_vin ∈ vins, ∃ txid, json_vin.find? "txid" = some (.str txid) ∧ (K.lookup txid).isSome

/-- The address `n` of the output `k` of the transaction `j` of a block pays what is recorded. -/
structure Pays (w : World) (i : ℕ) (src : Src) (txid : String) (number : ℤ)
    (value address : String) : Prop where
  height : src.height = i
  tx : ∃ txs, Listed x t₀ node w i txs ∧ txs[src.tx]? = some (.str txid)
  out : ∃ vouts json_vout addresses, Read x t₀ node w txid vouts ∧
    vouts[src.out]? = some json_vout ∧ vout json_vout = .ok (some (number, value, addresses)) ∧
    addresses[src.slot]? = some (.str address)

variable {x t₀ node} in
lemma Pays.mono {w w' : World} {i : ℕ} {src : Src} {txid : String} {number : ℤ}
    {value address : String} (h : Pays x t₀ node w i src txid number value address)
    (hw : w.wire <+: w'.wire) : Pays x t₀ node w' i src txid number value address := by
  obtain ⟨hh, ⟨txs, h1, h2⟩, vouts, json_vout, addresses, h3, h4⟩ := h
  exact ⟨hh, ⟨txs, h1.mono hw, h2⟩, vouts, json_vout, addresses, h3.mono hw, h4⟩

/-- The address `n` of an output has its row, where it is watched or the transaction spends. -/
def Entered (txid : String) (vin : Bool) (number : ℤ) (value : String) (l : List Stmt)
    (json_address : Json) (n : ℕ) : Prop :=
  ∀ address, json_address = .str address → (watched S address ∨ vin = true) →
    ∃ src, src.slot = n ∧ .txutxo (row S src txid vin number value address) ∈ l

def Recorded (txid : String) (vin : Bool) (number : ℤ) (value : String) (l : List Stmt)
    (addresses : List Json) : Prop :=
  ∀ n json_address, addresses[n]? = some json_address →
    Entered S txid vin number value l json_address n

def OutDone (txid : String) (vin : Bool) (l : List Stmt) (json_vout : Json) : Prop :=
  ∀ number value addresses, vout json_vout = .ok (some (number, value, addresses)) →
    Recorded S txid vin number value l addresses

variable (V : String → Bool → Prop)

/-- The outputs of a transaction are recorded, after a verdict on its inputs. -/
def TxDone (w : World) (json_tx : Json) : Prop :=
  ∃ txid vin vouts, json_tx = .str txid ∧ V txid vin ∧ Read x t₀ node w txid vouts ∧
    ∀ json_vout ∈ vouts, OutDone S txid vin (otc.total w) json_vout

/-- Every transaction of a block has been read, and every output that pays a watched address
recorded. -/
def Done (w : World) (i : ℕ) : Prop :=
  ∃ txs, Listed x t₀ node w i txs ∧ ∀ json_tx ∈ txs, TxDone x t₀ node S V w json_tx

/-- The transaction after `l` is next in a block, and its inputs are looked up. -/
structure Looked (w : World) (i : ℕ) (l : List Json) (txid : String) (vin : Bool) : Prop where
  tx : ∃ l', Listed x t₀ node w i (l ++ .str txid :: l')
  before : ∀ json_tx ∈ l, TxDone x t₀ node S V w json_tx
  found : ∃ vins, Inputs x t₀ node w txid vins ∧ (vin = true ↔ Spent w.vars.s_txid_address vins)

/-- The verdict `V` is one the scanner may come to: it is passed on the inputs of each
transaction, and a transaction that pays a watched address and does not spend is remembered. -/
def grounds (coin_id : ℤ) (height : ℕ) : Grounds where
  coin_id := coin_id
  credit i s b w := ∃ src txid vin number value address,
    Pays x t₀ node w i src txid number value address ∧ V txid vin ∧
    s = .txutxo (row S src txid vin number value address) ∧
    b = some (callback "address" value "BTC" number address txid false) ∧
    (watched S address ∨ vin = true) ∧
    (watched S address → vin = false → (w.vars.s_txid_address.lookup txid).isSome)
  track i txid w := V txid false ∧ ∃ src number value address,
    Pays x t₀ node w i src txid number value address ∧ watched S address
  done i w := Done x t₀ node S V w i
  marks i := i % 100 = 0 ∨ i = height
  skip _ _ := False

/-! ### The scanner acts on these grounds -/

section

variable {x t₀ node S} {w : World} {D : World → Prop}

lemma wp_scanVins (json_vins : Json) (hD : D w) :
    wp (env x) (scanVins json_vins) (fun vin w₁ => w₁ = w ∧
      ∃ vins, json_vins.elems = .ok vins ∧ (vin = true ↔ Spent w.vars.s_txid_address vins))
      D w := by
  simp only [scanVins, wp_bind, liftM_eq, wp_lift]
  refine ⟨fun vins hvins => ?_, fun _ _ => hD⟩
  refine wp_mono (wp_loop
    (I := fun l vin w₁ => w₁ = w ∧ vin = false ∧ ¬ Spent w.vars.s_txid_address l)
    (B := fun l vin w₁ => w₁ = w ∧ vin = true ∧ Spent w.vars.s_txid_address l) vins
    ⟨rfl, rfl, by simp [Spent]⟩ ?_) ?_ fun _ h => h
  · rintro l json_vin - vin w₁ - ⟨rfl, rfl, hnot⟩
    have hnext : (∀ txid, json_vin.find? "txid" = some (.str txid) →
        ¬ (w₁.vars.s_txid_address.lookup txid).isSome) →
        ¬ Spent w₁.vars.s_txid_address (l ++ [json_vin]) := by
      rintro h ⟨j, hj, txid, htxid, hk⟩
      rcases List.mem_append.mp hj with hj | hj
      · exact hnot ⟨j, hj, txid, htxid, hk⟩
      · exact h txid (List.mem_singleton.mp hj ▸ htxid) hk
    split
    · next hnone => exact ⟨rfl, rfl, hnext (by simp [hnone])⟩
    · next json_txid hsome =>
      simp only [wp_bind, wp_lift, wp_get, Json.getStr_eq_ok]
      refine ⟨fun pre_txid htxid => ⟨fun _ => hD, ?_⟩, fun _ _ => hD⟩
      subst htxid
      split
      · next hk => exact ⟨rfl, rfl, json_vin, by simp, pre_txid, hsome, hk⟩
      · next hk =>
        refine ⟨rfl, rfl, hnext fun txid htxid => ?_⟩
        obtain rfl : pre_txid = txid := by simpa [hsome] using htxid
        exact hk
  · rintro ⟨fl, b⟩ w₁ hr
    cases fl with
    | next =>
      obtain ⟨rfl, rfl, hnot⟩ := hr
      exact ⟨rfl, vins, hvins, by simpa using hnot⟩
    | brk =>
      obtain ⟨l, l', hl, rfl, rfl, hspent⟩ := hr
      refine ⟨rfl, vins, hvins, ?_⟩
      obtain ⟨j, hj, h⟩ := hspent
      simpa using ⟨j, by simp [hl, hj], h⟩

variable {coin_id : ℤ} {height i : ℕ} {G : Grounds}

variable {V : String → Bool → Prop}

lemma Recorded.mono {txid : String} {vin : Bool} {number : ℤ} {value : String}
    {l l' : List Stmt} {addresses : List Json}
    (h : Recorded S txid vin number value l addresses) (hl : l ⊆ l') :
    Recorded S txid vin number value l' addresses := by
  intro n json_address ha address hj hw
  obtain ⟨src, hslot, hr⟩ := h n json_address ha address hj hw
  exact ⟨src, hslot, hl hr⟩

lemma Recorded.concat {txid : String} {vin : Bool} {number : ℤ} {value : String}
    {l : List Stmt} {addresses : List Json} {json_address : Json}
    (h : Recorded S txid vin number value l addresses)
    (h' : Entered S txid vin number value l json_address addresses.length) :
    Recorded S txid vin number value l (addresses ++ [json_address]) := by
  intro n json_address' ha
  rcases lt_or_ge n addresses.length with hn | hn
  · rw [List.getElem?_append_left hn] at ha
    exact h n _ ha
  · rw [List.getElem?_append_right hn, List.getElem?_singleton] at ha
    split at ha
    · next h0 =>
      obtain rfl : n = addresses.length := by omega
      obtain rfl := Option.some.inj ha
      exact h'
    · cases ha

lemma wp_scanAddress {j k n : ℕ} {txid : String} {vin : Bool} {number : ℤ} {value : String}
    {json_address : Json} (hG : G = grounds x t₀ node S V coin_id height)
    (hS : w.vars.s_address_id_btc = S) (hV : V txid vin)
    (hpay : ∀ address, json_address = .str address →
      Pays x t₀ node w (i + 1) ⟨coin_id, i + 1, j, k, n⟩ txid number value address) :
    wp (env x) (scanAddress ⟨coin_id, i + 1, j, k, n⟩ txid vin number value json_address n)
      (fun _ w₁ => Steps x G ⟨w, i, place j k n 0⟩ ⟨w₁, i, place j k (n + 1) 0⟩ ∧
        Entered S txid vin number value (otc.total w₁) json_address n)
      (Fallen x G ⟨w, i, place j k n 0⟩) w := by
  simp only [scanAddress, wp_bind, liftM_eq, wp_lift, wp_get, Json.getStr_eq_ok, hS]
  refine ⟨fun address hj => ⟨fun _ => fallen_self _, ?_⟩, fun _ _ => fallen_self _⟩
  subst hj
  have hplace : place j k n 0 ≤ place j k n 1 := by simp [place_le]
  have hplace' : place j k n 1 < place j k (n + 1) 0 := by simp [place_lt]
  have hcredit : ∀ w', Frame w w' → (watched S address ∨ vin = true) →
      (watched S address → vin = false → (w'.vars.s_txid_address.lookup txid).isSome) →
      G.credit (i + 1)
        (.txutxo (row S ⟨coin_id, i + 1, j, k, n⟩ txid vin number value address))
        (some (callback "address" value "BTC" number address txid false)) w' := by
    intro w' hw h h'
    subst hG
    exact ⟨_, _, _, _, _, _, (hpay address rfl).mono hw.wire, hV, rfl, rfl, h, h'⟩
  have hkey : G.coin_id = coin_id := by rw [hG]; rfl
  by_cases hwatch : watched S address
  · -- the row goes out after the transaction is remembered, or without that
    have hrow : ∀ w', Steps x G ⟨w, i, place j k n 0⟩ ⟨w', i, place j k n 0⟩ →
        (vin = false → (w'.vars.s_txid_address.lookup txid).isSome) →
        wp (env x) (do
          push_back (.txutxo ⟨txid, n, address, value, some (if vin then 2 else 0),
            ⟨coin_id, i + 1, j, k, n⟩⟩)
          callbackTransaction (callback "address" value "BTC" number address txid false))
        (fun _ w₁ => Steps x G ⟨w, i, place j k n 0⟩ ⟨w₁, i, place j k (n + 1) 0⟩ ∧
          Entered S txid vin number value (otc.total w₁) (.str address) n)
        (Fallen x G ⟨w, i, place j k n 0⟩) w' := by
      intro w' hs hk
      have hc := hcredit w' hs.frame (Or.inl hwatch) fun _ => hk
      have hr : row S ⟨coin_id, i + 1, j, k, n⟩ txid vin number value address =
          ⟨txid, n, address, value, some (if vin then 2 else 0), ⟨coin_id, i + 1, j, k, n⟩⟩ := by
        rw [row, if_pos hwatch]
      rw [hr] at hc
      refine wp_mono (wp_credit hc (hkey ▸ rfl) hplace hplace') (fun _ w₁ h => ?_)
        fun _ hf => hf.of_steps hs
      refine ⟨hs.trans h.1, fun address' ha _ => ?_⟩
      obtain rfl : address = address' := Json.str.inj ha
      exact ⟨_, rfl, by rw [hr]; exact h.2⟩
    rw [if_pos hwatch]
    split
    · next hvin =>
      rw [wp_bind, wp_modify]
      have htrack : G.track (i + 1) txid w := by
        subst hG
        obtain rfl : vin = false := by simpa using hvin
        exact ⟨hV, _, _, _, _, hpay address rfl, hwatch⟩
      exact ⟨fun _ => fallen_self _, hrow (w.track txid address)
        (.single (.quiet (.track address htrack))) fun _ => by simp [World.track]⟩
    · next hvin => exact hrow w .refl fun h => absurd h (by simpa using hvin)
  · rw [if_neg hwatch]
    split
    · next hvin =>
      have hc := hcredit w (Frame.refl w) (Or.inr hvin) fun h => absurd h hwatch
      have hr : row S ⟨coin_id, i + 1, j, k, n⟩ txid vin number value address =
          ⟨txid, number, address, value, some 1, ⟨coin_id, i + 1, j, k, n⟩⟩ := by
        rw [row, if_neg hwatch]
      rw [hr] at hc
      refine wp_mono (wp_credit hc (hkey ▸ rfl) hplace hplace') (fun _ w₁ h => ⟨h.1, ?_⟩)
        fun _ h => h
      intro address' ha _
      obtain rfl : address = address' := Json.str.inj ha
      exact ⟨_, rfl, by rw [hr]; exact h.2⟩
    · next hvin =>
      refine ⟨.single (.room (hplace.trans hplace'.le)), fun address' ha h => ?_⟩
      obtain rfl : address = address' := Json.str.inj ha
      exact absurd h (not_or.mpr ⟨hwatch, hvin⟩)

lemma wp_scanVout {j k : ℕ} {txid : String} {vin : Bool} {json_vout : Json}
    (hG : G = grounds x t₀ node S V coin_id height) (hS : w.vars.s_address_id_btc = S)
    (hV : V txid vin) (hpay : ∀ number value addresses n address,
      vout json_vout = .ok (some (number, value, addresses)) →
      addresses[n]? = some (.str address) →
      Pays x t₀ node w (i + 1) ⟨coin_id, i + 1, j, k, n⟩ txid number value address) :
    wp (env x) (scanVout coin_id (i + 1) j txid vin json_vout k)
      (fun _ w₁ => Steps x G ⟨w, i, place j k 0 0⟩ ⟨w₁, i, place j (k + 1) 0 0⟩ ∧
        OutDone S txid vin (otc.total w₁) json_vout)
      (Fallen x G ⟨w, i, place j k 0 0⟩) w := by
  simp only [scanVout, wp_bind, liftM_eq, wp_lift]
  refine ⟨fun r hr => ?_, fun _ _ => fallen_self _⟩
  rcases r with _ | ⟨number, value, addresses⟩
  · refine ⟨.single (.room (by simp [place_le])), fun _ _ _ h => ?_⟩
    rw [hr] at h
    cases h
  · refine wp_mono (wp_forEach_zipIdx (I := fun l w₁ =>
      Steps x G ⟨w, i, place j k 0 0⟩ ⟨w₁, i, place j k l.length 0⟩ ∧
      Recorded S txid vin number value (otc.total w₁) l) addresses ⟨.refl, ?_⟩ ?_) (fun _ w₁ h => ⟨?_, ?_⟩)
      fun _ h => h
    · simp [Recorded]
    · rintro l json_address l' w₁ hl ⟨hs, hrec⟩
      refine wp_mono (wp_scanAddress hG (hs.frame.btc.trans hS) hV ?_) (fun _ w₂ h => ?_)
        fun _ hf => hf.of_steps hs
      · rintro address rfl
        exact (hpay number value addresses l.length address hr (by simp [hl])).mono
          hs.frame.wire
      · simp only [List.length_append, List.length_singleton]
        exact ⟨hs.trans h.1, (hrec.mono h.1.total_subset).concat h.2⟩
    · exact h.1.tail (.room (by simp [place_le]))
    · intro number' value' addresses' h'
      rw [hr] at h'
      cases h'
      exact h.2

lemma TxDone.mono {w' : World} {json_tx : Json} (h : TxDone x t₀ node S V w json_tx)
    (hw : w.wire <+: w'.wire) (hl : otc.total w ⊆ otc.total w') :
    TxDone x t₀ node S V w' json_tx := by
  obtain ⟨txid, vin, vouts, h1, h2, h3, h4⟩ := h
  exact ⟨txid, vin, vouts, h1, h2, h3.mono hw, fun v hv n a l hr => (h4 v hv n a l hr).mono hl⟩

/-- One transaction, on whose inputs the scanner comes to a verdict. -/
lemma wp_scanTx {json_tx : Json} {l l' : List Json}
    (hG : G = grounds x t₀ node S V coin_id height) (hS : w.vars.s_address_id_btc = S)
    (ht : t₀ ≤ w.wire.length) (hlist : Listed x t₀ node w (i + 1) (l ++ json_tx :: l'))
    (hbefore : ∀ t ∈ l, TxDone x t₀ node S V w t)
    (hV : ∀ w₁ txid vin,
      Steps x G ⟨w, i, place l.length 0 0 0⟩ ⟨w₁, i, place l.length 0 0 0⟩ →
      Looked x t₀ node S V w₁ (i + 1) l txid vin → V txid vin) :
    wp (env x) (scanTx node coin_id (i + 1) json_tx l.length) (fun fl w₁ => match fl with
        | .next => Steps x G ⟨w, i, place l.length 0 0 0⟩
            ⟨w₁, i, place (l.length + 1) 0 0 0⟩ ∧ TxDone x t₀ node S V w₁ json_tx
        | .brk => (∃ p, Steps x G ⟨w, i, place l.length 0 0 0⟩ ⟨w₁, i, p⟩) ∧ Stopped x t₀ w₁)
      (Fallen x G ⟨w, i, place l.length 0 0 0⟩) w := by
  simp only [scanTx, wp_bind, liftM_eq, wp_lift, Json.getStr_eq_ok]
  refine ⟨fun txid htx => ?_, fun _ _ => fallen_self _⟩
  subst htx
  refine wp_mono (wp_callRpc rfl ht) (fun r w₁ hpost => ?_) fun _ h => h
  obtain ⟨hs, htold, hrefused⟩ := hpost
  rcases r with jr | _ | jr
  · have hfall : Fallen x G ⟨w, i, place l.length 0 0 0⟩ w₁ := ⟨_, hs, rfl, rfl⟩
    simp only [wp_bind, wp_lift]
    refine ⟨fun result hres => ⟨fun json_vins hvins => ⟨fun json_vouts hvouts => ?_,
      fun _ _ => hfall⟩, fun _ _ => hfall⟩, fun _ _ => hfall⟩
    refine wp_mono (wp_scanVins json_vins hfall) ?_ fun _ h => h
    rintro vin w₁ ⟨rfl, vins, helems, hspent⟩
    refine ⟨fun vouts hv => ?_, fun _ _ => hfall⟩
    have hread : Read x t₀ node w₁ txid vouts :=
      ⟨jr, htold jr rfl, by simp [txVouts, hres, hvouts, hv]⟩
    have hinputs : Inputs x t₀ node w₁ txid vins :=
      ⟨jr, htold jr rfl, by simp [txVins, hres, hvins, helems]⟩
    have hverdict : V txid vin := hV w₁ txid vin hs
      ⟨⟨l', hlist.mono hs.frame.wire⟩,
        fun t ht => (hbefore t ht).mono hs.frame.wire hs.total_subset, vins, hinputs, hspent⟩
    refine wp_mono (wp_forEach_zipIdx (I := fun k w₂ =>
        Steps x G ⟨w₁, i, place l.length 0 0 0⟩ ⟨w₂, i, place l.length k.length 0 0⟩ ∧
        ∀ json_vout ∈ k, OutDone S txid vin (otc.total w₂) json_vout) vouts ⟨.refl, by simp⟩ ?_)
      (fun _ w₂ h => ⟨?_, ?_⟩) fun w₂ hf => Fallen.of_steps hs hf
    · rintro k json_vout k' w₂ hk ⟨hs', hdone⟩
      have hf := hs.frame.trans hs'.frame
      refine wp_mono (wp_scanVout hG (hf.btc.trans hS) hverdict ?_) (fun _ w₃ h => ?_)
        fun _ hf => hf.of_steps hs'
      · intro number value addresses n address hvout ha
        exact ⟨rfl, ⟨_, hlist.mono hf.wire, by simp⟩, vouts, json_vout, addresses,
          hread.mono hs'.frame.wire, by simp [hk], hvout, ha⟩
      · refine ⟨by simpa using hs'.trans h.1, fun v hv => ?_⟩
        rcases List.mem_append.mp hv with hv | hv
        · exact fun n a l hr => (hdone v hv n a l hr).mono h.1.total_subset
        · exact List.mem_singleton.mp hv ▸ h.2
    · exact (hs.trans h.1).tail (.room (by simp [place_le]))
    · exact ⟨txid, vin, vouts, rfl, hverdict, hread.mono h.1.frame.wire, h.2⟩
  · exact ⟨⟨_, hs⟩, _, _, _, hrefused (by simp)⟩
  · exact ⟨⟨_, hs⟩, _, _, _, hrefused (by simp)⟩

lemma wp_scanBlock (hG : G = grounds x t₀ node S V coin_id height)
    (hS : w.vars.s_address_id_btc = S) (ht : t₀ ≤ w.wire.length)
    (hV : ∀ w₁ l txid vin, Steps x G ⟨w, i, ⊥⟩ ⟨w₁, i, place l.length 0 0 0⟩ →
      Looked x t₀ node S V w₁ (i + 1) l txid vin → V txid vin) :
    wp (env x) (scanBlock node coin_id height (i + 1)) (fun fl w₁ => match fl with
        | .next => Steps x G ⟨w, i, ⊥⟩ ⟨w₁, i + 1, ⊥⟩
        | .brk => (∃ p, Steps x G ⟨w, i, ⊥⟩ ⟨w₁, i, p⟩) ∧ Stopped x t₀ w₁)
      (Fallen x G ⟨w, i, ⊥⟩) w := by
  simp only [scanBlock, wp_bind]
  refine wp_mono (wp_callRpc rfl ht) (fun r w₁ hpost => ?_) fun _ h => h
  obtain ⟨hs, htold, hrefused⟩ := hpost
  rcases r with j | _ | j
  · have hfall : Fallen x G ⟨w, i, ⊥⟩ w₁ := ⟨_, hs, rfl, rfl⟩
    simp only [wp_bind, liftM_eq, wp_lift]
    refine ⟨fun result hres => ⟨fun hash hhash => ?_, fun _ _ => hfall⟩, fun _ _ => hfall⟩
    have ht₁ : t₀ ≤ w₁.wire.length := ht.trans hs.frame.wire.length_le
    refine wp_mono (wp_callRpc rfl ht₁) (fun r w₂ hpost => ?_)
      fun _ hf => Fallen.of_steps hs hf
    obtain ⟨hs', htold', hrefused'⟩ := hpost
    rcases r with j' | _ | j'
    · have hfall' : Fallen x G ⟨w, i, ⊥⟩ w₂ := ⟨_, hs.trans hs', rfl, rfl⟩
      simp only [wp_bind, wp_lift]
      refine ⟨fun result' hres' => ⟨fun json_txs htxs => ⟨fun txs hl => ?_, fun _ _ => hfall'⟩,
        fun _ _ => hfall'⟩, fun _ _ => hfall'⟩
      have hlist : Listed x t₀ node w₂ (i + 1) txs :=
        ⟨hash, ⟨j, (htold j rfl).mono hs'.frame.wire, by simp [blockHash, hres, hhash]⟩,
          j', htold' j' rfl, by simp [blockTxs, hres', htxs, hl]⟩
      refine wp_mono (wp_txs (T := TxDone x t₀ node S V) (L := fun w _ => Stopped x t₀ w) txs ()
        (fun _ _ _ hw hl h => h.mono hw hl) ?_) ?_ fun _ hf => Fallen.of_steps (hs.trans hs') hf
      · rintro l json_tx l' _ w₃ rfl hs₃ hbefore
        have hall : Steps x G ⟨w, i, ⊥⟩ ⟨w₃, i, place l.length 0 0 0⟩ :=
          (hs.trans hs').trans hs₃
        rw [wp_bind]
        refine wp_mono (wp_scanTx hG (hall.frame.btc.trans hS)
          (ht.trans hall.frame.wire.length_le) (hlist.mono hs₃.frame.wire) hbefore
          fun w₄ txid vin hs₄ => hV w₄ l txid vin (hall.trans hs₄)) ?_ fun _ h => h
        intro fl w₄ h
        cases fl <;> exact h
      · rintro ⟨fl, b⟩ w₃ ⟨⟨p, hs₃⟩, h⟩
        cases fl with
        | brk =>
          obtain ⟨-, -, hstop⟩ := h
          exact ⟨⟨p, (hs.trans hs').trans hs₃⟩, hstop⟩
        | next =>
          have hd : G.done (i + 1) w₃ := by
            subst hG
            exact ⟨txs, hlist.mono hs₃.frame.wire, h⟩
          have hall := (hs.trans hs').trans hs₃
          subst hG
          refine wp_mono (wp_leave hd Iff.rfl) ?_ fun _ hf => Fallen.of_steps hall hf
          rintro _ w₄ ⟨rfl, h⟩
          exact hall.trans h
    · exact ⟨⟨_, hs.trans hs'⟩, _, _, _, hrefused' (by simp)⟩
    · exact ⟨⟨_, hs.trans hs'⟩, _, _, _, hrefused' (by simp)⟩
  · exact ⟨⟨_, hs⟩, _, _, _, hrefused (by simp)⟩
  · exact ⟨⟨_, hs⟩, _, _, _, hrefused (by simp)⟩

/-- **`scanBTC` is a scanner**: whatever its surroundings do, it acts on its grounds only, and it
stops before the tip only where a call has failed. Its verdicts are `V` where the lookups give
no others. -/
theorem wp_scanBTC (w : World) (V : String → Bool → Prop)
    (hV : ∀ coin_id pre_height node height i w₁ l txid vin,
      Begun w "BTC" coin_id pre_height node →
      Steps x (grounds x w.wire.length node w.vars.s_address_id_btc V coin_id height)
        ⟨w, pre_height, ⊥⟩ ⟨w₁, i, place l.length 0 0 0⟩ →
      Looked x w.wire.length node w.vars.s_address_id_btc V w₁ (i + 1) l txid vin →
      V txid vin) :
    wp (env x) scanBTC
      (fun _ => Returned x "BTC" id
        (fun node => grounds x w.wire.length node w.vars.s_address_id_btc V)
        (fun node height w' => Tip x w.wire.length node w' height) w)
      (Broken x "BTC" id (fun node => grounds x w.wire.length node w.vars.s_address_id_btc V) w)
      w := by
  refine wp_begin rfl fun coin_id pre_height node j a hbegun hs htold => ?_
  simp only [wp_bind, liftM_eq, wp_lift]
  have hfall : ∃ height, Fallen x (grounds x w.wire.length node w.vars.s_address_id_btc V coin_id
      height) ⟨w, pre_height, ⊥⟩ (w.sent _ a) := ⟨0, _, hs 0, rfl, rfl⟩
  refine ⟨fun result hres => ⟨fun height hheight => ?_, fun _ _ => hfall⟩, fun _ _ => hfall⟩
  have htip : Tip x w.wire.length node (w.sent _ a) height :=
    ⟨j, htold, by simp [blockCount, hres, hheight]⟩
  refine wp_mono (wp_blocks (J := fun _ _ => True) trivial (hs height) ?_)
    (fun _ w₁ h => ⟨height, h.1, htip.mono h.2⟩) fun _ hf => ⟨height, hf⟩
  intro i b w₁ _ _ hs₁ _
  rw [wp_bind]
  refine wp_mono (wp_scanBlock rfl hs₁.frame.btc hs₁.frame.wire.length_le
    fun w₂ l txid vin hs₂ => hV coin_id pre_height node height i w₂ l txid vin hbegun
      (hs₁.trans hs₂)) ?_ fun _ h => h
  intro fl w₂ h
  cases fl with
  | next => exact ⟨h, trivial⟩
  | brk => exact h

/-- Whatever is decided of a transaction. -/
def Either : String → Bool → Prop := fun _ _ => True

end

end OpenWallet.Monitor.Btc
