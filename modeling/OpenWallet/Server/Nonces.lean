import OpenWallet.Server.Web3

/-!
Transfers of one account side by side. Each reads its nonce in one round trip with the node and
uses it in another, and nothing keeps the others out in between.
-/

namespace OpenWallet.Server.Web3

open Lib Prog

/-! ### What a transfer does -/

/-- The call before a transaction is sent is the one that reads its nonce. -/
def Asks : List (Event Ans) → Op → Prop
  | h, .sendRawTransaction tx => ∃ h', h = h' ++ [⟨.getTransactionCount, .ok tx.nonce⟩]
  | _, _ => True

/-- The fee does not pay for the gas of a token transfer. -/
def Meagre (web3 : Package) (fee : Double) (h : List (Event Ans)) : Prop :=
  ∃ feeEth, web3.toWei fee = .ok feeEth ∧ (feeEth < feeMin ∨
    ∃ price, ⟨.gasPrice, .ok price⟩ ∈ h ∧ (gasAndPrice feeEth price true).1 = 0)

/-- A result that reports a success is that of a transaction the node has taken, or of a token
transfer whose fee is too small. -/
def Reports (web3 : Package) (t : Transfer) (h : List (Event Ans)) (resp : PyResp) : Prop :=
  (getResult resp).isSome → (∃ tx data, ⟨.sendRawTransaction tx, .ok data⟩ ∈ h) ∨
    match t with
    | .eth .. => False
    | .token _ _ _ _ fee _ => Meagre web3 fee h

lemma getResult_refused (value : String) : getResult (dumps 1 "data" value) = none := rfl
lemma getResult_message (value : String) : getResult (dumps 1 "message" value) = none := rfl

section

variable {web3 : Package} {h : List (Event Ans)}

lemma follows_getGasPrice : getGasPrice.Follows Asks
    (fun h' price => h' = h ++ [⟨.gasPrice, .ok price⟩]) h := by
  refine follows_bind (P := fun h' r => h' = h ++ [⟨.gasPrice, r⟩]) (follows_op trivial fun _ => rfl) ?_
  rintro h' r rfl
  refine follows_lift fun a ha => ?_
  subst ha
  rfl

lemma follows_getTransactionCount : getTransactionCount.Follows Asks
    (fun h' nonce => h' = h ++ [⟨.getTransactionCount, .ok nonce⟩]) h := by
  refine follows_bind (P := fun h' r => h' = h ++ [⟨.getTransactionCount, r⟩])
    (follows_op trivial fun _ => rfl) ?_
  rintro h' r rfl
  refine follows_lift fun a ha => ?_
  subst ha
  rfl

lemma follows_send {tx : Tx} (hn : Asks h (.sendRawTransaction tx)) :
    (do
      web3.signTransaction tx
      let data ← sendRawTransaction tx
      return dumps 0 "data" data : Py PyResp).Follows Asks
      (fun h' _ => ∃ tx data, ⟨.sendRawTransaction tx, .ok data⟩ ∈ h') h := by
  refine follows_bind (P := fun h' _ => h = h') (follows_lift fun _ _ => rfl) ?_
  rintro _ - rfl
  refine follows_bind (P := fun h' data => h' = h ++ [⟨.sendRawTransaction tx, .ok data⟩]) ?_ ?_
  · refine follows_bind (P := fun h' r => h' = h ++ [⟨.sendRawTransaction tx, r⟩])
      (follows_op hn fun _ => rfl) ?_
    rintro h' r rfl
    refine follows_lift fun a ha => ?_
    subst ha
    rfl
  · rintro _ data rfl
    exact follows_ret ⟨tx, data, by simp⟩

lemma follows_calc (fee : Double) (isERC20 : Bool) : (calcGasAndPrice web3 fee isERC20).Follows Asks
    (fun h' r => isERC20 = true → r.1 = 0 → Meagre web3 fee h') h := by
  refine follows_bind (P := fun h' feeEth => h = h' ∧ web3.toWei fee = .ok feeEth)
    (follows_lift fun a ha => ⟨rfl, ha⟩) ?_
  rintro _ feeEth ⟨rfl, hfee⟩
  split
  · next hmin => exact follows_ret fun _ _ => ⟨feeEth, hfee, Or.inl hmin⟩
  refine follows_bind follows_getGasPrice ?_
  rintro _ price rfl
  split
  · trivial
  · refine follows_ret ?_
    rintro rfl hzero
    exact ⟨feeEth, hfee, Or.inr ⟨price, by simp, hzero⟩⟩

lemma reports_refused (t : Transfer) (value : String) :
    Reports web3 t h (dumps 1 "data" value) := by
  simp [Reports, getResult_refused]

lemma follows_excepts (t : Transfer) (e : PyExn) :
    (excepts e).Follows Asks (Reports web3 t) h := by
  cases e with
  | ValueError err => exact follows_ret (by simp [Reports, getResult_message])
  | Exception => exact follows_ret nofun

lemma follows_pure {α β : Type} {x : Except PyExn α} {f : α → Py β} {P : List (Event Ans) → β → Prop}
    (hf : ∀ a, (f a).Follows Asks P h) : ((liftM x : Py α) >>= f).Follows Asks P h := by
  refine follows_bind (P := fun h' _ => h = h') (follows_lift fun _ _ => rfl) ?_
  rintro _ a rfl
  exact hf a

lemma follows_transfer (t : Transfer) : (t.run web3).Follows Asks (Reports web3 t) [] := by
  cases t with
  | eth privkey «to» amount fee =>
    refine follows_caught ?_ fun _ _ => follows_excepts _ _
    unfold trySign
    split
    · exact follows_ret (reports_refused _ _)
    refine follows_pure fun _ => follows_bind (follows_calc fee false) ?_
    rintro h ⟨gas, price⟩ -
    dsimp only
    split
    · exact follows_ret nofun
    refine follows_bind follows_getTransactionCount ?_
    rintro _ nonce rfl
    refine follows_pure fun chktoaddress => follows_pure fun value => ?_
    exact follows_mono (follows_send ⟨_, rfl⟩) fun _ _ hsent _ => Or.inl hsent
  | token privkey «to» contractAddr amount fee decimals =>
    refine follows_caught ?_ fun _ _ => follows_excepts _ _
    unfold trySignERC20
    split
    · exact follows_ret (reports_refused _ _)
    split
    · exact follows_ret (reports_refused _ _)
    refine follows_pure fun _ => follows_bind (follows_calc fee true) ?_
    rintro h ⟨gas, price⟩ hgas
    dsimp only
    split
    · next hzero => exact follows_ret fun _ => Or.inr (hgas rfl hzero)
    refine follows_bind follows_getTransactionCount ?_
    rintro _ nonce rfl
    refine follows_pure fun chkContractAddr => ?_
    exact follows_mono (follows_send ⟨_, rfl⟩) fun _ _ hsent _ => Or.inl hsent

end

/-! ### Runs -/

section

variable {ι : Type} [DecidableEq ι]

abbrev Transfers (ι : Type) := Threads ι Ans PyExn PyResp Node

/-- The transfers of an account before any of them has begun. -/
def begin (web3 : Package) (calls : ι → Transfer) (w : Node) : Transfers ι :=
  .init (fun i => (calls i).run web3) w

/-- What a transfer that has come to its end is reported as. -/
def reported : Py PyResp → Option String
  | ret resp => getResult resp
  | _ => none

/-- The transfer is reported as a success. -/
def Succeeded (s : Transfers ι) (i : ι) : Prop := (reported (s.prog i)).isSome

/-- The transfer has sent a transaction that the node took. -/
def Sent (s : Transfers ι) (i : ι) (tx : Tx) : Prop :=
  ∃ data, (i, ⟨.sendRawTransaction tx, .ok data⟩) ∈ s.trace

/-- Successes have their own nonces, and their transactions stand. -/
structure Kept (s : Transfers ι) : Prop where
  distinct : ∀ i j, i ≠ j → Succeeded s i → Succeeded s j →
    ∃ tx tx', Sent s i tx ∧ Sent s j tx' ∧ tx.nonce ≠ tx'.nonce
  stands : ∀ i, Succeeded s i → ∃ tx, Sent s i tx ∧ s.world.txs[tx.nonce]? = some tx

/-- The fee of a token transfer is not below the least one. -/
def Ample (web3 : Package) : Transfer → Prop
  | .eth .. => True
  | .token _ _ _ _ fee _ => ∀ feeEth, web3.toWei fee = .ok feeEth → feeMin ≤ feeEth

/-- The fee of a token transfer pays for its gas at this price. -/
def Pays (web3 : Package) (price : ℕ) : Transfer → Prop
  | .eth .. => True
  | .token _ _ _ _ fee _ =>
    ∀ feeEth, web3.toWei fee = .ok feeEth → (gasAndPrice feeEth price true).1 ≠ 0

/-- The fees of token transfers pay for their gas at the prices that they are told. -/
def Paid (web3 : Package) (calls : ι → Transfer) (s : Transfers ι) : Prop :=
  ∀ i price, (i, ⟨.gasPrice, .ok price⟩) ∈ s.trace → Pays web3 price (calls i)

/-- The call asks the node to take a transaction. -/
def Sends (e : Event Ans) : Bool :=
  match e.1 with
  | .sendRawTransaction _ => true
  | _ => false

/-- Between the call by which a transfer reads its nonce and the one by which it sends, no other
transfer sends. -/
def Undisturbed (s : Transfers ι) : Prop :=
  ∀ pre mid post i n tx r, s.trace = pre ++ (i, ⟨.getTransactionCount, .ok n⟩) :: mid ++
      (i, ⟨.sendRawTransaction tx, r⟩) :: post →
    (∀ e ∈ mid, e.1 ≠ i) → ∀ e ∈ mid, ¬ Sends e.2

/-- The transaction that was sent and taken. -/
def taken : ι × Event Ans → Option Tx
  | (_, ⟨.sendRawTransaction tx, .ok _⟩) => some tx
  | _ => none

omit [DecidableEq ι] in
lemma taken_eq_some {e : ι × Event Ans} {tx : Tx} :
    taken e = some tx ↔ ∃ data, e.2 = ⟨.sendRawTransaction tx, .ok data⟩ := by
  obtain ⟨i, o, r⟩ := e
  cases o with
  | sendRawTransaction tx' => cases r <;> simp [taken]
  | _ => simp [taken]

/-- No nonce is used in both. -/
def Apart (e e' : ι × Event Ans) : Prop :=
  ∀ tx tx', taken e = some tx → taken e' = some tx' → tx.nonce ≠ tx'.nonce

instance : Std.Symm (@Apart ι) :=
  ⟨fun _ _ h tx tx' htx htx' => (h tx' tx htx' htx).symm⟩

variable {web3 : Package} {calls : ι → Transfer} {s s' : Transfers ι}

variable (web3 calls) in
/-- What every run keeps: a count stands for the transactions of the account until the next one is
sent. -/
structure Counted (s : Transfers ι) : Prop where
  follows : ∀ i, (s.prog i).Follows Asks (Reports web3 (calls i)) (s.hist i)
  count : ∀ pre mid i n, s.trace = pre ++ (i, ⟨.getTransactionCount, .ok n⟩) :: mid →
    (∀ e ∈ mid, ¬ Sends e.2) → s.world.txs.length = n

/-- What a run without disturbances keeps. -/
structure Orderly (s : Transfers ι) : Prop where
  stands : ∀ e ∈ s.trace, ∀ tx, taken e = some tx → s.world.txs[tx.nonce]? = some tx
  once : s.trace.Pairwise Apart

lemma Counted.begin (w : Node) : Counted web3 calls (begin web3 calls w) :=
  ⟨fun i => follows_transfer (calls i), by simp [Web3.begin, Threads.init]⟩

omit [DecidableEq ι] in
lemma Orderly.begin (w : Node) : Orderly (Web3.begin web3 calls w) :=
  ⟨by simp [Web3.begin, Threads.init], by simp [Web3.begin, Threads.init]⟩

lemma Counted.step (h : Counted web3 calls s)
    (hst : Threads.Step env mines (fun _ _ _ => True) s s') : Counted web3 calls s' := by
  refine ⟨hst.follows h.follows, ?_⟩
  cases hst with
  | @call i o k r w hp hr hok =>
    intro pre mid j n htrace hmid
    rcases List.eq_nil_or_concat' mid with rfl | ⟨mid, e, rfl⟩
    · -- the count is the call of this step
      obtain ⟨-, he⟩ := List.append_inj' htrace rfl
      cases List.singleton_inj.mp he
      obtain ⟨rfl, hn⟩ := hr
      exact (hn n rfl).symm
    · rw [← List.cons_append, ← List.append_assoc] at htrace
      obtain ⟨hbefore, he⟩ := List.append_inj' htrace rfl
      obtain rfl := List.singleton_inj.mp he
      have hold := h.count pre mid j n hbefore fun e he => hmid e (List.mem_append_left _ he)
      have hsend : ¬ Sends ⟨o, r⟩ := hmid _ (List.mem_append_right _ (List.mem_singleton_self _))
      cases o with
      | gasPrice =>
        obtain rfl : w = s.world := hr
        exact hold
      | getTransactionCount =>
        obtain ⟨rfl, -⟩ := hr
        exact hold
      | sendRawTransaction tx => exact absurd rfl hsend
  | move hm =>
    obtain ⟨m, -, rfl⟩ := hm
    exact h.count

/-- A transfer that is not disturbed sends the next transaction of the account. -/
lemma Counted.next (h : Counted web3 calls s) {i : ι} {tx : Tx} {k : Ans (.sendRawTransaction tx) → Py PyResp}
    {r : Except PyExn String} {w : Node} (hp : s.prog i = .call (.sendRawTransaction tx) k)
    (ho : Undisturbed (s.after i (k r) w ⟨.sendRawTransaction tx, r⟩)) :
    tx.nonce = s.world.txs.length := by
  have hf := h.follows i
  rw [hp] at hf
  obtain ⟨⟨h', hlast⟩, -⟩ := hf
  obtain ⟨pre, mid, htrace, hmid⟩ := Threads.exists_last hlast
  have hquiet := ho pre mid [] i tx.nonce tx r (by rw [Threads.after, htrace]) hmid
  exact (h.count pre mid i tx.nonce htrace hquiet).symm

lemma Orderly.quiet (h : Orderly s) {i : ι} {e : Event Ans} {p : Py PyResp} {w : Node}
    (hw : w.txs = s.world.txs) (ht : taken (i, e) = none) : Orderly (s.after i p w e) := by
  refine ⟨?_, ?_⟩
  · intro e' hmem tx htx
    rcases List.mem_append.mp hmem with hmem | hmem
    · exact (congrArg (·[tx.nonce]?) hw).trans (h.stands e' hmem tx htx)
    · rw [List.mem_singleton.mp hmem, ht] at htx
      cases htx
  · refine List.pairwise_append.mpr ⟨h.once, List.pairwise_singleton _ _, ?_⟩
    rintro e₁ - e₂ hmem tx tx' - htx'
    rw [List.mem_singleton.mp hmem, ht] at htx'
    cases htx'

lemma Orderly.fresh (h : Orderly s) {i : ι} {tx : Tx} {r : Except PyExn String}
    {p : Py PyResp} {w : Node} (hn : tx.nonce = s.world.txs.length)
    (hw : w.txs = s.world.txs ++ [tx]) :
    Orderly (s.after i p w ⟨.sendRawTransaction tx, r⟩) := by
  have hlt : ∀ e ∈ s.trace, ∀ tx', taken e = some tx' → tx'.nonce < s.world.txs.length :=
    fun e hmem tx' htx => (List.getElem?_eq_some_iff.mp (h.stands e hmem tx' htx)).1
  have hnew : ∀ tx', taken (i, (⟨.sendRawTransaction tx, r⟩ : Event Ans)) = some tx' → tx' = tx := by
    intro tx' htx
    obtain ⟨data, hdata⟩ := taken_eq_some.mp htx
    cases hdata
    rfl
  refine ⟨?_, ?_⟩
  · intro e hmem tx' htx
    change w.txs[tx'.nonce]? = some tx'
    rw [hw]
    rcases List.mem_append.mp hmem with hmem | hmem
    · rw [List.getElem?_append_left (hlt e hmem tx' htx)]
      exact h.stands e hmem tx' htx
    · rw [List.mem_singleton.mp hmem] at htx
      rw [hnew tx' htx, hn, List.getElem?_concat_length]
  · refine List.pairwise_append.mpr ⟨h.once, List.pairwise_singleton _ _, ?_⟩
    rintro e₁ he₁ e₂ he₂ tx₁ tx₂ ht₁ ht₂
    rw [List.mem_singleton.mp he₂] at ht₂
    rw [hnew tx₂ ht₂, hn]
    exact (hlt e₁ he₁ tx₁ ht₁).ne

lemma Orderly.step (h : Orderly s) (hc : Counted web3 calls s)
    (hst : Threads.Step env mines (fun _ _ _ => True) s s') (ho : Undisturbed s') : Orderly s' := by
  cases hst with
  | @call i o k r w hp hr hok =>
    cases o with
    | gasPrice =>
      obtain rfl : w = s.world := hr
      exact h.quiet rfl rfl
    | getTransactionCount =>
      obtain ⟨rfl, -⟩ := hr
      exact h.quiet rfl rfl
    | sendRawTransaction tx =>
      have hn := hc.next hp ho
      rcases hr with ⟨-, rfl⟩ | ⟨⟨-, old, hold, -⟩, -⟩ | ⟨rfl, hr⟩
      · exact h.fresh hn rfl
      · -- the account has no transaction of this nonce yet
        rw [hn] at hold
        simp at hold
      · refine h.quiet rfl ?_
        cases r with
        | ok data => exact absurd rfl (hr data)
        | error e => rfl
  | move hm =>
    obtain ⟨m, -, rfl⟩ := hm
    exact ⟨h.stands, h.once⟩

lemma Undisturbed.before (ho : Undisturbed s')
    (hst : Threads.Step env mines (fun _ _ _ => True) s s') : Undisturbed s := by
  cases hst with
  | @call i o k r w hp hr hok =>
    intro pre mid post j n tx r' htrace
    refine ho pre mid (post ++ [(i, ⟨o, r⟩)]) j n tx r' ?_
    rw [Threads.after, htrace]
    simp
  | move => exact ho

lemma Counted.sent (h : Counted web3 calls s) (hfee : ∀ i, Ample web3 (calls i))
    (hpaid : Paid web3 calls s) {i : ι} (hi : Succeeded s i) : ∃ tx, Sent s i tx := by
  obtain ⟨resp, hreports, hresp⟩ : ∃ resp, Reports web3 (calls i) (s.hist i) resp ∧
      (getResult resp).isSome := by
    have hfollows := h.follows i
    unfold Succeeded at hi
    cases hprog : s.prog i with
    | ret resp =>
      rw [hprog] at hi hfollows
      exact ⟨resp, hfollows, hi⟩
    | raise | call =>
      rw [hprog] at hi
      cases hi
  rcases hreports hresp with ⟨tx, data, hmem⟩ | hmeagre
  · exact ⟨tx, data, Threads.mem_hist.mp hmem⟩
  · cases hcall : calls i with
    | eth => simp [hcall] at hmeagre
    | token privkey «to» contractAddr amount fee decimals =>
      simp only [hcall] at hmeagre
      obtain ⟨feeEth, hwei, hmin | ⟨price, hmem, hzero⟩⟩ := hmeagre
      · have hample := hfee i
        rw [hcall] at hample
        exact absurd (hample feeEth hwei) (Nat.not_le.mpr hmin)
      · have hpays := hpaid i price (Threads.mem_hist.mp hmem)
        rw [hcall] at hpays
        exact absurd hzero (hpays feeEth hwei)

end

def plain : Package where
  toWei x := .ok (Json.trunc (x * 10 ^ 18)).toNat
  toChecksumAddress := .ok
  privateKeyToAccount _ := .ok ()
  signTransaction _ := .ok ()

/-- A node with a gas price of 2 gwei that takes what it can. -/
def takes : (o : Op) → Node → Ans o × Node
  | .gasPrice, w => (.ok 2000000000, w)
  | .getTransactionCount, w => (.ok w.txs.length, w)
  | .sendRawTransaction tx, w =>
    if tx.nonce = w.txs.length then (.ok "hash", { w with txs := w.txs ++ [tx] })
    else if w.mined ≤ tx.nonce ∧
        ((w.txs[tx.nonce]?).any fun old => old.gasPrice < tx.gasPrice) then
      (.ok "hash", { w with txs := w.txs.set tx.nonce tx })
    else (.error (.ValueError "replacement transaction underpriced"), w)

end OpenWallet.Server.Web3
