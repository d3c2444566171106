import OpenWallet.Lib.Threads
import OpenWallet.Server.Ethwallet
import OpenWallet.Server.World

/-!
`offlineSign` and `offlineSignERC20` of `ethwalletweb3.py`, with what `ETHAPI::getResult` makes of
their results, and the node as one account of its transfers sees it.
-/

namespace OpenWallet.Server.Web3

open Lib Prog

/-! ### Python -/

/-- What the two `except` clauses tell apart. -/
inductive PyExn
  | ValueError (err : String)
  | Exception

structure Tx where
  nonce : ℕ
  gasPrice : ℕ
  gas : ℕ
  «to» : String
  value : ℕ
  data : String
  deriving DecidableEq

inductive Op
  | gasPrice
  | getTransactionCount
  | sendRawTransaction (tx : Tx)

abbrev Ans : Op → Type
  | .gasPrice => Except PyExn ℕ
  | .getTransactionCount => Except PyExn ℕ
  | .sendRawTransaction _ => Except PyExn String

abbrev Py (α : Type) := Prog Ans PyExn α

/-- What the functions use of the `web3` package without a node. -/
structure Package where
  toWei : Double → Except PyExn ℕ
  toChecksumAddress : String → Except PyExn String
  /-- `int(privkey, 16)` and `privateKeyToAccount` -/
  privateKeyToAccount : String → Except PyExn Unit
  signTransaction : Tx → Except PyExn Unit

def getGasPrice : Py ℕ := do
  let r ← (Prog.op Op.gasPrice : Py _)
  r

def getTransactionCount : Py ℕ := do
  let r ← (Prog.op Op.getTransactionCount : Py _)
  r

def sendRawTransaction (tx : Tx) : Py String := do
  let r ← (Prog.op (Op.sendRawTransaction tx) : Py _)
  r

/-- `json.dumps({'code': code, key: value})` -/
def dumps (code : ℤ) (key value : String) : PyResp :=
  .reply (.obj [("code", .int code), (key, .str value)]) none

/-- The two `except` clauses. -/
def excepts : PyExn → Py PyResp
  | .ValueError err => ret (dumps 1 "message" err)
  | .Exception => ret (.reply (.int 0) none)

def feeMin : ℕ := 21000000000000

/-- The gas and its price that a fee pays for, at a price of the node; zeros where it does not. -/
def gasAndPrice (feeEth price : ℕ) (isERC20 : Bool) : ℕ × ℕ :=
  let gas := feeEth / price
  let gasMin := if isERC20 then 60000 else 21000
  if gas < gasMin then
    let price := feeEth / gasMin / 1000000000 * 1000000000
    if price = 0 then (0, 0)
    else if feeEth / price < gasMin then (0, 0)
    else (feeEth / price, price)
  else (gas, price)

variable (web3 : Package)

def calcGasAndPrice (fee : Double) (isERC20 : Bool) : Py (ℕ × ℕ) := do
  let feeEth ← web3.toWei fee
  if feeEth < feeMin then
    return (0, 0)
  let price ← getGasPrice
  if price = 0 then
    return ← raise .Exception
  return gasAndPrice feeEth price isERC20

/-- The body of the `try`. -/
def trySign (privkey «to» : String) (amount fee : Double) : Py PyResp := do
  if !isAddress «to» then
    return dumps 1 "data" "Invalid address"
  web3.privateKeyToAccount privkey
  let (gas, price) ← calcGasAndPrice web3 fee false
  if gas = 0 then
    return .garbage
  let nonce ← getTransactionCount
  let chktoaddress ← web3.toChecksumAddress «to»
  let value ← web3.toWei amount
  let stx : Tx := ⟨nonce, price, gas, chktoaddress, value, ""⟩
  web3.signTransaction stx
  let data ← sendRawTransaction stx
  return dumps 0 "data" data

def offlineSign (privkey «to» : String) (amount fee : Double) : Py PyResp :=
  (trySign web3 privkey «to» amount fee).caught excepts

/-- `hex(v)[2:]`, which loses the sign of a negative number and keeps its `x`. -/
def hexTail (v : ℤ) : List Char :=
  if 0 ≤ v then Nat.toDigits 16 v.toNat else 'x' :: Nat.toDigits 16 (-v).toNat

/-- The body of the `try`. A fee that is too small is no error. -/
def trySignERC20 (privkey «to» contractAddr : String) (amount fee : Double) (decimals : ℤ) :
    Py PyResp := do
  if !isAddress «to» then
    return dumps 1 "data" "Invalid address"
  if !isAddress contractAddr then
    return dumps 1 "data" "Invalid contract address"
  web3.privateKeyToAccount privkey
  let (gas, price) ← calcGasAndPrice web3 fee true
  if gas = 0 then
    return dumps 0 "data" "fee is too small"
  let nonce ← getTransactionCount
  let chkContractAddr ← web3.toChecksumAddress contractAddr
  let data := "0xa9059cbb" ++ String.ofList (rjust (bare «to») 64) ++ String.ofList
    (rjust (hexTail (Json.trunc (Double.round (amount * Double.round (10 ^ decimals))))) 64)
  let stx : Tx := ⟨nonce, price, gas, chkContractAddr, 0, data⟩
  web3.signTransaction stx
  let data ← sendRawTransaction stx
  return dumps 0 "data" data

def offlineSignERC20 (privkey «to» contractAddr : String) (amount fee : Double) (decimals : ℤ) :
    Py PyResp :=
  (trySignERC20 web3 privkey «to» contractAddr amount fee decimals).caught excepts

/-- `ETHAPI::getResult` inside the `try` of `ETHAPI::offlineSign`: the response, where the call
is reported as a success. -/
def getResult : PyResp → Option String
  | .null | .garbage => none
  | .reply json_reply _ =>
    match json_reply.field "code" >>= Json.getInt with
    | .ok 0 => (json_reply.field "data" >>= Json.getStr).toOption
    | _ => none

inductive Transfer
  | eth (privkey «to» : String) (amount fee : Double)
  | token (privkey «to» contractAddr : String) (amount fee : Double) (decimals : ℤ)

def Transfer.run : Transfer → Py PyResp
  | eth privkey «to» amount fee => offlineSign web3 privkey «to» amount fee
  | token privkey «to» contractAddr amount fee decimals =>
    offlineSignERC20 web3 privkey «to» contractAddr amount fee decimals

/-- The transactions of the account, mined and pending, one for each nonce. -/
structure Node where
  txs : List Tx
  mined : ℕ

/-- A transaction takes the place of a pending one with its nonce and a lower gas price. -/
def Node.Replaces (w : Node) (tx : Tx) : Prop :=
  w.mined ≤ tx.nonce ∧ ∃ old, w.txs[tx.nonce]? = some old ∧ old.gasPrice < tx.gasPrice

/-- Any call can fail. A transaction that is taken is counted at once, also where its answer gets
lost. -/
def env : Env Ans Node where
  answers
    | .gasPrice, w, _, w' => w' = w
    | .getTransactionCount, w, r, w' => w' = w ∧ ∀ n, r = .ok n → n = w.txs.length
    | .sendRawTransaction tx, w, r, w' =>
      (tx.nonce = w.txs.length ∧ w' = { w with txs := w.txs ++ [tx] }) ∨
      (w.Replaces tx ∧ w' = { w with txs := w.txs.set tx.nonce tx }) ∨
      (w' = w ∧ ∀ data, r ≠ .ok data)
  dies _ _ _ := False

def mines (w w' : Node) : Prop := ∃ m, w.mined ≤ m ∧ w' = { w with mined := m }

/-! ### What a fee pays for -/

def gasMin (isERC20 : Bool) : ℕ := if isERC20 then 60000 else 21000

/-- The price that the fee allows for the least gas, in whole gwei. -/
def fallback (f gas : ℕ) : ℕ := f / gas / 1000000000 * 1000000000

section

variable {f p : ℕ} {isERC20 : Bool}

lemma gasMin_pos : 0 < gasMin isERC20 := by
  cases isERC20 <;> decide

lemma fallback_eq_zero {gas : ℕ} (hgas : 0 < gas) :
    fallback f gas = 0 ↔ f < gas * 1000000000 := by
  have hzero : fallback f gas = 0 ↔ f / gas / 1000000000 = 0 := by
    unfold fallback
    omega
  rw [hzero, Nat.div_div_eq_div_mul]
  exact Nat.div_eq_zero_iff_lt (Nat.mul_pos hgas (by norm_num))

lemma mul_fallback_le (f gas : ℕ) : gas * fallback f gas ≤ f := by
  calc gas * fallback f gas
      ≤ gas * (f / gas) := Nat.mul_le_mul_left gas (Nat.div_mul_le_self (f / gas) 1000000000)
    _ ≤ f := Nat.mul_div_le f gas

lemma gas_le_div_fallback {gas : ℕ} (h : fallback f gas ≠ 0) : gas ≤ f / fallback f gas := by
  rw [Nat.le_div_iff_mul_le (Nat.pos_of_ne_zero h)]
  exact mul_fallback_le f gas

lemma gasAndPrice_eq : gasAndPrice f p isERC20 =
    if f / p < gasMin isERC20 then
      if fallback f (gasMin isERC20) = 0 then (0, 0)
      else (f / fallback f (gasMin isERC20), fallback f (gasMin isERC20))
    else (f / p, p) := by
  change (if f / p < gasMin isERC20 then
    if fallback f (gasMin isERC20) = 0 then (0, 0)
    else if f / fallback f (gasMin isERC20) < gasMin isERC20 then (0, 0)
    else (f / fallback f (gasMin isERC20), fallback f (gasMin isERC20))
    else (f / p, p)) = _
  split
  · split
    · rfl
    · next h => rw [if_neg (Nat.not_lt.mpr (gas_le_div_fallback h))]
  · rfl

/-- The budget is kept, and given up only where there is none. -/
structure Budget (f p : ℕ) (isERC20 : Bool) (r : ℕ × ℕ) : Prop where
  within : r = (0, 0) ∨ (0 < r.2 ∧ gasMin isERC20 ≤ r.1 ∧ r.1 * r.2 ≤ f)
  zero_iff : r = (0, 0) ↔
    f < feeMin ∨ (f < gasMin isERC20 * p ∧ f < gasMin isERC20 * 1000000000)

lemma budget_gasAndPrice (hp : 0 < p) (hf : feeMin ≤ f) :
    Budget f p isERC20 (gasAndPrice f p isERC20) := by
  have hpos : 0 < gasMin isERC20 := gasMin_pos
  have hprice : f / p < gasMin isERC20 ↔ f < gasMin isERC20 * p := Nat.div_lt_iff_lt_mul hp
  rw [gasAndPrice_eq]
  split
  · next hlt =>
    split
    · next hzero =>
      exact ⟨Or.inl rfl, iff_of_true rfl (Or.inr ⟨hprice.mp hlt, (fallback_eq_zero hpos).mp hzero⟩)⟩
    · next hne =>
      have hgas := gas_le_div_fallback hne
      refine ⟨Or.inr ⟨Nat.pos_of_ne_zero hne, hgas, Nat.div_mul_le_self _ _⟩, iff_of_false ?_ ?_⟩
      · intro h
        exact hne (congrArg Prod.snd h)
      · rintro (hfee | ⟨-, hgwei⟩)
        · exact absurd hfee (Nat.not_lt.mpr hf)
        · exact hne ((fallback_eq_zero hpos).mpr hgwei)
  · next hge =>
    refine ⟨Or.inr ⟨hp, Nat.not_lt.mp hge, Nat.div_mul_le_self _ _⟩, iff_of_false ?_ ?_⟩
    · intro h
      exact hp.ne' (congrArg Prod.snd h)
    · rintro (hfee | ⟨hlt, -⟩)
      · exact absurd hfee (Nat.not_lt.mpr hf)
      · exact hge (hprice.mpr hlt)

/-- **The gas stays within the fee**, and is given up exactly where the fee pays for the least gas
neither at the price of the node nor at one gwei. The second test of the gas never fails. -/
theorem gas_budget {W : Type} (h : (o : Op) → W → Ans o × W) (w : W) {web3 : Package} {fee : Double}
    (isERC20 : Bool) (hfee : web3.toWei fee = .ok f) (hprice : (h .gasPrice w).1 = .ok p)
    (hp : 0 < p) : (∃ gas price,
      (Lib.run h (calcGasAndPrice web3 fee isERC20) w).1 = .done (gas, price) ∧
        Budget f p isERC20 (gas, price)) ∧
      (fallback f (gasMin isERC20) ≠ 0 →
        ¬ f / fallback f (gasMin isERC20) < gasMin isERC20) := by
  refine ⟨?_, fun hne => Nat.not_lt.mpr (gas_le_div_fallback hne)⟩
  by_cases hf : f < feeMin
  · refine ⟨0, 0, ?_, Or.inl rfl, iff_of_true rfl (Or.inl hf)⟩
    simp [calcGasAndPrice, hfee, hf, lift, run_ret]
  · have hbudget := @budget_gasAndPrice f p isERC20 hp (Nat.not_lt.mp hf)
    obtain ⟨gas, price, hr⟩ : ∃ gas price, gasAndPrice f p isERC20 = (gas, price) := ⟨_, _, rfl⟩
    rw [hr] at hbudget
    refine ⟨gas, price, ?_, hbudget⟩
    simp [calcGasAndPrice, hfee, hf, lift, getGasPrice, op, run_call, hprice, hp.ne', run_ret, hr]

end

/-- A package to which every fee is 21000 gwei. -/
def leastFee : Package where
  toWei _ := .ok 21000000000000
  toChecksumAddress := .ok
  privateKeyToAccount _ := .ok ()
  signTransaction _ := .ok ()

/-- A node with a gas price of two gwei. -/
def twoGwei : (o : Op) → Unit → Ans o × Unit
  | .gasPrice, w => (.ok 2000000000, w)
  | .getTransactionCount, w => (.ok 0, w)
  | .sendRawTransaction _, w => (.ok "", w)

/-- The fee pays for the least gas at one gwei. -/
theorem gas_budget_least : ∃ gas price,
    (Lib.run twoGwei (calcGasAndPrice leastFee 0 false) ()).1 = .done (gas, price) ∧
      Budget 21000000000000 2000000000 false (gas, price) :=
  (gas_budget twoGwei () false (rfl : leastFee.toWei 0 = .ok 21000000000000) rfl
    (by norm_num)).1

end OpenWallet.Server.Web3
