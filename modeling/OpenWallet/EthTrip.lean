import OpenWallet.Monitor.Calldata
import OpenWallet.Server.Ethwallet

/-!
What the wallet of the server and the monitor make of each other's transfers and addresses of ETH.
-/

namespace OpenWallet.EthTrip

open Lib Server
open Monitor.Eth

/-! ### Addresses -/

/-- Forty hexadecimal digits, of either case. -/
structure Hex40 (cs : List Char) : Prop where
  length : cs.length = 40
  digits : ∀ c ∈ cs, (Numeral.digitVal c).isSome

/-- An address as the Python wallet creates it, under which its key is stored. -/
def Created (address : String) : Prop := ∃ cs, Hex40 cs ∧ address = "0x" ++ String.ofList cs

lemma Created.toList {address : String} (h : Created address) :
    ∃ cs, Hex40 cs ∧ address.toList = '0' :: 'x' :: cs := by
  obtain ⟨cs, hcs, rfl⟩ := h
  exact ⟨cs, hcs, by simp⟩

/-- An address in capitals is none of those, and has another prefix. -/
lemma Created.toupper {address : String} (h : Created address) :
    ¬ isAddress (Text.toupper address) ∧ ¬ Created (Text.toupper address) := by
  obtain ⟨cs, hcs, hlist⟩ := h.toList
  have hupper : (Text.toupper address).toList = '0' :: 'X' :: cs.map Char.toUpper := by
    rw [Text.toupper, String.toList_ofList, hlist]
    rfl
  constructor
  · rw [isAddress, hupper]
    simp [hcs.length]
  · intro h'
    obtain ⟨cs', -, hlist'⟩ := h'.toList
    rw [hupper] at hlist'
    exact absurd (List.cons.inj (List.cons.inj hlist').2).1 (by decide)

lemma erc20_address {contracts S : List (String × ℤ)} {txid «from» : String} {json_tran : Json}
    {c : Credit} (h : erc20 contracts S txid «from» json_tran = .ok (some c)) :
    watched S c.address := by
  simp only [erc20, bind_eq_ok] at h
  obtain ⟨_, -, _, -, h⟩ := h
  split at h
  · cases h
  simp only [bind_eq_ok] at h
  obtain ⟨_, -, _, -, _, -, _, -, h⟩ := h
  split at h
  · cases h
  simp only [bind_eq_ok] at h
  obtain ⟨_, -, h⟩ := h
  split at h
  · cases h
  next hnot =>
  simp only [bind_eq_ok, pure_eq_ok, Except.ok.injEq, Option.some.injEq] at h
  obtain ⟨_, -, _, -, rfl⟩ := h
  dsimp only
  split_ifs with hboth hto
  · exact hboth.1
  · exact hto
  · simpa [hto] using hnot

lemma native_address {S : List (String × ℤ)} {txid «from» value : String} {json_tran : Json}
    {c : Credit} (h : native S txid «from» value json_tran = .ok (some c)) :
    watched S c.address := by
  simp only [native, bind_eq_ok] at h
  obtain ⟨_, -, _, -, h⟩ := h
  split at h
  · cases h
  next hnot =>
  simp only [bind_eq_ok, pure_eq_ok, Except.ok.injEq, Option.some.injEq] at h
  obtain ⟨_, -, _, -, rfl⟩ := h
  dsimp only
  split_ifs with hto
  · exact hto
  · simpa [hto] using hnot

lemma credit_address {contracts S : List (String × ℤ)} {json_tran : Json} {txid : String}
    {c : Credit} (h : credit contracts S json_tran = .ok (some (txid, some c))) :
    watched S c.address := by
  simp only [credit, bind_eq_ok] at h
  obtain ⟨_, -, _, -, h⟩ := h
  split at h
  · cases h
  simp only [bind_eq_ok] at h
  obtain ⟨_, -, _, -, _, -, _, -, _, -, _, -, h⟩ := h
  split at h
  · simp only [bind_eq_ok, pure_eq_ok, Except.ok.injEq, Option.some.injEq, Prod.mk.injEq] at h
    obtain ⟨_, hc, -, rfl⟩ := h
    exact erc20_address hc
  · simp only [bind_eq_ok, pure_eq_ok, Except.ok.injEq, Option.some.injEq, Prod.mk.injEq] at h
    obtain ⟨_, hc, -, rfl⟩ := h
    exact native_address hc

/-- **No address that the monitor records is one the wallet takes**: it is refused as an address,
and no key is found under it. -/
theorem recorded_address_lost {contracts S : List (String × ℤ)} {wallet : List (String × String)}
    {json_tran : Json} {txid : String} {c : Credit}
    (hS : ∀ p ∈ S, ∃ address, Created address ∧ p.1 = Text.toupper address)
    (hwallet : ∀ p ∈ wallet, Created p.1)
    (h : credit contracts S json_tran = .ok (some (txid, some c))) (src : Src) :
    ¬ (isAddress (c.txutxo src).address ∨ (getPrivateKey wallet (c.txutxo src).address).isSome) ∧
      c.notice.field "address" = .ok (.str (c.txutxo src).address) := by
  have hw : watched S c.address := credit_address h
  obtain ⟨p, hp, hkey⟩ := List.mem_map.mp (Monitor.lookup_isSome_iff.mp hw)
  obtain ⟨address, hcreated, hupper⟩ := hS p hp
  obtain ⟨hno, hnot⟩ := hcreated.toupper
  rw [← hupper, hkey] at hno hnot
  refine ⟨?_, rfl⟩
  rintro (haddr | hfound)
  · exact hno haddr
  · obtain ⟨q, hq, hq'⟩ := List.mem_map.mp (Monitor.lookup_isSome_iff.mp hfound)
    have hq'' : q.1 = c.address := hq'
    exact hnot (hq'' ▸ hwallet q hq)

/-- An address of ones, with its key and as it is watched. -/
def ones : List Char := List.replicate 40 '1'

lemma ones_hex40 : Hex40 ones :=
  ⟨rfl, fun c hc => by rw [List.eq_of_mem_replicate hc]; decide⟩

def onesWallet : List (String × String) := [("0x" ++ String.ofList ones, "K")]
def onesWatched : List (String × ℤ) := [(Text.toupper ("0x" ++ String.ofList ones), 1)]

/-- A transfer of one wei to it. -/
def onesTran : Json :=
  .obj [("to", .str ("0x" ++ String.ofList ones)), ("from", .str "0xF"), ("value", .str "0x1"),
    ("hash", .str "t"), ("gas", .str "0x1"), ("gasPrice", .str "0x1")]

lemma onesWatched_created : ∀ p ∈ onesWatched, ∃ address, Created address ∧
    p.1 = Text.toupper address := fun p hp =>
  ⟨_, ⟨ones, ones_hex40, rfl⟩, by rw [List.mem_singleton.mp hp]⟩

lemma onesWallet_created : ∀ p ∈ onesWallet, Created p.1 := fun p hp =>
  ⟨ones, ones_hex40, by rw [List.mem_singleton.mp hp]⟩

lemma onesTran_credit : ∃ txid c, credit [] onesWatched onesTran = .ok (some (txid, some c)) ∧
    c.address = Text.toupper ("0x" ++ String.ofList ones) := by
  have hkept : (credit [] onesWatched onesTran).toOption.bind
      (fun r => r.bind fun p => p.2.map Credit.address) =
        some (Text.toupper ("0x" ++ String.ofList ones)) := by
    decide +kernel
  cases hc : credit [] onesWatched onesTran with
  | error e =>
    rw [hc] at hkept
    cases hkept
  | ok r =>
    rw [hc] at hkept
    obtain ⟨⟨txid, o⟩, rfl, ho⟩ :=
      Option.bind_eq_some_iff.mp (show r.bind (fun p => p.2.map Credit.address) = _ from hkept)
    obtain ⟨c, rfl, hcaddress⟩ := Option.map_eq_some_iff.mp ho
    exact ⟨txid, c, rfl, hcaddress⟩

/-- Its key is not found under the address that is recorded. -/
theorem recorded_address_found : ¬ ∀ (contracts S : List (String × ℤ))
    (wallet : List (String × String)) (json_tran : Json) (txid : String) (c : Credit) (src : Src),
    (∀ p ∈ S, ∃ address, Created address ∧ p.1 = Text.toupper address ∧
      (getPrivateKey wallet address).isSome) →
    credit contracts S json_tran = .ok (some (txid, some c)) →
    isAddress (c.txutxo src).address ∧ (getPrivateKey wallet (c.txutxo src).address).isSome := by
  intro h
  obtain ⟨txid, c, hc, haddress⟩ := onesTran_credit
  have hstored : ∀ p ∈ onesWatched, ∃ address, Created address ∧ p.1 = Text.toupper address ∧
      (getPrivateKey onesWallet address).isSome := fun p hp =>
    ⟨"0x" ++ String.ofList ones, ⟨ones, ones_hex40, rfl⟩, by rw [List.mem_singleton.mp hp],
      by decide +kernel⟩
  have haddr := (h [] onesWatched onesWallet onesTran txid c ⟨2, 1, 0, 0, 0⟩ hstored hc).1
  have hcaddr : isAddress c.address = true := haddr
  rw [haddress] at hcaddr
  exact absurd hcaddr (Created.toupper ⟨ones, ones_hex40, rfl⟩).1

/-- It is refused as an address. -/
theorem recorded_address_lost_ones : ∃ txid c,
    credit [] onesWatched onesTran = .ok (some (txid, some c)) ∧
      ¬ (isAddress (c.txutxo ⟨2, 1, 0, 0, 0⟩).address ∨
        (getPrivateKey onesWallet (c.txutxo ⟨2, 1, 0, 0, 0⟩).address).isSome) := by
  obtain ⟨txid, c, hc, -⟩ := onesTran_credit
  exact ⟨txid, c, hc, (recorded_address_lost onesWatched_created onesWallet_created hc _).1⟩

/-! ### The calldata of a token transfer -/

section

variable {cs : List Char} {«to» : String} {v : ℕ}

lemma length_rjust {width : ℕ} (h : cs.length ≤ width) : (rjust cs width).length = width := by
  rw [rjust, List.length_append, List.length_replicate]
  omega

lemma drop_rjust {width n : ℕ} (h : cs.length + n ≤ width) :
    (rjust cs width).drop n = rjust cs (width - n) := by
  rw [rjust, rjust, List.drop_append_of_le_length (by rw [List.length_replicate]; omega),
    List.drop_replicate]
  congr 2
  omega

lemma value_rjust (b width : ℕ) (cs : List Char) :
    Numeral.value b (rjust cs width) = Numeral.value b cs := by
  rw [rjust, Numeral.value_append, Numeral.value_replicate, Nat.zero_mul, Nat.zero_add]

lemma digits_rjust {b width : ℕ} (hb : 0 < b) (h : Numeral.Digits b cs) :
    Numeral.Digits b (rjust cs width) :=
  (Numeral.digits_replicate hb _).append h

lemma bare_of (hcs : Hex40 cs) (hto : «to» = String.ofList cs ∨ «to» = "0x" ++ String.ofList cs) :
    bare «to» = cs := by
  rcases hto with rfl | rfl
  · have hx : cs.take 2 ≠ ['0', 'x'] := by
      intro h
      have hmem : 'x' ∈ cs.take 2 := by rw [h]; simp
      have hmem := List.mem_of_mem_take hmem
      exact absurd (hcs.digits _ hmem) (by decide)
    rw [bare, String.toList_ofList, if_neg hx]
  · simp [bare]

lemma toList_transferData (hcs : Hex40 cs)
    (hto : «to» = String.ofList cs ∨ «to» = "0x" ++ String.ofList cs) :
    (transferData «to» v).toList = ['0', 'x', 'a', '9', '0', '5', '9', 'c', 'b', 'b'] ++
      (rjust cs 64 ++ rjust (Nat.toDigits 16 v) 64) := by
  simp [transferData, bare_of hcs hto]

lemma word₁_transferData (hcs : Hex40 cs)
    (hto : «to» = String.ofList cs ∨ «to» = "0x" ++ String.ofList cs) :
    word₁ (transferData «to» v) = rjust cs 64 := by
  have hlen : (rjust cs 64).length = 64 := length_rjust (by rw [hcs.length]; norm_num)
  rw [word₁, toList_transferData hcs hto, List.drop_left' (by rfl), List.take_left' hlen]

lemma recipient_transferData (hcs : Hex40 cs)
    (hto : «to» = String.ofList cs ∨ «to» = "0x" ++ String.ofList cs) :
    recipient (transferData «to» v) = "0x" ++ String.ofList cs := by
  have hlen : cs.length = 40 := hcs.length
  rw [recipient, word₁_transferData hcs hto, drop_rjust (by omega), rjust, hlen]
  rfl

lemma window_transferData (hcs : Hex40 cs)
    (hto : «to» = String.ofList cs ∨ «to» = "0x" ++ String.ofList cs) (hv : v < 2 ^ 160) :
    window (transferData «to» v) = (rjust (Nat.toDigits 16 v) 41).take 40 := by
  have hlen : (Nat.toDigits 16 v).length ≤ 40 := Nat.toDigits_length 16 v 40 (by norm_num) hv
  have hlen₁ : (rjust cs 64).length = 64 := length_rjust (by rw [hcs.length]; norm_num)
  have hlen₂ : (rjust (Nat.toDigits 16 v) 64).length = 64 := length_rjust (by omega)
  have hpre : (['0', 'x', 'a', '9', '0', '5', '9', 'c', 'b', 'b'] ++ rjust cs 64).length = 74 := by
    rw [List.length_append, hlen₁]
    rfl
  rw [window, toList_transferData hcs hto, ← List.append_assoc, List.length_append, hpre, hlen₂,
    List.drop_append, hpre, List.drop_eq_nil_of_le (by rw [hpre]; norm_num), List.nil_append,
    drop_rjust (by omega)]

/-- The last digit of the amount is left out. -/
lemma value_window (hcs : Hex40 cs)
    (hto : «to» = String.ofList cs ∨ «to» = "0x" ++ String.ofList cs) (hv : v < 2 ^ 160) :
    Numeral.value 16 (window (transferData «to» v)) = v / 16 := by
  have hdigits : Numeral.Digits 16 (Nat.toDigits 16 v) := Numeral.digits_toDigits (by norm_num) v
  have hlen : (Nat.toDigits 16 v).length ≤ 40 := 
    Nat.toDigits_length 16 v 40 (by norm_num) hv
  have hall : Numeral.value 16 ((rjust (Nat.toDigits 16 v) 41).take 40 ++
      (rjust (Nat.toDigits 16 v) 41).drop 40) = v := by
    rw [List.take_append_drop, value_rjust, Numeral.value_toDigits (by norm_num) le_rfl]
  have hlast : ((rjust (Nat.toDigits 16 v) 41).drop 40).length = 1 := by
    rw [List.length_drop, length_rjust (by omega)]
  have hall₄₁ : Numeral.Digits 16 (rjust (Nat.toDigits 16 v) 41) := digits_rjust (by norm_num) hdigits
  have hlt := Numeral.value_lt (b := 16) (by norm_num) le_rfl
    (hall₄₁.sublist (List.drop_sublist 40 _))
  rw [Numeral.value_append, hlast, pow_one] at hall
  rw [hlast, pow_one] at hlt
  rw [window_transferData hcs hto hv]
  omega

/-- **A token transfer of the wallet is recorded with its amount if and only if that is zero**;
any other amount is recorded divided by sixteen. -/
theorem token_transfer_iff {contracts S : List (String × ℤ)} {txid «from» contract : String}
    {json_tran : Json} {token_id f : ℤ} (hcs : Hex40 cs)
    (hto : «to» = String.ofList cs ∨ «to» = "0x" ++ String.ofList cs) (hv : v < 2 ^ 160)
    (hcontract : json_tran.field "to" = .ok (.str contract))
    (htoken : contracts.lookup (Text.toupper contract) = some token_id)
    (hfee : fee json_tran = .ok f)
    (hinput : json_tran.field "input" = .ok (.str (transferData «to» v)))
    (hwatched : watched S «from» ∨ watched S (Text.toupper ("0x" ++ String.ofList cs))) :
    (∃ c, erc20 contracts S txid «from» json_tran = .ok (some c) ∧
      c.vout = Text.toupper ("0x" ++ String.ofList cs) ∧ c.value = toString v) ↔ v = 0 := by
  have hlen : (transferData «to» v).toList.length = 138 := by
    rw [toList_transferData hcs hto, List.length_append, List.length_append, length_rjust, length_rjust]
    · rfl
    · exact (Nat.toDigits_length 16 v 40 (by norm_num) hv).trans (by norm_num)
    · rw [hcs.length]
      norm_num
  have hmethod : String.ofList ((transferData «to» v).toList.take 10) = "0xa9059cbb" := by
    rw [toList_transferData hcs hto, List.take_left' (by rfl)]
  have hwin : Numeral.Digits 16 (window (transferData «to» v)) := by
    rw [window_transferData hcs hto hv]
    exact (digits_rjust (by norm_num) (Numeral.digits_toDigits (by norm_num) v)).sublist
      (List.take_sublist _ _)
  obtain ⟨c, hc, hvout, hvalue⟩ := erc20_accepts S txid «from» hcontract htoken hfee hinput
    hmethod (by omega) hwin (by rwa [recipient_transferData hcs hto])
  rw [recipient_transferData hcs hto] at hvout
  rw [value_window hcs hto hv] at hvalue
  constructor
  · rintro ⟨c', hc', -, hv'⟩
    obtain rfl : c = c' := by simpa using hc.symm.trans hc'
    have hdiv := Numeral.toString_injective (hvalue.symm.trans hv')
    omega
  · rintro rfl
    exact ⟨c, hc, hvout, hvalue⟩

end

/-- One unit is recorded as zero. -/
theorem token_transfer_scaled : ¬ ∀ (contracts S : List (String × ℤ)) (txid «from» contract : String)
    (json_tran : Json) (token_id f : ℤ) (cs : List Char) («to» : String) (v : ℕ), Hex40 cs →
    («to» = String.ofList cs ∨ «to» = "0x" ++ String.ofList cs) → v < 2 ^ 160 →
    json_tran.field "to" = .ok (.str contract) →
    contracts.lookup (Text.toupper contract) = some token_id → fee json_tran = .ok f →
    json_tran.field "input" = .ok (.str (transferData «to» v)) →
    (watched S «from» ∨ watched S (Text.toupper ("0x" ++ String.ofList cs))) →
    ∃ c, erc20 contracts S txid «from» json_tran = .ok (some c) ∧
      c.vout = Text.toupper ("0x" ++ String.ofList cs) ∧ c.value = toString v := by
  intro h
  obtain ⟨c, hc, -, hvalue⟩ := h [("0XC", 7)] [("0XF", 1)] "t" "0XF" "0xC"
    (tranOf (transferData (String.ofList ones) 1)) 7 1 ones _ 1 ones_hex40 (Or.inl rfl) (by norm_num)
    rfl (by decide +kernel) (by decide +kernel) rfl (Or.inl rfl)
  have hkept : kept (transferData (String.ofList ones) 1) =
      some ("0X1111111111111111111111111111111111111111", "0") := by decide +kernel
  obtain ⟨c', hc', -, hvalue'⟩ := kept_eq_some hkept
  obtain rfl : c = c' := by simpa using hc.symm.trans hc'
  exact absurd (hvalue.symm.trans hvalue') (by decide)

/-- No units are recorded as none. -/
theorem token_transfer_zero : ∃ c, erc20 [("0XC", 7)] [("0XF", 1)] "t" "0XF"
    (tranOf (transferData (String.ofList ones) 0)) = .ok (some c) ∧
    c.vout = Text.toupper ("0x" ++ String.ofList ones) ∧ c.value = toString 0 := by
  have htoken : [("0XC", (7 : ℤ))].lookup (Text.toupper "0xC") = some 7 := by decide +kernel
  exact (token_transfer_iff (f := 1) ones_hex40 (Or.inl rfl) (by norm_num) rfl htoken
    (by decide +kernel) rfl (Or.inl rfl)).mpr rfl

end OpenWallet.EthTrip
