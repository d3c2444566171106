import OpenWallet.Monitor.Eth

/-!
What `scanETH` reads off the input of a token transfer, and what the contract reads: the two words
right after the selector.
-/

namespace OpenWallet.Monitor.Eth

open Lib

/-- The digits of the two words after the selector. -/
def word₁ (input : String) : List Char := (input.toList.drop 10).take 64
def word₂ (input : String) : List Char := (input.toList.drop 74).take 64

def Holds (input : String) : Prop := 138 ≤ input.toList.length

/-- The recipient is in the last twenty bytes of its word. -/
def recipient (input : String) : String := "0x" ++ String.ofList ((word₁ input).drop 24)

/-- What is kept of a transfer is what the contract reads. -/
structure Faithful (input : String) (c : Credit) : Prop where
  holds : Holds input
  vout : c.vout = Text.toupper (recipient input)
  value : c.value = toString (Numeral.value 16 (word₂ input))

/-! ### The input as `scanETH` reads it -/

/-- The digits that `scanETH` takes for the amount. -/
def window (input : String) : List Char :=
  (input.toList.drop (input.toList.length - 41)).take 40

lemma erc20_eq_some {contracts S : List (String × ℤ)} {txid «from» input : String} {json_tran : Json}
    {c : Credit} (h : erc20 contracts S txid «from» json_tran = .ok (some c))
    (hinput : json_tran.field "input" = .ok (.str input)) :
    135 ≤ input.toList.length ∧ c.vout = Text.toupper (recipient input) ∧
      ∃ amount, Text.mpz ("0x" ++ String.ofList (window input)) = .ok amount ∧
        c.value = toString amount := by
  simp only [erc20, bind_eq_ok] at h
  obtain ⟨a, -, a', -, h⟩ := h
  split at h
  · cases h
  next token_id htoken =>
  simp only [bind_eq_ok, hinput, Except.ok.injEq, exists_eq_left', Json.getStr_str] at h
  obtain ⟨fee, -, method, -, h⟩ := h
  split at h
  · cases h
  next hmethod =>
  simp only [bind_eq_ok] at h
  obtain ⟨cut, hcut, h⟩ := h
  split at h
  · cases h
  simp only [bind_eq_ok, pure_eq_ok, Except.ok.injEq, Option.some.injEq, Text.substr_eq_ok] at h hcut
  obtain ⟨cut', ⟨-, rfl⟩, amount, hamount, rfl⟩ := h
  obtain ⟨-, rfl⟩ := hcut
  push Not at hmethod
  have hword : (word₁ input).drop 24 = (input.toList.drop 34).take 40 := by
    rw [word₁, List.drop_take, List.drop_drop]
  rw [recipient, hword]
  exact ⟨hmethod.2, rfl, amount, hamount, rfl⟩

lemma mpz_hex {cs : List Char} (h : Numeral.Digits 16 cs) :
    Text.mpz ("0x" ++ String.ofList cs) = .ok (Numeral.value 16 cs) := by
  have hlist : ("0x" ++ String.ofList cs).toList = '0' :: 'x' :: cs := by simp
  have hfilter : cs.filter (!·.isWhitespace) = cs := by
    refine List.filter_eq_self.mpr fun c hc => ?_
    obtain ⟨d, hd, rfl⟩ := h c hc
    rw [Numeral.not_isWhitespace_digitChar hd, Bool.not_false]
  have hread : Text.readPrefixed ('0' :: 'x' :: cs) = some (Numeral.value 16 cs) := by
    rw [Text.readPrefixed, Text.readDigits, hfilter]
    have hvalue := Numeral.readOn_digits le_rfl h 0
    rwa [Nat.zero_mul, Nat.zero_add] at hvalue
  have hblank : ('0' :: 'x' :: cs).dropWhile (·.isWhitespace) = '0' :: 'x' :: cs := rfl
  rw [Text.mpz, hlist, hblank]
  split
  · next hminus => simp at hminus
  · rw [hread]

/-- The input is the selector and digits. -/
def Hex (input : String) : Prop := Numeral.Digits 16 (input.toList.drop 10)

section

variable {input : String}

lemma Hex.drop (h : Hex input) {n : ℕ} (hn : 10 ≤ n) :
    Numeral.Digits 16 (input.toList.drop n) := by
  refine Numeral.Digits.sublist h ?_
  rw [show n = 10 + (n - 10) by omega, ← List.drop_drop]
  exact List.drop_sublist _ _

lemma length_window (hlen : 135 ≤ input.toList.length) : (window input).length = 40 := by
  rw [window, List.length_take, List.length_drop]
  omega

lemma Hex.window_digits (h : Hex input) (hlen : 135 ≤ input.toList.length) :
    Numeral.Digits 16 (window input) :=
  (h.drop (by omega)).sublist (List.take_sublist _ _)

/-- The amount that the contract reads has as many leading zeros as make it fit into the digits
that `scanETH` reads, and these are the digits of its rest. -/
structure Shifted (input : String) : Prop where
  holds : Holds input
  zeros : (word₂ input).take 24 = List.replicate 24 '0'
  digits : (word₂ input).drop 24 = window input

lemma Hex.value_eq_iff (h : Hex input) (hholds : Holds input) :
    Numeral.value 16 (window input) = Numeral.value 16 (word₂ input) ↔ Shifted input := by
  have hlen : 138 ≤ input.toList.length := hholds
  have hwin := h.window_digits (by omega)
  have hwinlen : (window input).length = 40 := length_window (by omega)
  have hword : Numeral.Digits 16 (word₂ input) :=
    (h.drop (by omega)).sublist (List.take_sublist _ _)
  have hwordlen : (word₂ input).length = 64 := by
    rw [word₂, List.length_take, List.length_drop]
    omega
  have hhead := hword.sublist (List.take_sublist 24 _)
  have htail := hword.sublist (List.drop_sublist 24 _)
  have htaillen : ((word₂ input).drop 24).length = 40 := by
    rw [List.length_drop, hwordlen]
  have hsplit : Numeral.value 16 (word₂ input) =
      Numeral.value 16 ((word₂ input).take 24) * 16 ^ 40 +
        Numeral.value 16 ((word₂ input).drop 24) := by
    conv_lhs => rw [← List.take_append_drop 24 (word₂ input)]
    rw [Numeral.value_append, htaillen]
  have hlt : Numeral.value 16 (window input) < 16 ^ 40 :=
    hwinlen ▸ Numeral.value_lt (by norm_num) le_rfl hwin
  have hlt' : Numeral.value 16 ((word₂ input).drop 24) < 16 ^ 40 :=
    htaillen ▸ Numeral.value_lt (by norm_num) le_rfl htail
  constructor
  · intro heq
    have hzero : Numeral.value 16 ((word₂ input).take 24) = 0 := by omega
    refine ⟨hholds, ?_, ?_⟩
    · refine Numeral.value_inj (by norm_num) le_rfl hhead
        (Numeral.digits_replicate (by norm_num) 24) ?_ ?_
      · rw [List.length_take, hwordlen, List.length_replicate]
        rfl
      · rw [hzero, Numeral.value_replicate]
    · exact Numeral.value_inj (by norm_num) le_rfl htail hwin (htaillen.trans hwinlen.symm)
        (by omega)
  · intro hs
    rw [hsplit, hs.zeros, hs.digits, Numeral.value_replicate]
    omega

lemma erc20_accepts (S : List (String × ℤ)) (txid «from» : String)
    {contracts : List (String × ℤ)} {contract : String}
    {json_tran : Json} {token_id f : ℤ} (hto : json_tran.field "to" = .ok (.str contract))
    (hcontract : contracts.lookup (Text.toupper contract) = some token_id)
    (hfee : fee json_tran = .ok f) (hinput : json_tran.field "input" = .ok (.str input))
    (hmethod : String.ofList (input.toList.take 10) = "0xa9059cbb")
    (hlen : 135 ≤ input.toList.length) (hwin : Numeral.Digits 16 (window input))
    (hwatched : watched S «from» ∨ watched S (Text.toupper (recipient input))) :
    ∃ c, erc20 contracts S txid «from» json_tran = .ok (some c) ∧
      c.vout = Text.toupper (recipient input) ∧
      c.value = toString (Numeral.value 16 (window input)) := by
  have hcut : Text.substr input 0 10 = .ok "0xa9059cbb" :=
    Text.substr_eq_ok.mpr ⟨Nat.zero_le _, by rw [List.drop_zero, hmethod]⟩
  have hword : (word₁ input).drop 24 = (input.toList.drop 34).take 40 := by
    rw [word₁, List.drop_take, List.drop_drop]
  have hto' : Text.substr input 34 40 = .ok (String.ofList ((word₁ input).drop 24)) :=
    Text.substr_eq_ok.mpr ⟨by omega, by rw [hword]⟩
  have hamount : Text.substr input (input.toList.length - 41) 40 = .ok (String.ofList (window input)) :=
    Text.substr_eq_ok.mpr ⟨by omega, rfl⟩
  have hnot : ¬(!watched S «from» ∧ !watched S (Text.toupper (recipient input))) := by
    rcases hwatched with h | h <;> simp [h]
  rw [recipient] at hnot
  simp only [erc20, hto, ok_bind, Json.getStr_str, hcontract, hfee, hinput, hcut, ne_eq,
    not_true_eq_false, false_or, if_neg (Nat.not_lt.mpr hlen), hto', if_neg hnot, hamount,
    mpz_hex hwin, pure_eq_ok]
  exact ⟨_, rfl, rfl, rfl⟩

/-- **What is kept of a transfer is what the contract reads if and only if** the input holds both
words, and the last forty digits before the last one are those of the amount, with zeros before
them. -/
theorem transfer_faithful_iff {contracts S : List (String × ℤ)} {txid «from» input : String}
    {json_tran : Json} {c : Credit} (h : erc20 contracts S txid «from» json_tran = .ok (some c))
    (hinput : json_tran.field "input" = .ok (.str input)) (hhex : Hex input)
    (_hlen : input.toList.length ≠ 138) : Faithful input c ↔ Shifted input := by
  obtain ⟨hlen, hvout, amount, hamount, hvalue⟩ := erc20_eq_some h hinput
  have hwin := hhex.window_digits hlen
  rw [mpz_hex hwin] at hamount
  obtain rfl := Except.ok.inj hamount
  have hstr : c.value = toString (Numeral.value 16 (window input)) := hvalue
  constructor
  · rintro ⟨hholds, -, hword⟩
    refine (hhex.value_eq_iff hholds).mp ?_
    exact Numeral.toString_injective (hstr.symm.trans hword)
  · intro hs
    exact ⟨hs.holds, hvout, hstr.trans (congrArg _ ((hhex.value_eq_iff hs.holds).mpr hs))⟩

end

def oneUnit : List Char := List.replicate 64 '1' ++ List.replicate 63 '0' ++ ['1']

lemma mem_oneUnit (c : Char) (hc : c ∈ oneUnit ++ ['0', '0']) : c = '0' ∨ c = '1' := by
  simp only [oneUnit, List.mem_append, List.mem_replicate, List.mem_cons, List.not_mem_nil,
    or_false] at hc
  tauto

/-- A call of the contract with more digits after the two words. -/
def callOf (digits : List Char) : String := "0xa9059cbb" ++ String.ofList digits

lemma toList_callOf (digits : List Char) :
    (callOf digits).toList = ['0', 'x', 'a', '9', '0', '5', '9', 'c', 'b', 'b'] ++ digits := by
  simp [callOf]

lemma word₂_callOf (digits : List Char) :
    word₂ (callOf digits) = (digits.drop 64).take 64 := by
  rw [word₂, toList_callOf, List.drop_append]
  rfl

lemma hex_callOf {digits : List Char} (h : ∀ c ∈ digits, c = '0' ∨ c = '1') :
    Hex (callOf digits) := by
  rw [Hex, toList_callOf, List.drop_append]
  exact fun c hc => (h c hc).elim (fun h0 => ⟨0, by norm_num, h0⟩) fun h1 => ⟨1, by norm_num, h1⟩

def tranOf (input : String) : Json :=
  .obj [("to", .str "0xC"), ("gas", .str "0x1"), ("gasPrice", .str "0x1"), ("input", .str input)]

/-- The recipient and the amount kept of a call. -/
def kept (input : String) : Option (String × String) :=
  match erc20 [("0XC", 7)] [("0XF", 1)] "t" "0XF" (tranOf input) with
  | .ok (some c) => some (c.vout, c.value)
  | _ => none

lemma kept_eq_some {input vout value : String} (h : kept input = some (vout, value)) :
    ∃ c, erc20 [("0XC", 7)] [("0XF", 1)] "t" "0XF" (tranOf input) = .ok (some c) ∧
      c.vout = vout ∧ c.value = value := by
  unfold kept at h
  split at h
  · next c hc =>
    cases h
    exact ⟨c, hc, rfl, rfl⟩
  · cases h

/-- A byte after the two words makes one unit sixteen. -/
theorem transfer_forged : ¬ ∀ (contracts S : List (String × ℤ)) (txid «from» input : String)
    (json_tran : Json) (c : Credit), erc20 contracts S txid «from» json_tran = .ok (some c) →
    json_tran.field "input" = .ok (.str input) → Hex input → input.toList.length ≠ 138 →
    Faithful input c := by
  intro h
  have hkept : kept (callOf (oneUnit ++ ['0', '0'])) =
      some ("0X1111111111111111111111111111111111111111", "16") := by decide +kernel
  obtain ⟨c, hc, -, hvalue⟩ := kept_eq_some hkept
  have hfaithful := h _ _ _ _ _ _ c hc rfl (hex_callOf mem_oneUnit) (by
    rw [toList_callOf]
    decide +kernel)
  have hone : Numeral.value 16 (word₂ (callOf (oneUnit ++ ['0', '0']))) = 1 := by
    rw [word₂_callOf]
    decide +kernel
  rw [hfaithful.value, hone] at hvalue
  exact absurd hvalue (by decide)

/-- Zero units are kept as they are, with a byte after them. -/
theorem transfer_faithful_zero : ∃ c, erc20 [("0XC", 7)] [("0XF", 1)] "t" "0XF"
    (tranOf (callOf (List.replicate 130 '0'))) = .ok (some c) ∧
    Faithful (callOf (List.replicate 130 '0')) c := by
  have hkept : kept (callOf (List.replicate 130 '0')) =
      some ("0X0000000000000000000000000000000000000000", "0") := by decide +kernel
  obtain ⟨c, hc, -, -⟩ := kept_eq_some hkept
  have hlen : (callOf (List.replicate 130 '0')).toList.length = 140 := by
    rw [toList_callOf]
    rfl
  refine ⟨c, hc, (transfer_faithful_iff hc rfl
    (hex_callOf fun _ hc => Or.inl (List.eq_of_mem_replicate hc)) (by omega)).mpr
    ⟨by rw [Holds]; omega, ?_, ?_⟩⟩
  · rw [word₂_callOf]
    rfl
  · rw [word₂_callOf, window, hlen, toList_callOf]
    rfl

end OpenWallet.Monitor.Eth
