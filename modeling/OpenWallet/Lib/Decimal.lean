import OpenWallet.Lib.Numeral

/-!
Decimal fractions as texts: what digits with a point denote, the fraction with a given number of
decimals that a number is written as, and what is left of it when decimals are cut off.
-/

namespace OpenWallet.Lib.Decimal

open Numeral

/-- Digits, with or without a point and further digits. -/
def denotes (cs : List Char) : Option ℚ :=
  let whole := cs.takeWhile (· ≠ '.')
  match cs.dropWhile (· ≠ '.') with
  | [] => (read 10 whole).map Nat.cast
  | _ :: part => do
    let m ← read 10 whole
    let n ← read 10 part
    return (m : ℚ) + n / 10 ^ part.length

/-- The last `d` digits of a number. -/
def pad (d n : ℕ) : List Char :=
  List.replicate (d - (Nat.toDigits 10 n).length) '0' ++ Nat.toDigits 10 n

/-- `n / 10 ^ d` with `d` decimals. -/
def fixed (d n : ℕ) : List Char := Nat.toDigits 10 (n / 10 ^ d) ++ '.' :: pad d (n % 10 ^ d)

lemma digits_pad (d n : ℕ) : Digits 10 (pad d n) :=
  (digits_replicate (by norm_num) _).append (digits_toDigits (by norm_num) n)

lemma value_pad (d n : ℕ) : value 10 (pad d n) = n := by
  rw [pad, value_append, value_replicate, value_toDigits (by norm_num) (by norm_num), zero_mul,
    zero_add]

lemma length_pad {d n : ℕ} (hd : 0 < d) (hn : n < 10 ^ d) : (pad d n).length = d := by
  have hlen := (Nat.length_toDigits_le_iff (by norm_num) hd).mpr hn
  rw [pad, List.length_append, List.length_replicate, Nat.sub_add_cancel hlen]

lemma ne_point {cs : List Char} (h : Digits 10 cs) : ∀ c ∈ cs, c ≠ '.' := by
  rintro c hc rfl
  obtain ⟨d, hd, hchar⟩ := h _ hc
  have hval := digitVal_digitChar (d := d) (by omega)
  rw [← hchar] at hval
  exact absurd hval (by decide +revert)

lemma takeWhile_point {cs cs' : List Char} (h : Digits 10 cs) :
    (cs ++ '.' :: cs').takeWhile (· ≠ '.') = cs := by
  rw [List.takeWhile_append_of_pos (by simpa using ne_point h)]
  simp

lemma dropWhile_point {cs cs' : List Char} (h : Digits 10 cs) :
    (cs ++ '.' :: cs').dropWhile (· ≠ '.') = '.' :: cs' := by
  rw [List.dropWhile_append_of_pos (by simpa using ne_point h)]
  simp

lemma denotes_append {cs cs' : List Char} (h : Digits 10 cs) (h' : Digits 10 cs') (hne : cs ≠ [])
    (hne' : cs' ≠ []) :
    denotes (cs ++ '.' :: cs') =
      some ((value 10 cs : ℚ) + value 10 cs' / 10 ^ cs'.length) := by
  simp only [denotes, takeWhile_point h, dropWhile_point h, read_digits (by norm_num) hne h,
    read_digits (by norm_num) hne' h', Option.bind_eq_bind, Option.bind_some, Option.pure_def]

/-- **A fraction denotes what it is written for.** -/
theorem denotes_fixed {d : ℕ} (hd : 0 < d) (n : ℕ) :
    denotes (fixed d n) = some ((n : ℚ) / 10 ^ d) := by
  have hmod : n % 10 ^ d < 10 ^ d := Nat.mod_lt _ (by positivity)
  have hlen := length_pad hd hmod
  have hne : pad d (n % 10 ^ d) ≠ [] := by
    rw [← List.length_pos_iff, hlen]
    exact hd
  rw [fixed, denotes_append (digits_toDigits (by norm_num) _) (digits_pad _ _)
    Nat.toDigits_ne_nil hne, value_toDigits (by norm_num) (by norm_num), value_pad, hlen]
  have hsplit : (n : ℚ) = 10 ^ d * (n / 10 ^ d : ℕ) + (n % 10 ^ d : ℕ) := by
    exact_mod_cast (Nat.div_add_mod n (10 ^ d)).symm
  rw [Option.some.injEq]
  conv_rhs => rw [hsplit]
  field_simp

lemma take_pad {d k m : ℕ} (hd : 0 < d) (hm : m < 10 ^ (d + k)) :
    (pad (d + k) m).take d = pad d (m / 10 ^ k) := by
  have hpad := length_pad (by omega) hm
  have hlt : m / 10 ^ k < 10 ^ d := by
    rw [Nat.div_lt_iff_lt_mul (by positivity), ← pow_add]
    exact hm
  have htake : ((pad (d + k) m).take d).length = d := by
    rw [List.length_take, hpad]
    omega
  have hall : Digits 10 (pad (d + k) m) := digits_pad _ _
  refine value_inj (by norm_num) (by norm_num) (hall.sublist (List.take_sublist _ _))
    (digits_pad _ _) (htake.trans (length_pad hd hlt).symm) ?_
  have hsplit := @value_append 10 ((pad (d + k) m).take d) ((pad (d + k) m).drop d)
  have hrest := value_lt (b := 10) (by norm_num) (by norm_num)
    (hall.sublist (List.drop_sublist d (pad (d + k) m)))
  have hdrop : ((pad (d + k) m).drop d).length = k := by
    rw [List.length_drop, hpad]
    omega
  rw [List.take_append_drop, value_pad, hdrop] at hsplit
  rw [hdrop] at hrest
  rw [value_pad]
  conv_rhs => rw [hsplit, Nat.add_comm, Nat.add_mul_div_right _ _ (by positivity),
    Nat.div_eq_of_lt hrest, zero_add]

/-- **Decimals cut off** leave the largest fraction with fewer decimals that is no larger. -/
theorem take_fixed {d : ℕ} (hd : 0 < d) (k n : ℕ) :
    Nat.toDigits 10 (n / 10 ^ (d + k)) ++ '.' :: (pad (d + k) (n % 10 ^ (d + k))).take d =
      fixed d (n / 10 ^ k) := by
  have hmod : n % 10 ^ (d + k) < 10 ^ (d + k) := Nat.mod_lt _ (by positivity)
  have hdiv : n / 10 ^ (d + k) = n / 10 ^ k / 10 ^ d := by
    rw [Nat.div_div_eq_div_mul, ← pow_add, Nat.add_comm k d]
  have hrest : n % 10 ^ (d + k) / 10 ^ k = n / 10 ^ k % 10 ^ d := by
    rw [Nat.add_comm d k, pow_add, Nat.mod_mul_right_div_self]
  rw [take_pad hd hmod, fixed, hdiv, hrest]

end OpenWallet.Lib.Decimal
