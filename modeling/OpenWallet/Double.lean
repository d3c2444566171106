import Mathlib.Tactic

/-!
A `double` is read as the rational number it denotes. A sum, a difference or a product is the
number nearest to the exact one that 53 binary digits can write. Numbers too large for a `double`
do not come up, and are rounded like the others.
-/

namespace OpenWallet

abbrev Double := ℚ

namespace Double

/-- To the nearest integer, a tie to the even one. -/
def roundEven (q : ℚ) : ℤ :=
  if q - ⌊q⌋ < 1 / 2 then ⌊q⌋
  else if 1 / 2 < q - ⌊q⌋ then ⌊q⌋ + 1
  else if ⌊q⌋ % 2 = 0 then ⌊q⌋ else ⌊q⌋ + 1

lemma roundEven_natCast (n : ℕ) : roundEven n = n := by
  simp [roundEven]

/-- The place of the first binary digit. -/
def exponent (q : ℚ) : ℤ :=
  let e : ℤ := Nat.log2 q.num.natAbs - Nat.log2 q.den
  if |q| < 2 ^ e then e - 1 else e

/-- The value of the last binary digit, which below the normal numbers stays where it is. -/
def ulp (q : ℚ) : ℚ := 2 ^ max (exponent q - 52) (-1074)

/-- The nearest `double`, of two the one whose last digit is even. -/
def round (q : ℚ) : Double := roundEven (q / ulp q) * ulp q

example : round (1 / 10 + 2 / 10) = 5404319552844595 / 2 ^ 54 := by decide +kernel
example : round (5 / 10 ^ 7) < 5 / 10 ^ 7 := by decide +kernel

end Double

end OpenWallet
