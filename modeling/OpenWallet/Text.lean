import OpenWallet.Json
import OpenWallet.Lib.Numeral

/-!
The string functions the programs use, on the characters of a string.
-/

namespace OpenWallet.Text

open Lib.Numeral

/-- `std::transform(s, ::toupper)` in the C locale. -/
def toupper (s : String) : String := String.ofList (s.toList.map Char.toUpper)

/-- `s.substr(pos, n)` -/
def substr (s : String) (pos n : ℕ) : Except Exn String :=
  if pos ≤ s.toList.length then .ok (String.ofList ((s.toList.drop pos).take n))
  else .error .outOfRange

lemma substr_eq_ok {s t : String} {pos n : ℕ} :
    substr s pos n = .ok t ↔
      pos ≤ s.toList.length ∧ String.ofList ((s.toList.drop pos).take n) = t := by
  unfold substr
  split
  · next h => simp [h]
  · next h => simp [h]

/-- The text before the first occurrence of `pat`, which is `substr(0, find(pat))`. -/
def before (pat : List Char) : List Char → Option (List Char)
  | [] => if pat = [] then some [] else none
  | c :: cs =>
    if pat.isPrefixOf (c :: cs) then some [] else (before pat cs).map (c :: ·)

lemma before_append {a : Char} {pat cs : List Char} (cs' : List Char) (h : a ∉ cs) :
    before (a :: pat) (cs ++ (a :: pat ++ cs')) = some cs := by
  induction cs with
  | nil => simp [before]
  | cons c cs ih =>
    obtain ⟨hc, hcs⟩ := not_or.mp (List.mem_cons.not.mp h)
    have hpre : (a :: pat).isPrefixOf (c :: (cs ++ (a :: pat ++ cs'))) = false := by
      simp [List.isPrefixOf, hc]
    rw [List.cons_append, before, hpre, ih hcs]
    simp

/-- Digits with blanks among them, of which there may be none after a prefix. -/
def readDigits (b : ℕ) (cs : List Char) : Option ℕ := readOn b 0 (cs.filter (!·.isWhitespace))

/-- An unsigned numeral whose base its prefix gives, as `mpz_set_str` with base 0 reads it. -/
def readPrefixed : List Char → Option ℕ
  | '0' :: 'x' :: cs | '0' :: 'X' :: cs => readDigits 16 cs
  | '0' :: 'b' :: cs | '0' :: 'B' :: cs => readDigits 2 cs
  | '0' :: cs => readDigits 8 cs
  | c :: cs => if c.isDigit then readDigits 10 (c :: cs) else none
  | [] => none

/-- The assignment of a string to an `mpz_class`. -/
def mpz (s : String) : Except Exn ℤ :=
  match s.toList.dropWhile (·.isWhitespace) with
  | '-' :: cs => match readPrefixed cs with
    | some n => .ok (-n)
    | none => .error .invalidArgument
  | cs => match readPrefixed cs with
    | some n => .ok n
    | none => .error .invalidArgument

/-- `std::stoi` -/
def stoi (s : String) : Except Exn ℤ :=
  let cs := s.toList.dropWhile (·.isWhitespace)
  let ds := if cs.head? = some '-' ∨ cs.head? = some '+' then cs.tail else cs
  match read 10 (ds.takeWhile (·.isDigit)) with
  | none => .error .invalidArgument
  | some n =>
    let z : ℤ := if cs.head? = some '-' then -n else n
    if -2 ^ 31 ≤ z ∧ z < 2 ^ 31 then .ok z else .error .outOfRange

/-- `std::stoul`; a sign turns the number around in 64 bits. -/
def stoul (s : String) : Except Exn ℕ :=
  let cs := s.toList.dropWhile (·.isWhitespace)
  let ds := if cs.head? = some '-' ∨ cs.head? = some '+' then cs.tail else cs
  match read 10 (ds.takeWhile (·.isDigit)) with
  | none => .error .invalidArgument
  | some n =>
    if 2 ^ 64 ≤ n then .error .outOfRange
    else .ok (if cs.head? = some '-' then (2 ^ 64 - n) % 2 ^ 64 else n)

lemma stoul_toString {n : ℕ} (h : n < 2 ^ 64) : stoul (toString n) = .ok n := by
  have hlist : (toString n).toList = Nat.toDigits 10 n := String.toList_ofList
  have hdigit : ∀ c ∈ Nat.toDigits 10 n, c.isDigit = true := fun c hc =>
    Nat.isDigit_of_mem_toDigits (by norm_num) le_rfl hc
  have hdrop : (Nat.toDigits 10 n).dropWhile (·.isWhitespace) = Nat.toDigits 10 n := by
    cases hd : Nat.toDigits 10 n with
    | nil => rfl
    | cons c cs =>
      have hw := not_isWhitespace (b := 10) (by norm_num) (by norm_num) (hd ▸ List.mem_cons_self)
      rw [List.dropWhile_cons_of_neg (by simp [hw])]
  have hsign : ∀ c, c.isDigit = false → (Nat.toDigits 10 n).head? ≠ some c := fun c hc hhead => by
    rw [hdigit c (List.mem_of_mem_head? hhead)] at hc
    cases hc
  have htake : (Nat.toDigits 10 n).takeWhile (·.isDigit) = Nat.toDigits 10 n := by
    simpa using @List.takeWhile_append_of_pos _ (·.isDigit) (Nat.toDigits 10 n) [] hdigit
  simp only [stoul, hlist, hdrop, hsign '-' (by decide), hsign '+' (by decide), or_self, if_false,
    htake, read_toDigits (b := 10) (by norm_num) (by norm_num) n, if_neg (Nat.not_le.mpr h)]

/-- `hex(n)` without its prefix, and what `std::hex` prints. -/
def hex (n : ℕ) : String := String.ofList (Nat.toDigits 16 n)

/-- `ss >> std::hex >> height` on the text in the stream: the number, and the text left. -/
def readHex (s : String) : ℕ × String :=
  let cs := match s.toList.dropWhile (·.isWhitespace) with
    | '0' :: 'x' :: r | '0' :: 'X' :: r => r
    | r => r
  let ds := cs.takeWhile fun c => (digitVal c).isSome
  (min ((read 16 ds).getD 0) (2 ^ 64 - 1), String.ofList (cs.drop ds.length))

/-- `ss >> s` for a string: the next word, and the text left. -/
def word (s : String) : String × String :=
  let cs := s.toList.dropWhile (·.isWhitespace)
  (String.ofList (cs.takeWhile (!·.isWhitespace)), String.ofList (cs.dropWhile (!·.isWhitespace)))

lemma word_hex (n : ℕ) : word ("" ++ hex n) = (hex n, "") := by
  have hw : ∀ c ∈ Nat.toDigits 16 n, c.isWhitespace = false := fun c hc =>
    not_isWhitespace (by norm_num) le_rfl hc
  have hw' : ∀ c ∈ Nat.toDigits 16 n, (!c.isWhitespace) = true := fun c hc => by simp [hw c hc]
  have hdrop : (Nat.toDigits 16 n).dropWhile (·.isWhitespace) = Nat.toDigits 16 n := by
    cases h : Nat.toDigits 16 n with
    | nil => rfl
    | cons c cs => rw [List.dropWhile_cons_of_neg (by simp [hw c (by simp [h])])]
  have htake : (Nat.toDigits 16 n).takeWhile (!·.isWhitespace) = Nat.toDigits 16 n := by
    simpa using @List.takeWhile_append_of_pos _ (!·.isWhitespace) (Nat.toDigits 16 n) [] hw'
  have hrest : (Nat.toDigits 16 n).dropWhile (!·.isWhitespace) = [] := by
    simpa using @List.dropWhile_append_of_pos _ (!·.isWhitespace) (Nat.toDigits 16 n) [] hw'
  simp [word, hex, hdrop, htake, hrest]

/-- The digits of `n` filled with zeros to six places. -/
def six (n : ℕ) : String := String.ofList (List.replicate (6 - (Nat.toDigits 10 n).length) '0'
  ++ Nat.toDigits 10 n)

/-- `std::to_string` of a `double`, which prints six decimals. -/
def to_string (q : Double) : String :=
  let n := (Double.roundEven (|q| * 10 ^ 6)).toNat
  (if q < 0 then "-" else "") ++ toString (n / 10 ^ 6) ++ "." ++ six (n % 10 ^ 6)

example : to_string (5 / 4) = "1.250000" := by decide +kernel

end OpenWallet.Text
