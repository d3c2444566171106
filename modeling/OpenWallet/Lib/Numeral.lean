import Mathlib.Tactic

/-!
Numerals in a base of sixteen or less, as lists of digit characters: reading them, and what
reading makes of the numeral a number is written with.
-/

namespace OpenWallet.Lib.Numeral

def digitVal (c : Char) : Option ℕ :=
  if '0' ≤ c ∧ c ≤ '9' then some (c.toNat - '0'.toNat)
  else if 'a' ≤ c ∧ c ≤ 'f' then some (c.toNat - 'a'.toNat + 10)
  else if 'A' ≤ c ∧ c ≤ 'F' then some (c.toNat - 'A'.toNat + 10)
  else none

/-- Reads digits after a value already read. -/
def readOn (b : ℕ) : ℕ → List Char → Option ℕ
  | v, [] => some v
  | v, c :: cs => (digitVal c).bind fun d => if d < b then readOn b (b * v + d) cs else none

/-- A numeral has at least one digit. -/
def read (b : ℕ) (cs : List Char) : Option ℕ := if cs = [] then none else readOn b 0 cs

lemma digitVal_digitChar {d : ℕ} (h : d < 16) : digitVal d.digitChar = some d := by
  interval_cases d <;> decide

variable {b : ℕ}

lemma mem_toDigits (hb : 1 < b) {n : ℕ} {c : Char} (h : c ∈ Nat.toDigits b n) :
    ∃ d < b, c = d.digitChar := by
  induction n using Nat.strong_induction_on with
  | _ n ih =>
    rw [Nat.toDigits_eq_if hb] at h
    split at h
    · next hn => exact ⟨n, hn, by simpa using h⟩
    · next hn =>
      rcases List.mem_append.mp h with h | h
      · exact ih (n / b) (Nat.div_lt_self (by omega) hb) h
      · exact ⟨n % b, Nat.mod_lt _ (by omega), by simpa using h⟩

lemma not_isWhitespace_digitChar {d : ℕ} (h : d < 16) : d.digitChar.isWhitespace = false := by
  interval_cases d <;> decide

lemma not_isWhitespace (hb : 1 < b) (hb' : b ≤ 16) {n : ℕ} {c : Char}
    (h : c ∈ Nat.toDigits b n) : c.isWhitespace = false := by
  obtain ⟨d, hd, rfl⟩ := mem_toDigits hb h
  exact not_isWhitespace_digitChar (by omega)

lemma readOn_append {v : ℕ} {cs cs' : List Char} :
    readOn b v (cs ++ cs') = (readOn b v cs).bind fun u => readOn b u cs' := by
  induction cs generalizing v with
  | nil => rfl
  | cons c cs ih =>
    simp only [List.cons_append, readOn]
    cases digitVal c with
    | none => rfl
    | some d =>
      simp only [Option.bind_some]
      split
      · exact ih
      · rfl

lemma readOn_digit {v d : ℕ} (hb : b ≤ 16) (hd : d < b) :
    readOn b v [d.digitChar] = some (b * v + d) := by
  simp [readOn, digitVal_digitChar (by omega : d < 16), hd]

/-- **A number is read off its numeral.** -/
theorem read_toDigits (hb : 1 < b) (hb' : b ≤ 16) (n : ℕ) :
    read b (Nat.toDigits b n) = some n := by
  rw [read, if_neg Nat.toDigits_ne_nil]
  induction n using Nat.strong_induction_on with
  | _ n ih =>
    rw [Nat.toDigits_eq_if hb]
    split
    · next hn => simpa using readOn_digit (v := 0) hb' hn
    · next hn =>
      rw [readOn_append, ih (n / b) (Nat.div_lt_self (by omega) hb), Option.bind_some,
        readOn_digit hb' (Nat.mod_lt _ (by omega)), Nat.div_add_mod]

lemma toList_toString (n : ℕ) : (toString n).toList = Nat.toDigits 10 n := String.toList_ofList

lemma toString_injective {m n : ℕ} (h : toString m = toString n) : m = n := by
  have hdigits : Nat.toDigits 10 m = Nat.toDigits 10 n := by
    rw [← toList_toString, ← toList_toString, h]
  have hread := read_toDigits (b := 10) (by norm_num) (by norm_num) m
  rw [hdigits, read_toDigits (by norm_num) (by norm_num)] at hread
  exact (Option.some.inj hread).symm

lemma toString_ne_sign (m n : ℕ) : toString m ≠ "-" ++ toString n := by
  intro h
  have hmem : '-' ∈ Nat.toDigits 10 m := by
    rw [← toList_toString, h, String.toList_append]
    exact List.mem_append_left _ (by decide)
  obtain ⟨d, hd, hchar⟩ := mem_toDigits (by norm_num) hmem
  have hnone := digitVal_digitChar (d := d) (by omega)
  rw [← hchar] at hnone
  exact absurd hnone (by decide +revert)

lemma int_toString_injective {y z : ℤ} (h : toString y = toString z) : y = z := by
  cases y with
  | ofNat m =>
    cases z with
    | ofNat n => exact congrArg Int.ofNat (toString_injective h)
    | negSucc n => exact absurd h (toString_ne_sign m (n + 1))
  | negSucc m =>
    cases z with
    | ofNat n => exact absurd h.symm (toString_ne_sign n (m + 1))
    | negSucc n =>
      have hsucc : m + 1 = n + 1 := toString_injective ((String.append_right_inj "-").mp h)
      rw [Nat.succ.inj hsucc]

/-- The characters are those that numbers are written with. -/
def Digits (b : ℕ) (cs : List Char) : Prop := ∀ c ∈ cs, ∃ d < b, c = d.digitChar

/-- The number that digits denote, leading zeros and all. -/
def value (b : ℕ) (cs : List Char) : ℕ :=
  Nat.ofDigits b (cs.map fun c => (digitVal c).getD 0).reverse

variable {cs cs' : List Char}

lemma Digits.sublist (h : Digits b cs) (hs : cs'.Sublist cs) : Digits b cs' :=
  fun c hc => h c (hs.subset hc)

lemma digits_toDigits (hb : 1 < b) (n : ℕ) : Digits b (Nat.toDigits b n) :=
  fun _ hc => mem_toDigits hb hc

lemma digits_replicate (hb : 0 < b) (n : ℕ) : Digits b (List.replicate n '0') :=
  fun _ hc => ⟨0, hb, List.eq_of_mem_replicate hc⟩

lemma Digits.append (h : Digits b cs) (h' : Digits b cs') : Digits b (cs ++ cs') :=
  fun c hc => (List.mem_append.mp hc).elim (h c) (h' c)

lemma Digits.lt (hb : b ≤ 16) (h : Digits b cs) :
    ∀ d ∈ (cs.map fun c => (digitVal c).getD 0).reverse, d < b := by
  intro d hd
  obtain ⟨c, hc, rfl⟩ := List.mem_map.mp (List.mem_reverse.mp hd)
  obtain ⟨d, hlt, rfl⟩ := h c hc
  rwa [digitVal_digitChar (by omega), Option.getD_some]

lemma Digits.map_digitChar (hb : b ≤ 16) (h : Digits b cs) :
    (cs.map fun c => (digitVal c).getD 0).map Nat.digitChar = cs := by
  rw [List.map_map]
  refine (List.map_congr_left fun c hc => ?_).trans (List.map_id cs)
  obtain ⟨d, hd, rfl⟩ := h c hc
  simp [digitVal_digitChar (by omega : d < 16)]

lemma value_append : value b (cs ++ cs') = value b cs * b ^ cs'.length + value b cs' := by
  simp only [value, List.map_append, List.reverse_append, Nat.ofDigits_append, List.length_reverse,
    List.length_map]
  ring

lemma value_replicate (b n : ℕ) : value b (List.replicate n '0') = 0 := by
  rw [value, List.map_replicate, List.reverse_replicate]
  exact Nat.ofDigits_replicate_zero

lemma value_lt (hb : 1 < b) (hb' : b ≤ 16) (h : Digits b cs) : value b cs < b ^ cs.length := by
  have hlt := Nat.ofDigits_lt_base_pow_length hb (h.lt hb')
  rwa [List.length_reverse, List.length_map] at hlt

lemma readOn_digits (hb : b ≤ 16) (h : Digits b cs) (v : ℕ) :
    readOn b v cs = some (v * b ^ cs.length + value b cs) := by
  induction cs generalizing v with
  | nil => simp [readOn, value]
  | cons c cs ih =>
    obtain ⟨d, hd, rfl⟩ := h c List.mem_cons_self
    have ih := ih (h.sublist (List.sublist_cons_self _ _)) (b * v + d)
    have hone : value b [d.digitChar] = d := by
      simp [value, digitVal_digitChar (by omega : d < 16)]
    rw [← List.singleton_append, readOn_append, readOn_digit hb hd, Option.bind_some, ih,
      value_append, hone, List.length_append, List.length_singleton]
    ring_nf

lemma read_digits (hb : b ≤ 16) (hne : cs ≠ []) (h : Digits b cs) :
    read b cs = some (value b cs) := by
  rw [read, if_neg hne, readOn_digits hb h, Nat.zero_mul, Nat.zero_add]

lemma value_toDigits (hb : 1 < b) (hb' : b ≤ 16) (n : ℕ) : value b (Nat.toDigits b n) = n := by
  have hread := read_digits hb' Nat.toDigits_ne_nil (digits_toDigits hb n)
  exact Option.some.inj (hread.symm.trans (read_toDigits hb hb' n))

/-- **Of one length, each number has one numeral.** -/
theorem value_inj (hb : 1 < b) (hb' : b ≤ 16) (h : Digits b cs) (h' : Digits b cs')
    (hlen : cs.length = cs'.length) (hv : value b cs = value b cs') : cs = cs' := by
  have hdigits := Nat.ofDigits_inj_of_len_eq hb (by simpa using hlen) (h.lt hb') (h'.lt hb') hv
  have hmap := congrArg (List.map Nat.digitChar) (List.reverse_injective hdigits)
  rwa [h.map_digitChar hb', h'.map_digitChar hb'] at hmap

end OpenWallet.Lib.Numeral
