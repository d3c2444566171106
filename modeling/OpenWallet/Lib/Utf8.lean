import Mathlib.Tactic

/-!
The check of UTF-8 by a table: one lookup for each byte takes one of nine states to the next.
State 0 accepts and state 1 rejects; the others stand inside a character. It accepts exactly the
encodings of texts.
-/

namespace OpenWallet.Lib

/-- The class of each byte, and from 256 on the next state for each state and class. -/
def utf8d : List ℕ :=
  [0, 0, 0, 0, 0, 0, 0, 0, 0, 0, 0, 0, 0, 0, 0, 0, 0, 0, 0, 0, 0, 0, 0, 0, 0, 0, 0, 0, 0, 0, 0, 0,
   0, 0, 0, 0, 0, 0, 0, 0, 0, 0, 0, 0, 0, 0, 0, 0, 0, 0, 0, 0, 0, 0, 0, 0, 0, 0, 0, 0, 0, 0, 0, 0,
   0, 0, 0, 0, 0, 0, 0, 0, 0, 0, 0, 0, 0, 0, 0, 0, 0, 0, 0, 0, 0, 0, 0, 0, 0, 0, 0, 0, 0, 0, 0, 0,
   0, 0, 0, 0, 0, 0, 0, 0, 0, 0, 0, 0, 0, 0, 0, 0, 0, 0, 0, 0, 0, 0, 0, 0, 0, 0, 0, 0, 0, 0, 0, 0,
   1, 1, 1, 1, 1, 1, 1, 1, 1, 1, 1, 1, 1, 1, 1, 1, 9, 9, 9, 9, 9, 9, 9, 9, 9, 9, 9, 9, 9, 9, 9, 9,
   7, 7, 7, 7, 7, 7, 7, 7, 7, 7, 7, 7, 7, 7, 7, 7, 7, 7, 7, 7, 7, 7, 7, 7, 7, 7, 7, 7, 7, 7, 7, 7,
   8, 8, 2, 2, 2, 2, 2, 2, 2, 2, 2, 2, 2, 2, 2, 2, 2, 2, 2, 2, 2, 2, 2, 2, 2, 2, 2, 2, 2, 2, 2, 2,
   0xA, 0x3, 0x3, 0x3, 0x3, 0x3, 0x3, 0x3, 0x3, 0x3, 0x3, 0x3, 0x3, 0x4, 0x3, 0x3,
   0xB, 0x6, 0x6, 0x6, 0x5, 0x8, 0x8, 0x8, 0x8, 0x8, 0x8, 0x8, 0x8, 0x8, 0x8, 0x8,
   0x0, 0x1, 0x2, 0x3, 0x5, 0x8, 0x7, 0x1, 0x1, 0x1, 0x4, 0x6, 0x1, 0x1, 0x1, 0x1,
   1, 1, 1, 1, 1, 1, 1, 1, 1, 1, 1, 1, 1, 1, 1, 1, 1, 0, 1, 1, 1, 1, 1, 0, 1, 0, 1, 1, 1, 1, 1, 1,
   1, 2, 1, 1, 1, 1, 1, 2, 1, 2, 1, 1, 1, 1, 1, 1, 1, 1, 1, 1, 1, 1, 1, 2, 1, 1, 1, 1, 1, 1, 1, 1,
   1, 2, 1, 1, 1, 1, 1, 1, 1, 2, 1, 1, 1, 1, 1, 1, 1, 1, 1, 1, 1, 1, 1, 3, 1, 3, 1, 1, 1, 1, 1, 1,
   1, 3, 1, 1, 1, 1, 1, 3, 1, 3, 1, 1, 1, 1, 1, 1, 1, 3, 1, 1, 1, 1, 1, 1, 1, 1, 1, 1, 1, 1, 1, 1]

def decode (state : ℕ) (byte : UInt8) : ℕ :=
  utf8d.getD (256 + state * 16 + utf8d.getD byte.toNat 0) 0

def utf8 (cs : List Char) : List UInt8 := cs.flatMap String.utf8EncodeChar

section

variable (b : UInt8)

lemma decode_start : decode 0 b =
    if b.toNat < 0x80 then 0 else if b.toNat < 0xC2 then 1 else if b.toNat < 0xE0 then 2
    else if b.toNat = 0xE0 then 4 else if b.toNat = 0xED then 5 else if b.toNat < 0xF0 then 3
    else if b.toNat = 0xF0 then 6 else if b.toNat < 0xF4 then 7 else if b.toNat = 0xF4 then 8
    else 1 := by
  have h : ∀ n < 256, utf8d.getD (256 + 0 * 16 + utf8d.getD n 0) 0 =
      if n < 0x80 then 0 else if n < 0xC2 then 1 else if n < 0xE0 then 2
      else if n = 0xE0 then 4 else if n = 0xED then 5 else if n < 0xF0 then 3
      else if n = 0xF0 then 6 else if n < 0xF4 then 7 else if n = 0xF4 then 8 else 1 := by
    decide +kernel
  exact h _ b.toNat_lt

lemma decode_reject : decode 1 b = 1 := by
  have h : ∀ n < 256, utf8d.getD (256 + 1 * 16 + utf8d.getD n 0) 0 = 1 := by decide +kernel
  exact h _ b.toNat_lt

/-- The states inside a character, with the bounds of the next byte and the state after it. -/
def inside : List (ℕ × ℕ × ℕ × ℕ) :=
  [(2, 0x80, 0xC0, 0), (3, 0x80, 0xC0, 2), (4, 0xA0, 0xC0, 2), (5, 0x80, 0xA0, 2),
    (6, 0x90, 0xC0, 3), (7, 0x80, 0xC0, 3), (8, 0x80, 0x90, 3)]

lemma decode_inside (state lo hi next : ℕ) (h : (state, lo, hi, next) ∈ inside) :
    decode state b = if lo ≤ b.toNat ∧ b.toNat < hi then next else 1 := by
  have hall : ∀ s ∈ inside, ∀ n < 256, utf8d.getD (256 + s.1 * 16 + utf8d.getD n 0) 0 =
      if s.2.1 ≤ n ∧ n < s.2.2.1 then s.2.2.2 else 1 := by
    decide +kernel
  exact hall _ h _ b.toNat_lt

end

lemma foldl_reject (l : List UInt8) : l.foldl decode 1 = 1 := by
  induction l with
  | nil => rfl
  | cons b l ih => rw [List.foldl_cons, decode_reject, ih]

/-- From inside a character, what is accepted goes on with a byte between the bounds. -/
lemma foldl_inside (state lo hi next : ℕ) {l : List UInt8} (h : (state, lo, hi, next) ∈ inside)
    (hs : state ≠ 0) (hl : l.foldl decode state = 0) :
    ∃ b l', l = b :: l' ∧ (lo ≤ b.toNat ∧ b.toNat < hi) ∧ l'.foldl decode next = 0 := by
  cases l with
  | nil => exact absurd hl hs
  | cons b l =>
    rw [List.foldl_cons, decode_inside b state lo hi next h] at hl
    split at hl
    · next hb => exact ⟨b, l, rfl, hb, hl⟩
    · rw [foldl_reject] at hl
      cases hl

lemma exists_char {v : ℕ} (h : v.isValidChar) : ∃ c : Char, c.val.toNat = v :=
  ⟨Char.ofNat v, by rw [Char.ofNat, dif_pos h]; rfl⟩

lemma char_one {a : UInt8} (ha : a.toNat < 0x80) : ∃ c, String.utf8EncodeChar c = [a] := by
  obtain ⟨c, hc⟩ := exists_char (v := a.toNat) (Or.inl (by omega))
  refine ⟨c, ?_⟩
  rw [String.utf8EncodeChar, hc, if_pos (by omega)]
  simp

lemma char_two {a b : UInt8} (ha : 0xC2 ≤ a.toNat ∧ a.toNat < 0xE0)
    (hb : 0x80 ≤ b.toNat ∧ b.toNat < 0xC0) : ∃ c, String.utf8EncodeChar c = [a, b] := by
  obtain ⟨c, hc⟩ := exists_char (v := (a.toNat - 0xC0) * 64 + (b.toNat - 0x80)) (Or.inl (by omega))
  refine ⟨c, ?_⟩
  rw [String.utf8EncodeChar, hc, if_neg (by omega), if_pos (by omega)]
  simp only [List.cons.injEq, ← UInt8.toNat_inj, UInt8.toNat_ofNat', and_true]
  omega

lemma char_three {a b d : UInt8} (ha : 0xE0 ≤ a.toNat ∧ a.toNat < 0xF0)
    (hb : 0x80 ≤ b.toNat ∧ b.toNat < 0xC0) (hd : 0x80 ≤ d.toNat ∧ d.toNat < 0xC0)
    (hE0 : a.toNat = 0xE0 → 0xA0 ≤ b.toNat) (hED : a.toNat = 0xED → b.toNat < 0xA0) :
    ∃ c, String.utf8EncodeChar c = [a, b, d] := by
  have hv : ((a.toNat - 0xE0) * 4096 + (b.toNat - 0x80) * 64 + (d.toNat - 0x80)).isValidChar := by
    unfold Nat.isValidChar
    omega
  obtain ⟨c, hc⟩ := exists_char hv
  refine ⟨c, ?_⟩
  rw [String.utf8EncodeChar, hc, if_neg (by omega), if_neg (by omega), if_pos (by omega)]
  simp only [List.cons.injEq, ← UInt8.toNat_inj, UInt8.toNat_ofNat', and_true]
  omega

lemma char_four {a b d e : UInt8} (ha : 0xF0 ≤ a.toNat ∧ a.toNat < 0xF5)
    (hb : 0x80 ≤ b.toNat ∧ b.toNat < 0xC0) (hd : 0x80 ≤ d.toNat ∧ d.toNat < 0xC0)
    (he : 0x80 ≤ e.toNat ∧ e.toNat < 0xC0)
    (hF0 : a.toNat = 0xF0 → 0x90 ≤ b.toNat) (hF4 : a.toNat = 0xF4 → b.toNat < 0x90) :
    ∃ c, String.utf8EncodeChar c = [a, b, d, e] := by
  have hv : ((a.toNat - 0xF0) * 262144 + (b.toNat - 0x80) * 4096 + (d.toNat - 0x80) * 64 +
      (e.toNat - 0x80)).isValidChar := by
    unfold Nat.isValidChar
    omega
  obtain ⟨c, hc⟩ := exists_char hv
  refine ⟨c, ?_⟩
  rw [String.utf8EncodeChar, hc, if_neg (by omega), if_neg (by omega), if_neg (by omega)]
  simp only [List.cons.injEq, ← UInt8.toNat_inj, UInt8.toNat_ofNat', and_true]
  omega

/-! ### What is accepted -/

lemma foldl_two {a b : UInt8} (ha : 0xC2 ≤ a.toNat ∧ a.toNat < 0xE0)
    (hb : 0x80 ≤ b.toNat ∧ b.toNat < 0xC0) : [a, b].foldl decode 0 = 0 := by
  have h₁ : decode 0 a = 2 := by
    rw [decode_start, if_neg (by omega), if_neg (by omega), if_pos ha.2]
  rw [List.foldl_cons, h₁, List.foldl_cons, decode_inside b 2 0x80 0xC0 0 (by decide), if_pos hb,
    List.foldl_nil]

lemma foldl_three {a b d : UInt8} (ha : 0xE0 ≤ a.toNat ∧ a.toNat < 0xF0)
    (hb : 0x80 ≤ b.toNat ∧ b.toNat < 0xC0) (hd : 0x80 ≤ d.toNat ∧ d.toNat < 0xC0)
    (hE0 : a.toNat = 0xE0 → 0xA0 ≤ b.toNat) (hED : a.toNat = 0xED → b.toNat < 0xA0) :
    [a, b, d].foldl decode 0 = 0 := by
  have h₂ : decode (decode 0 a) b = 2 := by
    rw [decode_start, if_neg (by omega), if_neg (by omega), if_neg (by omega)]
    split_ifs with h h'
    · rw [decode_inside b 4 0xA0 0xC0 2 (by decide), if_pos ⟨hE0 h, hb.2⟩]
    · rw [decode_inside b 5 0x80 0xA0 2 (by decide), if_pos ⟨hb.1, hED h'⟩]
    · rw [decode_inside b 3 0x80 0xC0 2 (by decide), if_pos hb]
    all_goals omega
  rw [List.foldl_cons, List.foldl_cons, h₂, List.foldl_cons,
    decode_inside d 2 0x80 0xC0 0 (by decide), if_pos hd, List.foldl_nil]

lemma foldl_four {a b d e : UInt8} (ha : 0xF0 ≤ a.toNat ∧ a.toNat < 0xF5)
    (hb : 0x80 ≤ b.toNat ∧ b.toNat < 0xC0) (hd : 0x80 ≤ d.toNat ∧ d.toNat < 0xC0)
    (he : 0x80 ≤ e.toNat ∧ e.toNat < 0xC0)
    (hF0 : a.toNat = 0xF0 → 0x90 ≤ b.toNat) (hF4 : a.toNat = 0xF4 → b.toNat < 0x90) :
    [a, b, d, e].foldl decode 0 = 0 := by
  have h₂ : decode (decode 0 a) b = 3 := by
    rw [decode_start, if_neg (by omega), if_neg (by omega), if_neg (by omega), if_neg (by omega),
      if_neg (by omega), if_neg (by omega)]
    split_ifs with h h' h''
    · rw [decode_inside b 6 0x90 0xC0 3 (by decide), if_pos ⟨hF0 h, hb.2⟩]
    · rw [decode_inside b 7 0x80 0xC0 3 (by decide), if_pos hb]
    · rw [decode_inside b 8 0x80 0x90 3 (by decide), if_pos ⟨hb.1, hF4 h''⟩]
    · omega
  rw [List.foldl_cons, List.foldl_cons, h₂, List.foldl_cons,
    decode_inside d 3 0x80 0xC0 2 (by decide), if_pos hd, List.foldl_cons,
    decode_inside e 2 0x80 0xC0 0 (by decide), if_pos he, List.foldl_nil]

lemma foldl_char (c : Char) : (String.utf8EncodeChar c).foldl decode 0 = 0 := by
  have hv : c.val.toNat < 0xd800 ∨ (0xdfff < c.val.toNat ∧ c.val.toNat < 0x110000) := c.valid
  unfold String.utf8EncodeChar
  generalize c.val.toNat = v at hv
  dsimp only
  split_ifs with h₁ h₂ h₃
  · rw [List.foldl_cons, decode_start, UInt8.toNat_ofNat', if_pos (by omega), List.foldl_nil]
  · refine foldl_two ?_ ?_ <;> simp only [UInt8.toNat_ofNat'] <;> omega
  · refine foldl_three ?_ ?_ ?_ ?_ ?_ <;> simp only [UInt8.toNat_ofNat'] <;> omega
  · refine foldl_four ?_ ?_ ?_ ?_ ?_ ?_ <;> simp only [UInt8.toNat_ofNat'] <;> omega

lemma exists_char_of_foldl {b : UInt8} {l : List UInt8} (h : (b :: l).foldl decode 0 = 0) :
    ∃ c l', b :: l = String.utf8EncodeChar c ++ l' ∧ l'.foldl decode 0 = 0 := by
  rw [List.foldl_cons, decode_start] at h
  split_ifs at h with h₁ h₂ h₃ h₄ h₅ h₆ h₇ h₈ h₉
  · obtain ⟨c, hc⟩ := char_one h₁
    exact ⟨c, l, by rw [hc]; rfl, h⟩
  · rw [foldl_reject] at h
    cases h
  · obtain ⟨d, l, rfl, hd, h⟩ := foldl_inside 2 0x80 0xC0 0 (by decide) (by decide) h
    obtain ⟨c, hc⟩ := char_two ⟨by omega, h₃⟩ hd
    exact ⟨c, l, by rw [hc]; rfl, h⟩
  · obtain ⟨d, l, rfl, hd, h⟩ := foldl_inside 4 0xA0 0xC0 2 (by decide) (by decide) h
    obtain ⟨e, l, rfl, he, h⟩ := foldl_inside 2 0x80 0xC0 0 (by decide) (by decide) h
    obtain ⟨c, hc⟩ := char_three (a := b) (b := d) (by omega) (by omega) he (by omega) (by omega)
    exact ⟨c, l, by rw [hc]; rfl, h⟩
  · obtain ⟨d, l, rfl, hd, h⟩ := foldl_inside 5 0x80 0xA0 2 (by decide) (by decide) h
    obtain ⟨e, l, rfl, he, h⟩ := foldl_inside 2 0x80 0xC0 0 (by decide) (by decide) h
    obtain ⟨c, hc⟩ := char_three (a := b) (b := d) (by omega) (by omega) he (by omega) (by omega)
    exact ⟨c, l, by rw [hc]; rfl, h⟩
  · obtain ⟨d, l, rfl, hd, h⟩ := foldl_inside 3 0x80 0xC0 2 (by decide) (by decide) h
    obtain ⟨e, l, rfl, he, h⟩ := foldl_inside 2 0x80 0xC0 0 (by decide) (by decide) h
    obtain ⟨c, hc⟩ := char_three (a := b) (b := d) (by omega) hd he (by omega) (by omega)
    exact ⟨c, l, by rw [hc]; rfl, h⟩
  · obtain ⟨d, l, rfl, hd, h⟩ := foldl_inside 6 0x90 0xC0 3 (by decide) (by decide) h
    obtain ⟨e, l, rfl, he, h⟩ := foldl_inside 3 0x80 0xC0 2 (by decide) (by decide) h
    obtain ⟨f, l, rfl, hf, h⟩ := foldl_inside 2 0x80 0xC0 0 (by decide) (by decide) h
    obtain ⟨c, hc⟩ := char_four (a := b) (b := d) (by omega) (by omega) he hf (by omega) (by omega)
    exact ⟨c, l, by rw [hc]; rfl, h⟩
  · obtain ⟨d, l, rfl, hd, h⟩ := foldl_inside 7 0x80 0xC0 3 (by decide) (by decide) h
    obtain ⟨e, l, rfl, he, h⟩ := foldl_inside 3 0x80 0xC0 2 (by decide) (by decide) h
    obtain ⟨f, l, rfl, hf, h⟩ := foldl_inside 2 0x80 0xC0 0 (by decide) (by decide) h
    obtain ⟨c, hc⟩ := char_four (a := b) (b := d) (by omega) hd he hf (by omega) (by omega)
    exact ⟨c, l, by rw [hc]; rfl, h⟩
  · obtain ⟨d, l, rfl, hd, h⟩ := foldl_inside 8 0x80 0x90 3 (by decide) (by decide) h
    obtain ⟨e, l, rfl, he, h⟩ := foldl_inside 3 0x80 0xC0 2 (by decide) (by decide) h
    obtain ⟨f, l, rfl, hf, h⟩ := foldl_inside 2 0x80 0xC0 0 (by decide) (by decide) h
    obtain ⟨c, hc⟩ := char_four (a := b) (b := d) (by omega) (by omega) he hf (by omega) (by omega)
    exact ⟨c, l, by rw [hc]; rfl, h⟩
  · rw [foldl_reject] at h
    cases h

/-- **The table accepts exactly the encodings of texts.** -/
theorem foldl_decode_iff (l : List UInt8) : l.foldl decode 0 = 0 ↔ ∃ cs, l = utf8 cs := by
  constructor
  · intro h
    induction hn : l.length using Nat.strong_induction_on generalizing l with
    | _ n ih =>
      cases l with
      | nil => exact ⟨[], rfl⟩
      | cons b l =>
        obtain ⟨c, l', hl, h'⟩ := exists_char_of_foldl h
        have hlt : l'.length < n := by
          have hlen := congrArg List.length hl
          have hpos := List.length_pos_of_ne_nil (String.utf8EncodeChar_ne_nil (c := c))
          rw [List.length_append] at hlen
          omega
        obtain ⟨cs, rfl⟩ := ih _ hlt l' h' rfl
        exact ⟨c :: cs, hl⟩
  · rintro ⟨cs, rfl⟩
    induction cs with
    | nil => rfl
    | cons c cs ih => rw [utf8, List.flatMap_cons, List.foldl_append, foldl_char, ← utf8, ih]

end OpenWallet.Lib
