import OpenWallet.Lib.Quoting

/-!
Lists of string literals, `'…', '…'`: what a lexer reads of texts that were put between the quotes
as they stand. A text that runs past its quote takes the comma behind it along, and so is never
read as itself.
-/

namespace OpenWallet.Lib.Quoting

/-- A character that stands for itself, after a backslash too, and that no other stands for. -/
def Neutral (c : Char) : Prop := c ≠ '\'' ∧ ∀ d, (escape d).count c = [d].count c

variable {c : Char} {cs t v rest tail back front : List Char}

lemma Neutral.ne_escape (h : Neutral c) : c ≠ '\\' := by
  rintro rfl
  exact absurd (h.2 '%') (by decide)

lemma neutral_of_unescape (hquote : c ≠ '\'') (hwild : c ≠ '%' ∧ c ≠ '_') (hescape : c ≠ '\\')
    (h : ∀ d, unescape d = c ↔ d = c) : Neutral c := by
  refine ⟨hquote, fun d => ?_⟩
  unfold escape
  split
  · next hd =>
    have hne : d ≠ c := by
      rintro rfl
      exact hd.elim hwild.1 hwild.2
    simp [hne, hescape.symm]
  · simp [List.count_cons, h d]

lemma neutral_comma : Neutral ',' := by
  refine neutral_of_unescape (by decide) (by decide) (by decide) fun d => ?_
  unfold unescape
  split <;> simp_all

lemma neutral_paren : Neutral ')' := by
  refine neutral_of_unescape (by decide) (by decide) (by decide) fun d => ?_
  unfold unescape
  split <;> simp_all

/-- A neutral character is as often in the value as in the text it was read from. -/
lemma count_of_quoted (hc : Neutral c) (h : quoted t = some (v, rest)) :
    ∃ used, t = used ++ '\'' :: rest ∧ v.count c = used.count c := by
  have hne := hc.ne_escape
  induction t using quoted.induct generalizing v with
  | case1 => cases h
  | case2 cs ih =>
    obtain ⟨⟨v, rest⟩, hq, heq⟩ := Option.map_eq_some_iff.mp h
    cases heq
    obtain ⟨used, rfl, hcount⟩ := ih hq
    exact ⟨'\'' :: '\'' :: used, rfl, by simp [hcount, hc.1.symm]⟩
  | case3 cs hopen =>
    rw [quoted] at h
    · obtain ⟨rfl, rfl⟩ := Prod.mk.inj (Option.some.inj h)
      exact ⟨[], rfl, rfl⟩
    · exact hopen
  | case4 => cases h
  | case5 d cs ih =>
    obtain ⟨⟨v, rest⟩, hq, heq⟩ := Option.map_eq_some_iff.mp h
    cases heq
    obtain ⟨used, rfl, hcount⟩ := ih hq
    refine ⟨'\\' :: d :: used, rfl, ?_⟩
    simp [List.count_append, List.count_cons, hc.2 d, hcount, hne.symm, Nat.add_comm]
  | case6 d cs hquote hclose hlast hescape ih =>
    have hd : d ≠ '\\' := by
      rintro rfl
      cases cs with
      | nil => exact hlast rfl rfl
      | cons d cs => exact hescape d cs rfl rfl
    rw [quoted_cons hclose hd] at h
    obtain ⟨⟨v, rest⟩, hq, heq⟩ := Option.map_eq_some_iff.mp h
    cases heq
    obtain ⟨used, rfl, hcount⟩ := ih hq
    exact ⟨d :: used, rfl, by simp [List.count_cons, hcount]⟩

/-- **A text that is read as itself is verbatim**, where a neutral character follows the quote
behind it: the literal ends at that quote. -/
theorem quoted_self (hc : Neutral c) (h : quoted (v ++ '\'' :: c :: tail) = some (v, rest)) :
    verbatim v ∧ rest = c :: tail := by
  obtain ⟨used, heq, hlen, hsame⟩ := length_le_of_quoted h
  obtain ⟨used', heq', hcount⟩ := count_of_quoted hc h
  obtain rfl : used = used' := List.append_cancel_right (heq.symm.trans heq')
  rcases List.append_eq_append_iff.mp heq with ⟨mid, rfl, hmid⟩ | ⟨mid, hv, hmid⟩
  · match mid with
    | [] =>
      obtain ⟨-, hverbatim⟩ := hsame (by simp)
      exact ⟨by simpa using hverbatim, (List.cons.inj hmid).2.symm⟩
    | [d] =>
      -- the quote behind the text would be doubled
      obtain ⟨-, hmid⟩ := List.cons.inj hmid
      exact absurd (List.cons.inj hmid).1 hc.1
    | d :: d' :: mid =>
      -- the literal would have the neutral character too
      obtain ⟨-, hmid⟩ := List.cons.inj hmid
      obtain ⟨rfl, -⟩ := List.cons.inj hmid
      simp [List.count_append, List.count_cons] at hcount
  · have hnil : mid = [] := by
      have hsum := congrArg List.length hv
      rw [List.length_append] at hsum
      exact List.length_eq_zero_iff.mp (by omega)
    subst hnil
    rw [List.append_nil] at hv
    obtain ⟨-, hverbatim⟩ := hsame (by rw [hv])
    exact ⟨hv ▸ hverbatim, (List.cons.inj hmid).2⟩

/-- No null character is read: a text that has one is cut off before the end of its literal. -/
lemma quoted_c_str_self (hc : Neutral c) (hnull : c ≠ '\x00') :
    quoted (c_str (v ++ '\'' :: c :: tail)) = some (v, rest) ↔
      (verbatim v ∧ '\x00' ∉ v) ∧ rest = c_str (c :: tail) := by
  have hopen : c_str ('\'' :: c :: tail) = '\'' :: c :: c_str tail := by
    simp [c_str, hnull]
  have hrest : c_str (c :: tail) = c :: c_str tail := by simp [c_str, hnull]
  rw [hrest]
  constructor
  · intro h
    by_cases hv : '\x00' ∈ v
    · obtain ⟨used, heq, hlen, -⟩ := length_le_of_quoted h
      have hlt := length_c_str_lt (t := '\'' :: c :: tail) hv
      rw [heq, List.length_append, List.length_cons] at hlt
      omega
    · rw [c_str_append hv, hopen] at h
      obtain ⟨hverbatim, hrest⟩ := quoted_self hc h
      exact ⟨⟨hverbatim, hv⟩, hrest⟩
  · rintro ⟨⟨hverbatim, hv⟩, rfl⟩
    rw [c_str_append hv, hopen]
    exact quoted_verbatim hverbatim fun h => hc.1 (Option.some.inj h)

/-! ### Lexers -/

/-- Plain text, commas and names between backquotes, up to a space or a parenthesis. -/
def opens (cs : List Char) : Bool :=
  (cs.all fun c => plain c || c = ',' || c = '`') && cs.count '`' % 2 = 0 &&
    (cs.getLast? = some ' ' || cs.getLast? = some '(')

lemma not_mem_opens (h : opens cs) (hc : plain c = false) (hcomma : c ≠ ',') (hname : c ≠ '`') :
    c ∉ cs := by
  intro hmem
  simp only [opens, Bool.and_eq_true, List.all_eq_true, Bool.or_eq_true, decide_eq_true_eq] at h
  rcases h.1.1 c hmem with (h | h) | h
  · rw [hc] at h
    cases h
  · exact hcomma h
  · exact hname h

/-- A lexer that starts a literal at a quote after such a text. -/
structure Lister extends Lexer where
  tokens_opens : ∀ cs cs', opens cs → tokens (cs ++ '\'' :: cs') =
    (tokens cs).bind fun ts => (tokens ('\'' :: cs')).map (ts ++ ·)
  isSome_comma : (tokens [',', ' ']).isSome

/-- The literals after the first, and the text behind them. -/
def further (back : List Char) : List (List Char) → List Char
  | [] => back
  | v :: vs => [',', ' '] ++ '\'' :: (v ++ '\'' :: further back vs)

/-- Texts between quotes as they stand, with commas between them. -/
def listing (back v : List Char) (vs : List (List Char)) : List Char :=
  '\'' :: (v ++ '\'' :: further back vs)

lemma further_eq (hback : back.head? = some ')') (vs : List (List Char)) :
    ∃ c tail, further back vs = c :: tail ∧ Neutral c ∧ c ≠ '\x00' := by
  cases vs with
  | nil =>
    obtain ⟨tail, rfl⟩ := List.head?_eq_some_iff.mp hback
    exact ⟨')', tail, rfl, neutral_paren, by decide⟩
  | cons v vs => exact ⟨',', _, rfl, neutral_comma, by decide⟩

namespace Lister

variable (L : Lister)

/-- The tokens of `further` with a literal for each text. -/
def literals (back : List Char) : List (List Char) → Option (List L.Token)
  | [] => L.tokens back
  | v :: vs => (L.tokens [',', ' ']).bind fun ts =>
    (literals back vs).map fun ts' => ts ++ L.literal v :: ts'

/-- The tokens of a front and of a listing behind it, with a literal for each text. -/
def template (front back v : List Char) (vs : List (List Char)) : Option (List L.Token) :=
  (L.tokens front).bind fun ts => (L.literals back vs).map fun ts' => ts ++ L.literal v :: ts'

lemma isSome_literals (hback : back.all plain) (vs : List (List Char)) :
    (L.literals back vs).isSome := by
  induction vs with
  | nil => exact L.isSome_plain back hback
  | cons v vs ih =>
    obtain ⟨ts, hts⟩ := Option.isSome_iff_exists.mp L.isSome_comma
    simp [literals, hts, ih]

/-- One literal, after a text that opens it. -/
lemma tokens_literal (hopens : opens front) (hfront : (L.tokens front).isSome) (hc : Neutral c)
    (hnull : c ≠ '\x00') {X : Option (List L.Token)} (hX : X.isSome) (v tail : List Char) :
    L.tokens (c_str (front ++ '\'' :: (v ++ '\'' :: c :: tail))) =
        ((L.tokens front).bind fun ts => X.map fun ts' => ts ++ L.literal v :: ts') ↔
      (verbatim v ∧ '\x00' ∉ v) ∧ L.tokens (c_str (c :: tail)) = X := by
  obtain ⟨ts, hts⟩ := Option.isSome_iff_exists.mp hfront
  obtain ⟨ts', rfl⟩ := Option.isSome_iff_exists.mp hX
  have hcut : c_str (front ++ '\'' :: (v ++ '\'' :: c :: tail)) =
      front ++ '\'' :: c_str (v ++ '\'' :: c :: tail) := by
    rw [c_str_append (not_mem_opens hopens (by decide) (by decide) (by decide))]
    rfl
  rw [hcut, L.tokens_opens _ _ hopens, L.tokens_quote, hts, Option.bind_some, Option.bind_some,
    Option.map_some]
  constructor
  · intro h
    obtain ⟨us, h, heq⟩ := Option.map_eq_some_iff.mp h
    obtain rfl := List.append_cancel_left heq
    obtain ⟨⟨u, rest⟩, hq, h⟩ := Option.bind_eq_some_iff.mp h
    obtain ⟨us, hus, hcons⟩ := Option.map_eq_some_iff.mp h
    obtain ⟨hu, rfl⟩ := List.cons.inj hcons
    obtain rfl := L.literal_injective hu
    obtain ⟨hv, rfl⟩ := (quoted_c_str_self hc hnull).mp hq
    exact ⟨hv, hus⟩
  · rintro ⟨hv, hrest⟩
    rw [(quoted_c_str_self hc hnull).mpr ⟨hv, rfl⟩, Option.bind_some, hrest]
    rfl

lemma tokens_further (hback : back.all plain) (hhead : back.head? = some ')')
    (vs : List (List Char)) :
    L.tokens (c_str (further back vs)) = L.literals back vs ↔
      ∀ v ∈ vs, verbatim v ∧ '\x00' ∉ v := by
  induction vs with
  | nil =>
    have hnull : '\x00' ∉ back := not_mem_plain hback (by decide)
    simp [further, literals, c_str_eq hnull]
  | cons v vs ih =>
    obtain ⟨c, tail, heq, hc, hnull⟩ := further_eq hhead vs
    have hopens : opens [',', ' '] := by decide
    have hliteral := L.tokens_literal hopens L.isSome_comma hc hnull (L.isSome_literals hback vs)
      v tail
    rw [← heq, ih] at hliteral
    rw [List.forall_mem_cons, ← hliteral]
    rfl

/-- **Texts put between quotes are the values of the literals there if and only if no character
of any of them means anything to the lexer or ends the text.** -/
theorem tokens_c_str_listing (hopens : opens front) (hfront : (L.tokens front).isSome)
    (hback : back.all plain) (hhead : back.head? = some ')') (v : List Char)
    (vs : List (List Char)) :
    L.tokens (c_str (front ++ listing back v vs)) = L.template front back v vs ↔
      ∀ u ∈ v :: vs, verbatim u ∧ '\x00' ∉ u := by
  obtain ⟨c, tail, heq, hc, hnull⟩ := further_eq hhead vs
  have hliteral := L.tokens_literal hopens hfront hc hnull (L.isSome_literals hback vs) v tail
  rw [← heq, L.tokens_further hback hhead] at hliteral
  rw [List.forall_mem_cons, ← hliteral]
  rfl

end Lister

def wordLister : Lister where
  toLexer := wordLexer
  tokens_opens _ _ h := by
    have hquote := not_mem_opens h (c := '\'') (by decide) (by decide) (by decide)
    exact (words_append (fun _ => words_quote) hquote []).trans (by
      rw [show wordLexer.tokens _ = _ from words_eq hquote []]
      rfl)
  isSome_comma := by rw [show wordLexer.tokens _ = _ from words_eq (by decide) []]; rfl

end OpenWallet.Lib.Quoting
