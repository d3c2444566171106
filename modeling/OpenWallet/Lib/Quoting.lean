import Mathlib.Data.List.TakeWhile
import Mathlib.Tactic

/-!
String literals between single quotes, with backslash escapes and doubled quotes: what a lexer
reads of a text that was put between quotes as it stands, which is that text only where nothing
in it means anything to the lexer.
-/

namespace OpenWallet.Lib.Quoting

/-- The character that a backslash and this one stand for. -/
def unescape : Char → Char
  | '0' => '\x00'
  | 'b' => '\x08'
  | 'n' => '\n'
  | 'r' => '\r'
  | 't' => '\t'
  | 'Z' => '\x1a'
  | c => c

/-- What a backslash and a character stand for: the wildcards keep their backslash. -/
def escape (c : Char) : List Char := if c = '%' ∨ c = '_' then ['\\', c] else [unescape c]

/-- After an opening quote: the value of the literal, and what follows the closing quote. -/
def quoted : List Char → Option (List Char × List Char)
  | [] => none
  | '\'' :: '\'' :: cs => (quoted cs).map fun r => ('\'' :: r.1, r.2)
  | '\'' :: cs => some ([], cs)
  | ['\\'] => none
  | '\\' :: c :: cs => (quoted cs).map fun r => (escape c ++ r.1, r.2)
  | c :: cs => (quoted cs).map fun r => (c :: r.1, r.2)

/-- No quote, and no backslash but before a wildcard. -/
def verbatim : List Char → Bool
  | [] => true
  | '\'' :: _ => false
  | ['\\'] => false
  | '\\' :: c :: cs => (c = '%' ∨ c = '_') && verbatim cs
  | _ :: cs => verbatim cs

variable {c : Char} {cs t v rest : List Char}

lemma quoted_cons (hquote : c ≠ '\'') (hescape : c ≠ '\\') :
    quoted (c :: cs) = (quoted cs).map fun r => (c :: r.1, r.2) := by
  rw [quoted] <;> simp [hquote, hescape]

lemma verbatim_cons (hquote : c ≠ '\'') (hescape : c ≠ '\\') :
    verbatim (c :: cs) = verbatim cs := by
  rw [verbatim] <;> simp [hquote, hescape]

/-- **A verbatim text between quotes is read as it stands.** -/
theorem quoted_verbatim (h : verbatim cs) (hrest : rest.head? ≠ some '\'') :
    quoted (cs ++ '\'' :: rest) = some (cs, rest) := by
  induction cs using verbatim.induct with
  | case1 =>
    cases rest with
    | nil => rfl
    | cons c rest =>
      have hc : c ≠ '\'' := fun hc => hrest (by rw [hc]; rfl)
      simp [quoted, hc]
  | case2 cs => exact nomatch h
  | case3 => exact nomatch h
  | case4 c cs ih =>
    simp only [verbatim, Bool.and_eq_true, decide_eq_true_eq] at h
    simp [quoted, ih h.2, escape, h.1]
  | case5 c cs hquote hlast hescape ih =>
    have hc : c ≠ '\\' := by
      rintro rfl
      cases cs with
      | nil => exact hlast rfl rfl
      | cons c cs => exact hescape c cs rfl rfl
    rw [verbatim_cons hquote hc] at h
    rw [List.cons_append, quoted_cons hquote hc, ih h, Option.map_some]

lemma length_escape (c : Char) : (escape c).length ≤ 2 := by
  unfold escape
  split <;> simp

lemma escape_eq (h : 2 ≤ (escape c).length) : escape c = ['\\', c] ∧ (c = '%' ∨ c = '_') := by
  unfold escape at h ⊢
  split
  · next hc => exact ⟨rfl, hc⟩
  · next hc => simp [hc] at h

/-- **A literal is no longer than the text it was read from, and as long only where it is that
text.** -/
theorem length_le_of_quoted (h : quoted t = some (v, rest)) :
    ∃ used, t = used ++ '\'' :: rest ∧ v.length ≤ used.length ∧
      (used.length ≤ v.length → v = used ∧ verbatim used) := by
  induction t using quoted.induct generalizing v with
  | case1 => exact nomatch h
  | case2 cs ih =>
    obtain ⟨⟨v, rest⟩, hq, heq⟩ := Option.map_eq_some_iff.mp h
    cases heq
    obtain ⟨used, rfl, hlen, -⟩ := ih hq
    refine ⟨'\'' :: '\'' :: used, rfl, ?_, fun hle => ?_⟩ <;>
      simp only [List.length_cons] at * <;> omega
  | case3 cs hne =>
    rw [quoted] at h
    · obtain ⟨rfl, rfl⟩ := Prod.mk.inj (Option.some.inj h)
      exact ⟨[], rfl, le_rfl, fun _ => ⟨rfl, rfl⟩⟩
    · exact hne
  | case4 => exact nomatch h
  | case5 c cs ih =>
    obtain ⟨⟨v, rest⟩, hq, heq⟩ := Option.map_eq_some_iff.mp h
    cases heq
    obtain ⟨used, rfl, hlen, hsame⟩ := ih hq
    have hescape := length_escape c
    refine ⟨'\\' :: c :: used, rfl, ?_, fun hle => ?_⟩
    · simp only [List.length_append, List.length_cons]
      omega
    · simp only [List.length_append, List.length_cons] at hle
      obtain ⟨rfl, hverbatim⟩ := hsame (by omega)
      obtain ⟨heq, hc⟩ := escape_eq (c := c) (by omega)
      refine ⟨by rw [heq]; rfl, ?_⟩
      simp [verbatim, hc, hverbatim]
  | case6 c cs hquote hclose hlast hescape ih =>
    have hc : c ≠ '\\' := by
      rintro rfl
      cases cs with
      | nil => exact hlast rfl rfl
      | cons c cs => exact hescape c cs rfl rfl
    rw [quoted_cons hclose hc] at h
    obtain ⟨⟨v, rest⟩, hq, heq⟩ := Option.map_eq_some_iff.mp h
    cases heq
    obtain ⟨used, rfl, hlen, hsame⟩ := ih hq
    refine ⟨c :: used, rfl, by simpa using hlen, fun hle => ?_⟩
    obtain ⟨rfl, hverbatim⟩ := hsame (by simpa using hle)
    exact ⟨rfl, by rwa [verbatim_cons hclose hc]⟩

/-! ### Lexers -/

/-- Letters, spaces, and what names and conditions are put together with. -/
def plain (c : Char) : Bool := c.isAlpha || c ∈ ['_', '.', '=', '(', ')', ';', ' ']

/-- A lexer with these literals. A space in front of a literal parts it from plain text. -/
structure Lexer where
  Token : Type
  literal : List Char → Token
  tokens : List Char → Option (List Token)
  literal_injective : Function.Injective literal
  isSome_plain : ∀ cs, cs.all plain → (tokens cs).isSome
  tokens_quote : ∀ cs, tokens ('\'' :: cs) =
    (quoted cs).bind fun r => (tokens r.2).map (literal r.1 :: ·)
  tokens_space : ∀ cs cs', cs.all plain → tokens (cs ++ ' ' :: '\'' :: cs') =
    (tokens cs).bind fun ts => (tokens ('\'' :: cs')).map (ts ++ ·)

/-- A text between quotes as it stands, in the midst of others. -/
def embed (front v back : List Char) : List Char := front ++ ' ' :: '\'' :: (v ++ '\'' :: back)

/-- A text as C reads it, up to the first null character. -/
def c_str (cs : List Char) : List Char := cs.takeWhile (· ≠ '\x00')

lemma not_mem_plain (h : cs.all plain) (hc : plain c = false) : c ∉ cs := by
  intro hmem
  rw [List.all_eq_true.mp h c hmem] at hc
  exact nomatch hc

lemma c_str_eq (h : '\x00' ∉ cs) : c_str cs = cs := by
  refine List.takeWhile_eq_self_iff.mpr fun c hc => ?_
  simpa using fun heq : c = '\x00' => h (heq ▸ hc)

lemma c_str_append (h : '\x00' ∉ cs) : c_str (cs ++ t) = cs ++ c_str t := by
  have heq := congrArg List.length (c_str_eq h)
  rw [c_str] at heq ⊢
  rw [List.takeWhile_append, if_pos heq]
  rfl

lemma length_c_str_lt (h : '\x00' ∈ cs) : (c_str (cs ++ t)).length < cs.length := by
  induction cs with
  | nil => exact nomatch h
  | cons c cs ih =>
    rw [c_str, List.cons_append, List.takeWhile_cons]
    split
    · next hc =>
      have hmem : '\x00' ∈ cs := by
        rcases List.mem_cons.mp h with h | h
        · exact absurd h.symm (by simpa using hc)
        · exact h
      exact Nat.succ_lt_succ (ih hmem)
    · exact Nat.succ_pos _

namespace Lexer

variable (L : Lexer) {front back : List Char}

/-- The tokens of the front and of the back with one literal between them. -/
def template (front v back : List Char) : Option (List L.Token) :=
  (L.tokens front).bind fun ts => (L.tokens back).map fun ts' => ts ++ L.literal v :: ts'

lemma exists_template (hfront : front.all plain) (hback : back.all plain) :
    ∃ ts, L.template front v back = some ts := by
  obtain ⟨ts, hts⟩ := Option.isSome_iff_exists.mp (L.isSome_plain front hfront)
  obtain ⟨ts', hts'⟩ := Option.isSome_iff_exists.mp (L.isSome_plain back hback)
  exact ⟨ts ++ L.literal v :: ts', by rw [template, hts, hts', Option.bind_some, Option.map_some]⟩

lemma tokens_embed (hfront : front.all plain) :
    L.tokens (front ++ ' ' :: '\'' :: t) =
      (L.tokens front).bind fun ts =>
        (quoted t).bind fun r => (L.tokens r.2).map fun ts' => ts ++ L.literal r.1 :: ts' := by
  rw [L.tokens_space front t hfront, L.tokens_quote]
  refine congrArg _ (funext fun ts => ?_)
  rw [Option.map_bind]
  exact congrArg _ (funext fun r => by rw [Function.comp_apply, Option.map_map]; rfl)

lemma quoted_of_template (hfront : front.all plain) (hback : back.all plain)
    (h : L.tokens (front ++ ' ' :: '\'' :: t) = L.template front v back) :
    ∃ rest, quoted t = some (v, rest) := by
  obtain ⟨ts, hts⟩ := Option.isSome_iff_exists.mp (L.isSome_plain front hfront)
  obtain ⟨ts', hts'⟩ := Option.isSome_iff_exists.mp (L.isSome_plain back hback)
  rw [L.tokens_embed hfront, template, hts, Option.bind_some, Option.bind_some, hts',
    Option.map_some] at h
  obtain ⟨⟨u, rest⟩, hq, h⟩ := Option.bind_eq_some_iff.mp h
  obtain ⟨us, -, h⟩ := Option.map_eq_some_iff.mp h
  have hcons := List.append_cancel_left h
  have hu : u = v := L.literal_injective (List.head_eq_of_cons_eq hcons)
  exact ⟨rest, hu ▸ hq⟩

/-- **A text put between quotes is the value of the literal there if and only if no character
of it means anything to the lexer or ends the text.** -/
theorem tokens_c_str_embed (hfront : front.all plain) (hback : back.all plain) :
    L.tokens (c_str (embed front v back)) = L.template front v back ↔
      verbatim v ∧ '\x00' ∉ v := by
  have hnull : ∀ {cs : List Char}, cs.all plain → '\x00' ∉ cs := fun h =>
    not_mem_plain h (by decide)
  have hopen : c_str (embed front v back) =
      front ++ ' ' :: '\'' :: c_str (v ++ '\'' :: back) := by
    rw [embed, c_str_append (hnull hfront)]
    rfl
  rw [hopen]
  constructor
  · intro h
    obtain ⟨rest, hq⟩ := L.quoted_of_template hfront hback h
    obtain ⟨used, heq, hlen, hsame⟩ := length_le_of_quoted hq
    by_cases hv : '\x00' ∈ v
    · have hlt := length_c_str_lt (t := '\'' :: back) hv
      rw [heq, List.length_append, List.length_cons] at hlt
      omega
    have hclosed : '\x00' ∉ '\'' :: back := by
      simpa using hnull hback
    rw [c_str_append hv, c_str_eq hclosed] at heq
    have hused : used.length ≤ v.length := by
      rcases List.append_eq_append_iff.mp heq with ⟨mid, rfl, hmid⟩ | ⟨mid, rfl, -⟩
      · cases mid with
        | nil => simp
        | cons c mid =>
          have hmem : '\'' ∈ back := by simp [(List.cons.inj hmid).2]
          exact absurd hmem (not_mem_plain hback (by decide))
      · simp
    obtain ⟨rfl, hverbatim⟩ := hsame hused
    exact ⟨hverbatim, hv⟩
  · rintro ⟨hverbatim, hv⟩
    have hclosed : '\x00' ∉ '\'' :: back := by
      simpa using hnull hback
    have hhead : back.head? ≠ some '\'' := fun h =>
      not_mem_plain hback (by decide) (List.mem_of_head? h)
    rw [c_str_append hv, c_str_eq hclosed, L.tokens_embed hfront,
      quoted_verbatim hverbatim hhead]
    rfl

end Lexer

inductive Word
  | word (cs : List Char)
  | symbol (c : Char)
  | literal (cs : List Char)
  deriving DecidableEq

/-- The word so far. -/
def flush (w : List Char) : List Word := if w = [] then [] else [.word w]

lemma length_lt_of_quoted {r : List Char × List Char} (h : quoted t = some r) :
    r.2.length < t.length := by
  obtain ⟨used, rfl, -⟩ := length_le_of_quoted h
  rw [List.length_append, List.length_cons]
  omega

/-- The tokens of a text after the characters of a word. -/
def words (w : List Char) : List Char → Option (List Word)
  | [] => some (flush w)
  | c :: cs =>
    if c = '\'' then
      match h : quoted cs with
      | none => none
      | some r => (words [] r.2).map fun ts => flush w ++ .literal r.1 :: ts
    else if c = ' ' then (words [] cs).map fun ts => flush w ++ ts
    else if c.isAlphanum ∨ c = '_' then words (w ++ [c]) cs
    else (words [] cs).map fun ts => flush w ++ .symbol c :: ts
termination_by cs => cs.length
decreasing_by
  · exact (length_lt_of_quoted h).trans (Nat.lt_succ_self _)
  all_goals exact Nat.lt_succ_self _

lemma words_cons {w : List Char} :
    words w (c :: cs) =
      if c = '\'' then
        (quoted cs).bind fun r => (words [] r.2).map fun ts => flush w ++ .literal r.1 :: ts
      else if c = ' ' then (words [] cs).map fun ts => flush w ++ ts
      else if c.isAlphanum ∨ c = '_' then words (w ++ [c]) cs
      else (words [] cs).map fun ts => flush w ++ .symbol c :: ts := by
  rw [words]
  split
  · cases hq : quoted cs <;> rfl
  · rfl

lemma words_space {w : List Char} :
    words w (' ' :: cs) = (words [] cs).map fun ts => flush w ++ ts := by
  rw [words_cons, if_neg (by decide), if_pos rfl]

/-- The words of a text without quotes. -/
def plainWords (w : List Char) : List Char → List Word
  | [] => flush w
  | c :: cs =>
    if c = ' ' then flush w ++ plainWords [] cs
    else if c.isAlphanum ∨ c = '_' then plainWords (w ++ [c]) cs
    else flush w ++ .symbol c :: plainWords [] cs

/-- A text without quotes, and behind it one that no word goes on into. -/
lemma words_append (ht : ∀ w, words w t = (words [] t).map (flush w ++ ·)) (h : '\'' ∉ cs)
    (w : List Char) : words w (cs ++ t) = (words [] t).map (plainWords w cs ++ ·) := by
  induction cs generalizing w with
  | nil => exact ht w
  | cons c cs ih =>
    obtain ⟨hquote, h⟩ := not_or.mp (List.mem_cons.not.mp h)
    rw [List.cons_append, words_cons, if_neg (Ne.symm hquote), plainWords]
    split
    · rw [ih h, Option.map_map]
      simp [Function.comp_def]
    · split
      · exact ih h _
      · rw [ih h, Option.map_map]
        simp [Function.comp_def]

lemma words_quote {w : List Char} :
    words w ('\'' :: t) = (words [] ('\'' :: t)).map (flush w ++ ·) := by
  rw [words_cons, if_pos rfl, words_cons, if_pos rfl]
  cases quoted t <;> simp [flush, Function.comp_def]

lemma words_eq (h : '\'' ∉ cs) (w : List Char) : words w cs = some (plainWords w cs) := by
  have happend := words_append (t := []) (fun w => by simp [words, flush]) h w
  simpa [words, flush] using happend

def wordLexer : Lexer where
  Token := Word
  literal := .literal
  tokens := words []
  literal_injective _ _ h := Word.literal.inj h
  isSome_plain _ h := by rw [words_eq (not_mem_plain h (by decide)), Option.isSome_some]
  tokens_quote _ := by rw [words_cons, if_pos rfl]; rfl
  tokens_space _ _ h := by
    have hquote := not_mem_plain h (c := '\'') (by decide)
    rw [words_append (fun w => by rw [words_space, words_space]; simp [flush]) hquote,
      words_eq hquote, words_space]
    simp [flush]

end OpenWallet.Lib.Quoting
