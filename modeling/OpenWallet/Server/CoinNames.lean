import OpenWallet.Lib.Quoting
import OpenWallet.Server.Relay

/-!
The text of the lookup of a coin in `getrechargeaddress`: the name of the request stands between
quotes as it came, and the database reads another statement out of a name with a quote or a
backslash in it.
-/

namespace OpenWallet.Server.CoinNames

open Lib.Quoting

/-- The statement up to the space before the name. -/
def front (is_token : Bool) : String :=
  if is_token then
    "SELECT coin_id FROM coin WHERE coin_id = (SELECT coin_id FROM token WHERE token.short_name ="
  else "SELECT coin_id FROM coin WHERE short_name ="

/-- The statement after the name. -/
def back (is_token : Bool) : String := if is_token then ");" else ";"

/-- The statement of a request. -/
def sql (is_token : Bool) (coin_name : String) : String :=
  if is_token then
    "SELECT coin_id FROM coin WHERE coin_id = (SELECT coin_id FROM token WHERE token.short_name = '"
      ++ coin_name ++ "');"
  else "SELECT coin_id FROM coin WHERE short_name = '" ++ coin_name ++ "';"

/-- What `getData` gives to `mysql_real_query`: the statement as far as `strlen` goes. -/
def sent (is_token : Bool) (coin_name : String) : List Char :=
  c_str (sql is_token coin_name).toList

/-- The database: its lexer, and the statement that tokens make, which for the tokens of the two
templates is the lookup of the value of the literal. -/
structure Database extends Lexer where
  statement : List Token → Option Query
  statement_template : ∀ is_token v ts,
    toLexer.template (front is_token).toList v (back is_token).toList = some ts →
      statement ts = some (coinQuery (String.ofList v) is_token)

/-- The text lexes to its template with the name as the one literal, and what is executed is the
lookup of the name. -/
def Unchanged (m : Database) (is_token : Bool) (coin_name : String) : Prop :=
  m.tokens (sent is_token coin_name) =
      m.template (front is_token).toList coin_name.toList (back is_token).toList ∧
    (m.tokens (sent is_token coin_name)).bind m.statement = some (coinQuery coin_name is_token)

variable {is_token : Bool} {coin_name : String}

lemma sql_eq : (sql is_token coin_name).toList =
    embed (front is_token).toList coin_name.toList (back is_token).toList := by
  cases is_token <;> simp [sql, embed, front, back]

lemma plain_front (is_token : Bool) : (front is_token).toList.all plain := by
  cases is_token <;> decide

lemma plain_back (is_token : Bool) : (back is_token).toList.all plain := by
  cases is_token <;> decide

/-- The tokens are those of the template only for such a name. -/
lemma tokens_sent (m : Database) (is_token : Bool) (coin_name : String) :
    m.tokens (sent is_token coin_name) =
        m.template (front is_token).toList coin_name.toList (back is_token).toList ↔
      verbatim coin_name.toList ∧ '\x00' ∉ coin_name.toList := by
  have htokens := m.tokens_c_str_embed (v := coin_name.toList) (plain_front is_token)
    (plain_back is_token)
  rwa [← sql_eq] at htokens

lemma unchanged_of_tokens (m : Database) (h : m.tokens (sent is_token coin_name) =
    m.template (front is_token).toList coin_name.toList (back is_token).toList) :
    Unchanged m is_token coin_name := by
  obtain ⟨ts, hts⟩ := m.exists_template (v := coin_name.toList) (plain_front is_token)
    (plain_back is_token)
  refine ⟨h, ?_⟩
  rw [h, hts, Option.bind_some, m.statement_template is_token _ ts hts, String.ofList_toList]

/-- **A name leaves the statement what it is if and only if there is no quote and no null
character in it, and no backslash but before a wildcard.** -/
theorem unchanged_iff (m : Database) (is_token : Bool) (coin_name : String) :
    Unchanged m is_token coin_name ↔
      verbatim coin_name.toList ∧ '\x00' ∉ coin_name.toList :=
  ⟨fun h => (tokens_sent m is_token coin_name).mp h.1,
    fun h => unchanged_of_tokens m ((tokens_sent m is_token coin_name).mpr h)⟩

/-- The lookups that give what another statement gives are those whose text a name changes. -/
lemma injects_eq_false_iff (m : Database) (is_token : Bool) (coin_name : String) :
    (coinQuery coin_name is_token).injects = false ↔ Unchanged m is_token coin_name := by
  have hinjects : (coinQuery coin_name is_token).injects = false ↔
      verbatim coin_name.toList ∧ '\x00' ∉ coin_name.toList := by
    cases is_token <;> simp [coinQuery, Query.injects]
  rw [hinjects, ← tokens_sent m is_token coin_name]
  exact ⟨unchanged_of_tokens m, And.left⟩

example : (coinQuery "x' OR short_name='B" false).injects = true := by decide

def frontWords (is_token : Bool) : List Word :=
  if is_token then
    ["SELECT", "coin_id", "FROM", "coin", "WHERE", "coin_id"].map (.word ·.toList) ++
      [.symbol '=', .symbol '('] ++
      ["SELECT", "coin_id", "FROM", "token", "WHERE", "token"].map (.word ·.toList) ++
      [.symbol '.', .word "short_name".toList, .symbol '=']
  else
    ["SELECT", "coin_id", "FROM", "coin", "WHERE", "short_name"].map (.word ·.toList) ++
      [.symbol '=']

def backWords (is_token : Bool) : List Word :=
  if is_token then [.symbol ')', .symbol ';'] else [.symbol ';']

lemma words_front : words [] (front is_token).toList = some (frontWords is_token) := by
  rw [words_eq (not_mem_plain (plain_front is_token) (by decide))]
  cases is_token <;> decide +kernel

lemma words_back : words [] (back is_token).toList = some (backWords is_token) := by
  rw [words_eq (not_mem_plain (plain_back is_token) (by decide))]
  cases is_token <;> decide +kernel

/-- The lookup that words make, if they are those of a template. -/
def lookup (is_token : Bool) (ts : List Word) : Option Query :=
  match ts.drop (frontWords is_token).length with
  | .literal v :: _ =>
    if ts = frontWords is_token ++ .literal v :: backWords is_token then
      some (coinQuery (String.ofList v) is_token)
    else none
  | _ => none

lemma template_words {v : List Char} :
    wordLexer.template (front is_token).toList v (back is_token).toList =
      some (frontWords is_token ++ .literal v :: backWords is_token) := by
  simp only [Lexer.template, wordLexer, words_front, words_back, Option.bind_some, Option.map_some]
  rfl

def wordDatabase : Database where
  toLexer := wordLexer
  statement ts := (lookup false ts).or (lookup true ts)
  statement_template is_token v ts h := by
    obtain rfl := Option.some.inj (template_words.symm.trans h)
    cases is_token
    · simp [lookup]
    · simp [lookup, frontWords]

theorem unchanged_btc : Unchanged wordDatabase false "BTC" :=
  (unchanged_iff wordDatabase false "BTC").mpr ⟨by decide, by decide⟩

/-- A name that closes the literal makes the lookup one of every coin. -/
theorem not_unchanged_quote :
    wordDatabase.tokens (sent false "x' OR 'x'='x") =
        some (frontWords false ++ [.literal "x".toList, .word "OR".toList, .literal "x".toList,
          .symbol '=', .literal "x".toList, .symbol ';']) ∧
      ¬ Unchanged wordDatabase false "x' OR 'x'='x" := by
  have hsent : sent false "x' OR 'x'='x" =
      (front false).toList ++ ' ' :: '\'' :: "x' OR 'x'='x';".toList := by decide
  have htokens : wordDatabase.tokens (sent false "x' OR 'x'='x") =
      some (frontWords false ++ [.literal "x".toList, .word "OR".toList, .literal "x".toList,
        .symbol '=', .literal "x".toList, .symbol ';']) := by
    have hrest : words [] " OR 'x'='x';".toList = some [.word "OR".toList, .literal "x".toList,
        .symbol '=', .literal "x".toList, .symbol ';'] := by
      simp [words_cons, words, flush, quoted, Char.isAlphanum]
    have hq : quoted "x' OR 'x'='x';".toList = some ("x".toList, " OR 'x'='x';".toList) := by
      decide
    rw [hsent, wordDatabase.tokens_embed (plain_front false), hq]
    change (words [] _).bind (fun ts => (words [] _).map fun ts' => _) = _
    rw [words_front, hrest]
    rfl
  refine ⟨htokens, fun h => ?_⟩
  have heq : frontWords false ++ [.literal "x".toList, .word "OR".toList, .literal "x".toList,
      .symbol '=', .literal "x".toList, .symbol ';'] =
        frontWords false ++ .literal "x' OR 'x'='x".toList :: backWords false :=
    Option.some.inj (htokens.symm.trans (h.1.trans template_words))
  exact absurd heq (by decide)

end OpenWallet.Server.CoinNames
