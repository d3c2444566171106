import OpenWallet.Lib.Listing
import OpenWallet.Otc

/-!
The texts of the statements that the monitor writes rows with. The values stand between quotes as
they came, from nodes and from the table of accounts: a statement inserts its row where there is no
quote, no backslash and no null character in them, and then only.
-/

namespace OpenWallet

open Lib Lib.Quoting

inductive Table
  | txutxo
  | txaccount
  | block
  deriving DecidableEq

namespace Table

/-- An `INSERT` up to the quote of the first value. -/
def front : Table → String
  | txutxo => "INSERT INTO `txutxo` (`txid`, `n`, `address`, `amount`, `flag`) VALUES ("
  | txaccount => "INSERT INTO `txaccount` (`coin_id`, `token_id`, `txid`, `vin`, `vout`, " ++
      "`amount`, `fee`) VALUES ("
  | block => "INSERT INTO `block` (`coin_id`, `hash`, `height`) VALUES ("

def columns : Table → ℕ
  | txutxo => 5
  | txaccount => 7
  | block => 3

lemma opens_front (t : Table) : opens t.front.toList := by
  cases t <;> decide +kernel

end Table

namespace Stmt

def table : Stmt → Table
  | txutxo _ => .txutxo
  | txaccount _ => .txaccount
  | block _ => .block

variable (unset : ℕ)

/-- The values, with what was found in a flag that was never set. -/
def values : Stmt → List String
  | txutxo r => [r.txid, toString r.n, r.address, r.amount, toString (r.flag.getD unset)]
  | txaccount r =>
    [toString r.coin_id, toString r.token_id, r.txid, r.vin, r.vout, r.amount, r.fee]
  | block r => [toString r.coin_id, r.hash, toString r.height]

/-- The text that `strprintf` makes. -/
def sql (s : Stmt) : String :=
  s.table.front ++ "'" ++ String.intercalate "', '" (s.values unset) ++ "');"

/-- What `refreshDB` gives to `mysql_real_query`: the statement as far as `strlen` goes. -/
def sent (s : Stmt) : List Char := c_str (s.sql unset).toList

/-- What follows the quote of the last value. -/
def back : List Char := [')', ';']

lemma listing_intercalate (v : List Char) (vs : List (List Char)) :
    '\'' :: (List.intercalate "', '".toList (v :: vs) ++ "');".toList) = listing back v vs := by
  induction vs generalizing v with
  | nil => simp [listing, further, back]
  | cons u us ih =>
    have hcons : List.intercalate "', '".toList (v :: u :: us) =
        v ++ ("', '".toList ++ List.intercalate "', '".toList (u :: us)) := by
      simp [List.intercalate, List.intersperse]
    rw [hcons, listing, further, ← listing, ← ih]
    simp

lemma exists_values (s : Stmt) : ∃ v vs, s.values unset = v :: vs ∧
    (v :: vs).length = s.table.columns ∧
    (s.sql unset).toList =
      s.table.front.toList ++ listing back v.toList (vs.map String.toList) := by
  have hsql : ∀ v vs, s.values unset = v :: vs → (s.sql unset).toList =
      s.table.front.toList ++ listing back v.toList (vs.map String.toList) := by
    intro v vs hvalues
    rw [← listing_intercalate, sql, hvalues]
    simp
  cases s <;> exact ⟨_, _, rfl, rfl, hsql _ _ rfl⟩

end Stmt

/-- The database: its lexer, and the rows that tokens ask for, which for the tokens of an `INSERT`
with as many values as there are columns is the one with these values. -/
structure Database extends Lister where
  isSome_front : ∀ t : Table, (tokens t.front.toList).isSome
  rows : List Token → Option (Table × List (List String))
  rows_template : ∀ (t : Table) v vs ts, (v :: vs).length = t.columns →
    toLister.template t.front.toList Stmt.back v vs = some ts →
      rows ts = some (t, [(v :: vs).map String.ofList])

/-- The text lexes to an `INSERT` with its values for the literals, and what is asked for is the
row of the statement. -/
def Database.Inserts (m : Database) (unset : ℕ) (s : Stmt) : Prop :=
  (∃ v vs, s.values unset = v :: vs ∧ m.tokens (s.sent unset) =
    m.template s.table.front.toList Stmt.back v.toList (vs.map String.toList)) ∧
    (m.tokens (s.sent unset)).bind m.rows = some (s.table, [s.values unset])

/-- **A statement inserts its row if and only if there is no quote and no null character in a
value, and no backslash but before a wildcard.** -/
theorem Database.inserts_iff (m : Database) (unset : ℕ) (s : Stmt) :
    m.Inserts unset s ↔
      ∀ v ∈ s.values unset, verbatim v.toList ∧ '\x00' ∉ v.toList := by
  obtain ⟨v, vs, hvalues, hlen, hsql⟩ := s.exists_values unset
  have hback : Stmt.back.all plain := by decide
  have htokens := m.tokens_c_str_listing s.table.opens_front (m.isSome_front s.table) hback rfl
    v.toList (vs.map String.toList)
  rw [← hsql, ← List.map_cons, List.forall_mem_map, ← hvalues] at htokens
  rw [← htokens]
  constructor
  · rintro ⟨⟨u, us, hu, h⟩, -⟩
    obtain ⟨rfl, rfl⟩ := List.cons.inj (hvalues.symm.trans hu)
    exact h
  · intro h
    refine ⟨⟨v, vs, hvalues, h⟩, ?_⟩
    obtain ⟨ts, hts⟩ := Option.isSome_iff_exists.mp (m.isSome_front s.table)
    obtain ⟨ts', hts'⟩ := Option.isSome_iff_exists.mp
      (m.isSome_literals hback (vs.map String.toList))
    have htemplate : m.template s.table.front.toList Stmt.back v.toList (vs.map String.toList) =
        some (ts ++ m.literal v.toList :: ts') := by
      rw [Lister.template, hts, hts', Option.bind_some, Option.map_some]
    have hlen' : (v.toList :: vs.map String.toList).length = s.table.columns := by
      simpa using hlen
    rw [Stmt.sent, h, htemplate, Option.bind_some,
      m.rows_template _ _ _ _ hlen' htemplate, hvalues]
    simp

/-! ### A database of words -/

def Table.frontWords (t : Table) : List Word := plainWords [] t.front.toList

def Table.name : Table → String
  | txutxo => "txutxo"
  | txaccount => "txaccount"
  | block => "block"

lemma Table.take_frontWords (t : Table) : t.frontWords.take 4 =
    [.word "INSERT".toList, .word "INTO".toList, .symbol '`', .word t.name.toList] := by
  cases t <;> decide +kernel

lemma Table.eq_of_take {t t' : Table} (h : t.frontWords.take 4 = t'.frontWords.take 4) :
    t = t' := by
  have hname : t.name.toList = t'.name.toList := by
    simpa [take_frontWords] using h
  cases t <;> cases t' <;> first | rfl | exact absurd hname (by decide)

lemma Table.length_frontWords (t : Table) : 4 ≤ t.frontWords.length := by
  have hlen := congrArg List.length t.take_frontWords
  rw [List.length_take] at hlen
  simp only [List.length_cons, List.length_nil] at hlen
  omega

lemma words_table (t : Table) : words [] t.front.toList = some t.frontWords :=
  words_eq (not_mem_opens t.opens_front (by decide) (by decide) (by decide)) []

/-- The literals of a row and the end of the statement. -/
def readRow : List Word → Option (List String)
  | [.literal v, .symbol ')', .symbol ';'] => some [String.ofList v]
  | .literal v :: .symbol ',' :: ts => (readRow ts).map (String.ofList v :: ·)
  | _ => none

lemma readRow_literals {vs : List (List Char)} (v : List Char) {ts : List Word}
    (h : wordLister.literals Stmt.back vs = some ts) :
    readRow (.literal v :: ts) = some ((v :: vs).map String.ofList) := by
  induction vs generalizing v ts with
  | nil =>
    have hback : words [] Stmt.back = some [.symbol ')', .symbol ';'] := words_eq (by decide) []
    obtain rfl := Option.some.inj (hback.symm.trans h)
    rfl
  | cons u us ih =>
    have hcomma : words [] [',', ' '] = some [.symbol ','] := words_eq (by decide) []
    obtain ⟨_, hts, h⟩ := Option.bind_eq_some_iff.mp h
    obtain rfl := Option.some.inj (hcomma.symm.trans hts)
    obtain ⟨ts, hts, rfl⟩ := Option.map_eq_some_iff.mp h
    change (readRow (.literal u :: ts)).map _ = _
    rw [ih u hts]
    rfl

/-- The row that words ask to insert into a table. -/
def Table.row (ts : List Word) (t : Table) : Option (Table × List (List String)) :=
  if t.frontWords = ts.take t.frontWords.length then
    (readRow (ts.drop t.frontWords.length)).map fun row => (t, [row])
  else none

lemma Table.row_append {t t' : Table} {ts : List Word} {row : List String}
    (h : readRow ts = some row) :
    t'.row (t.frontWords ++ ts) = if t' = t then some (t, [row]) else none := by
  unfold Table.row
  by_cases heq : t' = t
  · subst heq
    rw [if_pos rfl, if_pos (by simp), List.drop_left, h, Option.map_some]
  · rw [if_neg heq, if_neg fun hfront => heq (Table.eq_of_take ?_)]
    have htake := congrArg (List.take 4) hfront
    have hle := t.length_frontWords
    have hle' := t'.length_frontWords
    rwa [List.take_take, Nat.min_eq_left hle', List.take_append_of_le_length hle] at htake

lemma Table.findSome_row {ts : List Word} {row : List String} (t : Table)
    (h : readRow ts = some row) :
    [Table.txutxo, .txaccount, .block].findSome? (Table.row (t.frontWords ++ ts)) =
      some (t, [row]) := by
  cases t <;> simp [List.findSome?, Table.row_append h]

def wordDatabase : Database where
  toLister := wordLister
  isSome_front t := by
    change (words [] t.front.toList).isSome
    rw [words_table, Option.isSome_some]
  rows ts := [Table.txutxo, .txaccount, .block].findSome? (Table.row ts)
  rows_template t v vs ts _ h := by
    obtain ⟨_, hfront, h⟩ := Option.bind_eq_some_iff.mp h
    obtain rfl := Option.some.inj ((words_table t).symm.trans hfront)
    obtain ⟨ts, hts, rfl⟩ := Option.map_eq_some_iff.mp h
    exact t.findSome_row (readRow_literals v hts)

end OpenWallet
