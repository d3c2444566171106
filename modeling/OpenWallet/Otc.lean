import OpenWallet.Text

/-!
The database `otc`: its rows, the statements the monitor writes, and what they leave in the
tables. A column that may be null is an `Option`; the integer columns that every program
compares or fills are plain integers, since a null there matches no `WHERE` clause.
-/

namespace OpenWallet

structure CoinRow where
  coin_id : ℤ
  node_id : Option ℤ
  short_name : Option String

structure NodeRow where
  node_id : ℤ
  node_url : Option String
  wallet_url : Option String
  node_auth : Option String
  wallet_auth : Option String

structure TokenRow where
  coin_id : ℤ
  token_id : ℤ
  short_name : String
  contract : Option String
  decimal : ℤ

structure AccountRow where
  account_id : ℤ
  coin_id : ℤ
  address : Option String
  tag : Option String
  deriving DecidableEq

structure UserRow where
  user_id : ℤ
  account_id : ℤ
  coin_id : ℤ
  deriving DecidableEq

/-- The tables the monitor only reads; `coin_id` is the primary key of `coin`. -/
structure Catalog where
  coin : List CoinRow
  node : List NodeRow
  token : List TokenRow
  account : List AccountRow
  coin_key : (coin.map (·.coin_id)).Nodup

/-- Ghost: the place a row was written for, which is the coin whose scanner wrote it, the
height of the block, and the positions in it of the transaction, of its output or action, and
of the address of the output. No statement reads it. -/
@[ext]
structure Src where
  coin_id : ℤ
  height : ℕ
  tx : ℕ
  out : ℕ
  slot : ℕ
  deriving DecidableEq

/-- The flag is `none` where the code stores a variable it never set. -/
structure Txutxo where
  txid : String
  n : ℤ
  address : String
  amount : String
  flag : Option ℕ
  src : Src
  deriving DecidableEq

structure Txaccount where
  coin_id : ℤ
  token_id : ℤ
  txid : String
  vin : String
  vout : String
  amount : String
  fee : String
  src : Src
  deriving DecidableEq

structure BlockRow where
  coin_id : ℤ
  hash : String
  height : ℕ
  deriving DecidableEq

/-- `INSERT INTO` each of the tables the monitor writes. A statement is text into which the columns
are put as they are; it is the one of this row if they have no quote and no backslash. -/
inductive Stmt
  | txutxo (r : Txutxo)
  | txaccount (r : Txaccount)
  | block (r : BlockRow)
  deriving DecidableEq

namespace Stmt

def txutxo? : Stmt → Option Txutxo
  | txutxo r => some r
  | _ => none

def txaccount? : Stmt → Option Txaccount
  | txaccount r => some r
  | _ => none

def block? : Stmt → Option BlockRow
  | block r => some r
  | _ => none

end Stmt

/-- The log of executed statements, from which the tables are read off. -/
structure Db where
  cat : Catalog
  log : List Stmt

namespace Db

def txutxo (d : Db) : List Txutxo := d.log.filterMap Stmt.txutxo?

def txaccount (d : Db) : List Txaccount := d.log.filterMap Stmt.txaccount?

/-- A row whose primary key (`coin_id`, `height`) is taken is refused with error 1062, which
`DBMysql::refreshDB` passes over. -/
def addBlock (t : List BlockRow) (r : BlockRow) : List BlockRow :=
  if t.any fun r' => r'.coin_id = r.coin_id ∧ r'.height = r.height then t else t ++ [r]

def block (d : Db) : List BlockRow := (d.log.filterMap Stmt.block?).foldl addBlock []

/-- `batchRefreshDB`: the statements of a batch take effect together. -/
def commit (d : Db) (sqls : List Stmt) : Db := { d with log := d.log ++ sqls }

/-- The heights stored for a coin. -/
def heights (d : Db) (coin_id : ℤ) : List ℕ :=
  (d.block.filter fun r => r.coin_id = coin_id).map (·.height)

/-- `MAX(height)` -/
def maxHeight (d : Db) (coin_id : ℤ) : Option ℕ := (d.heights coin_id).max?

lemma mem_txutxo {d : Db} {r : Txutxo} : r ∈ d.txutxo ↔ .txutxo r ∈ d.log := by
  simp only [txutxo, List.mem_filterMap]
  constructor
  · rintro ⟨s, hs, h⟩
    cases s <;> simp only [Stmt.txutxo?, Option.some.injEq, reduceCtorEq] at h
    exact h ▸ hs
  · exact fun h => ⟨_, h, rfl⟩

lemma mem_txaccount {d : Db} {r : Txaccount} : r ∈ d.txaccount ↔ .txaccount r ∈ d.log := by
  simp only [txaccount, List.mem_filterMap]
  constructor
  · rintro ⟨s, hs, h⟩
    cases s <;> simp only [Stmt.txaccount?, Option.some.injEq, reduceCtorEq] at h
    exact h ▸ hs
  · exact fun h => ⟨_, h, rfl⟩

lemma key_addBlock (t : List BlockRow) (r : BlockRow) (c : ℤ) (n : ℕ) :
    (∃ r' ∈ addBlock t r, r'.coin_id = c ∧ r'.height = n) ↔
      (∃ r' ∈ t, r'.coin_id = c ∧ r'.height = n) ∨ (r.coin_id = c ∧ r.height = n) := by
  unfold addBlock
  split
  · next h =>
    obtain ⟨r', hr', hk⟩ := List.any_eq_true.mp h
    simp only [decide_eq_true_eq] at hk
    constructor
    · exact Or.inl
    · rintro (h' | ⟨hc, hn⟩)
      · exact h'
      · exact ⟨r', hr', by omega, by omega⟩
  · simp only [List.mem_append, List.mem_singleton, or_and_right, exists_or, exists_eq_left]

/-- Whatever the order of arrival, a key is in the table when a statement inserted it. -/
lemma key_foldl (rs t : List BlockRow) (c : ℤ) (n : ℕ) :
    (∃ r ∈ rs.foldl addBlock t, r.coin_id = c ∧ r.height = n) ↔
      (∃ r ∈ t, r.coin_id = c ∧ r.height = n) ∨ ∃ r ∈ rs, r.coin_id = c ∧ r.height = n := by
  induction rs generalizing t with
  | nil => simp
  | cons r rs ih =>
    rw [List.foldl_cons, ih, key_addBlock, or_assoc]
    simp

lemma mem_heights {d : Db} {c : ℤ} {n : ℕ} :
    n ∈ d.heights c ↔ ∃ r, Stmt.block r ∈ d.log ∧ r.coin_id = c ∧ r.height = n := by
  have hk := key_foldl (d.log.filterMap Stmt.block?) [] c n
  simp only [List.not_mem_nil, false_and, exists_false, false_or] at hk
  have hmem : ∀ r, r ∈ d.log.filterMap Stmt.block? ↔ Stmt.block r ∈ d.log := by
    intro r
    simp only [List.mem_filterMap]
    constructor
    · rintro ⟨s, hs, h⟩
      cases s <;> simp only [Stmt.block?, Option.some.injEq, reduceCtorEq] at h
      exact h ▸ hs
    · exact fun h => ⟨_, h, rfl⟩
  simp only [heights, block, List.mem_map, List.mem_filter, decide_eq_true_eq, and_assoc, hk,
    hmem]

lemma maxHeight_eq_some {d : Db} {c : ℤ} {m : ℕ} :
    d.maxHeight c = some m ↔ m ∈ d.heights c ∧ ∀ n ∈ d.heights c, n ≤ m :=
  List.max?_eq_some_iff

lemma maxHeight_eq_none {d : Db} {c : ℤ} : d.maxHeight c = none ↔ d.heights c = [] :=
  List.max?_eq_none_iff

end Db

end OpenWallet
