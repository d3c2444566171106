import OpenWallet.Monitor.Syncer
import OpenWallet.Server.Client
import OpenWallet.Server.Request

/-!
Which results of queries `DBMysql::getData` can read: those without a null, whose integers fit an
`int`. What follows for the heights the monitor reads and for the accounts of a new coin.
-/

namespace OpenWallet

open Lib Prog
open Monitor (Cell DataType rowData NodeInfo)
open Server (readRows)

/-! ### Cells, rows and results -/

/-- What a cell is read as. -/
def Shows : DataType → Cell → Json → Prop
  | .INT, .int z, j => j = .int z
  | .STRING, .int z, j => j = .str (toString z)
  | .STRING, .text s, j => j = .str s
  | _, _, _ => False

/-- The cell is no null, and an integer fits where one is read. -/
def Fits : DataType → Cell → Prop
  | .INT, .int z => -2 ^ 31 ≤ z ∧ z < 2 ^ 31
  | .INT, _ => False
  | .STRING, .null => False
  | .STRING, _ => True

section

variable {col_type : List DataType} {t : DataType} {c : Cell} {rows : List (List Cell)} {j : Json}

end

section

open Server (getNewAddress Query)

variable {x : Server.Weather} {w w' : Server.World} {coin_name : String} {coin_id : ℤ}
  {address_quantity : ℕ}

end

section

open Monitor (getCurrentHeight)

variable {x : Monitor.Weather} {w : Monitor.World} {coin : String} {coin_id : ℤ} {m : ℕ}

lemma getData_eq (q : Monitor.Query) (col_type : List DataType) : Monitor.getData q col_type =
    (Prog.op (Monitor.Op.getData q) >>= fun rows => lift (readRows col_type rows)) := by
  refine congrArg (Prog.op (Monitor.Op.getData q) >>= ·) (funext fun rows => ?_)
  obtain _ | _ | _ := rows <;> rfl

lemma wp_getCurrentHeight (hsql : ¬ x.sqlFails) (hcrash : ¬ x.crashes)
    (hcoin : Monitor.coinId w.db.cat coin = some (some coin_id))
    (hint : -2 ^ 31 ≤ coin_id ∧ coin_id < 2 ^ 31) (hmax : w.db.maxHeight coin_id = some m) :
    wp (Monitor.env x) (getCurrentHeight coin)
      (fun r _ => m < 2 ^ 31 ∧ r = some (coin_id, m)) (fun _ => ¬ m < 2 ^ 31) w := by
  have heval : (Monitor.Query.height coin).eval w.db = some [[.int coin_id, .int m]] := by
    simp [Monitor.Query.eval, hcoin, hmax]
  simp only [getCurrentHeight, getData_eq, wp_bind, wp_op]
  refine ⟨fun _ hd => absurd hd.1 hcrash, ?_⟩
  rintro rows w₁ ⟨rfl, hrows⟩
  obtain rfl : rows = some [[.int coin_id, .int m]] := by
    rcases hrows with ⟨hfails, -⟩ | rfl | ⟨rows, rows', hrows, hperm, rfl⟩
    · exact absurd hfails hsql
    · exact heval
    · obtain rfl := Option.some.inj (heval.symm.trans hrows)
      rw [List.perm_singleton.mp hperm.symm]
  have hid : Cell.convert .INT (.int coin_id) = .ok (.int coin_id) := by
    rw [Cell.convert, if_pos hint]
  by_cases hm : m < 2 ^ 31
  · have hheight : Cell.convert .INT (.int m) = .ok (.int m) := by
      rw [Cell.convert, if_pos (by omega)]
    have hread : readRows [.INT, .INT] (some [[.int coin_id, .int m]]) =
        .ok (.arr [.arr [.int coin_id, .int m]]) := by
      simp [readRows, rowData, hid, hheight]
    have hrow : (Json.arr [.arr [.int coin_id, .int m]]).idx 0 =
        .ok (.arr [.int coin_id, .int m]) := rfl
    have hfirst : (Json.arr [.int coin_id, .int m]).idx 0 = .ok (.int coin_id) := rfl
    have hsecond : (Json.arr [.int coin_id, .int m]).idx 1 = .ok (.int m) := rfl
    rw [hread, lift_ok, wp_ret, if_pos (by simp [Json.size])]
    simp only [hrow, hfirst, hsecond, Server.getInt_int hint, liftM_eq, lift_ok, ret_bind, pure_eq,
      Json.getUInt64_natCast (hm.trans (by norm_num)), wp_ret]
    exact ⟨hm, trivial⟩
  · have hheight : Cell.convert .INT (.int m) = .error .outOfRange := by
      rw [Cell.convert, if_neg (by omega)]
    have hread : readRows [.INT, .INT] (some [[.int coin_id, .int m]]) = .error .outOfRange := by
      simp [readRows, rowData, hid, hheight]
    rw [hread]
    exact hm

end

/-- A coin with a block at a height, and no account. -/
def stored (height : ℕ) : Monitor.World where
  vars := .fresh
  db := ⟨⟨[⟨1, none, some "BTC"⟩], [], [], [], by decide⟩, [.block ⟨1, "hash", height⟩]⟩
  wire := []

end OpenWallet
