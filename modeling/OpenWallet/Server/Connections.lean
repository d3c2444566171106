import OpenWallet.Readable
import OpenWallet.Server.Payments
import OpenWallet.Server.Accounts

/-!
The connections to the database that the operations of the server open: which operations close
them whatever the nodes, the wallets and the database answer, and which can leave one open.
-/

namespace OpenWallet.Server

open Lib Prog
open Monitor (Cell DataType NodeInfo rowData)

/-- The operations that open a connection. -/
inductive Service
  | transfer (fHelp : Bool) (params : Json)
  | getrechargeaddress (fHelp : Bool) (params : Json)
  | getNewAddress (coin_name : String) (address_quantity : ℕ)

namespace Service

def prog (expires : String → String) : Service → Srv Unit
  | transfer fHelp params => do
    let _ ← Server.transfer expires fHelp params
  | getrechargeaddress fHelp params => do
    let _ ← Server.getrechargeaddress true fHelp params
  | getNewAddress coin_name address_quantity => do
    let _ ← Server.getNewAddress coin_name address_quantity

end Service

/-- A query can be read. -/
def Readable (d : Db) (q : Query) (col_type : List DataType) : Prop :=
  ∃ j, readRows col_type (q.eval d) = .ok j

def Steady : Op → Prop
  | .openDB | .closeDB => False
  | _ => True

section

variable {x : Weather} {w w' : World} {α : Type} {D : World → Prop}

lemma Steady.connections {o : Op} {r : Ans o} (ho : Steady o) (h : (env x).answers o w r w') :
    w'.connections = w.connections := by
  cases o with
  | openDB | closeDB => exact ho.elim
  | getData | getWallet => rw [h.1]
  | curl | createAccount | get | find => rw [h.2]
  | batchRefreshDB =>
    obtain ⟨_, -, rfl⟩ := h
    rfl
  | refreshDB | putWallet =>
    rw [show w' = if r then _ else _ from h]
    split <;> rfl
  | _ => rw [show w' = _ from h]

variable {params : Json} {«from» «to» : String} {balance fee : ℚ} {node : NodeInfo}
  {tokenInfo : TokenInfo} {expires : String → String}

variable {coin_id : ℤ} {max_account_id address_quantity : ℕ}

end

/-! ### What leaks -/

/-- What queries give: for the lookup of a coin what is `found`, and the query for the account of a
user can fail. -/
def fetch (found : Query → Db → Option (List (List Cell))) (fails : Bool) (d : Db) :
    Query → Option (List (List Cell))
  | .userAccount c user_id => if fails then none else (Query.userAccount c user_id).eval d
  | .coin short_name => found (.coin short_name) d
  | .tokenCoin short_name => found (.tokenCoin short_name) d
  | q => q.eval d

/-- Nodes that answer with what is no JSON. -/
def worst (found : Query → Db → Option (List (List Cell))) (fails : Bool) :
    (o : Op) → World → Ans o × World
  | .getData q, w => (fetch found fails w.db q, w)
  | o, w => serve (fun _ _ => .garbage) (fun _ => .null) o w

/-- What is found is what lookups give, or they have failed. -/
def Finds (injected : Query → Db → Option (List Cell) → Prop)
    (found : Query → Db → Option (List (List Cell))) : Prop :=
  ∀ q d, found q d = none ∨ q.Fetches injected d (found q d)

lemma Steady.worst {o : Op} (ho : Steady o) {found : Query → Db → Option (List (List Cell))}
    {fails : Bool} {w : World} : (worst found fails o w).2.connections = w.connections := by
  cases o <;> first | rfl | exact ho.elim

section

variable {found : Query → Db → Option (List (List Cell))} {fails : Bool} {w : World}
  {α β : Type} {n : ℤ}

/-- The computed run of the program throws, with as many connections open as before. -/
def Throws (found : Query → Db → Option (List (List Cell))) (fails : Bool) (p : Srv α)
    (w : World) : Prop :=
  wp (Env.of (worst found fails)) p (fun _ _ => False)
    (fun w' => w'.connections = w.connections) w

lemma Throws.bind {p : Srv α} {f : α → Srv β} (h : Throws found fails p w) :
    Throws found fails (p >>= f) w := by
  rw [Throws, wp_bind]
  exact wp_mono h (fun _ _ h => h.elim) fun _ h => h

variable {params : Json} {node : NodeInfo} {tokenInfo : TokenInfo} {expires : String → String}

end

section

variable {params : Json} {expires : String → String} {w : World}

variable {injected : Query → Db → Option (List Cell) → Prop}

end

end OpenWallet.Server
