import OpenWallet.Text

/-!
What `ethwalletweb3.py` makes of an address and of a token amount.
-/

namespace OpenWallet.Server

/-- The test of `offlineSign`: `len(to) != 40 and (len(to) != 42 or to[0:2] != '0x')` is refused. -/
def isAddress («to» : String) : Bool :=
  «to».toList.length = 40 ∨ («to».toList.length = 42 ∧ «to».toList.take 2 = ['0', 'x'])

/-- `s.rjust(width, '0')` -/
def rjust (cs : List Char) (width : ℕ) : List Char :=
  List.replicate (width - cs.length) '0' ++ cs

/-- The address without its prefix. -/
def bare («to» : String) : List Char :=
  if «to».toList.take 2 = ['0', 'x'] then «to».toList.drop 2 else «to».toList

/-- The `data` of `offlineSignERC20`, for the amount in the smallest unit of the token. -/
def transferData («to» : String) (v : ℕ) : String :=
  "0xa9059cbb" ++ String.ofList (rjust (bare «to») 64) ++
    String.ofList (rjust (Nat.toDigits 16 v) 64)

/-- `getPrivateKey`, once the key store is open. -/
def getPrivateKey (wallet : List (String × String)) (address : String) : Option String :=
  wallet.lookup address

end OpenWallet.Server
