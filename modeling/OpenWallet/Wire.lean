import OpenWallet.Json

/-!
An exchange over HTTP: what is posted, and what can come back.
-/

namespace OpenWallet

/-- `CurlParams`, as far as its users set them. -/
structure Request where
  url : String
  auth : String
  data : Json

/-- The transfer fails, or it brings a text, which is JSON or not. -/
inductive Answer
  | down
  | garbage
  | body (j : Json)

/-- The object that `Rpc::structRpc` and `CallNodeRPC` post. -/
def structRpc (method : String) (params : Json) : Json :=
  .obj [("id", .str "curltest"), ("jsonrpc", .str "1.0"), ("method", .str method),
    ("params", params)]

end OpenWallet
