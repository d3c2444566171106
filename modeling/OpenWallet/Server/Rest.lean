import OpenWallet.Server.HttpRpc

/-!
The handlers of HTTP requests that the server registers: the one of JSON-RPC, and the two of the
REST interface. Where a handler returns, it has sent one reply.
-/

namespace OpenWallet.Server.Http

open Lib Prog

inductive RequestMethod
  | UNKNOWN
  | GET
  | POST
  | HEAD
  | PUT
deriving DecidableEq

/-- What the handlers read of a request. -/
structure HTTPRequest where
  method : RequestMethod
  uri : Bytes
  body : Bytes

/-! ### The REST interface -/

inductive RetFormat
  | RF_UNDEF
  | RF_BINARY
  | RF_HEX
  | RF_JSON
deriving DecidableEq

def rf_names : List (RetFormat × Bytes) :=
  [(.RF_UNDEF, text ""), (.RF_BINARY, text "bin"), (.RF_HEX, text "hex"), (.RF_JSON, text "json")]

def HTTP_SERVICE_UNAVAILABLE : ℕ := 503

def RESTERR (status : ℕ) (message : Bytes) : Rpc Bool := do
  WriteHeader "Content-Type" "text/plain"
  WriteReply status (message ++ text "\r\n")
  return false

/-- What is before the last byte `c`, and after it. -/
def rsplit (c : UInt8) (s : Bytes) : Option (Bytes × Bytes) :=
  match s.reverse.span (· != c) with
  | (_, []) => none
  | (suff, _ :: param) => some (param.reverse, suff.reverse)

def ParseDataFormat (strReq : Bytes) : Bytes × RetFormat :=
  match rsplit 46 strReq with
  | none => (strReq, .RF_UNDEF)
  | some (param, suff) =>
    match rf_names.find? fun rf => rf.2 = suff with
    | some rf => (param, rf.1)
    | none => (strReq, .RF_UNDEF)

/-- `strtol` in base 10. -/
def strtol (s : Bytes) : ℤ :=
  let s := s.dropWhile fun c => c = 32 || (9 ≤ c && c ≤ 13)
  let number (s : Bytes) : ℤ :=
    (s.takeWhile fun c => 48 ≤ c && c ≤ 57).foldl (fun n c => 10 * n + (c.toNat - 48 : ℕ)) 0
  let n := match s with
    | 45 :: s => -number s
    | 43 :: s => number s
    | s => number s
  max (-2 ^ 63) (min n (2 ^ 63 - 1))

/-- The `n` low bytes of a number, the lowest first. -/
def littleEndian : ℕ → ℕ → Bytes
  | 0, _ => []
  | n + 1, m => UInt8.ofNat m :: littleEndian n (m / 256)

def WriteCompactSize (nSize : ℕ) : Bytes :=
  if nSize < 253 then littleEndian 1 nSize
  else if nSize ≤ 0xffff then 253 :: littleEndian 2 nSize
  else if nSize ≤ 0xffffffff then 254 :: littleEndian 4 nSize
  else 255 :: littleEndian 8 nSize

/-- A string as a `CDataStream` has it. -/
def Serialize (str : Bytes) : Bytes := WriteCompactSize str.length ++ str

def HexStr (vch : Bytes) : Bytes :=
  vch.flatMap fun val => utf8 [hexDigit "0123456789abcdef" (val.toNat / 16),
    hexDigit "0123456789abcdef" (val.toNat % 16)]

section

variable (dump_float : Double → Bytes) (tableRPC : CRPCTable)

def CheckWarmup : Rpc Bool :=
  match tableRPC.rpcWarmupStatus with
  | some statusmessage =>
    RESTERR HTTP_SERVICE_UNAVAILABLE (text "Service temporarily unavailable: " ++ text statusmessage)
  | none => return true

def rest_chaininfo (strURIPart : Bytes) : Rpc Bool := do
  if !(← CheckWarmup tableRPC) then
    return false
  match (ParseDataFormat strURIPart).2 with
  | .RF_JSON =>
    let strJSON ← dump dump_float (.object [(text "chain", .string (text "test"))])
    WriteHeader "Content-Type" "application/json"
    WriteReply HTTP_OK (strJSON ++ text "\n")
    return true
  | _ => RESTERR HTTP_NOT_FOUND (text "output format not found (available: json)")

def rest_headers (strURIPart : Bytes) : Rpc Bool := do
  if !(← CheckWarmup tableRPC) then
    return false
  let (param, rf) := ParseDataFormat strURIPart
  match param.splitOn 47 with
  | [path₀, hashStr] =>
    let count := strtol path₀
    if count < 1 ∨ count > 2000 then
      return ← RESTERR HTTP_BAD_REQUEST (text "Header count out of range: " ++ path₀)
    else
      -- the hash is written as it is: the check of its digits is a comment
      let ssHeader := Serialize hashStr
      match rf with
      | .RF_BINARY =>
        WriteHeader "Content-Type" "application/octet-stream"
        WriteReply HTTP_OK ssHeader
        return true
      | .RF_HEX =>
        WriteHeader "Content-Type" "text/plain"
        WriteReply HTTP_OK (HexStr ssHeader ++ text "\n")
        return true
      | .RF_JSON =>
        let strJSON ← dump dump_float (.object [(text "data", .string (text "header"))])
        WriteHeader "Content-Type" "application/json"
        WriteReply HTTP_OK (strJSON ++ text "\n")
        return true
      | .RF_UNDEF =>
        return ← RESTERR HTTP_NOT_FOUND (text "output format not found (available: .bin, .hex)")
  | _ =>
    let message := text "No header count specified. Use /rest/headers/<count>/<hash>.<ext>."
    return ← RESTERR HTTP_BAD_REQUEST message

end

/-- Where the program returns, one reply has been sent. -/
def Replies (p : Rpc α) (c : Conn) : Prop :=
  wp (Env.of serve) p (fun _ c' => c'.replies.length = 1) (fun _ => True) c

section

variable {α β : Type} {c : Conn}

lemma wp_get {Q : Conn → Conn → Prop} {D : Conn → Prop} :
    wp (Env.of serve) get Q D c ↔ Q c c :=
  wp_op_of serve c Op.get

lemma wp_modify {f : Conn → Conn} {Q : Unit → Conn → Prop} {D : Conn → Prop} :
    wp (Env.of serve) (modify f) Q D c ↔ Q () (f c) := by
  rw [modify, wp_bind, wp_get, wp_op_of]
  rfl

lemma replies_bind {p : Rpc α} {f : α → Rpc β} (h : ∀ a c', Replies (f a) c') :
    Replies (p >>= f) c := by
  rw [Replies, wp_bind]
  exact wp_any (fun a c' => h a c') fun _ => trivial

lemma replies_WriteReply (nStatus : ℕ) (strReply : Bytes) (a : α) :
    Replies (WriteReply nStatus strReply >>= fun _ => pure a) c := by
  simp only [Replies, WriteReply, wp_bind, wp_get]
  split
  · exact trivial
  · next h =>
    rw [not_ne_iff] at h
    rw [wp_modify, h]
    rfl

lemma replies_RESTERR (status : ℕ) (message : Bytes) : Replies (RESTERR status message) c :=
  replies_bind fun _ _ => replies_WriteReply _ _ _

lemma replies_CheckWarmup {tableRPC : CRPCTable} {p : Rpc Bool} (h : ∀ c', Replies p c') :
    Replies (CheckWarmup tableRPC >>= fun b => if !b then pure false else p) c := by
  unfold CheckWarmup
  cases tableRPC.rpcWarmupStatus with
  | none => exact h c
  | some statusmessage =>
    simp only [RESTERR, bind_assoc]
    refine replies_bind fun _ _ => ?_
    exact replies_WriteReply _ _ false

variable (dump_float : Double → Bytes) (tableRPC : CRPCTable)

lemma replies_rest_chaininfo (strURIPart : Bytes) :
    Replies (rest_chaininfo dump_float tableRPC strURIPart) c := by
  refine replies_CheckWarmup fun c' => ?_
  split
  · exact replies_bind fun _ _ => replies_bind fun _ _ => replies_WriteReply _ _ _
  · exact replies_RESTERR _ _

lemma replies_rest_headers (strURIPart : Bytes) :
    Replies (rest_headers dump_float tableRPC strURIPart) c := by
  refine replies_CheckWarmup fun c' => ?_
  dsimp only
  split
  · split
    · exact replies_RESTERR _ _
    · split
      · exact replies_bind fun _ _ => replies_WriteReply _ _ _
      · exact replies_bind fun _ _ => replies_WriteReply _ _ _
      · exact replies_bind fun _ _ => replies_bind fun _ _ => replies_WriteReply _ _ _
      · exact replies_RESTERR _ _
  · exact replies_RESTERR _ _

/-- The handler of JSON-RPC sends one reply, on each of its ways to return. -/
lemma replies_HTTPReq_JSONRPC (json_parse : Bytes → Except Bytes Value) (isPost : Bool)
    (body : Bytes) : Replies (HTTPReq_JSONRPC dump_float json_parse tableRPC isPost body) c := by
  unfold HTTPReq_JSONRPC
  split
  · exact replies_WriteReply _ _ _
  refine replies_bind fun _ c₁ => ?_
  refine wp_caught ?_ fun e c₂ => ?_
  · -- the `try` ends with its reply
    unfold tryRequest
    refine replies_bind fun valRequest _ => ?_
    dsimp only
    split
    · exact trivial
    split
    · refine replies_bind fun _ _ => replies_bind fun _ _ => replies_bind fun _ _ => ?_
      exact replies_bind fun _ _ => replies_bind fun _ _ => replies_WriteReply _ _ _
    split
    · exact replies_bind fun _ _ => replies_bind fun _ _ => replies_WriteReply _ _ _
    · exact trivial
  · -- and so do the `catch` clauses
    cases e with
    | json objError =>
      refine replies_bind fun conn _ => ?_
      simp only [JSONErrorReply, bind_assoc]
      refine replies_bind fun _ _ => replies_bind fun _ _ => replies_bind fun _ _ => ?_
      exact replies_bind fun _ _ => replies_WriteReply _ _ _
    | std what =>
      refine replies_bind fun conn _ => ?_
      simp only [JSONErrorReply, bind_assoc]
      refine replies_bind fun _ _ => replies_bind fun _ _ => replies_bind fun _ _ => ?_
      exact replies_bind fun _ _ => replies_WriteReply _ _ _
    | assertion => exact trivial

end

end OpenWallet.Server.Http
