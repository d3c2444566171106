import OpenWallet.Json
import OpenWallet.Lib.Utf8

/-!
JSON values whose strings are of any bytes, as a `std::string` is, and how `dump` writes them. It
throws on a string that is not UTF-8.
-/

namespace OpenWallet.Server.Http

open Lib

abbrev Bytes := List UInt8

/-- The bytes of a text of the source. -/
def text (s : String) : Bytes := utf8 s.toList

inductive Value
  | null
  | boolean (b : Bool)
  | integer (z : ℤ)
  | real (q : Double)
  | string (s : Bytes)
  | array (xs : List Value)
  /-- A `std::map`, in the order of its keys. -/
  | object (kvs : List (Bytes × Value))

/-- What leaves a function: a value that is thrown, a `std::exception` with its text, and an
assertion that fails, which nothing catches. -/
inductive Stop
  | json (objError : Value)
  | std (what : Bytes)
  | assertion

namespace Value

def type_name : Value → String
  | null => "null"
  | boolean _ => "boolean"
  | integer _ => "number"
  | real _ => "number"
  | string _ => "string"
  | array _ => "array"
  | object _ => "object"

def is_null : Value → Bool
  | null => true
  | _ => false

def is_string : Value → Bool
  | string _ => true
  | _ => false

def is_array : Value → Bool
  | array _ => true
  | _ => false

def is_object : Value → Bool
  | object _ => true
  | _ => false

/-- `operator[]` on a constant: a missing key is no value. -/
def «at» (key : String) : Value → Except Stop Value
  | object kvs =>
    match kvs.lookup (text key) with
    | some v => .ok v
    | none => .error .assertion
  | v => .error (.std (text ("[json.exception.type_error.305] cannot use operator[] with " ++
      v.type_name)))

def getInt : Value → Except Stop ℤ
  | integer z => .ok (z.bmod (2 ^ 32))
  | real q => .ok ((Json.trunc q).bmod (2 ^ 32))
  | boolean b => .ok (if b then 1 else 0)
  | v => .error (.std (text ("[json.exception.type_error.302] type must be number, but is " ++
      v.type_name)))

def getString : Value → Except Stop Bytes
  | string s => .ok s
  | v => .error (.std (text ("[json.exception.type_error.302] type must be string, but is " ++
      v.type_name)))

end Value

def hexDigit (digits : String) (n : ℕ) : Char := digits.toList.getD n '0'

def hexByte (byte : UInt8) : String :=
  String.ofList [hexDigit "0123456789ABCDEF" (byte.toNat / 16),
    hexDigit "0123456789ABCDEF" (byte.toNat % 16)]

/-- The loop over the bytes of `str` that are left, from the `i`th on. -/
def checkUtf8 (str : Bytes) : ℕ → ℕ → Bytes → Except Stop Unit
  | _, state, [] =>
    if state ≠ 0 then
      .error (.std (text ("[json.exception.type_error.316] incomplete UTF-8 string; last byte: 0x" ++
        hexByte (str.getLastD 0))))
    else .ok ()
  | i, state, byte :: bytes =>
    if decode state byte = 1 then
      .error (.std (text ("[json.exception.type_error.316] invalid UTF-8 byte at index " ++
        toString i ++ ": 0x" ++ hexByte byte)))
    else checkUtf8 str (i + 1) (decode state byte) bytes

def throw_if_invalid_utf8 (str : Bytes) : Except Stop Unit := checkUtf8 str 0 0 str

/-- A byte of a string with its escape, where it has one. -/
def escape (byte : UInt8) : Bytes :=
  if byte = 0x22 then text "\\\""
  else if byte = 0x5C then text "\\\\"
  else if byte = 0x08 then text "\\b"
  else if byte = 0x0C then text "\\f"
  else if byte = 0x0A then text "\\n"
  else if byte = 0x0D then text "\\r"
  else if byte = 0x09 then text "\\t"
  else if byte.toNat ≤ 0x1F then
    text ("\\u00" ++ String.ofList [hexDigit "0123456789abcdef" (byte.toNat / 16),
      hexDigit "0123456789abcdef" (byte.toNat % 16)])
  else [byte]

def dump_escaped (s : Bytes) : Except Stop Bytes := do
  throw_if_invalid_utf8 s
  return text "\"" ++ s.flatMap escape ++ text "\""

section

variable (dump_float : Double → Bytes)

mutual

/-- `dump()`, with `dump_float` for the digits of a `double`. -/
def dump : Value → Except Stop Bytes
  | .null => .ok (text "null")
  | .boolean b => .ok (text (if b then "true" else "false"))
  | .integer z => .ok (text (toString z))
  | .real q => .ok (dump_float q)
  | .string s => dump_escaped s
  | .array xs => do return text "[" ++ (← dumpElements xs) ++ text "]"
  | .object kvs => do return text "\x7b" ++ (← dumpMembers kvs) ++ text "\x7d"

def dumpElements : List Value → Except Stop Bytes
  | [] => .ok []
  | [x] => dump x
  | x :: y :: xs => do return (← dump x) ++ text "," ++ (← dumpElements (y :: xs))

def dumpMembers : List (Bytes × Value) → Except Stop Bytes
  | [] => .ok []
  | [(key, x)] => do return (← dump_escaped key) ++ text ":" ++ (← dump x)
  | (key, x) :: y :: xs => do
    return (← dump_escaped key) ++ text ":" ++ (← dump x) ++ text "," ++ (← dumpMembers (y :: xs))

end

end

/-! ### What can be written -/

/-- All strings of the value, also its keys, are UTF-8. -/
inductive Utf8 : Value → Prop
  | null : Utf8 .null
  | boolean (b : Bool) : Utf8 (.boolean b)
  | integer (z : ℤ) : Utf8 (.integer z)
  | real (q : Double) : Utf8 (.real q)
  | string (cs : List Char) : Utf8 (.string (utf8 cs))
  | array {xs : List Value} : (∀ x ∈ xs, Utf8 x) → Utf8 (.array xs)
  | object {kvs : List (Bytes × Value)} : (∀ kv ∈ kvs, ∃ cs, kv.1 = utf8 cs) →
      (∀ kv ∈ kvs, Utf8 kv.2) → Utf8 (.object kvs)

lemma utf8_array {xs : List Value} : Utf8 (.array xs) ↔ ∀ x ∈ xs, Utf8 x := by
  constructor
  · intro h
    cases h with
    | array h => exact h
  · exact .array

lemma utf8_object {kvs : List (Bytes × Value)} : Utf8 (.object kvs) ↔
    (∀ kv ∈ kvs, ∃ cs, kv.1 = utf8 cs) ∧ ∀ kv ∈ kvs, Utf8 kv.2 := by
  constructor
  · intro h
    cases h with
    | object h h' => exact ⟨h, h'⟩
  · rintro ⟨h, h'⟩
    exact .object h h'

section

variable {α β : Type}

lemma bind_done {x : Except Stop α} {f : α → Except Stop β} :
    (∃ b, x >>= f = .ok b) ↔ ∃ a, x = .ok a ∧ ∃ b, f a = .ok b := by
  cases x with
  | ok a => simp [bind, Except.bind]
  | error e => simp [bind, Except.bind]

lemma exists_and_congr_done {p q : α → Prop} {r : Prop} (h : ∀ a, q a ↔ r) :
    (∃ a, p a ∧ q a) ↔ (∃ a, p a) ∧ r := by
  simp only [h, exists_and_right]

/-- The computation throws no exceptions but `std::exception`s with a text. -/
def Texts (x : Except Stop α) : Prop := ∀ e, x = .error e → ∃ t, e = .std (text t)

lemma texts_ok (a : α) : Texts (.ok a) := nofun

lemma texts_std (t : String) : Texts (.error (.std (text t)) : Except Stop α) := by
  intro e he
  exact ⟨t, (Except.error.inj he).symm⟩

lemma texts_bind {x : Except Stop α} {f : α → Except Stop β} (hx : Texts x)
    (hf : ∀ a, Texts (f a)) : Texts (x >>= f) := by
  cases x with
  | ok a => exact hf a
  | error e =>
    intro e' he
    exact hx e' (congrArg Except.error (Except.error.inj he))

end

lemma checkUtf8_eq_ok (str : Bytes) (i state : ℕ) (bytes : Bytes) :
    checkUtf8 str i state bytes = .ok () ↔ bytes.foldl decode state = 0 := by
  induction bytes generalizing i state with
  | nil => simp [checkUtf8]
  | cons byte bytes ih =>
    rw [checkUtf8, List.foldl_cons]
    split
    · next h => simp [h, foldl_reject]
    · exact ih _ _

lemma throw_if_invalid_utf8_eq_ok (str : Bytes) :
    throw_if_invalid_utf8 str = .ok () ↔ ∃ cs, str = utf8 cs :=
  (checkUtf8_eq_ok str 0 0 str).trans (foldl_decode_iff str)

lemma texts_checkUtf8 (str : Bytes) (i state : ℕ) (bytes : Bytes) :
    Texts (checkUtf8 str i state bytes) := by
  induction bytes generalizing i state with
  | nil =>
    rw [checkUtf8]
    split
    · exact texts_std _
    · exact texts_ok _
  | cons byte bytes ih =>
    rw [checkUtf8]
    split
    · exact texts_std _
    · exact ih _ _

lemma dump_escaped_done (s : Bytes) : (∃ b, dump_escaped s = .ok b) ↔ ∃ cs, s = utf8 cs := by
  rw [dump_escaped, bind_done]
  constructor
  · rintro ⟨_, h, -⟩
    exact (throw_if_invalid_utf8_eq_ok s).mp h
  · intro h
    exact ⟨(), (throw_if_invalid_utf8_eq_ok s).mpr h, _, rfl⟩

lemma texts_dump_escaped (s : Bytes) : Texts (dump_escaped s) :=
  texts_bind (texts_checkUtf8 s 0 0 s) fun _ => texts_ok _

section

variable (dump_float : Double → Bytes)

mutual

/-- **A value can be written exactly if its strings are UTF-8.** -/
theorem dump_done_iff : ∀ v : Value, (∃ s, dump dump_float v = .ok s) ↔ Utf8 v
  | .null => ⟨fun _ => .null, fun _ => ⟨_, rfl⟩⟩
  | .boolean b => ⟨fun _ => .boolean b, fun _ => ⟨_, rfl⟩⟩
  | .integer z => ⟨fun _ => .integer z, fun _ => ⟨_, rfl⟩⟩
  | .real q => ⟨fun _ => .real q, fun _ => ⟨_, rfl⟩⟩
  | .string s => by
    rw [dump, dump_escaped_done]
    constructor
    · rintro ⟨cs, rfl⟩
      exact .string cs
    · intro h
      cases h with
      | string cs => exact ⟨cs, rfl⟩
  | .array xs => by
    rw [dump, bind_done, utf8_array, ← dumpElements_done_iff xs]
    exact exists_congr fun b => and_iff_left ⟨_, rfl⟩
  | .object kvs => by
    rw [dump, bind_done, utf8_object, ← dumpMembers_done_iff kvs]
    exact exists_congr fun b => and_iff_left ⟨_, rfl⟩

lemma dumpElements_done_iff : ∀ xs : List Value,
    (∃ s, dumpElements dump_float xs = .ok s) ↔ ∀ x ∈ xs, Utf8 x
  | [] => by simp [dumpElements]
  | [x] => by
    rw [dumpElements, dump_done_iff x, List.forall_mem_singleton]
  | x :: y :: xs => by
    rw [List.forall_mem_cons, ← dump_done_iff x, ← dumpElements_done_iff (y :: xs), dumpElements,
      bind_done]
    refine exists_and_congr_done fun b => ?_
    rw [bind_done]
    exact exists_congr fun b => and_iff_left ⟨_, rfl⟩

lemma dumpMembers_done_iff : ∀ kvs : List (Bytes × Value),
    (∃ s, dumpMembers dump_float kvs = .ok s) ↔
      (∀ kv ∈ kvs, ∃ cs, kv.1 = utf8 cs) ∧ ∀ kv ∈ kvs, Utf8 kv.2
  | [] => by simp [dumpMembers]
  | [(key, x)] => by
    rw [List.forall_mem_singleton, List.forall_mem_singleton, ← dump_escaped_done,
      ← dump_done_iff x, dumpMembers, bind_done]
    refine exists_and_congr_done fun b => ?_
    rw [bind_done]
    exact exists_congr fun b => and_iff_left ⟨_, rfl⟩
  | (key, x) :: y :: xs => by
    have hsplit := and_and_and_comm (a := ∃ cs, key = utf8 cs) (c := Utf8 x)
      (b := ∀ kv ∈ y :: xs, ∃ cs, kv.1 = utf8 cs) (d := ∀ kv ∈ y :: xs, Utf8 kv.2)
    rw [List.forall_mem_cons, List.forall_mem_cons (l := y :: xs), hsplit,
      ← dumpMembers_done_iff (y :: xs), ← dump_escaped_done, ← dump_done_iff x, dumpMembers,
      bind_done, and_assoc]
    refine exists_and_congr_done fun b => ?_
    rw [bind_done]
    refine exists_and_congr_done fun b => ?_
    rw [bind_done]
    exact exists_congr fun b => and_iff_left ⟨_, rfl⟩

end

mutual

lemma texts_dump : ∀ v : Value, Texts (dump dump_float v)
  | .null => texts_ok _
  | .boolean _ => texts_ok _
  | .integer _ => texts_ok _
  | .real _ => texts_ok _
  | .string s => texts_dump_escaped s
  | .array xs => texts_bind (texts_dumpElements xs) fun _ => texts_ok _
  | .object kvs => texts_bind (texts_dumpMembers kvs) fun _ => texts_ok _

lemma texts_dumpElements : ∀ xs : List Value, Texts (dumpElements dump_float xs)
  | [] => texts_ok _
  | [x] => texts_dump x
  | x :: y :: xs =>
    texts_bind (texts_dump x) fun _ => texts_bind (texts_dumpElements (y :: xs)) fun _ => texts_ok _

lemma texts_dumpMembers : ∀ kvs : List (Bytes × Value), Texts (dumpMembers dump_float kvs)
  | [] => texts_ok _
  | [(key, x)] =>
    texts_bind (texts_dump_escaped key) fun _ => texts_bind (texts_dump x) fun _ => texts_ok _
  | (key, x) :: y :: xs =>
    texts_bind (texts_dump_escaped key) fun _ => texts_bind (texts_dump x) fun _ =>
      texts_bind (texts_dumpMembers (y :: xs)) fun _ => texts_ok _

end

end

lemma Utf8.of_at {v u : Value} {key : String} (h : Utf8 v) (hu : v.at key = .ok u) : Utf8 u := by
  cases v with
  | object kvs =>
    have hvalues := (utf8_object.mp h).2
    rw [Value.at] at hu
    split at hu
    · next u' hlookup =>
      obtain rfl := Except.ok.inj hu
      obtain ⟨l, l', hkvs, -⟩ := List.lookup_eq_some_iff.mp hlookup
      exact hvalues (text key, u') (by simp [hkvs])
    · cases hu
  | _ => cases hu

end OpenWallet.Server.Http
