import OpenWallet.Double

/-!
JSON values as the programs read them, after `nlohmann::json`: the accessors they use, with
the exceptions these throw.
-/

namespace OpenWallet

/-- The exceptions the programs meet, and the failed assertion that ends a process. -/
inductive Exn
  | typeError (id : ℕ)
  | parseError
  | outOfRange
  | invalidArgument
  /-- `std::string` built from a null pointer -/
  | logicError
  | assertion
  | runtime (what : String)
  deriving DecidableEq

section

variable {α β : Type} {R : α → β → Prop} {xs : List α} {ys : List β}

lemma forall₂_mem_left (h : List.Forall₂ R xs ys) {x : α} (hx : x ∈ xs) : ∃ y ∈ ys, R x y := by
  induction h with
  | nil => cases hx
  | cons hr _ ih =>
    rcases List.mem_cons.mp hx with rfl | hx
    · exact ⟨_, List.mem_cons_self, hr⟩
    · obtain ⟨y, hy, hr⟩ := ih hx
      exact ⟨y, List.mem_cons_of_mem _ hy, hr⟩

lemma forall₂_mem_right (h : List.Forall₂ R xs ys) {y : β} (hy : y ∈ ys) :
    ∃ x ∈ xs, R x y :=
  forall₂_mem_left h.flip hy

lemma forall₂_getElem? (h : List.Forall₂ R xs ys) {k : ℕ} {x : α} (hx : xs[k]? = some x) :
    ∃ y, ys[k]? = some y ∧ R x y := by
  induction h generalizing k with
  | nil => simp at hx
  | cons hr _ ih =>
    cases k with
    | zero =>
      obtain rfl := Option.some.inj hx
      exact ⟨_, rfl, hr⟩
    | succ k => exact ih hx

end

section

variable {α β : Type} (a : α) (e : Exn) (f : α → Except Exn β)

@[simp] lemma ok_bind : (Except.ok a >>= f) = f a := rfl
@[simp] lemma error_bind : (Except.error e >>= f) = .error e := rfl
@[simp] lemma pure_eq_ok : (pure a : Except Exn α) = .ok a := rfl
@[simp] lemma map_ok (f : α → β) : (f <$> Except.ok a : Except Exn β) = .ok (f a) := rfl
@[simp] lemma map_error (f : α → β) : (f <$> Except.error e : Except Exn β) = .error e := rfl

lemma forall₂_of_mapM {f : α → Except Exn β} {xs : List α} {ys : List β}
    (h : xs.mapM f = .ok ys) : List.Forall₂ (fun x y => f x = .ok y) xs ys := by
  induction xs generalizing ys with
  | nil =>
    obtain rfl : ys = [] := by simpa [eq_comm] using h
    exact .nil
  | cons x xs ih =>
    rw [List.mapM_cons] at h
    cases hx : f x with
    | error e => simp [hx] at h
    | ok y =>
      cases hxs : xs.mapM f with
      | error e => simp [hx, hxs] at h
      | ok zs =>
        obtain rfl : ys = y :: zs := by simpa [hx, hxs, eq_comm] using h
        exact .cons hx (ih hxs)

lemma bind_eq_ok {x : Except Exn α} {f : α → Except Exn β} {b : β} :
    x >>= f = .ok b ↔ ∃ a, x = .ok a ∧ f a = .ok b := by
  cases x <;> simp

end

inductive Json
  | null
  | bool (b : Bool)
  | int (z : ℤ)
  | float (q : Double)
  | str (s : String)
  | arr (xs : List Json)
  | obj (kvs : List (String × Json))

namespace Json

/-- `find(key)`, which is `end()` on everything but an object. -/
def find? : Json → String → Option Json
  | obj kvs, key => kvs.lookup key
  | _, _ => none

/-- `j[key]` on a variable: a missing key reads as null, and so does every key of null. -/
def field : Json → String → Except Exn Json
  | obj kvs, key => .ok ((kvs.lookup key).getD null)
  | null, _ => .ok null
  | _, _ => .error (.typeError 305)

/-- What the variable holds after `j[key]`, which adds a missing key. -/
def touch : Json → String → Except Exn Json
  | obj kvs, key =>
    .ok (if (kvs.lookup key).isSome then obj kvs else obj (kvs ++ [(key, null)]))
  | null, key => .ok (obj [(key, null)])
  | _, _ => .error (.typeError 305)

/-- `j[i]` on a variable. -/
def idx : Json → ℕ → Except Exn Json
  | arr xs, i => .ok (xs.getD i null)
  | null, _ => .ok null
  | _, _ => .error (.typeError 305)

def size : Json → ℕ
  | null => 0
  | arr xs => xs.length
  | obj kvs => kvs.length
  | _ => 1

def empty : Json → Bool
  | null => true
  | arr xs => xs.isEmpty
  | obj kvs => kvs.isEmpty
  | _ => false

/-- The values `j[0], …, j[j.size() - 1]` that a counting loop reads one by one: on anything
with elements that is no array the first read throws. -/
def elems : Json → Except Exn (List Json)
  | null => .ok []
  | arr xs => .ok xs
  | obj [] => .ok []
  | _ => .error (.typeError 305)

def is_null : Json → Bool
  | null => true
  | _ => false

def is_object : Json → Bool
  | obj _ => true
  | _ => false

def getStr : Json → Except Exn String
  | str s => .ok s
  | _ => .error (.typeError 302)

def getBool : Json → Except Exn Bool
  | bool b => .ok b
  | _ => .error (.typeError 302)

def getDouble : Json → Except Exn Double
  | int z => .ok (Double.round z)
  | float q => .ok q
  | _ => .error (.typeError 302)

/-- Toward zero, as a conversion from `double` goes. -/
def trunc (q : Double) : ℤ := if 0 ≤ q then ⌊q⌋ else ⌈q⌉

/-- `get<int>()`: 32 bits, and booleans convert too. -/
def getInt : Json → Except Exn ℤ
  | int z => .ok (z.bmod (2 ^ 32))
  | float q => .ok ((trunc q).bmod (2 ^ 32))
  | bool b => .ok (if b then 1 else 0)
  | _ => .error (.typeError 302)

def getUInt64 : Json → Except Exn ℕ
  | int z => .ok (z % 2 ^ 64).toNat
  | float q => .ok (trunc q % 2 ^ 64).toNat
  | _ => .error (.typeError 302)

@[simp] lemma find?_obj (kvs : List (String × Json)) (key : String) :
    (obj kvs).find? key = kvs.lookup key := rfl

lemma field_of_find? {j v : Json} {key : String} (h : j.find? key = some v) :
    j.field key = .ok v := by
  cases j <;> simp_all [find?, field]

lemma find?_of_field {j v : Json} {key : String} (h : j.field key = .ok v) (hv : v ≠ null) :
    j.find? key = some v := by
  cases j with
  | obj kvs =>
    cases hk : kvs.lookup key <;> simp_all [find?, field]
  | _ => simp_all [field]

@[simp] lemma field_null (key : String) : null.field key = .ok null := rfl
@[simp] lemma elems_arr (xs : List Json) : (arr xs).elems = .ok xs := rfl
@[simp] lemma elems_null : null.elems = .ok [] := rfl
@[simp] lemma getStr_str (s : String) : (str s).getStr = .ok s := rfl
@[simp] lemma getBool_bool (b : Bool) : (bool b).getBool = .ok b := rfl
@[simp] lemma getDouble_float (q : Double) : (float q).getDouble = .ok q := rfl
@[simp] lemma empty_null : null.empty = true := rfl
@[simp] lemma empty_arr (xs : List Json) : (arr xs).empty = xs.isEmpty := rfl
@[simp] lemma is_null_str (s : String) : (str s).is_null = false := rfl
@[simp] lemma is_null_null : null.is_null = true := rfl

lemma getStr_eq_ok {j : Json} {s : String} : j.getStr = .ok s ↔ j = .str s := by
  cases j <;> simp [getStr]

lemma getUInt64_natCast {n : ℕ} (h : n < 2 ^ 64) : (int n).getUInt64 = .ok n := by
  have hlt : (n : ℤ) < 2 ^ 64 := by exact_mod_cast h
  rw [getUInt64, Int.emod_eq_of_lt (Int.natCast_nonneg n) hlt, Int.toNat_natCast]

lemma getInt_natCast {n : ℕ} (h : n < 2 ^ 31) : (int n).getInt = .ok (n : ℤ) := by
  have hlt : (n : ℤ) < 2 ^ 31 := by exact_mod_cast h
  rw [getInt, Int.bmod_eq_of_le (by omega) (by omega)]

lemma field_touch {j j' : Json} {key : String} (k : String) (h : j.touch key = .ok j') :
    j'.field k = j.field k := by
  have hnew : (List.lookup k [(key, null)]).getD null = null := by
    rw [List.lookup_cons, List.lookup_nil]
    split <;> rfl
  cases j <;> simp only [touch, reduceCtorEq, Except.ok.injEq] at h
  · subst h
    exact congrArg Except.ok hnew
  · subst h
    split
    · rfl
    · rw [field, field, List.lookup_append]
      cases List.lookup k _ with
      | none => exact congrArg Except.ok hnew
      | some v => rfl

end Json

end OpenWallet
