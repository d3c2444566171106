import Mathlib.Data.List.DropRight
import OpenWallet.Server.HttpRpc

/-!
Named parameters. The loop that puts them at their positions is right about every map of names it
is given, but it is given none: a command gets the object instead of an array, and a name that it
does not know is no error.
-/

namespace OpenWallet.Server.Http

section

variable (argNames : List String) (kvs : List (Bytes × Value))

/-- The name an argument is given under, with its value. -/
def given (argNamePattern : String) : Option (Bytes × Value) :=
  (vargNames argNamePattern).findSome? fun argName =>
    (kvs.lookup argName).map fun v => (argName, v)

/-- Each named argument at its position, with nulls for the ones left out before the last. -/
def positional : List Value :=
  ((argNames.map fun a => (given kvs a).map Prod.snd).rdropWhile Option.isNone).map
    (·.getD .null)

/-- The names that no argument is given under. -/
def unknown : List (Bytes × Value) :=
  kvs.filter fun kv => kv.1 ∉ (argNames.filterMap (given kvs)).map Prod.fst

/-- The command gets the positional array, or the request is refused where it has a name that is
not that of an argument. -/
def Passed (request : JSONRPCRequest) : Prop :=
  if unknown argNames kvs = [] then
    transformNamedArguments request argNames =
      .ok { request with params := .array (positional argNames kvs) }
  else ∃ kv ∈ unknown argNames kvs, transformNamedArguments request argNames = .error (.json
    (JSONRPCError RPC_INVALID_PARAMETER (text "Unknown named parameter " ++ kv.1)))

/-- A request with named parameters means the one with the positional array, whatever the commands
do, and is refused where it has a name that is not that of an argument. -/
def Positional (request : JSONRPCRequest) : Prop :=
  ∀ (tableRPC : CRPCTable) (actor : JSONRPCRequest → Except Stop Value),
    tableRPC.rpcWarmupStatus = none →
    tableRPC.mapCommands.lookup request.strMethod = some ⟨actor, argNames⟩ →
    if unknown argNames kvs = [] then
      tableRPC.execute request =
        tableRPC.execute { request with params := .array (positional argNames kvs) }
    else ∃ kv ∈ unknown argNames kvs, tableRPC.execute request = .error (.json
      (JSONRPCError RPC_INVALID_PARAMETER (text "Unknown named parameter " ++ kv.1)))

end

/-! ### The loop -/

section

variable {argNames : List String} {kvs : List (Bytes × Value)}

/-- Values at their positions after some holes, which are filled where a value follows. -/
def place : ℕ → List (Option Value) → List Value
  | _, [] => []
  | hole, some v :: slots => List.replicate hole .null ++ v :: place 0 slots
  | hole, none :: slots => place (hole + 1) slots

lemma rdropWhile_append_cons {α : Type} {p : α → Bool} (l : List α) {a : α} (ha : p a = false)
    (l' : List α) : (l ++ a :: l').rdropWhile p = l ++ a :: l'.rdropWhile p := by
  have hrev : (l ++ a :: l').reverse = l'.reverse ++ a :: l.reverse := by simp
  rw [List.rdropWhile, hrev, List.dropWhile_append, List.rdropWhile]
  split
  · next hnil =>
    rw [List.dropWhile_cons_of_neg (by simp [ha]), List.isEmpty_iff.mp hnil]
    simp
  · simp

lemma place_eq (hole : ℕ) (slots : List (Option Value)) :
    place hole slots =
      ((List.replicate hole (none : Option Value) ++ slots).rdropWhile Option.isNone).map
        fun slot : Option Value => slot.getD .null := by
  induction slots generalizing hole with
  | nil =>
    have hnone : (List.replicate hole (none : Option Value)).rdropWhile Option.isNone = [] :=
      List.rdropWhile_eq_nil_iff.mpr fun v hv => by simp [List.eq_of_mem_replicate hv]
    rw [List.append_nil, hnone]
    rfl
  | cons slot slots ih =>
    cases slot with
    | none =>
      rw [place, ih, List.replicate_succ', List.append_assoc]
      rfl
    | some v =>
      rw [place, ih, rdropWhile_append_cons _ rfl]
      simp

lemma foldlM_push_back (hole : ℕ) (xs : List Value) :
    (List.replicate hole Value.null).foldlM (fun params v => v.push_back params) (.array xs) =
      (.ok (.array (xs ++ List.replicate hole .null)) : Except Stop Value) := by
  induction hole generalizing xs with
  | zero => simp [pure, Except.pure]
  | succ hole ih =>
    rw [List.replicate_succ, List.foldlM_cons]
    change (List.replicate hole Value.null).foldlM _ (Value.array (xs ++ [.null])) = _
    rw [ih, List.append_assoc]
    rfl

lemma lookup_filter_ne {name n : Bytes} (hne : n ≠ name) (kvs : List (Bytes × Value)) :
    (kvs.filter (·.1 ≠ name)).lookup n = kvs.lookup n := by
  induction kvs with
  | nil => rfl
  | cons kv kvs ih =>
    by_cases hkv : kv.1 = name
    · have hn : (n == kv.1) = false := by simpa [hkv] using hne
      rw [List.filter_cons_of_neg (by simp [hkv]), ih, List.lookup_cons, hn]
    · rw [List.filter_cons_of_pos (by simpa using hkv), List.lookup_cons, List.lookup_cons, ih]

lemma given_filter_ne {name : Bytes} {argNamePattern : String}
    (hne : name ∉ vargNames argNamePattern) :
    given (kvs.filter (·.1 ≠ name)) argNamePattern = given kvs argNamePattern := by
  unfold given
  generalize vargNames argNamePattern = names at hne
  induction names with
  | nil => rfl
  | cons n names ih =>
    obtain ⟨hn, hnames⟩ := not_or.mp (List.mem_cons.not.mp hne)
    simp only [List.findSome?_cons, lookup_filter_ne (Ne.symm hn), ih hnames]

lemma given_mem {argNamePattern : String} {e : Bytes × Value}
    (h : given kvs argNamePattern = some e) : e.1 ∈ vargNames argNamePattern := by
  obtain ⟨n, hn, he⟩ := List.exists_of_findSome?_eq_some h
  obtain ⟨v, -, rfl⟩ := Option.map_eq_some_iff.mp he
  exact hn

lemma processArguments_eq (hnames : argNames.Pairwise fun a b =>
    ∀ n ∈ vargNames a, n ∉ vargNames b) (hole : ℕ) (xs : List Value) :
    processArguments argNames hole (.array xs) kvs =
      .ok (.array (xs ++ place hole (argNames.map fun a => (given kvs a).map Prod.snd)),
        unknown argNames kvs) := by
  induction argNames generalizing hole xs kvs with
  | nil => simp [processArguments, place, unknown]
  | cons a argNames ih =>
    obtain ⟨ha, hrest⟩ := List.pairwise_cons.mp hnames
    rw [processArguments]
    cases hgiven : given kvs a with
    | none =>
      rw [given] at hgiven
      rw [hgiven, ih hrest]
      rw [← given] at hgiven
      have hunknown : unknown (a :: argNames) kvs = unknown argNames kvs := by
        rw [unknown, unknown, List.filterMap_cons, hgiven]
      rw [hunknown, List.map_cons, hgiven]
      rfl
    | some e =>
      obtain ⟨name, v⟩ := e
      have hname : name ∈ vargNames a := given_mem hgiven
      have hsame : ∀ b ∈ argNames, given (kvs.filter (·.1 ≠ name)) b = given kvs b :=
        fun b hb => given_filter_ne (ha b hb name hname)
      rw [given] at hgiven
      simp only [hgiven, foldlM_push_back]
      rw [← given] at hgiven
      change processArguments argNames 0 (Value.array (xs ++ List.replicate hole .null ++ [v])) _ = _
      rw [ih hrest, List.map_congr_left fun b hb => by rw [hsame b hb]]
      have hunknown : unknown argNames (kvs.filter (·.1 ≠ name)) = unknown (a :: argNames) kvs := by
        rw [unknown, unknown, List.filterMap_congr hsame, List.filterMap_cons, hgiven,
          List.filter_filter]
        refine List.filter_congr fun kv _ => ?_
        rw [List.map_cons, Bool.eq_iff_iff]
        simp [and_comm]
      rw [hunknown, List.map_cons, hgiven, Option.map_some, place]
      simp

/-- **The loop puts named arguments at their positions**, where the names are given to it and no
two arguments share one. -/
theorem processArguments_positional (hnames : argNames.Pairwise fun a b =>
    ∀ n ∈ vargNames a, n ∉ vargNames b) :
    processArguments argNames 0 (.array []) kvs =
      .ok (.array (positional argNames kvs), unknown argNames kvs) := by
  rw [processArguments_eq hnames, place_eq]
  rfl

end

/-- A table with a single command. -/
def single (strMethod : Bytes) (pcmd : CRPCCommand) : CRPCTable := ⟨none, [(strMethod, pcmd)]⟩

/-- Without names to put anywhere, no request with named parameters means a positional one. -/
lemma not_positional (argNames : List String) (kvs : List (Bytes × Value))
    (request : JSONRPCRequest) (hparams : request.params = .object kvs) :
    ¬ Positional argNames kvs request := by
  intro h
  have hlookup : ∀ pcmd, (single request.strMethod pcmd).mapCommands.lookup request.strMethod =
      some pcmd := fun pcmd => by simp [single]
  have hexecute : ∀ pcmd : CRPCCommand, pcmd.argNames = argNames →
      (∀ r, pcmd.actor r = .ok (.boolean r.params.is_array)) →
      (single request.strMethod pcmd).execute request = .ok (.boolean false) := by
    rintro pcmd rfl hactor
    simp [CRPCTable.execute, single, execute_arguments, hactor, hparams, Value.is_array]
  -- a command that tells an array from an object
  have hc := h (single request.strMethod ⟨fun r => .ok (.boolean r.params.is_array), argNames⟩) _
    rfl (hlookup _)
  rw [hexecute _ rfl fun _ => rfl] at hc
  split at hc
  · simp [CRPCTable.execute, single, Value.is_array, Value.is_object] at hc
  · obtain ⟨kv, -, hkv⟩ := hc
    cases hkv

lemma not_passed (argNames : List String) (kvs : List (Bytes × Value))
    (request : JSONRPCRequest) (hparams : request.params = .object kvs) :
    ¬ Passed argNames kvs request := by
  intro h
  rw [Passed, transformNamedArguments_eq] at h
  split at h
  · have hsame := congrArg JSONRPCRequest.params (Except.ok.inj h)
    rw [hparams] at hsame
    cases hsame
  · obtain ⟨kv, -, hkv⟩ := h
    cases hkv

/-- **Named parameters are never positional ones**: whatever the names of the arguments and the
parameters are, the command does not get the array and the request is not refused, and it need
not mean the same. -/
theorem never_positional (argNames : List String) (kvs : List (Bytes × Value))
    (request : JSONRPCRequest) (hparams : request.params = .object kvs) :
    ¬ Passed argNames kvs request ∧ ¬ Positional argNames kvs request :=
  ⟨not_passed argNames kvs request hparams, not_positional argNames kvs request hparams⟩

/-- A request for the help about a command, by name. -/
def helpStop : JSONRPCRequest :=
  ⟨.integer 1, text "help", .object [(text "command", .string (text "stop"))]⟩

theorem never_positional_help :
    ¬ Passed ["command"] [(text "command", .string (text "stop"))] helpStop ∧
      ¬ Positional ["command"] [(text "command", .string (text "stop"))] helpStop :=
  never_positional _ _ _ rfl

theorem not_passed_help : ¬ ∀ (argNames : List String) (kvs : List (Bytes × Value))
    (request : JSONRPCRequest), request.params = .object kvs → Passed argNames kvs request :=
  fun h => not_passed ["command"] _ helpStop rfl (h _ _ helpStop rfl)

end OpenWallet.Server.Http
