import OpenWallet.Monitor.EosPass
import OpenWallet.Monitor.Tasks

/-!
What the EOS scanner takes for a transfer of the wallet. It looks at the data of an action and
not at its contract or its name, and for the symbol anywhere in the quantity; so its rows are
right exactly as long as every action with such data is a transfer of the wallet.
-/

namespace OpenWallet

lemma Text.before_isSome_iff (pat cs : List Char) :
    (Text.before pat cs).isSome ↔ pat <:+: cs := by
  induction cs with
  | nil => by_cases h : pat = [] <;> simp [Text.before, h]
  | cons c cs ih =>
    rw [Text.before, List.infix_cons_iff]
    split
    · next h => simp [List.isPrefixOf_iff_prefix.mp h]
    · next h =>
      have hnot : ¬ pat <+: c :: cs := fun h' => h (List.isPrefixOf_iff_prefix.mpr h')
      simp [ih, hnot]

namespace Monitor.Eos

open Lib Prog

/-- The data of an action has both ends and a quantity with the symbol somewhere in it. -/
def Passes (json_action : Json) («from» «to» : String) : Prop :=
  ∃ d quantity, json_action.find? "data" = some d ∧ d.find? "from" = some (.str «from») ∧
    d.find? "to" = some (.str «to») ∧ d.find? "quantity" = some (.str quantity) ∧
    " EOS".toList <:+: quantity.toList

/-- The action is a transfer of EOS by the contract of the token. -/
structure Transfers (json_action : Json) («from» «to» : String) : Prop where
  account : json_action.find? "account" = some (.str "eosio.token")
  name : json_action.find? "name" = some (.str "transfer")
  data : ∃ d amount, json_action.find? "data" = some d ∧ d.find? "from" = some (.str «from») ∧
    d.find? "to" = some (.str «to») ∧ ' ' ∉ amount ∧
    d.find? "quantity" = some (.str (String.ofList (amount ++ " EOS".toList)))

/-- The action is a transfer that has the base address for an end. -/
def Genuine (base : String) (json_action : Json) : Prop :=
  ∃ f t, Transfers json_action f t ∧ (f = base ∨ t = base)

/-- The flag is 0 where the base address receives, and 1 where it only sends. -/
def Flagged (base : String) (json_action : Json) (flag : Option ℕ) : Prop :=
  ∃ f t, Transfers json_action f t ∧ (f = base ∨ t = base) ∧ (flag = some 0 ↔ t = base) ∧
    (flag = some 1 ↔ f = base ∧ t ≠ base)

variable {base : String} {json_action : Json}

lemma Transfers.passes {f t : String} (h : Transfers json_action f t) :
    Passes json_action f t := by
  obtain ⟨d, amount, hd, hf, ht, -, hq⟩ := h.data
  have hin : " EOS".toList <:+: amount ++ " EOS".toList := (List.suffix_append _ _).isInfix
  exact ⟨d, _, hd, hf, ht, hq, by rwa [String.toList_ofList (l := amount ++ " EOS".toList)]⟩

lemma Passes.ends_eq {f t f' t' : String} (h : Passes json_action f t)
    (h' : Passes json_action f' t') : f = f' ∧ t = t' := by
  obtain ⟨d, q, hd, hf, ht, -⟩ := h
  obtain ⟨d', q', hd', hf', ht', -⟩ := h'
  rw [hd] at hd'
  obtain rfl := Option.some.inj hd'
  rw [hf] at hf'
  rw [ht] at ht'
  simpa using And.intro hf' ht'

/-- What the scanner keeps of an action it does not pass over. -/
lemma action_of_passes {f t : String} (h : Passes json_action f t) :
    ∃ quantity, action base json_action =
      .ok (some (quantity, if base = t then some 0 else if base = f then some 1 else none)) := by
  obtain ⟨d, q, hd, hf, ht, hq, hin⟩ := h
  obtain ⟨cs, hcs⟩ := Option.isSome_iff_exists.mp ((Text.before_isSome_iff _ _).mpr hin)
  refine ⟨String.ofList cs, ?_⟩
  simp only [action, hd, hf, Option.isNone_some, Bool.false_eq_true, false_and, if_false,
    Json.field_of_find? hf, Json.field_of_find? ht, Json.field_of_find? hq, ok_bind,
    Json.getStr_str, hcs, pure_eq_ok]

lemma passes_of_action {quantity : String} {flag : Option ℕ}
    (h : action base json_action = .ok (some (quantity, flag))) :
    ∃ f t, Passes json_action f t ∧
      flag = if base = t then some 0 else if base = f then some 1 else none := by
  unfold action at h
  split at h
  · cases h
  · next d hd =>
    split at h
    · cases h
    · simp only [bind_eq_ok, Json.getStr_eq_ok] at h
      obtain ⟨_, hf, f, rfl, _, ht, t, rfl, _, hq, q, rfl, h⟩ := h
      split at h
      · cases h
      · next cs hcs =>
        simp only [pure_eq_ok, Except.ok.injEq, Option.some.injEq, Prod.mk.injEq] at h
        have hin : " EOS".toList <:+: q.toList :=
          (Text.before_isSome_iff _ _).mp (Option.isSome_iff_exists.mpr ⟨cs, hcs⟩)
        exact ⟨f, t, ⟨d, q, hd, Json.find?_of_field hf (by simp), Json.find?_of_field ht (by simp),
          Json.find?_of_field hq (by simp), hin⟩, h.2.symm⟩

/-- The flag of a genuine transfer is right. -/
lemma Genuine.flagged {quantity : String} {flag : Option ℕ} (h : Genuine base json_action)
    (ha : action base json_action = .ok (some (quantity, flag))) :
    Flagged base json_action flag := by
  obtain ⟨f, t, htr, hend⟩ := h
  obtain ⟨f', t', hp, rfl⟩ := passes_of_action ha
  obtain ⟨rfl, rfl⟩ := hp.ends_eq htr.passes
  by_cases h0 : base = t'
  · exact ⟨f', t', htr, hend, by simp [h0], by simp [h0]⟩
  · have hf : base = f' := (hend.resolve_right (Ne.symm h0)).symm
    rw [if_neg h0, if_pos hf]
    exact ⟨f', t', htr, hend, by simp [Ne.symm h0], by simp [hf.symm, Ne.symm h0]⟩

section

variable (x : Weather) (base : String)

/-- The node has returned the action at the place a row was written for. -/
def Shown (w : World) (src : Src) (trx : String) (json_action : Json) : Prop :=
  ∃ node txs json_transaction acts, Listed x 0 node w src.height (some txs) ∧
    txs[src.tx]? = some json_transaction ∧ id? json_transaction = some (.str trx) ∧
    Read x 0 node w trx (some acts) ∧ acts[src.out]? = some json_action

/-- Each new row is for a genuine transfer, with the right flag, and so is each new notice. -/
structure Sound (w₀ w : World) : Prop where
  rows : ∀ r ∈ w.db.txutxo, r ∈ w₀.db.txutxo ∨
    ∃ json_action, Shown x w r.src r.txid json_action ∧ Flagged base json_action r.flag
  notices : ∀ e ∈ w.wire.drop w₀.wire.length, isNotice e.1.data →
    ∃ src trx json_action quantity, Shown x w src trx json_action ∧ Genuine base json_action ∧
      e.1.data = callback "toAddress" quantity "EOS" 0 base trx false

def Returns (A : Json → Prop) : Prop :=
  ∀ t url auth trx a j acts, x.net t ⟨url, auth, get_transaction trx⟩ a →
    reply a = .ok (.ok j) → actions j = .ok (some acts) → ∀ json_action ∈ acts, A json_action

variable {x base}

lemma Shown.mono {w w' : World} {src : Src} {trx : String} {json_action : Json}
    (h : Shown x w src trx json_action) (hw : w.wire <+: w'.wire) :
    Shown x w' src trx json_action := by
  obtain ⟨node, txs, json_transaction, acts, h1, h2, h3, h4, h5⟩ := h
  exact ⟨node, txs, json_transaction, acts, h1.mono hw, h2, h3, h4.mono hw, h5⟩

variable (x base) in
/-- What a row is to rest on in a session. -/
def RowRests (w₀ w : World) (s : Stmt) : Prop := ∀ r, s = .txutxo r → r ∈ w₀.db.txutxo ∨
  ∃ json_action, Shown x w r.src r.txid json_action ∧ Flagged base json_action r.flag

variable (x base) in
/-- What a notice is to rest on. -/
def NoticeRests (w : World) (j : Json) : Prop :=
  ∃ src trx json_action quantity, Shown x w src trx json_action ∧ Genuine base json_action ∧
    j = callback "toAddress" quantity "EOS" 0 base trx false

variable {w₀ w : World}

lemma sound_of_credit {A : Json → Prop} (hx : Returns x A)
    (hA : ∀ a, A a → ∀ f t, Passes a f t → Genuine base a) {t₀ : ℕ} {node : NodeInfo}
    {coin_id : ℤ} {height n : ℕ} {s : Stmt} {b : Option Json}
    (h : (grounds x t₀ node base coin_id height).credit n s b w) :
    RowRests x base w₀ w s ∧ ∀ j, b = some j → NoticeRests x base w j := by
  obtain ⟨src, txs, jt, trx, acts, a, quantity, flag, hlist, hj, htrx, hread, hk, hact, rfl, rfl,
    rfl⟩ := h
  have hshown : Shown x w src trx a :=
    ⟨node, txs, jt, acts, hlist.ever, hj, htrx, hread.ever, hk⟩
  have hgenuine : Genuine base a := by
    obtain ⟨f, t, hp, -⟩ := passes_of_action hact
    obtain ⟨j, ⟨answer, ⟨t', -, -, hnet⟩, hr⟩, hacts⟩ := hread
    exact hA a (hx _ _ _ _ _ _ _ hnet hr hacts a (List.mem_of_getElem? hk)) f t hp
  refine ⟨?_, ?_⟩
  · rintro r ⟨⟩
    exact Or.inr ⟨a, hshown, hgenuine.flagged hact⟩
  · rintro j ⟨⟩
    exact ⟨src, trx, a, quantity, hshown, hgenuine, rfl⟩

end

/-! ### A block with one action -/

/-- A node whose first scanned block has one transaction with one action. -/
def oneAction (json_action : Json) (_ : ℕ) (r : Request) : Answer :=
  match r.data.find? "block_num_or_id", r.data.find? "id" with
  | some _, _ => .body (.obj [("transactions", .arr [.obj [("trx", .obj [("id", .str "trx")])]])])
  | _, some _ => .body (.obj [("trx", .obj [("trx", .obj [("actions", .arr [json_action])])])])
  | _, _ => .body (.obj [("last_irreversible_block_num", .int 56265), ("code", .int 0)])

def process (base : String) : World :=
  let w := smallProcess [(4, 0)]
  { w with vars := { w.vars with eos_base_address_ := base } }

lemma run_oneAction {base quantity : String} {flag : Option ℕ} {json_action : Json}
    (hbase : base ≠ "") (h : action base json_action = .ok (some (quantity, flag))) :
    ∃ w', run (serve (oneAction json_action)) scanEOS (process base) = (.done (), w') ∧
      .txutxo (row base ⟨4, 56265, 0, 0, 0⟩ "trx" quantity flag) ∈ w'.db.log := by
  let net := serve (oneAction json_action)
  let Q : Outcome Exn Unit × World → Prop := fun r => ∃ w', r = (.done (), w') ∧
    .txutxo (row base ⟨4, 56265, 0, 0, 0⟩ "trx" quantity flag) ∈ w'.db.log
  have hrange : List.range' (start + 1) (56265 - start) = [56265] := rfl
  change Q (run net scanEOS (process base))
  unfold scanEOS
  refine run_bind_done net rfl ?_
  rw [if_neg (by exact hbase)]
  -- the height, the node and the tip
  refine run_bind_done net (a := some (4, 0)) (rfl : _ = (_, process base)) ?_
  refine run_bind_done net rfl ?_
  refine run_bind_done net (a := .ok (.obj [("last_irreversible_block_num", .int 56265),
    ("code", .int 0), ("error", .null)])) rfl ?_
  refine run_bind_done net (a := 56265) rfl ?_
  simp only [scanFrom, hrange, loop, bind_assoc, scanBlock]
  -- the block
  refine run_bind_done net (a := .ok (.obj [("transactions", .arr [.obj [("trx",
    .obj [("id", .str "trx")])]]), ("error", .null)])) rfl ?_
  simp only [bind_assoc, liftM_eq]
  refine run_bind_done net (a := some [.obj [("trx", .obj [("id", .str "trx")])]]) rfl ?_
  simp only [List.zipIdx, bind_assoc, loop, scanTrx, id?, Json.find?_obj, List.lookup_cons,
    beq_self_eq_true, Option.bind_some]
  -- the transaction
  refine run_bind_done net (a := "trx") rfl ?_
  refine run_bind_done net (a := .ok (.obj [("trx", .obj [("trx",
    .obj [("actions", .arr [json_action])])]), ("error", .null)])) rfl ?_
  simp only [bind_assoc, liftM_eq]
  refine run_bind_done net (a := some [json_action]) rfl ?_
  simp only [List.zipIdx, bind_assoc, forEach, scanAction]
  -- the action
  refine run_bind_done net rfl ?_
  refine run_bind_done net (run_lift_of net _ h) ?_
  exact ⟨_, rfl, List.mem_of_getElem? (i := 1) rfl⟩

lemma shown_oneAction {trx : String} {src : Src} {json_action json_action' : Json} {w : World}
    (h : Shown (.clear (oneAction json_action)) w src trx json_action') :
    json_action' = json_action := by
  obtain ⟨node, txs, json_transaction, acts, -, -, -, ⟨j, ⟨answer, ⟨t, -, -, hnet⟩, hr⟩, hacts⟩,
    hk⟩ := h
  obtain rfl : answer = .body (.obj [("trx", .obj [("trx",
    .obj [("actions", .arr [json_action])])])]) := hnet
  cases hr
  obtain rfl : acts = [json_action] := (Option.some.inj (Except.ok.inj hacts)).symm
  exact List.mem_singleton.mp (List.mem_of_getElem? hk)

lemma returns_oneAction {A : Json → Prop} {json_action : Json} (h : A json_action) :
    Returns (.clear (oneAction json_action)) A := by
  intro t url auth trx answer j acts hnet hr hacts a ha
  obtain rfl : answer = .body (.obj [("trx", .obj [("trx",
    .obj [("actions", .arr [json_action])])])]) := hnet
  cases hr
  obtain rfl : acts = [json_action] := (Option.some.inj (Except.ok.inj hacts)).symm
  rwa [List.mem_singleton.mp ha]

lemma session_sound {x : Weather} {base : String} {A : Json → Prop} (hx : Returns x A)
    (hA : base = "" ∨ ∀ json_action, A json_action → ∀ f t, Passes json_action f t →
      Genuine base json_action) {w₀ w : World} {b : Bool}
    (hbase : w₀.vars.eos_base_address_ = base) (hbuf : w₀.vars.vect_sql_ = [])
    (hr : Session x (fun p _ => p = scanEOS) w₀ b w) : Sound x base w₀ w := by
  have hP : ∀ w w' s, w.wire <+: w'.wire → RowRests x base w₀ w s → RowRests x base w₀ w' s := by
    intro w w' s hw h r hr
    exact (h r hr).imp_right fun ⟨a, hs, hf⟩ => ⟨a, hs.mono hw, hf⟩
  have hN : ∀ w w' j, w.wire <+: w'.wire → NoticeRests x base w j → NoticeRests x base w' j :=
    fun w w' j hw ⟨src, trx, a, quantity, hs, hg⟩ => ⟨src, trx, a, quantity, hs.mono hw, hg⟩
  have hbegin : Backed (RowRests x base w₀) (NoticeRests x base) w₀.wire.length w₀ :=
    backed_self hbuf fun s hs r hsr => Or.inl (Db.mem_txutxo.mpr (hsr ▸ hs))
  have hrests := Eos.session_rests hP hN (fun _ _ r h => by cases h)
    (fun hne t₀ node coin_id height n s b w h => sound_of_credit hx (hA.resolve_left hne) h)
    hbase hbegin hr
  exact ⟨fun r hr => hrests.rows _ (Db.mem_txutxo.mp hr) r rfl, hrests.notices⟩

/-- **What is credited is EOS**, in every session of a process, exactly if every action of the
node with both ends and ` EOS` somewhere in its quantity is a transfer of the token contract
that has the base address for an end. -/
theorem sound_iff (base : String) (A : Json → Prop) :
    (∀ x, Returns x A → ∀ w₀ w b, w₀.vars.eos_base_address_ = base → w₀.vars.vect_sql_ = [] →
      Session x (fun p _ => p = scanEOS) w₀ b w → Sound x base w₀ w) ↔
    base = "" ∨ ∀ json_action, A json_action → ∀ f t, Passes json_action f t →
      Genuine base json_action := by
  refine ⟨fun h => ?_, fun hA x hx w₀ w b hbase hbuf hr => session_sound hx hA hbase hbuf hr⟩
  by_cases hbase : base = ""
  · exact Or.inl hbase
  refine Or.inr fun a ha f t hp => ?_
  obtain ⟨quantity, hact⟩ : ∃ quantity, action base a = .ok (some (quantity, _)) :=
    action_of_passes hp
  obtain ⟨w', hrun, hrow⟩ := run_oneAction hbase hact
  have hx := exec_serve (oneAction a) scanEOS (process base)
  rw [hrun] at hx
  have hsound := h _ (returns_oneAction ha) (process base) w' true rfl rfl
    (.call .begin rfl hx)
  obtain hold | ⟨a', hs, f', t', htr, hend, -⟩ := hsound.rows _ (Db.mem_txutxo.mpr hrow)
  · cases hold
  · rw [shown_oneAction hs] at htr
    exact ⟨f', t', htr, hend⟩

/-- A transfer of another contract's EOS to the base address. -/
def fakeTransfer : Json :=
  .obj [("account", .str "fake.token"), ("name", .str "transfer"), ("data",
    .obj [("from", .str "thief"), ("to", .str "E"), ("quantity", .str "5.0000 EOS")])]

lemma fakeTransfer_action : action "E" fakeTransfer = .ok (some ("5.0000", some 0)) := rfl

lemma fakeTransfer_not_genuine : ¬ Genuine "E" fakeTransfer := by
  rintro ⟨f, t, h, -⟩
  exact absurd h.account (by simp [fakeTransfer])

/-- The other contract's EOS is credited. -/
theorem fakeTransfer_not_sound : ∃ w, Exec (env (.clear (oneAction fakeTransfer))) scanEOS
    (process "E") (.done ()) w ∧ ¬ Sound (.clear (oneAction fakeTransfer)) "E" (process "E") w := by
  obtain ⟨w, hrun, hrow⟩ := run_oneAction (by decide) fakeTransfer_action
  have hx := exec_serve (oneAction fakeTransfer) scanEOS (process "E")
  rw [hrun] at hx
  refine ⟨w, hx, fun hsound => ?_⟩
  obtain hold | ⟨a, hs, f, t, htr, hend, -⟩ := hsound.rows _ (Db.mem_txutxo.mpr hrow)
  · cases hold
  · rw [shown_oneAction hs] at htr
    exact fakeTransfer_not_genuine ⟨f, t, htr, hend⟩

end Monitor.Eos

end OpenWallet
