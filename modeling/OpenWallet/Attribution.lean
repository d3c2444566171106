import OpenWallet.Monitor.Tasks
import OpenWallet.Monitor.XrpChain
import OpenWallet.Server.Tags

/-!
Whose deposit it is. The server hands out one address with a tag for each account of XRP and EOS,
and the scanners of the monitor record what came to the address without the tag; so what they
record of two deposits that differ in their tags is the same.
-/

namespace OpenWallet

open Lib

/-- The notice of a row of a shared address. -/
def Txutxo.notice (coinCode : String) (r : Txutxo) : Json :=
  Monitor.callback "toAddress" r.amount coinCode r.n r.address r.txid false

/-- The rows are the same in all that the database has of them, up to the transaction, and so are
their notices. -/
structure Txutxo.Same (coinCode : String) (r r' : Txutxo) : Prop where
  row : r' = { r with txid := r'.txid, src := r'.src }
  notice : ∀ key, key ≠ "txid" → (r'.notice coinCode).find? key = (r.notice coinCode).find? key

lemma Txutxo.Same.of_row {coinCode : String} {r r' : Txutxo}
    (h : r' = { r with txid := r'.txid, src := r'.src }) : r.Same coinCode r' := by
  refine ⟨h, fun key hkey => ?_⟩
  have htxid : (key == "txid") = false := by simpa using hkey
  rw [h]
  simp [Txutxo.notice, Monitor.callback, Json.find?_obj, List.lookup_cons, htxid]

namespace Monitor

/-- New rows are of a kind, and new notices are notices of such rows. -/
structure Records (R : Txutxo → Prop) (coinCode : String) (w₀ w : World) : Prop where
  rows : ∀ r ∈ w.db.txutxo, r ∈ w₀.db.txutxo ∨ R r
  notices : ∀ e ∈ w.wire.drop w₀.wire.length, isNotice e.1.data →
    ∃ r, R r ∧ e.1.data = r.notice coinCode

section

variable {R : Txutxo → Prop} {coinCode : String} {w₀ w : World}

variable (R w₀) in
def RowOf (_ : World) (sql : Stmt) : Prop := ∀ r', sql = .txutxo r' → r' ∈ w₀.db.txutxo ∨ R r'

variable (R coinCode) in
def NoticeOf (_ : World) (j : Json) : Prop := ∃ r, R r ∧ j = r.notice coinCode

lemma Records.of_rests (h : Rests (RowOf R w₀) (NoticeOf R coinCode) w₀.wire.length w) :
    Records R coinCode w₀ w :=
  ⟨fun r hr => h.rows _ (Db.mem_txutxo.mp hr) r rfl, h.notices⟩

lemma backed_records (hbuf : w₀.vars.vect_sql_ = []) :
    Backed (RowOf R w₀) (NoticeOf R coinCode) w₀.wire.length w₀ :=
  backed_self hbuf fun _ hs _ hsr => Or.inl (Db.mem_txutxo.mpr (hsr ▸ hs))

end

namespace Xrp

/-- The ledgers with the tags of their payments. -/
structure Tagged extends Chain where
  tag : String → Option ℕ

/-- A deposit into the pair of an account of the base address. -/
structure Deposit (c : Tagged) (base : String) (a : AccountRow) (hash sender amount : String) :
    Prop where
  address : a.address = some base
  tag : ∃ t, c.tag hash = some t ∧ a.tag = some (toString t)
  tx : c.tx hash = ⟨"Payment", some amount, sender, base⟩

def Credited (c : Chain) (base : String) (r : Txutxo) : Prop :=
  ∃ amount, (c.tx r.txid).amount = some amount ∧ r = row base r.src
    ⟨r.txid, amount, if base = (c.tx r.txid).destination then 0 else 1⟩

variable {c : Chain} {x : Weather} {base : String} {w₀ w : World} {b : Bool}

lemma credited_of_read (hc : c.Honest x) {t₀ : ℕ} {node : NodeInfo} {hash h : String} {p : Payment}
    {src : Src} (hr : Read x t₀ node base w hash (some (h, some p))) :
    Credited c base (row base src p) := by
  obtain ⟨-, hp⟩ := hr.honest hc
  obtain ⟨hamount, hp⟩ := hp p rfl
  rw [hp]
  exact ⟨p.amount, hamount, rfl⟩

lemma session_records (hc : c.Honest x) (hbase : w₀.vars.xrp_base_address_ = base)
    (hbuf : w₀.vars.vect_sql_ = []) (hr : Session x (fun p _ => p = scanXRP) w₀ b w) :
    Records (Credited c base) "XRP" w₀ w := by
  refine .of_rests (session_rests (fun _ _ _ _ h => h) (fun _ _ _ _ h => h)
    (fun _ _ r h => by cases h) (fun _ t₀ node coin_id height n s b w h => ?_) hbase
    (backed_records hbuf) hr)
  obtain ⟨src, txs, hash, h, p, -, -, hread, -, -, -, rfl, rfl⟩ := h
  have hrow : Credited c base (row base src p) := credited_of_read hc hread
  refine ⟨?_, ?_⟩
  · rintro r ⟨⟩
    exact Or.inr hrow
  · rintro j ⟨⟩
    exact ⟨_, hrow, rfl⟩

lemma Credited.same {c : Tagged} {a a' : AccountRow} {sender amount : String} {r r' : Txutxo}
    (hr : Credited c.toChain base r) (hr' : Credited c.toChain base r')
    (hd : Deposit c base a r.txid sender amount) (hd' : Deposit c base a' r'.txid sender amount) :
    r.Same "XRP" r' := by
  obtain ⟨amount₁, h₁, hrow⟩ := hr
  obtain ⟨amount₂, h₂, hrow'⟩ := hr'
  rw [hd.tx] at h₁ hrow
  rw [hd'.tx] at h₂ hrow'
  obtain rfl := Option.some.inj h₁
  obtain rfl := Option.some.inj h₂
  refine .of_row ?_
  conv_lhs => rw [hrow']
  conv_rhs => rw [hrow]
  rfl

end Xrp

namespace Eos

abbrev Chain := String → List Json

/-- What the node answers for a transaction is true of the chain. -/
def Chain.Honest (c : Chain) (x : Weather) : Prop :=
  ∀ t url auth trx a j acts, x.net t ⟨url, auth, get_transaction trx⟩ a →
    reply a = .ok (.ok j) → actions j = .ok (some acts) → acts = c trx

/-- A deposit into the pair of an account of the base address, by an action of a transaction. The
memo is the tag. -/
def Deposit (c : Chain) (base : String) (a : AccountRow) (trx : String) (k : ℕ)
    (sender quantity : String) : Prop :=
  a.address = some base ∧ ∃ json_action data memo, (c trx)[k]? = some json_action ∧
    json_action.find? "data" = some data ∧ data.find? "from" = some (.str sender) ∧
    data.find? "to" = some (.str base) ∧ data.find? "quantity" = some (.str quantity) ∧
    data.find? "memo" = some (.str memo) ∧ a.tag = some memo

def Credited (c : Chain) (base : String) (r : Txutxo) : Prop :=
  ∃ json_action quantity flag, (c r.txid)[r.src.out]? = some json_action ∧
    action base json_action = .ok (some (quantity, flag)) ∧
    r = row base r.src r.txid quantity flag

variable {c : Chain} {x : Weather} {base : String} {w₀ w : World} {b : Bool}

lemma session_records (hc : c.Honest x) (hbase : w₀.vars.eos_base_address_ = base)
    (hbuf : w₀.vars.vect_sql_ = []) (hr : Session x (fun p _ => p = scanEOS) w₀ b w) :
    Records (Credited c base) "EOS" w₀ w := by
  refine .of_rests (session_rests (fun _ _ _ _ h => h) (fun _ _ _ _ h => h)
    (fun _ _ r h => by cases h) (fun _ t₀ node coin_id height n s b w h => ?_) hbase
    (backed_records hbuf) hr)
  obtain ⟨src, txs, jt, trx, acts, a, quantity, flag, -, -, -, hread, hk, hact, -, rfl, rfl⟩ := h
  obtain ⟨j, ⟨answer, ⟨t, -, -, hnet⟩, hreply⟩, hacts⟩ := hread
  obtain rfl := hc _ _ _ _ _ _ _ hnet hreply hacts
  have hrow : Credited c base (row base src trx quantity flag) :=
    ⟨a, quantity, flag, hk, hact, rfl⟩
  refine ⟨?_, ?_⟩
  · rintro r ⟨⟩
    exact Or.inr hrow
  · rintro j ⟨⟩
    exact ⟨_, hrow, rfl⟩

lemma action_of_deposit {a : AccountRow} {trx sender quantity : String} {k : ℕ}
    (hd : Deposit c base a trx k sender quantity) {json_action : Json}
    (hk : (c trx)[k]? = some json_action) {amount : String} {flag : Option ℕ}
    (h : action base json_action = .ok (some (amount, flag))) :
    Text.before " EOS".toList quantity.toList = some amount.toList ∧ flag = some 0 := by
  obtain ⟨-, json_action', data, memo, hk', hdata, hfrom, hto, hquantity, -, -⟩ := hd
  rw [hk] at hk'
  cases hk'
  simp only [action, hdata, hfrom, Option.isNone_some, Bool.false_eq_true, false_and, if_false,
    Json.field_of_find? hfrom, Json.field_of_find? hto, Json.field_of_find? hquantity, ok_bind,
    Json.getStr_str, if_true] at h
  split at h
  · cases h
  · next cs hcs =>
    obtain ⟨rfl, rfl⟩ := Prod.mk.inj (Option.some.inj (Except.ok.inj h))
    exact ⟨by rw [hcs, String.toList_ofList], rfl⟩

lemma Credited.same {a a' : AccountRow} {sender quantity : String} {r r' : Txutxo}
    (hr : Credited c base r) (hr' : Credited c base r')
    (hd : Deposit c base a r.txid r.src.out sender quantity)
    (hd' : Deposit c base a' r'.txid r'.src.out sender quantity) : r.Same "EOS" r' := by
  obtain ⟨act, amount, flag, hk, hact, hrow⟩ := hr
  obtain ⟨act', amount', flag', hk', hact', hrow'⟩ := hr'
  obtain ⟨hbefore, rfl⟩ := action_of_deposit hd hk hact
  obtain ⟨hbefore', rfl⟩ := action_of_deposit hd' hk' hact'
  obtain rfl : amount = amount' :=
    String.toList_injective (Option.some.inj (hbefore.symm.trans hbefore'))
  refine .of_row ?_
  conv_lhs => rw [hrow']
  conv_rhs => rw [hrow]
  rfl

end Eos

end Monitor

/-- **What is recorded of a deposit leaves its tag out.** In every session of the scanner of XRP or
EOS, with a node that tells the truth about the chain, each new row and notice is of a recorded
payment or action, and the rows of two deposits of one sender and amount are the same up to the
transaction, whichever accounts the deposits are for. -/
theorem deposits_unattributed (x : Monitor.Weather) (base : String) (w₀ w : Monitor.World)
    (b : Bool) :
    (∀ c : Monitor.Xrp.Tagged, c.Honest x →
      w₀.vars.xrp_base_address_ = base → w₀.vars.vect_sql_ = [] →
      Monitor.Session x (fun p _ => p = Monitor.Xrp.scanXRP) w₀ b w →
        Monitor.Records (Monitor.Xrp.Credited c.toChain base) "XRP" w₀ w ∧
        ∀ a a' sender amount r r', Monitor.Xrp.Credited c.toChain base r →
          Monitor.Xrp.Credited c.toChain base r' →
          Monitor.Xrp.Deposit c base a r.txid sender amount →
          Monitor.Xrp.Deposit c base a' r'.txid sender amount → r.Same "XRP" r') ∧
    ∀ c : Monitor.Eos.Chain, c.Honest x →
      w₀.vars.eos_base_address_ = base → w₀.vars.vect_sql_ = [] →
      Monitor.Session x (fun p _ => p = Monitor.Eos.scanEOS) w₀ b w →
        Monitor.Records (Monitor.Eos.Credited c base) "EOS" w₀ w ∧
        ∀ a a' sender quantity r r', Monitor.Eos.Credited c base r →
          Monitor.Eos.Credited c base r' →
          Monitor.Eos.Deposit c base a r.txid r.src.out sender quantity →
          Monitor.Eos.Deposit c base a' r'.txid r'.src.out sender quantity → r.Same "EOS" r' :=
  ⟨fun _ hc hbase hbuf hr => ⟨Monitor.Xrp.session_records hc hbase hbuf hr,
      fun _ _ _ _ _ _ h h' hd hd' => h.same h' hd hd'⟩,
    fun _ hc hbase hbuf hr => ⟨Monitor.Eos.session_records hc hbase hbuf hr,
      fun _ _ _ _ _ _ h h' hd hd' => h.same h' hd hd'⟩⟩

/-! ### Two deposits -/

namespace Monitor

/-- A result that also says the tag. -/
def Xrp.withTag (tag : Option ℕ) : Json → Json
  | .obj kvs => .obj (kvs ++ (tag.map fun t : ℕ => ("DestinationTag", .int t)).toList)
  | j => j

/-- A node that serves the chain with its tags. -/
def Xrp.Tagged.node (c : Tagged) (height : ℕ) (r : Request) : Answer :=
  match r.data.find? "method", r.data.find? "params" with
  | some (.str "tx"), some (.arr [.obj [_, ("transaction", .str hash)]]) =>
    .body (.obj [("result", withTag (c.tag hash) ((c.tx hash).json hash))])
  | _, _ => c.toChain.node height r

lemma Xrp.Tagged.node_honest (c : Tagged) (height : ℕ) :
    c.Honest (.clear fun _ => c.node height) where
  ledger := (@honest_of_node c.toChain (fun _ => c.toChain.node height) (fun _ => height)
    fun _ _ _ _ _ => Or.inr rfl).ledger
  tx := by
    rintro t url auth hash a j r rfl hr hsucc
    change reply (.body (.obj [("result", _)])) = _ at hr
    rw [reply_result] at hr
    cases hr
    obtain ⟨hres, -, -⟩ := hsucc
    cases hres
    refine ⟨rfl, ⟨_, rfl, ?_⟩, rfl, rfl, rfl⟩
    cases (c.tx hash).amount <;> rfl

/-- Two payments of one sender and amount with different tags, in the first ledger. -/
def Xrp.twoPayments : Tagged where
  ledger n := if n = 1 then ["one", "two"] else []
  tx _ := ⟨"Payment", some "5", "S", "R"⟩
  tag hash := some (if hash = "one" then 1 else 2)

def Xrp.afterTwo : World :=
  (run (serve fun _ => twoPayments.node 1) scanXRP (smallProcess [(3, 0)])).2

lemma Xrp.exec_twoPayments : Exec (env (.clear fun _ => twoPayments.node 1)) scanXRP
    (smallProcess [(3, 0)]) (.done ()) afterTwo :=
  exec_alive rfl

def Eos.memoTransfer (memo : String) : Json :=
  .obj [("account", .str "eosio.token"), ("name", .str "transfer"), ("data", .obj
    [("from", .str "S"), ("to", .str "E"), ("quantity", .str "5.0000 EOS"), ("memo", .str memo)])]

/-- Two transfers of one sender and quantity with different memos. -/
def Eos.twoTransfers : Chain := fun trx => [memoTransfer (if trx = "one" then "1" else "2")]

/-- A node with the two transfers in its first scanned block. -/
def Eos.twoTransfersNode (_ : ℕ) (r : Request) : Answer :=
  match r.data.find? "block_num_or_id", r.data.find? "id" with
  | some _, _ => .body (.obj [("transactions", .arr
      [.obj [("trx", .obj [("id", .str "one")])], .obj [("trx", .obj [("id", .str "two")])]])])
  | _, some (.str trx) =>
    .body (.obj [("trx", .obj [("trx", .obj [("actions", .arr (twoTransfers trx))])])])
  | _, _ => .body (.obj [("last_irreversible_block_num", .int 56265), ("code", .int 0)])

lemma Eos.twoTransfers_honest : twoTransfers.Honest (.clear twoTransfersNode) := by
  rintro t url auth trx a j acts rfl hr hacts
  cases hr
  exact (Option.some.inj (Except.ok.inj hacts)).symm

def Eos.afterTwo : World :=
  (run (serve twoTransfersNode) scanEOS (smallProcess [(4, 0)])).2

lemma Eos.exec_twoTransfers : Exec (env (.clear twoTransfersNode)) scanEOS
    (smallProcess [(4, 0)]) (.done ()) afterTwo :=
  exec_alive rfl

end Monitor

/-- XRP with three accounts of the base address, after requests of the users 2 and 3. -/
def handedOut : Server.World :=
  (Server.play (fun _ _ => .down) (fun _ => .null) Server.smallConfig
    [.request (.arr [.str "XRP", .bool false, .int 2]),
      .request (.arr [.str "XRP", .bool false, .int 3])]
    (Server.sharedPool .xrp [⟨1, 3, some "R", some "0"⟩, ⟨2, 3, some "R", some "1"⟩,
      ⟨3, 3, some "R", some "2"⟩])).2

lemma handedOut_user : handedOut.db.user = [⟨1, 1, 3⟩, ⟨2, 2, 3⟩, ⟨3, 3, 3⟩] ∧
    handedOut.db.accounts 3 = [⟨1, 3, some "R", some "0"⟩, ⟨2, 3, some "R", some "1"⟩,
      ⟨3, 3, some "R", some "2"⟩] := by
  decide +kernel

/-- The two users pay in, and their rows are the same. -/
theorem deposits_mixed_up : ∃ a a' r r',
    a ∈ handedOut.db.accounts 3 ∧ ⟨2, a.account_id, 3⟩ ∈ handedOut.db.user ∧
    a' ∈ handedOut.db.accounts 3 ∧ ⟨3, a'.account_id, 3⟩ ∈ handedOut.db.user ∧ a.tag ≠ a'.tag ∧
    Exec (Monitor.env (.clear fun _ => Monitor.Xrp.twoPayments.node 1)) Monitor.Xrp.scanXRP
      (Monitor.smallProcess [(3, 0)]) (.done ()) Monitor.Xrp.afterTwo ∧
    r ∈ Monitor.Xrp.afterTwo.db.txutxo ∧ r' ∈ Monitor.Xrp.afterTwo.db.txutxo ∧
    r.txid ≠ r'.txid ∧ Monitor.Xrp.Deposit Monitor.Xrp.twoPayments "R" a r.txid "S" "5" ∧
    Monitor.Xrp.Deposit Monitor.Xrp.twoPayments "R" a' r'.txid "S" "5" ∧ r.Same "XRP" r' := by
  refine ⟨⟨2, 3, some "R", some "1"⟩, ⟨3, 3, some "R", some "2"⟩,
    Monitor.Xrp.row "R" ⟨3, 1, 0, 0, 0⟩ ⟨"one", "5", 0⟩,
    Monitor.Xrp.row "R" ⟨3, 1, 1, 0, 0⟩ ⟨"two", "5", 0⟩, ?_, ?_, ?_, ?_, by decide,
    Monitor.Xrp.exec_twoPayments, ?_, ?_, by decide, ⟨rfl, ⟨1, rfl, rfl⟩, rfl⟩,
    ⟨rfl, ⟨2, rfl, rfl⟩, rfl⟩, .of_row rfl⟩
  · simp [handedOut_user]
  · simp [handedOut_user]
  · simp [handedOut_user]
  · simp [handedOut_user]
  · exact List.mem_of_getElem? (i := 0) rfl
  · exact List.mem_of_getElem? (i := 1) rfl

theorem deposits_unattributed_two :
    (∃ r r', r ∈ Monitor.Xrp.afterTwo.db.txutxo ∧ r' ∈ Monitor.Xrp.afterTwo.db.txutxo ∧
      r.txid ≠ r'.txid ∧ r.Same "XRP" r') ∧
    ∃ r r', r ∈ Monitor.Eos.afterTwo.db.txutxo ∧ r' ∈ Monitor.Eos.afterTwo.db.txutxo ∧
      r.txid ≠ r'.txid ∧ r.Same "EOS" r' := by
  have hxrp := (deposits_unattributed _ "R" (Monitor.smallProcess [(3, 0)]) _ true).1 _
    (Monitor.Xrp.twoPayments.node_honest 1) rfl rfl (.call .begin rfl Monitor.Xrp.exec_twoPayments)
  have heos := (deposits_unattributed _ "E" (Monitor.smallProcess [(4, 0)]) _ true).2 _
    Monitor.Eos.twoTransfers_honest rfl rfl (.call .begin rfl Monitor.Eos.exec_twoTransfers)
  constructor
  · have h₁ : Monitor.Xrp.row "R" ⟨3, 1, 0, 0, 0⟩ ⟨"one", "5", 0⟩ ∈
        Monitor.Xrp.afterTwo.db.txutxo := List.mem_of_getElem? (i := 0) rfl
    have h₂ : Monitor.Xrp.row "R" ⟨3, 1, 1, 0, 0⟩ ⟨"two", "5", 0⟩ ∈
        Monitor.Xrp.afterTwo.db.txutxo := List.mem_of_getElem? (i := 1) rfl
    refine ⟨_, _, h₁, h₂, by decide, hxrp.2 ⟨2, 3, some "R", some "1"⟩ ⟨3, 3, some "R", some "2"⟩
      "S" "5" _ _ ((hxrp.1.rows _ h₁).resolve_left ?_) ((hxrp.1.rows _ h₂).resolve_left ?_)
      ⟨rfl, ⟨1, rfl, rfl⟩, rfl⟩ ⟨rfl, ⟨2, rfl, rfl⟩, rfl⟩⟩
    all_goals exact List.not_mem_nil
  · have h₁ : Monitor.Eos.row "E" ⟨4, 56265, 0, 0, 0⟩ "one" "5.0000" (some 0) ∈
        Monitor.Eos.afterTwo.db.txutxo := List.mem_of_getElem? (i := 0) rfl
    have h₂ : Monitor.Eos.row "E" ⟨4, 56265, 1, 0, 0⟩ "two" "5.0000" (some 0) ∈
        Monitor.Eos.afterTwo.db.txutxo := List.mem_of_getElem? (i := 1) rfl
    refine ⟨_, _, h₁, h₂, by decide, heos.2 ⟨2, 4, some "E", some "1"⟩ ⟨3, 4, some "E", some "2"⟩
      "S" "5.0000 EOS" _ _ ((heos.1.rows _ h₁).resolve_left ?_)
      ((heos.1.rows _ h₂).resolve_left ?_)
      ⟨rfl, _, _, "1", rfl, rfl, rfl, rfl, rfl, rfl, rfl⟩
      ⟨rfl, _, _, "2", rfl, rfl, rfl, rfl, rfl, rfl, rfl⟩⟩
    all_goals exact List.not_mem_nil

end OpenWallet
