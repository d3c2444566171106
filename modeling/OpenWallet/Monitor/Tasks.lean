import OpenWallet.Monitor.BtcPass
import OpenWallet.Monitor.EthPass
import OpenWallet.Monitor.XrpPass
import OpenWallet.Monitor.EosPass
import OpenWallet.Monitor.OmniPass

/-!
The tasks the event loop runs, one at a time and each to its end, and the runs of the monitor:
tasks in any order, processes that end at any point, and processes that are started again on
the same database.
-/

namespace OpenWallet.Monitor

open Lib Prog

/-- Arms the timer of a task again. -/
def SetTimeout (name : String) (second : ℕ) : Scan Unit :=
  modify fun v => { v with timers := (name, second) :: v.timers.filter (·.1 ≠ name) }

/-- A row of the query for the addresses of a coin. -/
def addressRow (row : Json) : Except Exn (String × ℤ) := do
  let address ← (← row.idx 0).getStr
  let account_id ← (← row.idx 1).getInt
  return (address, account_id)

/-- Reads the addresses of a coin into a map of the process. -/
def loadAddresses (short_name : String) (set : String → ℤ → Vars → Vars) : Scan Unit := do
  let json_data ← getData (.addresses short_name) [.STRING, .INT]
  forEach (fun row => do
    let r ← addressRow row
    modify (set r.1 r.2)) (← json_data.elems)

def ScanBTC : Scan Unit := do
  loadAddresses "BTC" fun address account_id v =>
    { v with s_address_id_btc := (address, account_id) :: v.s_address_id_btc }
  let v ← get
  if v.s_address_id_btc.isEmpty then pure ()
  else
    Btc.scanBTC
    SetTimeout "ScanBTC" 10

def ScanETH : Scan Unit := do
  loadAddresses "ETH" fun address account_id v =>
    { v with s_address_id_eth := (Text.toupper address, account_id) :: v.s_address_id_eth }
  let v ← get
  if v.s_address_id_eth.isEmpty then pure ()
  else
    Eth.scanETH
    SetTimeout "ScanETH" 15

def ScanXRP : Scan Unit := do
  Xrp.scanXRP
  SetTimeout "ScanXRP" 5

def ScanEOS : Scan Unit := do
  Eos.scanEOS
  SetTimeout "ScanEOS" 5

def ScanOMNI_USDT : Scan Unit := do
  loadAddresses "USDT" fun address account_id v =>
    { v with s_address_id_omni_usdt := (address, account_id) :: v.s_address_id_omni_usdt }
  let v ← get
  if v.s_address_id_omni_usdt.isEmpty then pure ()
  else
    Omni.scanOMNI_USDT
    SetTimeout "ScanOMNI_USDT" 10

def ReCallback : Scan Unit := do
  reCallback
  SetTimeout "ReCallback" (3 * 60)

/-- The tasks that `registerTask` registers. -/
inductive Task
  | ScanBTC | ScanETH | ScanXRP | ScanEOS | ScanOMNI_USDT | ReCallback

def Task.run : Task → Scan Unit
  | ScanBTC => Monitor.ScanBTC
  | ScanETH => Monitor.ScanETH
  | ScanXRP => Monitor.ScanXRP
  | ScanEOS => Monitor.ScanEOS
  | ScanOMNI_USDT => Monitor.ScanOMNI_USDT
  | ReCallback => Monitor.ReCallback

/-- What `RunJob` does before the tasks. -/
def start (callback_url : String) : Scan Unit := do
  init
  modify fun v => { v with callback_url_ := callback_url }

/-- The process is there as long as every program it ran has returned. -/
def alive : Outcome Exn Unit → Bool
  | .done _ => true
  | _ => false

/-- A run may run any task at any time. -/
def Free : Task → World → Prop := fun _ _ => True

/-- The runs of the monitor from a database on, and whether there is a process at their end. A
task is run in the states that `ok` allows it in. A process may be started at any time, over
one that has ended or in the place of one that has not. -/
inductive Reach (x : Weather) (callback_url : String) (ok : Task → World → Prop) (w₀ : World) :
    Bool → World → Prop
  | begin : Reach x callback_url ok w₀ false w₀
  | start {b : Bool} {w w' : World} {o : Outcome Exn Unit} : Reach x callback_url ok w₀ b w →
      Exec (env x) (start callback_url) { w with vars := .fresh } o w' →
      Reach x callback_url ok w₀ (alive o) w'
  | task {w w' : World} {o : Outcome Exn Unit} (t : Task) : Reach x callback_url ok w₀ true w →
      ok t w → Exec (env x) t.run w o w' → Reach x callback_url ok w₀ (alive o) w'

/-- The runs of one process that calls programs in the states that `ok` allows them in. -/
inductive Session (x : Weather) (ok : Scan Unit → World → Prop) (w₀ : World) :
    Bool → World → Prop
  | begin : Session x ok w₀ true w₀
  | call {p : Scan Unit} {w w' : World} {o : Outcome Exn Unit} : Session x ok w₀ true w →
      ok p w → Exec (env x) p w o w' → Session x ok w₀ (alive o) w'

lemma alive_post {I J : World → Prop} {o : Outcome Exn Unit} {w : World}
    (hIJ : ∀ w, I w → J w) (h : Post (fun _ => I) J o w) : J w ∧ (alive o = true → I w) := by
  cases o with
  | done => exact ⟨hIJ w h, fun _ => h⟩
  | threw => exact ⟨h, by simp [alive]⟩
  | died => exact ⟨h, by simp [alive]⟩

/-- What is proved of every program holds along every run. -/
lemma Reach.inv {x : Weather} {callback_url : String} {ok : Task → World → Prop}
    {w₀ w : World} {b : Bool} {I J : World → Prop} (hIJ : ∀ w, I w → J w) (hbegin : J w₀)
    (hstart : ∀ w, J w →
      wp (env x) (Monitor.start callback_url) (fun _ => I) J { w with vars := .fresh })
    (htask : ∀ t w, ok t w → I w → wp (env x) (Task.run t) (fun _ => I) J w)
    (h : Reach x callback_url ok w₀ b w) : J w ∧ (b = true → I w) := by
  induction h with
  | begin => exact ⟨hbegin, by simp⟩
  | start _ hx ih => exact alive_post hIJ (exec_post hx (hstart _ ih.1))
  | task t _ hok hx ih => exact alive_post hIJ (exec_post hx (htask t _ hok (ih.2 rfl)))

lemma Session.inv {x : Weather} {ok : Scan Unit → World → Prop} {w₀ w : World} {b : Bool}
    {I J : World → Prop} (hIJ : ∀ w, I w → J w) (hbegin : I w₀)
    (hcall : ∀ p w, ok p w → I w → wp (env x) p (fun _ => I) J w)
    (h : Session x ok w₀ b w) : J w ∧ (b = true → I w) := by
  induction h with
  | begin => exact ⟨hIJ _ hbegin, fun _ => hbegin⟩
  | call _ hok hx ih => exact alive_post hIJ (exec_post hx (hcall _ _ hok (ih.2 rfl)))

/-! ### Sessions of one scanner -/

section

variable {x : Weather} {P : World → Stmt → Prop} {N : World → Json → Prop} {t₀ : ℕ} {w₀ w w' : World}

variable (P N t₀ w) in
/-- Every entry of the log has what `P` asks for it, and so has every notice since the exchange
number `t₀`. -/
structure Rests : Prop where
  rows : ∀ s ∈ w.db.log, P w s
  notices : ∀ e ∈ w.wire.drop t₀, isNotice e.1.data → N w e.1.data

variable (hP : ∀ w w' s, w.wire <+: w'.wire → P w s → P w' s)
  (hN : ∀ w w' j, w.wire <+: w'.wire → N w j → N w' j)

include hP hN in
lemma Backed.rests (h : Backed P N t₀ w) (hdb : w'.db = w.db) (hwire : w'.wire = w.wire) :
    Rests P N t₀ w' := by
  have hw : w.wire <+: w'.wire := by rw [hwire]
  refine ⟨fun s hs => hP _ _ _ hw ?_, fun e he hn => hN _ _ _ hw ?_⟩
  · rw [hdb] at hs
    exact h.rows s (List.mem_append_left _ hs)
  · rw [hwire] at he
    exact h.notices e he hn

include hP hN in
/-- **What a session of one scanner writes and sends rests on the grounds of its passes.** -/
theorem session_rests {scan : Scan Unit} (coin : String) (start : ℕ → ℕ)
    (G : World → NodeInfo → ℤ → ℕ → Grounds) (tip : World → NodeInfo → ℕ → World → Prop)
    {V : World → Prop} {b : Bool} (hblock : ∀ w r, P w (.block r))
    (hV : ∀ w w', Frame w w' → V w → V w')
    (hscan : ∀ w, V w → wp (env x) scan
      (fun _ w' => w' = w ∨ Returned x coin start (G w) (tip w) w w')
      (Broken x coin start (G w) w) w)
    (hcredit : ∀ w₁, V w₁ → ∀ node coin_id height n s b w,
      (G w₁ node coin_id height).credit n s b w → P w s ∧ ∀ j, b = some j → N w j)
    (h₀ : V w₀) (hbegin : Backed P N w₀.wire.length w₀)
    (hr : Session x (fun p _ => p = scan) w₀ b w) : Rests P N w₀.wire.length w := by
  have hpass : ∀ w, V w → Backed P N w₀.wire.length w → ∀ node coin_id height i p b,
      Steps x (G w node coin_id height) ⟨w, i, p⟩ b → Backed P N w₀.wire.length b.w :=
    fun w hv h node coin_id height i p b hs =>
      hs.backed hP hN hblock (hcredit w hv node coin_id height) h
  refine (hr.inv (I := fun w => V w ∧ Backed P N w₀.wire.length w)
    (J := Rests P N w₀.wire.length) (fun w h => h.2.rests hP hN rfl rfl) ⟨h₀, hbegin⟩ ?_).1
  rintro p w rfl ⟨hv, h⟩
  refine wp_mono (hscan w hv) (fun _ w' hw' => ?_) fun w' hw' => ?_
  · rcases hw' with rfl | ⟨rfl, -⟩ | ⟨coin_id, _, node, height, -, ⟨i, p, hs, -⟩, -⟩
    · exact ⟨hv, h⟩
    · exact ⟨hv, h⟩
    · exact ⟨hV _ _ hs.frame hv, hpass w hv h _ _ _ _ _ _ hs⟩
  · rcases hw' with ⟨hdb, hwire⟩ | ⟨coin_id, _, node, height, -, b, hs, hdb, hwire⟩
    · exact h.rests hP hN hdb hwire
    · exact (hpass w hv h _ _ _ _ _ _ hs).rests hP hN hdb hwire

lemma backed_self (hbuf : w₀.vars.vect_sql_ = []) (h : ∀ s ∈ w₀.db.log, P w₀ s) :
    Backed P N w₀.wire.length w₀ := by
  refine ⟨le_rfl, fun s hs => h s ?_, fun e he => ?_⟩
  · simpa [Store.total, otc, hbuf] using hs
  · simp at he

include hP hN in
lemma session_rests_idle {scan : Scan Unit} {b : Bool}
    (hscan : wp (env x) scan (fun _ w => w = w₀) (fun w => w = w₀) w₀)
    (hbegin : Backed P N w₀.wire.length w₀) (hr : Session x (fun p _ => p = scan) w₀ b w) :
    Rests P N w₀.wire.length w := by
  have hself : w = w₀ := by
    refine (hr.inv (I := fun w => w = w₀) (J := fun w => w = w₀) (fun _ h => h) rfl ?_).1
    rintro p w rfl rfl
    exact hscan
  rw [hself]
  exact hbegin.rests hP hN rfl rfl

variable (hblock : ∀ w r, P w (.block r))

include hP hN hblock

/-- The rows and notices of XRP. -/
theorem Xrp.session_rests {base : String} {b : Bool}
    (hcredit : base ≠ "" → ∀ t₀ node coin_id height n s b w,
      (Xrp.grounds x t₀ node base coin_id height).credit n s b w →
        P w s ∧ ∀ j, b = some j → N w j)
    (hbase : w₀.vars.xrp_base_address_ = base) (hbegin : Backed P N w₀.wire.length w₀)
    (hr : Session x (fun p _ => p = Xrp.scanXRP) w₀ b w) : Rests P N w₀.wire.length w := by
  by_cases hempty : base = ""
  · refine session_rests_idle hP hN ?_ hbegin hr
    rw [Xrp.scanXRP, wp_bind, wp_get, if_pos (hbase.trans hempty)]
    exact ⟨fun _ => rfl, rfl⟩
  · refine Monitor.session_rests hP hN "XRP" id
      (fun w node => Xrp.grounds x w.wire.length node w.vars.xrp_base_address_)
      (fun w node height w' => Xrp.Tip x w.wire.length node w' height)
      (V := fun w => w.vars.xrp_base_address_ = base) hblock (fun w w' hf h => hf.xrp.trans h)
      (fun w _ => wp_mono (Xrp.wp_scanXRP w) (fun _ w' h => h.imp_left And.left) fun _ h => h)
      (fun w hw node coin_id height n s b w₁ hc => ?_) hbase hbegin hr
    rw [hw] at hc
    exact hcredit hempty _ _ _ _ _ _ _ _ hc

/-- The rows and notices of EOS. -/
theorem Eos.session_rests {base : String} {b : Bool}
    (hcredit : base ≠ "" → ∀ t₀ node coin_id height n s b w,
      (Eos.grounds x t₀ node base coin_id height).credit n s b w →
        P w s ∧ ∀ j, b = some j → N w j)
    (hbase : w₀.vars.eos_base_address_ = base) (hbegin : Backed P N w₀.wire.length w₀)
    (hr : Session x (fun p _ => p = Eos.scanEOS) w₀ b w) : Rests P N w₀.wire.length w := by
  by_cases hempty : base = ""
  · refine session_rests_idle hP hN ?_ hbegin hr
    rw [Eos.scanEOS, wp_bind, wp_get, if_pos (hbase.trans hempty)]
    exact ⟨fun _ => rfl, rfl⟩
  · refine Monitor.session_rests hP hN "EOS" (fun _ => Eos.start)
      (fun w node => Eos.grounds x w.wire.length node w.vars.eos_base_address_)
      (fun w node height w' => Eos.Tip x w.wire.length node w' height)
      (V := fun w => w.vars.eos_base_address_ = base) hblock (fun w w' hf h => hf.eos.trans h)
      (fun w _ => wp_mono (Eos.wp_scanEOS w) (fun _ w' h => h.imp_left And.left) fun _ h => h)
      (fun w hw node coin_id height n s b w₁ hc => ?_) hbase hbegin hr
    rw [hw] at hc
    exact hcredit hempty _ _ _ _ _ _ _ _ hc

/-- The rows and notices of ETH. -/
theorem Eth.session_rests {C S : List (String × ℤ)} {b : Bool}
    (hcredit : ∀ t₀ node coin_id height n s b w,
      (Eth.grounds x t₀ node C S coin_id height).credit n s b w →
        P w s ∧ ∀ j, b = some j → N w j)
    (hC : w₀.vars.s_ethcontranct_tokenid = C) (hS : w₀.vars.s_address_id_eth = S)
    (hbegin : Backed P N w₀.wire.length w₀)
    (hr : Session x (fun p _ => p = Eth.scanETH) w₀ b w) : Rests P N w₀.wire.length w := by
  refine Monitor.session_rests hP hN "ETH" id
    (fun w node => Eth.grounds x w.wire.length node w.vars.s_ethcontranct_tokenid
      w.vars.s_address_id_eth)
    (fun w node height w' => Eth.Tip x w.wire.length node w' height)
    (V := fun w => w.vars.s_ethcontranct_tokenid = C ∧ w.vars.s_address_id_eth = S) hblock
    (fun w w' hf h => ⟨hf.contract.trans h.1, hf.eth.trans h.2⟩)
    (fun w _ => wp_mono (Eth.wp_scanETH w) (fun _ w' h => Or.inr h) fun _ h => h)
    (fun w hw node coin_id height n s b w₁ hc => ?_) ⟨hC, hS⟩ hbegin hr
  rw [hw.1, hw.2] at hc
  exact hcredit _ _ _ _ _ _ _ _ hc

end

/-- Calls programs one after the other while the process lasts. -/
def calls (net : ℕ → Request → Answer) (ps : List (Scan Unit)) (s : Bool × World) :
    Bool × World :=
  ps.foldl (fun s p =>
    if s.1 then (alive (run (serve net) p s.2).1, (run (serve net) p s.2).2) else s) s

/-- Starts a process, and runs tasks. -/
def play (net : ℕ → Request → Answer) (callback_url : String) (ts : List Task) (w : World) :
    Bool × World :=
  calls net (start callback_url :: ts.map Task.run) (true, { w with vars := .fresh })

lemma calls_append (net : ℕ → Request → Answer) (ps : List (Scan Unit)) (p : Scan Unit)
    (s : Bool × World) : calls net (ps ++ [p]) s = if (calls net ps s).1 then
      (alive (run (serve net) p (calls net ps s).2).1, (run (serve net) p (calls net ps s).2).2)
    else calls net ps s := by
  rw [calls, List.foldl_append]
  rfl

lemma exec_serve (net : ℕ → Request → Answer) (p : Scan Unit) (w : World) :
    Exec (env (.clear net)) p w (run (serve net) p w).1 (run (serve net) p w).2 :=
  exec_run (serve_answers net) p w

lemma exec_alive {net : ℕ → Request → Answer} {p : Scan Unit} {w : World}
    (h : alive (run (serve net) p w).1 = true) :
    Exec (env (.clear net)) p w (.done ()) (run (serve net) p w).2 := by
  have hx := exec_serve net p w
  cases ho : (run (serve net) p w).1 with
  | done => rwa [ho] at hx
  | threw e => simp [ho, alive] at h
  | died => simp [ho, alive] at h

lemma session_calls {ok : Scan Unit → World → Prop} (net : ℕ → Request → Answer)
    (ps : List (Scan Unit)) (w : World)
    (hok : ∀ pre p post, ps = pre ++ p :: post → ok p (calls net pre (true, w)).2) :
    Session (.clear net) ok w (calls net ps (true, w)).1 (calls net ps (true, w)).2 := by
  induction ps using List.reverseRecOn with
  | nil => exact .begin
  | append_singleton ps p ih =>
    have hr := ih fun pre p' post h => hok pre p' (post ++ [p]) (by simp [h])
    have hok' := hok ps p [] rfl
    rw [calls_append]
    split
    · next h =>
      rw [h] at hr
      exact hr.call hok' (exec_serve net p _)
    · exact hr

lemma reach_play {ok : Task → World → Prop} (net : ℕ → Request → Answer)
    (callback_url : String) (ts : List Task) (w : World)
    (hok : ∀ pre t post, ts = pre ++ t :: post → ok t (play net callback_url pre w).2) :
    Reach (.clear net) callback_url ok w (play net callback_url ts w).1
      (play net callback_url ts w).2 := by
  induction ts using List.reverseRecOn with
  | nil => exact Reach.start .begin (exec_serve net (start callback_url) _)
  | append_singleton ts t ih =>
    have hr := ih fun pre t' post h => hok pre t' (post ++ [t]) (by simp [h])
    have hok' := hok ts t [] rfl
    rw [play, List.map_append, List.map_singleton, ← List.cons_append, calls_append]
    split
    · next h =>
      rw [show (play net callback_url ts w).1 = true from h] at hr
      exact Reach.task t hr hok' (exec_serve net t.run _)
    · exact hr

/-- Five coins on one node, with one account each. -/
def smallCatalog : Catalog where
  coin := [⟨1, some 1, some "BTC"⟩, ⟨2, some 1, some "ETH"⟩, ⟨3, some 1, some "XRP"⟩,
    ⟨4, some 1, some "EOS"⟩, ⟨5, some 1, some "USDT"⟩]
  node := [⟨1, some "node", some "wallet", some "auth", some "auth"⟩]
  token := [⟨2, 1, "ERC20_USDT", some "0xc", 6⟩]
  account := [⟨1, 1, some "A", none⟩, ⟨2, 2, some "0xA", none⟩, ⟨3, 3, some "R", none⟩,
    ⟨4, 4, some "E", none⟩, ⟨5, 5, some "U", none⟩]
  coin_key := by decide

/-- Before any process, with a stored height for some coins. -/
def smallWorld (stored : List (ℤ × ℕ)) : World :=
  ⟨.fresh, ⟨smallCatalog, stored.map fun b => .block ⟨b.1, "", b.2⟩⟩, []⟩

/-- A process that watches an address of BTC and one of XRP, and one of ETH. -/
def smallProcess (stored : List (ℤ × ℕ)) : World :=
  let node : NodeInfo := ⟨1, "node", "auth", "wallet", "auth"⟩
  { smallWorld stored with vars := { Vars.fresh with
      map_coinid_node_ := [(1, node), (2, node), (3, node), (4, node), (5, node)]
      callback_url_ := "receiver"
      xrp_base_address_ := "R"
      eos_base_address_ := "E"
      s_address_id_btc := [("A", 1)]
      s_address_id_eth := [("0XA", 2)]
      s_address_id_omni_usdt := [("U", 5)]
      s_ethcontranct_tokenid := [("0XC", 1)] } }

lemma coinId_row {cat : Catalog} {coin : String} {c : ℤ} (h : coinId cat coin = some (some c)) :
    ∃ r ∈ cat.coin, r.coin_id = c ∧ r.short_name = some coin := by
  unfold coinId at h
  split at h
  · cases h
  · next r hr =>
    have hmem : r ∈ cat.coin.filter fun c => c.short_name = some coin := by simp [hr]
    obtain ⟨hr, hs⟩ := List.mem_filter.mp hmem
    exact ⟨r, hr, by simpa using h, by simpa using hs⟩
  · cases h

lemma coinId_inj {cat : Catalog} {coin coin' : String} {c : ℤ}
    (h : coinId cat coin = some (some c)) (h' : coinId cat coin' = some (some c)) :
    coin = coin' := by
  obtain ⟨r, hr, hc, hs⟩ := coinId_row h
  obtain ⟨r', hr', hc', hs'⟩ := coinId_row h'
  obtain rfl : r = r' := List.inj_on_of_nodup_map cat.coin_key hr hr' (hc.trans hc'.symm)
  rw [hs] at hs'
  exact Option.some.inj hs'

/-- The addresses of a coin. -/
def Owned (cat : Catalog) (short_name address : String) : Prop :=
  ∃ c, coinId cat short_name = some c ∧
    ∃ a ∈ cat.account, some a.coin_id = c ∧ a.address = some address

/-- What is read into a map: nothing, or every address of the coin. -/
def Loaded (cat : Catalog) (short_name : String) (l : List (String × ℤ)) : Prop :=
  l = [] ∨ ∀ address, address ∈ l.map Prod.fst ↔ Owned cat short_name address

lemma addressRow_of_rowData {a : AccountRow} {row : Json} {r : String × ℤ}
    (h : rowData [.STRING, .INT] [.ofText a.address, .int a.account_id] = .ok row)
    (hr : addressRow row = .ok r) : a.address = some r.1 := by
  simp only [rowData, List.zip_cons_cons, List.zip_nil_right, List.mapM_cons, List.mapM_nil,
    bind_eq_ok, pure_eq_ok, Except.ok.injEq, Cell.convert] at h
  obtain ⟨l, ⟨jaddress, haddress, -, ⟨jid, -, -, rfl, rfl⟩, rfl⟩, rfl⟩ := h
  cases ha : a.address with
  | none => simp [ha, Cell.ofText] at haddress
  | some address =>
    obtain rfl : jaddress = .str address := by simpa [ha, Cell.ofText, eq_comm] using haddress
    simp only [addressRow, Json.idx, ok_bind, List.getD_cons_zero, Json.getStr_str,
      bind_eq_ok, pure_eq_ok, Except.ok.injEq] at hr
    obtain ⟨-, -, -, -, rfl⟩ := hr
    rfl

lemma wp_loadAddresses {x : Weather} {short_name : String} {set : String → ℤ → Vars → Vars}
    {w : World} :
    wp (env x) (loadAddresses short_name set)
      (fun _ w' => ∃ l, Loaded w.db.cat short_name l ∧
        w' = { w with vars := l.foldl (fun v r => set r.1 r.2 v) w.vars })
      (fun w' => w'.db = w.db ∧ w'.wire = w.wire) w := by
  have hnil : ∃ l, Loaded w.db.cat short_name l ∧
      w = { w with vars := l.foldl (fun v r => set r.1 r.2 v) w.vars } := ⟨[], Or.inl rfl, rfl⟩
  simp only [loadAddresses, getData, wp_bind]
  refine wp_getData ⟨rfl, rfl⟩ (fun _ => by simpa [forEach] using hnil) fun rows rows' he hp => ?_
  cases rows' with
  | nil => simpa [forEach] using hnil
  | cons row rows' =>
    simp only [wp_lift, liftM_eq]
    refine ⟨fun json_data hdata => ?_, fun _ _ => by simp⟩
    cases hm : (row :: rows').mapM (rowData [.STRING, .INT]) with
    | error e => simp [hm] at hdata
    | ok jrows =>
      obtain rfl : json_data = .arr jrows := by simpa [hm, eq_comm] using hdata
      simp only [Json.elems_arr, Except.ok.injEq, reduceCtorEq, implies_true, and_true,
        forall_eq']
      refine wp_mono (wp_forEach (I := fun pre w' => ∃ l,
        List.Forall₂ (fun jrow r => addressRow jrow = .ok r) pre l ∧
        w' = { w with vars := l.foldl (fun v r => set r.1 r.2 v) w.vars }) jrows
        ⟨[], .nil, rfl⟩ ?_) (fun _ w' hpost => ?_) fun _ h => h
      · rintro pre jrow post _ - ⟨l, hl, rfl⟩
        simp only [wp_bind, wp_lift, wp_modify]
        refine ⟨fun r hr => ⟨fun _ => by simp, l ++ [r], ?_, by simp⟩, fun _ _ => by simp⟩
        exact List.rel_append hl (.cons hr .nil)
      · obtain ⟨l, hl, hw⟩ := hpost
        refine ⟨l, Or.inr ?_, hw⟩
        simp only [Query.eval, Option.map_eq_some_iff] at he
        obtain ⟨c, hc, rfl⟩ := he
        have hrows := forall₂_of_mapM hm
        intro address
        constructor
        · intro ha
          obtain ⟨r, hr, rfl⟩ := List.mem_map.mp ha
          obtain ⟨jrow, hj, hjr⟩ := forall₂_mem_right hl hr
          obtain ⟨cells, hcells, hd⟩ := forall₂_mem_right hrows hj
          obtain ⟨a, ha, rfl⟩ := List.mem_map.mp (hp.mem_iff.mpr hcells)
          obtain ⟨ha, hac⟩ := List.mem_filter.mp ha
          exact ⟨c, hc, a, ha, by simpa using hac, addressRow_of_rowData hd hjr⟩
        · rintro ⟨c', hc', a, ha, hac, haddress⟩
          obtain rfl : c = c' := by simpa [hc] using hc'
          have hcells : [Cell.ofText a.address, .int a.account_id] ∈ row :: rows' :=
            hp.mem_iff.mp (List.mem_map.mpr ⟨a, List.mem_filter.mpr ⟨ha, by simpa using hac⟩, rfl⟩)
          obtain ⟨jrow, hj, hd⟩ := forall₂_mem_left hrows hcells
          obtain ⟨r, hr, hjr⟩ := forall₂_mem_left hl hj
          have haddress' := addressRow_of_rowData hd hjr
          rw [haddress] at haddress'
          exact List.mem_map.mpr ⟨r, hr, (Option.some.inj haddress').symm⟩

lemma foldl_btc (l : List (String × ℤ)) (v : Vars) :
    l.foldl (fun v r => { v with s_address_id_btc := (r.1, r.2) :: v.s_address_id_btc }) v =
      { v with s_address_id_btc := l.reverse ++ v.s_address_id_btc } := by
  induction l generalizing v with
  | nil => rfl
  | cons r l ih => simp [ih]

lemma foldl_eth (l : List (String × ℤ)) (v : Vars) :
    l.foldl (fun v r =>
      { v with s_address_id_eth := (Text.toupper r.1, r.2) :: v.s_address_id_eth }) v =
      { v with s_address_id_eth :=
        (l.map fun r => (Text.toupper r.1, r.2)).reverse ++ v.s_address_id_eth } := by
  induction l generalizing v with
  | nil => rfl
  | cons r l ih => simp [ih]

lemma foldl_omni (l : List (String × ℤ)) (v : Vars) :
    l.foldl (fun v r =>
      { v with s_address_id_omni_usdt := (r.1, r.2) :: v.s_address_id_omni_usdt }) v =
      { v with s_address_id_omni_usdt := l.reverse ++ v.s_address_id_omni_usdt } := by
  induction l generalizing v with
  | nil => rfl
  | cons r l ih => simp [ih]

/-! ### The tasks keep what their scanners keep -/

section

variable {x : Weather} {I J : World → Prop} {w : World}

/-- The invariant does not look at the timers. -/
def Timeless (I : World → Prop) : Prop :=
  ∀ w ts, I w → I { w with vars := { w.vars with timers := ts } }

lemma wp_SetTimeout {name : String} {second : ℕ} (hIJ : ∀ w, I w → J w) (ht : Timeless I)
    (h : I w) : wp (env x) (SetTimeout name second) (fun _ => I) J w := by
  rw [SetTimeout, wp_modify]
  exact ⟨fun _ => hIJ _ h, ht _ _ h⟩

lemma wp_scanTask {K : World → Prop} {short_name name : String} {second : ℕ}
    {set : String → ℤ → Vars → Vars} {scan : Scan Unit} {watch : Vars → List (String × ℤ)}
    (hKI : ∀ w, K w → I w) (hIJ : ∀ w, I w → J w) (ht : Timeless I)
    (hJ : ∀ w', w'.db = w.db → w'.wire = w.wire → J w')
    (hload : ∀ l, Loaded w.db.cat short_name l →
      K { w with vars := l.foldl (fun v r => set r.1 r.2 v) w.vars })
    (hscan : ∀ w₁, K w₁ → watch w₁.vars ≠ [] → wp (env x) scan (fun _ => I) J w₁) :
    wp (env x) (do
      loadAddresses short_name set
      let v ← get
      if (watch v).isEmpty then pure ()
      else
        scan
        SetTimeout name second) (fun _ => I) J w := by
  rw [wp_bind]
  refine wp_mono wp_loadAddresses ?_ fun w' h => hJ w' h.1 h.2
  rintro - _ ⟨l, hl, rfl⟩
  have hK := hload l hl
  simp only [wp_bind, wp_get]
  refine ⟨fun _ => hIJ _ (hKI _ hK), ?_⟩
  split
  · exact hKI _ hK
  · next hne =>
    rw [wp_bind]
    exact wp_mono (hscan _ hK (by simpa using hne)) (fun _ w' h => wp_SetTimeout hIJ ht h)
      fun _ h => h

variable (x I J) in
/-- What the programs of the tasks keep: `I` while the process is there, and `J` in any case. -/
structure Keeps : Prop where
  le : ∀ w, I w → J w
  timers : Timeless I
  idle : ∀ w w', I w → w'.db = w.db → w'.wire = w.wire → J w'
  loadBTC : ∀ w l, I w → Loaded w.db.cat "BTC" l → I { w with vars := { w.vars with
    s_address_id_btc := l.reverse ++ w.vars.s_address_id_btc } }
  loadETH : ∀ w l, I w → Loaded w.db.cat "ETH" l → I { w with vars := { w.vars with
    s_address_id_eth :=
      (l.map fun r => (Text.toupper r.1, r.2)).reverse ++ w.vars.s_address_id_eth } }
  loadOMNI : ∀ w l, I w → Loaded w.db.cat "USDT" l → I { w with vars := { w.vars with
    s_address_id_omni_usdt := l.reverse ++ w.vars.s_address_id_omni_usdt } }
  scanBTC : ∀ w, I w → w.vars.s_address_id_btc ≠ [] → wp (env x) Btc.scanBTC (fun _ => I) J w
  scanETH : ∀ w, I w → w.vars.s_address_id_eth ≠ [] → wp (env x) Eth.scanETH (fun _ => I) J w
  scanXRP : ∀ w, I w → wp (env x) Xrp.scanXRP (fun _ => I) J w
  scanEOS : ∀ w, I w → wp (env x) Eos.scanEOS (fun _ => I) J w
  scanOMNI : ∀ w, I w → w.vars.s_address_id_omni_usdt ≠ [] →
    wp (env x) Omni.scanOMNI_USDT (fun _ => I) J w
  reCallback : ∀ w, I w → wp (env x) Monitor.reCallback (fun _ => I) J w

/-- **Every task keeps** what the scanners and the readings of addresses keep. -/
theorem Keeps.task (h : Keeps x I J) (t : Task) (hw : I w) :
    wp (env x) t.run (fun _ => I) J w := by
  have hset : ∀ name second w, I w → wp (env x) (SetTimeout name second) (fun _ => I) J w :=
    fun _ _ _ => wp_SetTimeout h.le h.timers
  cases t with
  | ScanBTC =>
    refine wp_scanTask (K := I) (fun _ h => h) h.le h.timers (h.idle w · hw) (fun l hl => ?_)
      h.scanBTC
    rw [foldl_btc]
    exact h.loadBTC w l hw hl
  | ScanETH =>
    refine wp_scanTask (K := I) (fun _ h => h) h.le h.timers (h.idle w · hw) (fun l hl => ?_)
      h.scanETH
    rw [foldl_eth]
    exact h.loadETH w l hw hl
  | ScanXRP =>
    rw [Task.run, ScanXRP, wp_bind]
    exact wp_mono (h.scanXRP w hw) (fun _ w' => hset _ _ w') fun _ h => h
  | ScanEOS =>
    rw [Task.run, ScanEOS, wp_bind]
    exact wp_mono (h.scanEOS w hw) (fun _ w' => hset _ _ w') fun _ h => h
  | ScanOMNI_USDT =>
    refine wp_scanTask (K := I) (fun _ h => h) h.le h.timers (h.idle w · hw) (fun l hl => ?_)
      h.scanOMNI
    rw [foldl_omni]
    exact h.loadOMNI w l hw hl
  | ReCallback =>
    rw [Task.run, ReCallback, wp_bind]
    exact wp_mono (h.reCallback w hw) (fun _ w' => hset _ _ w') fun _ h => h

section

variable {coin : String} {start : ℕ → ℕ} {G : NodeInfo → ℤ → ℕ → Grounds}
  {tip : NodeInfo → ℕ → World → Prop} {w' : World}
  (hpass : ∀ node coin_id height a b, Steps x (G node coin_id height) a b → I a.w → I b.w)
  (h : I w)

include hpass h

lemma kept_of_returned (hr : Returned x coin start G tip w w') : I w' := by
  rcases hr with ⟨rfl, -⟩ | ⟨_, _, _, _, -, ⟨_, _, hs, -⟩, -⟩
  · exact h
  · exact hpass _ _ _ _ _ hs h

lemma kept_of_broken (hidle : ∀ w w', I w → w'.db = w.db → w'.wire = w.wire → J w')
    (hr : Broken x coin start G w w') : J w' := by
  rcases hr with ⟨hdb, hwire⟩ | ⟨_, _, _, _, -, b, hs, hdb, hwire⟩
  · exact hidle w w' h hdb hwire
  · exact hidle b.w w' (hpass _ _ _ _ _ hs h) hdb hwire

/-- A scan keeps what every pass keeps. -/
lemma wp_scan_kept {scan : Scan Unit}
    (hidle : ∀ w w', I w → w'.db = w.db → w'.wire = w.wire → J w')
    (hscan : wp (env x) scan (fun _ w' => w' = w ∨ Returned x coin start G tip w w')
      (Broken x coin start G w) w) : wp (env x) scan (fun _ => I) J w := by
  refine wp_mono hscan (fun _ w' hr => ?_) fun w' hr => kept_of_broken hpass h hidle hr
  rcases hr with rfl | hr
  · exact h
  · exact kept_of_returned hpass h hr

end

section

variable {w : World} (hidle : ∀ w w', I w → w'.db = w.db → w'.wire = w.wire → J w') (h : I w)

include hidle h

lemma wp_scanBTC_kept (hpass : ∀ node coin_id height a b,
    Steps x (Btc.grounds x w.wire.length node w.vars.s_address_id_btc Btc.Either coin_id height) a b →
      I a.w → I b.w) : wp (env x) Btc.scanBTC (fun _ => I) J w :=
  wp_scan_kept hpass h hidle
    (wp_mono (Btc.wp_scanBTC w Btc.Either fun _ _ _ _ _ _ _ _ _ _ _ _ => trivial)
      (fun _ _ hr => Or.inr hr) fun _ hr => hr)

lemma wp_scanETH_kept (hpass : ∀ node coin_id height a b,
    Steps x (Eth.grounds x w.wire.length node w.vars.s_ethcontranct_tokenid w.vars.s_address_id_eth
      coin_id height) a b → I a.w → I b.w) : wp (env x) Eth.scanETH (fun _ => I) J w :=
  wp_scan_kept hpass h hidle
    (wp_mono (Eth.wp_scanETH w) (fun _ _ hr => Or.inr hr) fun _ hr => hr)

lemma wp_scanXRP_kept (hpass : ∀ node coin_id height a b,
    Steps x (Xrp.grounds x w.wire.length node w.vars.xrp_base_address_ coin_id height) a b →
      I a.w → I b.w) : wp (env x) Xrp.scanXRP (fun _ => I) J w :=
  wp_scan_kept hpass h hidle
    (wp_mono (Xrp.wp_scanXRP w) (fun _ _ hr => hr.imp_left And.left) fun _ hr => hr)

lemma wp_scanEOS_kept (hpass : ∀ node coin_id height a b,
    Steps x (Eos.grounds x w.wire.length node w.vars.eos_base_address_ coin_id height) a b →
      I a.w → I b.w) : wp (env x) Eos.scanEOS (fun _ => I) J w :=
  wp_scan_kept hpass h hidle
    (wp_mono (Eos.wp_scanEOS w) (fun _ _ hr => hr.imp_left And.left) fun _ hr => hr)

lemma wp_scanOMNI_kept (hpass : ∀ node coin_id height a b,
    Steps x (Omni.grounds x w.wire.length node w.vars.s_address_id_omni_usdt coin_id height) a b →
      I a.w → I b.w) : wp (env x) Omni.scanOMNI_USDT (fun _ => I) J w :=
  wp_scan_kept hpass h hidle
    (wp_mono (Omni.wp_scanOMNI_USDT w) (fun _ _ hr => Or.inr hr) fun _ hr => hr)

/-- What a notice that is sent again, and the notices that are put by again, leave as it is. -/
lemma wp_reCallback_kept
    (hsent : ∀ w₁ j a, I w₁ → w.wire <+: w₁.wire → j ∈ w.vars.s_json_callback →
      I (w₁.sent ⟨w.vars.callback_url_, "", j⟩ a))
    (hqueue : ∀ w₁ l, I w₁ → w.wire <+: w₁.wire → (∀ j ∈ l, j ∈ w.vars.s_json_callback) →
      I { w₁ with vars := { w₁.vars with s_json_callback := l } }) :
    wp (env x) reCallback (fun _ => I) J w := by
  simp only [reCallback, wp_bind, wp_get]
  refine ⟨fun _ => hidle w w h rfl rfl, ?_⟩
  refine wp_mono (wp_loop (I := fun _ (json_callback : List Json) w' => I w' ∧
      w.wire <+: w'.wire ∧ ∀ j ∈ json_callback, j ∈ w.vars.s_json_callback)
    (B := fun _ _ _ => False) (D := J) w.vars.s_json_callback
    ⟨h, List.prefix_refl _, by simp⟩ ?_) ?_ fun _ h => h
  · rintro pre j post json_callback w₁ hpre ⟨h₁, hw, hsub⟩
    have hj : j ∈ w.vars.s_json_callback := by simp [hpre]
    simp only [wp_bind, wp_curl, liftM_eq, wp_lift]
    refine ⟨fun _ => hidle _ _ h₁ rfl rfl, fun a _ => ?_⟩
    have h₂ := hsent w₁ j a h₁ hw hj
    refine ⟨fun c _ => ⟨h₂, hw.trans (frame_sent _ _ _).wire, ?_⟩,
      fun _ _ => hidle _ _ h₂ rfl rfl⟩
    intro j' hj'
    split at hj'
    · rcases List.mem_append.mp hj' with hj' | hj'
      · exact hsub j' hj'
      · exact List.mem_singleton.mp hj' ▸ hj
    · exact hsub j' hj'
  · rintro ⟨fl, json_callback⟩ w₁ hr
    cases fl with
    | next =>
      obtain ⟨h₁, hw, hsub⟩ := hr
      rw [wp_modify]
      exact ⟨fun _ => hidle _ _ h₁ rfl rfl, hqueue w₁ json_callback h₁ hw hsub⟩
    | brk =>
      obtain ⟨-, -, -, h⟩ := hr
      exact h.elim

end

end

/-! ### Programs that write no rows -/

/-- The database, the buffer and the maps of watched addresses are as they were. -/
structure Still (w w' : World) : Prop where
  db : w'.db = w.db
  buf : w'.vars.vect_sql_ = w.vars.vect_sql_
  btc : w'.vars.s_address_id_btc = w.vars.s_address_id_btc
  eth : w'.vars.s_address_id_eth = w.vars.s_address_id_eth
  omni : w'.vars.s_address_id_omni_usdt = w.vars.s_address_id_omni_usdt

/-- And no transaction is remembered or forgotten. -/
structure Idle (w w' : World) : Prop extends Still w w' where
  txids : w'.vars.s_txid_address = w.vars.s_txid_address

/-- So they are when a process has started, which also remembers the transactions that have a
row, where no `SELECT` fails. -/
structure Started (x : Weather) (w w' : World) : Prop extends Still w w' where
  txids : ¬ x.sqlFails → ∀ txid, txid ∈ w'.vars.s_txid_address.map Prod.fst ↔
    txid ∈ w.vars.s_txid_address.map Prod.fst ∨ ∃ r ∈ w.db.txutxo, r.txid = txid

section

variable {x : Weather} {w w' w₀ : World}

lemma Idle.refl (w : World) : Idle w w := ⟨⟨rfl, rfl, rfl, rfl, rfl⟩, rfl⟩

lemma wp_reCallback (w : World) :
    wp (env x) reCallback (fun _ w' => Still w w') (fun w' => w'.db = w.db) w :=
  wp_reCallback_kept (fun _ _ h hdb _ => hdb.trans h.db) (Idle.refl w).toStill
    (fun _ _ _ h _ _ => ⟨h.db, h.buf, h.btc, h.eth, h.omni⟩)
    fun _ _ h _ _ => ⟨h.db, h.buf, h.btc, h.eth, h.omni⟩

/-- What a query gives: null, or rows of the table as they are converted. -/
lemma wp_getData_rows {q : Query} {col_type : List DataType} {Q : Json → World → Prop}
    {D : World → Prop} (hD : D w) (hnull : Q .null w)
    (hQ : ∀ rows jrows, q.eval w.db = some rows →
      (∀ jrow ∈ jrows, ∃ row ∈ rows, rowData col_type row = .ok jrow) → Q (.arr jrows) w) :
    wp (env x) (getData q col_type) Q D w := by
  rw [getData, wp_bind]
  refine wp_getData hD (fun _ => hnull) fun rows rows' he hp => ?_
  cases rows' with
  | nil => exact hnull
  | cons row rows' =>
    refine wp_lift_ok hD fun j hj => ?_
    cases hm : (row :: rows').mapM (rowData col_type) with
    | error e => simp [hm] at hj
    | ok jrows =>
      obtain rfl : j = .arr jrows := by simpa [hm, eq_comm] using hj
      refine hQ rows jrows he fun jrow hjrow => ?_
      obtain ⟨row, hrow, hd⟩ := forall₂_mem_right (forall₂_of_mapM hm) hjrow
      exact ⟨row, hp.mem_iff.mpr hrow, hd⟩

lemma wp_getData_json {q : Query} {col_type : List DataType} {Q : Json → World → Prop}
    {D : World → Prop} (hD : D w) (hQ : ∀ j, Q j w) :
    wp (env x) (getData q col_type) Q D w :=
  wp_getData_rows hD (hQ _) fun _ _ _ _ => hQ _

lemma wp_holds {b : Bool} {Q : Unit → World → Prop} {D : World → Prop} (hD : D w)
    (hQ : Q () w) : wp (env x) (holds b) Q D w := by
  unfold holds; split
  · exact hQ
  · exact hD

lemma rowData_text {address : Option String} {m : ℤ} {row : Json}
    (h : rowData [.STRING, .INT] [.ofText address, .int m] = .ok row) :
    ∃ s, address = some s ∧ row = .arr [.str s, .int m] := by
  cases address with
  | none => simp [rowData, Cell.ofText, Cell.convert] at h
  | some s =>
    refine ⟨s, rfl, ?_⟩
    simp only [rowData, Cell.ofText, Cell.convert, List.zip_cons_cons, List.zip_nil_right,
      List.mapM_cons, List.mapM_nil, ok_bind] at h
    split at h
    · simpa [eq_comm] using h
    · simp at h

/-- The base address is one of the table of accounts. -/
lemma wp_initBase {coin_id : ℤ} {Q : String → World → Prop} {D : World → Prop} (hD : D w)
    (hQ : ∀ s, (∃ a ∈ w.db.cat.account, a.address = some s) → Q s w) :
    wp (env x) (initBase coin_id) Q D w := by
  simp only [initBase, wp_bind, liftM_eq]
  refine wp_getData_rows hD ?_ fun rows jrows he hrows => ?_
  · refine wp_lift_ok hD fun row hrow => wp_lift_ok hD fun c hc => wp_lift_ok hD fun s hs => ?_
    obtain rfl := Except.ok.inj hrow
    obtain rfl := Except.ok.inj hc
    cases hs
  · refine wp_lift_ok hD fun row hrow => wp_lift_ok hD fun c hc => wp_lift_ok hD fun s hs => ?_
    refine wp_lift_any hD fun _ => wp_lift_any hD fun account_id => wp_holds hD (hQ s ?_)
    obtain rfl := Except.ok.inj hrow
    cases jrows with
    | nil =>
      obtain rfl := Except.ok.inj hc
      cases hs
    | cons jrow jrows =>
      obtain ⟨cells, hcells, hd⟩ := hrows jrow List.mem_cons_self
      obtain rfl := Option.some.inj he
      obtain ⟨address, haddress, hcell⟩ := List.mem_filterMap.mp hcells
      have hmem := List.mem_dedup.mp haddress
      obtain ⟨a, ha, rfl⟩ := List.mem_map.mp hmem
      refine ⟨a, (List.mem_filter.mp ha).1, ?_⟩
      split at hcell
      · split at hcell
        · cases hcell
        · obtain rfl := Option.some.inj hcell
          obtain ⟨t, ht, rfl⟩ := rowData_text hd
          obtain rfl := Except.ok.inj hc
          obtain rfl := Except.ok.inj hs
          exact ht
      · cases hcell

/-- What the names of the nodes do not matter to is kept while they are read. -/
lemma wp_initNodes {I D : World → Prop} (hD : ∀ w, I w → D w)
    (hI : ∀ w l, I w → I { w with vars := { w.vars with map_coinid_node_ := l } }) (h : I w) :
    wp (env x) initNodes (fun _ => I) D w := by
  have hd := hD w h
  simp only [initNodes, wp_bind, liftM_eq]
  refine wp_getData_json hd fun j => wp_lift_any hd fun rows => ?_
  refine wp_forEach (I := fun _ => I) rows h ?_
  rintro - row - w₁ - h
  have hd := hD w₁ h
  simp only [wp_bind]
  refine wp_lift_any hd fun _ => wp_lift_any hd fun node_id => ?_
  refine wp_lift_any hd fun _ => wp_lift_any hd fun node_url => ?_
  refine wp_lift_any hd fun _ => wp_lift_any hd fun node_auth => ?_
  refine wp_lift_any hd fun _ => wp_lift_any hd fun wallet_url => ?_
  refine wp_lift_any hd fun _ => wp_lift_any hd fun wallet_auth => ?_
  refine wp_lift_any hd fun _ => wp_lift_any hd fun coin_id => ?_
  rw [wp_modify]
  exact ⟨fun _ => hd, hI _ _ h⟩

lemma wp_initContract {I D : World → Prop} (hD : ∀ w, I w → D w)
    (hI : ∀ w l, I w → I { w with vars := { w.vars with s_ethcontranct_tokenid := l } })
    (h : I w) : wp (env x) initContract (fun _ => I) D w := by
  have hd := hD w h
  simp only [initContract, wp_bind, liftM_eq]
  refine wp_getData_json hd fun j => wp_lift_any hd fun row => ?_
  refine wp_lift_any hd fun _ => wp_lift_any hd fun contract => ?_
  refine wp_lift_any hd fun _ => wp_lift_any hd fun token_id => ?_
  rw [wp_modify]
  exact ⟨fun _ => hd, hI _ _ h⟩

lemma wp_initTxids_keeps {I D : World → Prop} (hD : ∀ w, I w → D w)
    (hI : ∀ w l, I w → I { w with vars := { w.vars with s_txid_address := l } }) (h : I w) :
    wp (env x) initTxids (fun _ => I) D w := by
  have hd := hD w h
  simp only [initTxids, wp_bind, liftM_eq]
  refine wp_getData_json hd fun j => wp_lift_any hd fun rows => ?_
  refine wp_forEach (I := fun _ => I) rows h ?_
  rintro - row - w₁ - h
  have hd := hD w₁ h
  simp only [wp_bind]
  refine wp_lift_any hd fun _ => wp_lift_any hd fun txid => ?_
  refine wp_lift_any hd fun _ => wp_lift_any hd fun address => ?_
  rw [wp_modify]
  exact ⟨fun _ => hd, hI _ _ h⟩

lemma txidRow {r : Txutxo} {row : Json}
    (h : rowData [.STRING, .STRING] [.text r.txid, .text r.address] = .ok row) :
    row = .arr [.str r.txid, .str r.address] := by
  simpa [rowData, Cell.convert, eq_comm] using h

lemma wp_initTxids (h : Idle w₀ w) :
    wp (env x) initTxids (fun _ w' => Started x w₀ w') (fun w' => w'.db = w₀.db) w := by
  have hstill : ∀ l, Still w₀ { w with vars := { w.vars with s_txid_address := l } } := fun _ =>
    ⟨h.db, h.buf, h.btc, h.eth, h.omni⟩
  simp only [initTxids, getData, wp_bind, liftM_eq]
  refine wp_getData h.db (fun hnone => ?_) fun rows rows' he hp => ?_
  · have hfails : x.sqlFails := hnone.resolve_right (by simp [Query.eval])
    simpa [forEach] using (⟨hstill _, fun hnot => absurd hfails hnot⟩ : Started x w₀ w)
  obtain rfl : w.db.txutxo.map (fun r => [Cell.text r.txid, Cell.text r.address]) = rows := by
    simpa [Query.eval] using he
  cases rows' with
  | nil =>
    have hempty : w₀.db.txutxo = [] := by simpa [h.db] using hp
    have hstarted : Started x w₀ w := ⟨h.toStill, fun _ txid => by simp [h.txids, hempty]⟩
    simpa [forEach] using hstarted
  | cons row rows' =>
    simp only [wp_lift]
    refine ⟨fun json_data hdata => ?_, fun _ _ => h.db⟩
    cases hm : (row :: rows').mapM (rowData [.STRING, .STRING]) with
    | error e => simp [hm] at hdata
    | ok jrows =>
      obtain rfl : json_data = .arr jrows := by simpa [hm, eq_comm] using hdata
      simp only [Json.elems_arr, Except.ok.injEq, reduceCtorEq, false_implies, implies_true,
        and_true, forall_eq']
      have hrows := forall₂_of_mapM hm
      refine wp_mono (wp_forEach (I := fun pre w' => ∃ l, (∀ txid, txid ∈ l.map Prod.fst ↔
          ∃ address, .arr [.str txid, .str address] ∈ pre) ∧ w' = { w with vars :=
            { w.vars with s_txid_address := l ++ w.vars.s_txid_address } }) jrows
        ⟨[], by simp, rfl⟩ ?_) ?_ fun _ h => h
      · rintro pre jrow post _ hpre ⟨l, hl, rfl⟩
        obtain ⟨cells, hcells, hd⟩ := forall₂_mem_right hrows (y := jrow) (by simp [hpre])
        obtain ⟨r, -, rfl⟩ := List.mem_map.mp (hp.mem_iff.mpr hcells)
        obtain rfl := txidRow hd
        simp only [wp_bind, wp_lift, wp_modify, Json.idx, List.getD_cons_zero,
          List.getD_cons_succ, Except.ok.injEq, forall_eq', Json.getStr_str, reduceCtorEq,
          false_implies, implies_true, and_true]
        refine ⟨fun _ => h.db, (r.txid, r.address) :: l, fun txid => ?_, rfl⟩
        rw [List.map_cons, List.mem_cons, hl]
        simp only [List.mem_append, List.mem_singleton, exists_or, Json.arr.injEq,
          List.cons.injEq, Json.str.injEq, and_true, exists_and_left, exists_eq, or_comm]
      · rintro - _ ⟨l, hl, rfl⟩
        refine ⟨hstill _, fun _ txid => ?_⟩
        rw [List.map_append, List.mem_append, hl, h.txids, or_comm]
        refine or_congr_right ⟨?_, ?_⟩
        · rintro ⟨address, ha⟩
          obtain ⟨cells, hcells, hd⟩ := forall₂_mem_right hrows ha
          obtain ⟨r, hr, rfl⟩ := List.mem_map.mp (hp.mem_iff.mpr hcells)
          obtain ⟨rfl, -⟩ : txid = r.txid ∧ address = r.address := by simpa using txidRow hd
          exact ⟨r, h.db ▸ hr, rfl⟩
        · rintro ⟨r, hr, rfl⟩
          rw [← h.db] at hr
          obtain ⟨jrow, hj, hd⟩ := forall₂_mem_left hrows
            (hp.mem_iff.mp (List.mem_map.mpr ⟨r, hr, rfl⟩))
          exact ⟨r.address, txidRow hd ▸ hj⟩

lemma wp_init (w : World) :
    wp (env x) init (fun _ w' => Started x w w') (fun w' => w'.db = w.db) w := by
  simp only [init, wp_bind]
  have hdb : ∀ w', Idle w w' → w'.db = w.db := fun _ h => h.db
  refine wp_mono (wp_initNodes hdb
    (fun _ _ h => ⟨⟨h.db, h.buf, h.btc, h.eth, h.omni⟩, h.txids⟩) (Idle.refl w)) ?_ fun _ h => h
  intro _ w₁ h
  refine wp_initBase h.db fun address _ => ?_
  rw [wp_modify]
  refine ⟨fun _ => h.db, wp_holds h.db (wp_initBase h.db fun address _ => ?_)⟩
  rw [wp_modify]
  refine ⟨fun _ => h.db, wp_holds h.db ?_⟩
  exact wp_mono (wp_initContract hdb
    (fun _ _ h => ⟨⟨h.db, h.buf, h.btc, h.eth, h.omni⟩, h.txids⟩)
    ⟨⟨h.db, h.buf, h.btc, h.eth, h.omni⟩, h.txids⟩) (fun _ w₂ h => wp_initTxids h) fun _ h => h

lemma wp_start (callback_url : String) (w : World) :
    wp (env x) (start callback_url) (fun _ w' => Started x w w') (fun w' => w'.db = w.db) w := by
  rw [start, wp_bind]
  refine wp_mono (wp_init w) (fun _ w₁ h => ?_) fun _ h => h
  rw [wp_modify]
  exact ⟨fun _ => h.db, ⟨h.db, h.buf, h.btc, h.eth, h.omni⟩, h.txids⟩

end

end OpenWallet.Monitor
