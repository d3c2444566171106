import OpenWallet.Server.Scheduler
import OpenWallet.Server.Tags

/-!
The server as a process: the functions it runs in the background, and the requests for addresses,
one at a time, over restarts; and how far the accounts of a coin come in a time.
-/

namespace OpenWallet.Server

open Lib Prog
open Monitor (NodeInfo)

/-! ### The background -/

/-- The functions that `AppInitMain` gives to the scheduler. -/
inductive Background
  | CreateBtcAddress
  | CreateEthAddress
  | CreateXrpAddress
  | CreateEosAddress
  | CreateOmniUstdAddress
deriving DecidableEq

namespace Background

def coin_name : Background → String
  | CreateBtcAddress => "BTC"
  | CreateEthAddress => "ETH"
  | CreateXrpAddress => "XRP"
  | CreateEosAddress => "EOS"
  | CreateOmniUstdAddress => "USDT"

def address_quantity : Background → ℕ
  | CreateBtcAddress | CreateEthAddress | CreateXrpAddress | CreateEosAddress
  | CreateOmniUstdAddress => 100

def run (f : Background) : Srv Bool := getNewAddress f.coin_name f.address_quantity

end Background

/-- What `AppInitMain` calls `scheduleEvery` with. -/
def everyTenSeconds : List (Repeat Background) :=
  [⟨.CreateBtcAddress, 10000⟩, ⟨.CreateEthAddress, 10000⟩, ⟨.CreateXrpAddress, 10000⟩,
    ⟨.CreateEosAddress, 10000⟩, ⟨.CreateOmniUstdAddress, 10000⟩]

/-- A process: when it began, what it has scheduled when, when its thread was started, and what has
happened in its scheduler since. -/
structure Process where
  began : ℕ
  calls : List (ℕ × Repeat Background)
  ready : ℕ
  events : List (ℕ × TaskEvent Background)
  scheduler : CScheduler Background

namespace Process

def step (p : Process) (e : Option (TaskEvent Background)) (s : CScheduler Background) : Process :=
  { p with events := p.events ++ (e.map fun e => (p.scheduler.now, e)).toList, scheduler := s }

def uptime : Option Process → ℕ
  | none => 0
  | some p => p.scheduler.now - p.began

/-- The calls of `scheduleEvery` come between the begin of the process and that of the thread. -/
structure Scheduled (p : Process) : Prop where
  tasks : p.calls.map Prod.snd = everyTenSeconds
  began : ∀ call ∈ p.calls, p.began ≤ call.1
  ready : ∀ call ∈ p.calls, call.1 ≤ p.ready

end Process

open Process

/-- The runs of the server from a database and a key store on: the time for which there has been a
process before the last one, the last process if it is there, and the state. Requests for addresses
do not overlap: one may come between any two steps of a function of the background, and is done
before the next. Transfers, which write no account and no user, are left out. A function of the
background that throws ends the process, and so does a request whose exception is not caught; it
may be killed and started again at any time. -/
inductive Lives (x : Weather) (clock : ℕ → ℕ → Prop) (g_json_config : Json) (w₀ : World) :
    ℕ → Option Process → World → Prop
  | begin : Lives x clock g_json_config w₀ 0 none w₀
  | start {before : ℕ} {p : Option Process} {q : Process} {w w' : World} {o : Outcome Exn Bool} :
      Lives x clock g_json_config w₀ before p w →
      Exec (env x) (init g_json_config) w.restarted o w' → returned o = true → q.Scheduled →
      q.events = [] → q.scheduler = CScheduler.start 1 q.calls q.ready →
      Lives x clock g_json_config w₀ (before + uptime p) (some q) w'
  | fail {before : ℕ} {p : Option Process} {w w' : World} {o : Outcome Exn Bool} :
      Lives x clock g_json_config w₀ before p w →
      Exec (env x) (init g_json_config) w.restarted o w' → returned o = false →
      Lives x clock g_json_config w₀ (before + uptime p) none w'
  | request {before : ℕ} {p : Process} {w w' : World} {fHelp : Bool} {params : Json}
      {o : Outcome Exn Json} :
      Lives x clock g_json_config w₀ before (some p) w →
      Exec (env x) (getrechargeaddress true fHelp params) w o w' → survived o = true →
      Lives x clock g_json_config w₀ before (some p) w'
  | lost {before : ℕ} {p : Process} {w w' : World} {fHelp : Bool} {params : Json}
      {o : Outcome Exn Json} :
      Lives x clock g_json_config w₀ before (some p) w →
      Exec (env x) (getrechargeaddress true fHelp params) w o w' → survived o = false →
      Lives x clock g_json_config w₀ (before + uptime (some p)) none w'
  | step {before : ℕ} {p : Process} {w : World} {e : Option (TaskEvent Background)}
      {s : CScheduler Background} :
      Lives x clock g_json_config w₀ before (some p) w → CScheduler.Step clock p.scheduler e s →
      (∀ task, e ≠ some (.scheduled task)) →
      Lives x clock g_json_config w₀ before (some (p.step e s)) w
  | background {before : ℕ} {p : Process} {w w' : World} {task : Repeat Background}
      {s : CScheduler Background} {o : Outcome Exn Bool} :
      Lives x clock g_json_config w₀ before (some p) w →
      CScheduler.Step clock p.scheduler (some (.scheduled task)) s →
      Exec ((env x).among (Requested x)) task.f.run w o w' → returned o = true →
      Lives x clock g_json_config w₀ before (some (p.step (some (.scheduled task)) s)) w'
  | threw {before : ℕ} {p : Process} {w w' : World} {task : Repeat Background}
      {o : Outcome Exn Bool} :
      Lives x clock g_json_config w₀ before (some p) w →
      .working (.call task) ∈ p.scheduler.threads →
      Exec ((env x).among (Requested x)) task.f.run w o w' → returned o = false →
      Lives x clock g_json_config w₀ (before + uptime (some p)) none w'

lemma CScheduler.Step.call {clock : ℕ → ℕ → Prop} {s s' : CScheduler Background}
    {task : Repeat Background} (h : CScheduler.Step clock s (some (.scheduled task)) s') :
    .working (.call task) ∈ s.threads := by
  generalize he : some (TaskEvent.scheduled task) = e at h
  cases h with
  | serve h =>
    cases h with
    | @service pre post place hw _ =>
      exfalso
      rcases s.serviceQueue_cases place with ⟨-, hwork, -⟩ | ⟨-, _, _, _, -, hcall⟩
      · rw [CScheduler.called?_eq_none hwork] at he
        cases he
      · rw [hcall] at he
        cases he
    | _ => cases he
  | finish hw =>
    obtain rfl := TaskEvent.scheduled.inj (Option.some.inj he)
    rw [hw]
    simp
  | _ => cases he

/-! ### The identifiers of a call -/

/-- The identifiers of the accounts of a coin are at most `B`. -/
def Below (c B : ℤ) (w : World) : Prop := ∀ a ∈ w.db.accounts c, a.account_id ≤ B

/-- Of a coin's accounts and of the names nothing has changed. -/
def Unchanged (c : ℤ) (w w' : World) : Prop := Later c w w' ∧ w.vars.Alike w'.vars

section

variable {x : Weather} {c : ℤ} {w w₁ w₂ : World}

lemma Unchanged.trans (h : Unchanged c w w₁) (h' : Unchanged c w₁ w₂) : Unchanged c w w₂ :=
  ⟨⟨h'.1.coin.trans h.1.coin, h'.1.accounts.trans h.1.accounts, h.1.wire.trans h'.1.wire⟩,
    ⟨h'.2.node.trans h.2.node, h'.2.name.trans h.2.name⟩⟩

lemma Unchanged.still (h : Unchanged c w w₁) (hl : Later c w₁ w₂) (hv : w₂.vars = w₁.vars) :
    Unchanged c w w₂ :=
  h.trans ⟨hl, hv ▸ ⟨rfl, rfl⟩⟩

lemma Unchanged.requested (h : Unchanged c w w₁) (hr : Requested x w₁ w₂) : Unchanged c w w₂ :=
  h.still hr.asked.later hr.asked.vars

lemma Unchanged.vars {v : Vars} (h : Unchanged c w w₁) (hv : w₁.vars.Alike v) :
    Unchanged c w { w₁ with vars := v } :=
  h.trans ⟨.of_cat rfl le_rfl, hv⟩

variable {node : NodeInfo} {coin_id : ℤ} {M n : ℕ}

lemma wp_makes_unchanged {α : Type} {p : Srv α} {Q : α → Prop} (hp : p.Within Makes Q)
    (h : Unchanged c w w₁) :
    wp ((env x).among (Requested x)) p (fun _ => Unchanged c w) (Unchanged c w) w₁ := by
  refine wp_mono (wp_within_among (I := Unchanged c w) hp (fun _ _ h => h.requested) ?_ ?_ h)
    (fun _ _ h => h.2) fun _ h => h
  · rintro o w₁ w₂ - h₁ ⟨-, rfl⟩
    exact h₁
  · intro o w₁ r w₂ ho h₁ ha
    obtain ⟨hl, hv⟩ := ho.later ha
    exact h₁.still hl hv

lemma wp_newRows_unchanged (h : Unchanged c w w₁) :
    wp ((env x).among (Requested x)) (newRows node coin_id M n) (fun _ => Unchanged c w)
      (Unchanged c w) w₁ := by
  unfold newRows
  split
  · exact (wp_bind _ _).mpr (wp_makes_unchanged (newLocal_within (fun _ => trivial) _ _ _ _ _) h)
  split
  · exact (wp_bind _ _).mpr (wp_makes_unchanged (newETH_within (fun _ => id) _ _ _ _) h)
  split
  · next hnode =>
    refine (wp_bind _ _).mpr (wp_newXRP (I := fun _ _ => Unchanged c w)
      (M := fun _ _ _ _ _ => Unchanged c w) hnode (fun _ _ _ _ h => h.requested)
      (fun _ _ _ _ _ _ _ h => h.requested) (fun _ _ _ _ _ _ h => h) (fun _ _ _ h => h)
      (fun _ _ _ _ h => h) (fun _ _ _ h => h) (fun _ _ w r a h => h.still (.wired w r a) rfl)
      (fun _ _ w _ _ _ h _ _ _ => h.still (.wired w _ _) rfl)
      (fun _ _ _ _ _ h => h.still (.of_cat rfl le_rfl) rfl)
      (fun _ _ _ _ _ _ h => h.vars ⟨rfl, rfl⟩) (fun _ _ _ _ h _ _ => h.vars ⟨rfl, rfl⟩) h)
  split
  · exact (wp_bind _ _).mpr (wp_newEOS (I := fun _ _ => Unchanged c w)
      (fun _ _ _ _ h => h.requested) (fun _ _ _ h => h) (fun _ _ _ _ h => h) (fun _ _ _ h => h)
      (fun _ _ _ _ h _ => h.vars ⟨rfl, rfl⟩) h)
  split
  · exact (wp_bind _ _).mpr (wp_makes_unchanged (newLocal_within (fun _ => trivial) _ _ _ _ _) h)
  · exact h

/-- How far a call may take the identifiers of a coin. -/
def bound (c B : ℤ) (coin_name : String) (address_quantity : ℕ) (w : World) : ℤ :=
  if w.vars.s_coinName_coinid_.lookup coin_name = some c then B + address_quantity else B

lemma le_bound (c B : ℤ) (coin_name : String) (address_quantity : ℕ) (w : World) :
    B ≤ bound c B coin_name address_quantity w := by
  unfold bound
  split <;> omega

lemma Numbered.le_bound {B : ℤ} {coin_name : String} {count_user count_account : ℕ}
    {rows : List AccountRow} (h : Numbered coin_id M n rows) (hB : Below c B w)
    (hcoin : w.vars.s_coinName_coinid_.lookup coin_name = some coin_id)
    (hcount : Counted w₁.db coin_id count_user count_account M)
    (haccounts : w₁.db.accounts c = w.db.accounts c) (hroom : Room c coin_name n w) :
    ∀ r ∈ rows, r.coin_id = c → r.account_id ≤ bound c B coin_name n w := by
  intro r hr hrc
  obtain rfl : coin_id = c := (h.coin r hr).symm.trans hrc
  obtain ⟨m, hm, -, -⟩ := hcount.last
  obtain ⟨hmem, -⟩ := List.max?_eq_some_iff.mp hm
  obtain ⟨a, ha, rfl⟩ := List.mem_map.mp hmem
  rw [haccounts] at ha
  have hlast := hB a ha
  have hfits := hroom hcoin a ha
  obtain ⟨i, hi, hid⟩ := List.mem_map.mp (h.ids.subset (List.mem_map_of_mem hr))
  rw [List.mem_range] at hi
  rw [bound, if_pos hcoin, ← hid, hcount.newId_eq hm (by omega)]
  omega

/-- A call of `getNewAddress` adds at most so much to the identifiers of its coin. -/
lemma wp_getNewAddress_ids {B : ℤ} {coin_name : String} (hroom : Room c coin_name n w)
    (hB : Below c B w) :
    wp ((env x).among (Requested x)) (getNewAddress coin_name n)
      (fun _ w' => Below c (bound c B coin_name n w) w' ∧ w'.db.cat.coin = w.db.cat.coin ∧
        w.vars.Alike w'.vars)
      (fun w' => Below c (bound c B coin_name n w) w' ∧ w'.db.cat.coin = w.db.cat.coin) w := by
  have hstart : ∀ w₁, Unchanged c w w₁ → Below c (bound c B coin_name n w) w₁ := by
    intro w₁ h₁ a ha
    rw [h₁.1.accounts] at ha
    exact (hB a ha).trans (le_bound _ _ _ _ _)
  refine wp_getNewAddress (P := Unchanged c w) (K := fun rows w₁ => Unchanged c w w₁ ∧
      ∀ r ∈ rows, r.coin_id = c → r.account_id ≤ bound c B coin_name n w)
    (fun _ _ h => h.requested) (fun _ _ h => h.still (.of_cat rfl le_rfl) rfl)
    (fun w₁ h => ⟨hstart w₁ h, h.1.coin, h.2⟩) (fun _ _ _ h hr => ⟨h.1.requested hr, h.2⟩)
    (fun _ w₁ h => ⟨hstart w₁ h.1, h.1.1.coin⟩) ?_ (fun _ _ h => h) (fun _ h => ⟨h.1, h.2.1⟩) ?_ ?_
    ⟨.of_cat rfl le_rfl, rfl, rfl⟩
  · rintro w₁ w₂ ⟨h₁, hcoin, hv⟩ hr
    have hl : Later c w₁ w₂ := hr.asked.later
    refine ⟨?_, hl.coin.trans hcoin, hr.asked.vars ▸ hv⟩
    intro a ha
    rw [hl.accounts] at ha
    exact h₁ a ha
  · rintro rows rows' w₁ ⟨h₁, hrows⟩ hs
    refine ⟨?_, h₁.1.coin, h₁.2⟩
    intro a ha
    obtain ⟨ha, hac⟩ := mem_accounts.mp ha
    rcases List.mem_append.mp ha with ha | ha
    · exact hstart w₁ h₁ a (mem_accounts.mpr ⟨ha, hac⟩)
    · exact hrows a (hs.subset ha) hac
  · intro w₁ coin_id node count_user count_account M h₁ hv hcoin _ hcount
    refine wp_mono (wp_newRows_numbered (wp_newRows_unchanged h₁)) ?_
      fun w₂ h₂ => ⟨hstart w₂ h₂, h₂.1.coin⟩
    rintro (_ | rows) w₂ ⟨h₂, hnum⟩
    · exact ⟨hstart w₂ h₂, h₂.1.coin, h₂.2⟩
    · exact ⟨h₂, (hnum rows rfl).le_bound hB hcoin hcount h₁.1.accounts hroom⟩

end

/-! ### Calls over the time -/

lemma everyTenSeconds_nodup : everyTenSeconds.Nodup := by decide

lemma eq_of_mem_everyTenSeconds {task : Repeat Background} (h : task ∈ everyTenSeconds) :
    task = ⟨task.f, 10000⟩ := by
  unfold everyTenSeconds at h
  simp only [List.mem_cons, List.not_mem_nil, or_false] at h
  rcases h with rfl | rfl | rfl | rfl | rfl <;> rfl

/-- How far a process has come. -/
structure Process.Runs (clock : ℕ → ℕ → Prop) (p : Process) : Prop where
  scheduled : p.Scheduled
  steps : CScheduler.Steps clock (CScheduler.start 1 p.calls p.ready) p.events p.scheduler

section

variable {x : Weather} {clock : ℕ → ℕ → Prop} {g_json_config : Json} {w₀ w : World} {before : ℕ}
variable {p : Process} {q : Option Process} {c m : ℤ} {f : Background} {task : Repeat Background}

lemma Lives.runs (h : Lives x clock g_json_config w₀ before q w) :
    ∀ p, q = some p → p.Runs clock := by
  induction h with
  | begin | fail | lost | threw => simp
  | @start before p q w w' o _ _ _ hq hevents hscheduler _ =>
    rintro _ ⟨⟩
    refine ⟨hq, ?_⟩
    rw [hevents, hscheduler]
    exact .refl
  | request _ _ _ ih => exact ih
  | step _ hst _ ih =>
    rintro _ ⟨⟩
    obtain ⟨hq, hsteps⟩ := ih _ rfl
    exact ⟨⟨hq.tasks, hq.began, hq.ready⟩, hsteps.tail hst⟩
  | background _ hst _ _ ih =>
    rintro _ ⟨⟩
    obtain ⟨hq, hsteps⟩ := ih _ rfl
    exact ⟨⟨hq.tasks, hq.began, hq.ready⟩, hsteps.tail hst⟩

lemma Process.Runs.mem (h : p.Runs clock) (hw : .working (.call task) ∈ p.scheduler.threads) :
    task ∈ everyTenSeconds := by
  rw [← h.scheduled.tasks, ← (CScheduler.tasks_kept h.steps).mem_iff]
  refine List.mem_append_right _ (List.mem_filterMap.mpr ⟨.call task, mem_items.mpr hw, rfl⟩)

/-- The returns of a function, and its call at hand, have had their time. -/
lemma Process.Runs.fits (hclock : ∀ now now', clock now now' → now ≤ now') (h : p.Runs clock)
    (htask : task ∈ everyTenSeconds) :
    ((CScheduler.returnsOf task p.events).length +
        (items p.scheduler.threads).count (.call task)) * milliseconds 10000 ≤
      uptime (some p) := by
  have hmem := htask
  rw [← h.scheduled.tasks, List.mem_map] at hmem
  obtain ⟨⟨t, task⟩, hcall, rfl⟩ := hmem
  have hlen := h.steps.length_callsOf hclock h.scheduled.ready
    (h.scheduled.tasks ▸ everyTenSeconds_nodup) hcall
  have hbegan := h.scheduled.began _ hcall
  have hdelta : task.deltaMilliSeconds = 10000 := congrArg Repeat.deltaMilliSeconds
    (eq_of_mem_everyTenSeconds htask)
  rw [h.steps.length_returnsOf]
  simp only [hdelta] at hlen hbegan ⊢
  unfold uptime
  dsimp only
  omega

def made (f : Background) : Option Process → ℕ
  | none => 0
  | some p => (CScheduler.returnsOf ⟨f, 10000⟩ p.events).length

/-- No function but `f` makes accounts of the coin `c`. -/
def Only (f : Background) (c : ℤ) (cat : Catalog) : Prop :=
  ∀ g : Background, (∃ r ∈ cat.coin, r.short_name = some g.coin_name ∧ r.coin_id = c) → g = f

/-- The identifiers of the accounts are as many as the calls of `f` may have made. -/
structure Ids (f : Background) (c m : ℤ) (w₀ : World) (before : ℕ) (q : Option Process)
    (w : World) : Prop where
  coin : w.db.cat.coin = w₀.db.cat.coin
  mapped : q.isSome → Mapped w.db.cat w.vars
  below : ∃ n : ℕ, n * milliseconds 10000 ≤ before ∧ Below c (m + 100 * (n + made f q)) w

lemma Below.mono {B B' : ℤ} (h : Below c B w) (hB : B ≤ B') : Below c B' w :=
  fun a ha => (h a ha).trans hB

lemma Below.later {B : ℤ} {w' : World} (h : Below c B w) (hl : Later c w w') : Below c B w' := by
  intro a ha
  rw [hl.accounts] at ha
  exact h a ha

lemma Ids.ended (hclock : ∀ now now', clock now now' → now ≤ now')
    (hq : ∀ p, q = some p → p.Runs clock) (hf : ⟨f, 10000⟩ ∈ everyTenSeconds)
    (h : Ids f c m w₀ before q w) :
    ∃ n : ℕ, n * milliseconds 10000 ≤ before + uptime q ∧ Below c (m + 100 * n) w := by
  obtain ⟨n, hn, hbelow⟩ := h.below
  refine ⟨n + made f q, ?_, by simpa using hbelow⟩
  cases q with
  | none => simpa [made, uptime] using hn
  | some p =>
    have hfits := (hq p rfl).fits hclock hf
    rw [Nat.add_mul] at hfits ⊢
    simp only [made]
    omega

end

section

variable {x : Weather} {clock : ℕ → ℕ → Prop} {g_json_config : Json} {w₀ w : World} {before : ℕ}
variable {p : Process} {q : Option Process} {c m : ℤ} {f : Background} {task : Repeat Background}

lemma CScheduler.Step.now_le (hclock : ∀ now now', clock now now' → now ≤ now')
    {s s' : CScheduler Background} {e : Option (TaskEvent Background)}
    (h : CScheduler.Step clock s e s') : s.now ≤ s'.now := by
  cases h with
  | serve h => cases h <;> exact le_rfl
  | tick h => exact hclock _ _ h
  | _ => exact le_rfl

/-- The time does not suffice for the last identifier. -/
def Early (m : ℤ) (before : ℕ) (q : Option Process) : Prop :=
  m + 100 * (((before + uptime q) / milliseconds 10000 : ℕ) : ℤ) < 2 ^ 31

lemma Early.le {before' : ℕ} {q' : Option Process} (h : Early m before' q')
    (hle : before + uptime q ≤ before' + uptime q') : Early m before q := by
  have hdiv := Nat.div_le_div_right (c := milliseconds 10000) hle
  unfold Early at h ⊢
  omega

/-- A call finds room, and if it is one of the coin, it has had its time. -/
lemma Ids.call (hclock : ∀ now now', clock now now' → now ≤ now') (hp : p.Runs clock)
    (hf : Only f c w₀.db.cat) (h : Ids f c m w₀ before (some p) w)
    (hw : .working (.call task) ∈ p.scheduler.threads) (hearly : Early m before (some p)) :
    Room c task.f.coin_name task.f.address_quantity w ∧ ∃ n : ℕ, n * milliseconds 10000 ≤ before ∧
      Below c (m + 100 * (n + made f (some p))) w ∧
      (w.vars.s_coinName_coinid_.lookup task.f.coin_name = some c → task = ⟨f, 10000⟩ ∧
        (n + made f (some p) + 1) * milliseconds 10000 ≤ before + uptime (some p)) := by
  obtain ⟨n, hn, hbelow⟩ := h.below
  have hcall : w.vars.s_coinName_coinid_.lookup task.f.coin_name = some c → task = ⟨f, 10000⟩ ∧
      (n + made f (some p) + 1) * milliseconds 10000 ≤ before + uptime (some p) := by
    intro hc
    obtain ⟨r, hr, hname, hcoin⟩ := (h.mapped rfl).lookup hc
    rw [h.coin] at hr
    obtain rfl : task.f = f := hf _ ⟨r, hr, hname, hcoin⟩
    have hmem := hp.mem hw
    have htask := eq_of_mem_everyTenSeconds hmem
    have hhand : 0 < (items p.scheduler.threads).count (.call task) :=
      List.count_pos_iff.mpr (mem_items.mpr hw)
    have hfits := hp.fits hclock hmem
    have hle : (made task.f (some p) + 1) * milliseconds 10000 ≤ uptime (some p) := by
      refine le_trans (Nat.mul_le_mul_right _ ?_) hfits
      rw [made, ← htask]
      omega
    refine ⟨htask, ?_⟩
    rw [Nat.add_assoc, Nat.add_mul]
    omega
  refine ⟨fun hc a ha => ?_, n, hn, hbelow, hcall⟩
  have hid := hbelow a ha
  have hdiv := (Nat.le_div_iff_mul_le (by decide)).mpr (hcall hc).2
  have hquantity : task.f.address_quantity = 100 := by cases task.f <;> rfl
  unfold Early at hearly
  omega

lemma bound_le {B B' : ℤ} {coin_name : String} {address_quantity : ℕ} (hB : B ≤ B')
    (hc : w.vars.s_coinName_coinid_.lookup coin_name = some c → B + address_quantity ≤ B') :
    bound c B coin_name address_quantity w ≤ B' := by
  unfold bound
  split
  · next h => exact hc h
  · exact hB

/-- As long as the time does not suffice, every call has room. -/
lemma Lives.ids (hclock : ∀ now now', clock now now' → now ≤ now')
    (hmem : ⟨f, 10000⟩ ∈ everyTenSeconds) (hf : Only f c w₀.db.cat) (hB : Below c m w₀)
    (h : Lives x clock g_json_config w₀ before q w) (hearly : Early m before q) :
    Ids f c m w₀ before q w ∧ Serves x g_json_config (Room c) w₀ q.isSome w := by
  have hb : ∀ {b b' : Bool} {w : World}, b = b' → Serves x g_json_config (Room c) w₀ b w →
      Serves x g_json_config (Room c) w₀ b' w := fun hb h => hb ▸ h
  induction h with
  | begin =>
    refine ⟨⟨rfl, by simp, 0, by simp, ?_⟩, .begin⟩
    simpa [made] using hB
  | @start before q p w w' o h hx ho hq hevents hscheduler ih =>
    obtain ⟨hids, hserves⟩ := ih (hearly.le (by simp [uptime]))
    obtain ⟨n, hn, hbelow⟩ := hids.ended hclock h.runs hmem
    refine ⟨?_, hb ho (.start hserves hx)⟩
    have hpost := exec_post hx (wp_init g_json_config rfl)
    cases o with
    | done b =>
      obtain ⟨hquiet, hstarted⟩ := hpost
      have hl : Later c w w' := .of_cat (congrArg Db.cat hquiet.db) (congrArg List.length hquiet.wire).ge
      refine ⟨hl.coin.trans hids.coin, fun _ => ?_, n, hn, ?_⟩
      · rw [hquiet.db]
        exact hstarted.mapped
      · simpa [made, hevents, CScheduler.returnsOf] using hbelow.later hl
    | threw e => cases ho
    | died => cases ho
  | @fail before q w w' o h hx ho ih =>
    obtain ⟨hids, hserves⟩ := ih (hearly.le (by simp [uptime]))
    obtain ⟨n, hn, hbelow⟩ := hids.ended hclock h.runs hmem
    refine ⟨?_, hb ho (.start hserves hx)⟩
    have hpost := exec_post hx (wp_init g_json_config rfl)
    have hquiet : Quiet w.restarted w' := by
      cases o with
      | done b => exact hpost.1
      | threw e => exact hpost
      | died => exact hpost
    have hl : Later c w w' := .of_cat (congrArg Db.cat hquiet.db) (congrArg List.length hquiet.wire).ge
    refine ⟨hl.coin.trans hids.coin, by simp, n, hn, ?_⟩
    simpa [made] using hbelow.later hl
  | @request before p w w' fHelp params o h hx ho ih =>
    obtain ⟨hids, hserves⟩ := ih hearly
    have hr : Requested x w w' := ⟨_, _, _, hx⟩
    have hl : Later c w w' := hr.asked.later
    refine ⟨⟨hl.coin.trans hids.coin, fun hp => ?_, ?_⟩, hb ho (.request hserves hx)⟩
    · exact (hids.mapped hp).alike (hr.asked.vars ▸ ⟨rfl, rfl⟩) hl.coin
    · obtain ⟨n, hn, hbelow⟩ := hids.below
      exact ⟨n, hn, hbelow.later hl⟩
  | @lost before p w w' fHelp params o h hx ho ih =>
    obtain ⟨hids, hserves⟩ := ih (hearly.le (by simp [uptime]))
    have hr : Requested x w w' := ⟨_, _, _, hx⟩
    have hl : Later c w w' := hr.asked.later
    obtain ⟨n, hn, hbelow⟩ := hids.ended hclock h.runs hmem
    refine ⟨⟨hl.coin.trans hids.coin, by simp, n, hn, ?_⟩, hb ho (.request hserves hx)⟩
    simpa [made] using hbelow.later hl
  | @step before p w e s h hst hne ih =>
    have hnow := hst.now_le hclock
    obtain ⟨hids, hserves⟩ := ih (hearly.le (by simp only [uptime, Process.step]; omega))
    refine ⟨⟨hids.coin, fun _ => hids.mapped rfl, ?_⟩, hserves⟩
    obtain ⟨n, hn, hbelow⟩ := hids.below
    refine ⟨n, hn, hbelow.mono ?_⟩
    simp [made, Process.step, CScheduler.returnsOf]
  | @background before p w w' task s o h hst hx ho ih =>
    have hnow := hst.now_le hclock
    obtain ⟨hids, hserves⟩ := ih (hearly.le (by simp only [uptime, Process.step]; omega))
    have hw := hst.call
    obtain ⟨hroom, n, hn, hbelow, hcall⟩ := hids.call hclock (h.runs p rfl) hf hw
      (hearly.le (by simp only [uptime, Process.step]; omega))
    refine ⟨?_, hb ho (.address hserves hroom hx)⟩
    have hquantity : task.f.address_quantity = 100 := by cases task.f <;> rfl
    obtain ⟨-, hpost⟩ := returned_post (fun _ h => ⟨h.1, h.2.1⟩)
      (exec_post hx (wp_getNewAddress_ids hroom hbelow))
    obtain ⟨hbelow', hcoin, hv⟩ := hpost ho
    refine ⟨hcoin.trans hids.coin, fun _ => (hids.mapped rfl).alike hv hcoin, n, hn, hbelow'.mono ?_⟩
    refine bound_le ?_ fun hc => ?_
    · simp [made, Process.step, CScheduler.returnsOf]
    · obtain ⟨rfl, -⟩ := hcall hc
      simp [made, Process.step, CScheduler.returnsOf, hquantity]
      omega
  | @threw before p w w' task o h hw hx ho ih =>
    obtain ⟨hids, hserves⟩ := ih (hearly.le (by simp [uptime]))
    obtain ⟨hroom, n, hn, hbelow, hcall⟩ := hids.call hclock (h.runs p rfl) hf hw
      (hearly.le (by simp [uptime]))
    refine ⟨?_, hb ho (.address hserves hroom hx)⟩
    have hquantity : task.f.address_quantity = 100 := by cases task.f <;> rfl
    obtain ⟨⟨hbelow', hcoin⟩, -⟩ := returned_post (fun _ h => ⟨h.1, h.2.1⟩)
      (exec_post hx (wp_getNewAddress_ids hroom hbelow))
    by_cases hc : w.vars.s_coinName_coinid_.lookup task.f.coin_name = some c
    · obtain ⟨-, htime⟩ := hcall hc
      refine ⟨hcoin.trans hids.coin, by simp, n + made f (some p) + 1, htime, hbelow'.mono ?_⟩
      refine bound_le ?_ fun _ => ?_
      · simp [made]
      · simp [made, hquantity]
        omega
    · have hfits := (h.runs p rfl).fits hclock hmem
      refine ⟨hcoin.trans hids.coin, by simp, n + made f (some p), ?_, hbelow'.mono ?_⟩
      · rw [Nat.add_mul] at hfits ⊢
        simp only [made]
        omega
      · refine bound_le ?_ fun h => absurd h hc
        simp [made]

end

def smallProcess : Process where
  began := 0
  calls := everyTenSeconds.map fun task => (0, task)
  ready := 0
  events := []
  scheduler := CScheduler.start 1 (everyTenSeconds.map fun task => (0, task)) 0

end OpenWallet.Server
