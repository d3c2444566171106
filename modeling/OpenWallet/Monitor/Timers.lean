import OpenWallet.Monitor.Tasks

/-!
The event loop: the tasks are registered one after the other, each with a first call, and from
then on a task is called when its timer goes off. A timer that goes off is not armed any more,
so a task has to arm it again before it returns. The scanners that read their addresses from
the table do not where they have read none yet.
-/

namespace OpenWallet.Monitor

open Lib Prog

/-- The key of a task in `map_name_event_`. -/
def Task.name : Task → String
  | ScanBTC => "ScanBTC"
  | ScanETH => "ScanETH"
  | ScanXRP => "ScanXRP"
  | ScanEOS => "ScanEOS"
  | ScanOMNI_USDT => "ScanOMNI_USDT"
  | ReCallback => "ReCallback"

/-- The tasks in the order of `registerTask`. -/
def registerTask : List Task :=
  [.ScanBTC, .ScanETH, .ScanXRP, .ScanEOS, .ScanOMNI_USDT, .ReCallback]

/-- The timer of a task is pending. -/
def Armed (t : Task) (w : World) : Prop := t.name ∈ w.vars.timers.map Prod.fst

instance (t : Task) (w : World) : Decidable (Armed t w) :=
  inferInstanceAs (Decidable (_ ∈ _))

/-- The timer of a task has gone off. -/
def World.fired (w : World) (t : Task) : World :=
  { w with vars := { w.vars with timers := w.vars.timers.filter (·.1 ≠ t.name) } }

/-- The runs of the event loop whose steps are as `ok` allows: the tasks that are registered,
and the world while no task runs. Each step has a weather of its own, and finds a database with
any content. -/
inductive Loop (callback_url : String) (ok : Weather → Task → World → Prop) :
    List Task → World → Prop
  | start {w : World} (x : Weather) (d : Db) :
      Exec (env x) (Monitor.start callback_url) ⟨.fresh, d, []⟩ (.done ()) w →
      Loop callback_url ok [] w
  | register {ts post : List Task} {w w' : World} (x : Weather) (t : Task) (d : Db) :
      Loop callback_url ok ts w → registerTask = ts ++ t :: post → ok x t { w with db := d } →
      Exec (env x) t.run { w with db := d } (.done ()) w' → Loop callback_url ok (ts ++ [t]) w'
  | fire {w w' : World} (x : Weather) (t : Task) (d : Db) :
      Loop callback_url ok registerTask w → Armed t w → ok x t { w.fired t with db := d } →
      Exec (env x) t.run { w.fired t with db := d } (.done ()) w' →
      Loop callback_url ok registerTask w'

/-- The addresses a task does not scan without: the coin, and the map they are read into. -/
def Task.watch : Task → Option (String × (Vars → List (String × ℤ)))
  | ScanBTC => some ("BTC", Vars.s_address_id_btc)
  | ScanETH => some ("ETH", Vars.s_address_id_eth)
  | ScanOMNI_USDT => some ("USDT", Vars.s_address_id_omni_usdt)
  | ScanXRP | ScanEOS | ReCallback => none

/-- The query for the addresses of a coin yields a row. -/
def Yields (x : Weather) (cat : Catalog) (short_name : String) : Prop :=
  ¬ x.sqlFails ∧ ∃ c, coinId cat short_name = some (some c) ∧ ∃ a ∈ cat.account, a.coin_id = c

/-- A task has the addresses it needs: from earlier calls, or from the query it makes. -/
def Watched (x : Weather) (t : Task) (w : World) : Prop :=
  ∀ short_name watch, t.watch = some (short_name, watch) →
    watch w.vars ≠ [] ∨ Yields x w.db.cat short_name

section

variable {x : Weather} {w w' : World} {t : Task} {short_name name : String} {second : ℕ}

/-- The timer of a name is armed, and the others are as they were. -/
def Rearmed (name : String) (w w' : World) : Prop :=
  ∃ second, w'.vars.timers = (name, second) :: w.vars.timers.filter (·.1 ≠ name)

lemma Rearmed.armed (h : Rearmed t.name w w') : Armed t w' := by
  obtain ⟨second, h⟩ := h
  simp [Armed, h]

lemma Rearmed.other {t' : Task} (h : Rearmed t.name w w') (ht : Armed t' w) : Armed t' w' := by
  obtain ⟨second, h⟩ := h
  rw [Armed, h, List.map_cons, List.mem_cons]
  by_cases hname : t'.name = t.name
  · exact Or.inl hname
  · obtain ⟨e, he, hte⟩ := List.mem_map.mp ht
    refine Or.inr (List.mem_map.mpr ⟨e, List.mem_filter.mpr ⟨he, ?_⟩, hte⟩)
    simpa [hte] using hname

lemma Task.name_injective : Function.Injective Task.name := by
  intro t t' h
  cases t <;> cases t' <;> first | rfl | exact absurd h (by decide)

lemma armed_fired {t' : Task} (d : Db) (hne : t' ≠ t) (h : Armed t' w) :
    Armed t' { w.fired t with db := d } := by
  obtain ⟨e, he, hte⟩ := List.mem_map.mp h
  refine List.mem_map.mpr ⟨e, List.mem_filter.mpr ⟨he, ?_⟩, hte⟩
  simpa [hte] using fun h => hne (Task.name_injective h)

lemma wp_SetTimeout_rearmed {w₀ : World} (h : w.vars.timers = w₀.vars.timers) :
    wp (env x) (SetTimeout name second) (fun _ => Rearmed name w₀) (fun _ => True) w := by
  rw [SetTimeout, wp_modify]
  exact ⟨fun _ => trivial, second, by rw [h]⟩

lemma timers_of_returned {coin : String} {start : ℕ → ℕ} {G : NodeInfo → ℤ → ℕ → Grounds}
    {tip : NodeInfo → ℕ → World → Prop} (h : Returned x coin start G tip w w') :
    w'.vars.timers = w.vars.timers := by
  obtain ⟨rfl, -⟩ | ⟨coin_id, pre_height, node, height, -, ⟨i, p, hs, -⟩, -⟩ := h
  · rfl
  · exact hs.frame.timers

/-- A program after which the timers are as they were. -/
def Untimed (p : Scan Unit) : Prop :=
  ∀ x w, wp (env x) p (fun _ w' => w'.vars.timers = w.vars.timers) (fun _ => True) w

lemma untimed_scanBTC : Untimed Btc.scanBTC := fun _ w =>
  wp_mono (Btc.wp_scanBTC w Btc.Either fun _ _ _ _ _ _ _ _ _ _ _ _ => trivial)
    (fun _ _ h => timers_of_returned h) fun _ _ => trivial

lemma untimed_scanETH : Untimed Eth.scanETH := fun _ w =>
  wp_mono (Eth.wp_scanETH w) (fun _ _ h => timers_of_returned h) fun _ _ => trivial

lemma untimed_scanXRP : Untimed Xrp.scanXRP := fun _ w =>
  wp_mono (Xrp.wp_scanXRP w)
    (fun _ _ h => h.elim (fun h => by rw [h.1]) timers_of_returned) fun _ _ => trivial

lemma untimed_scanEOS : Untimed Eos.scanEOS := fun _ w =>
  wp_mono (Eos.wp_scanEOS w)
    (fun _ _ h => h.elim (fun h => by rw [h.1]) timers_of_returned) fun _ _ => trivial

lemma untimed_scanOMNI_USDT : Untimed Omni.scanOMNI_USDT := fun _ w =>
  wp_mono (Omni.wp_scanOMNI_USDT w) (fun _ _ h => timers_of_returned h) fun _ _ => trivial

lemma untimed_reCallback : Untimed reCallback := by
  intro x w
  simp only [reCallback, wp_bind, wp_get]
  refine ⟨fun _ => trivial, wp_mono (wp_loop_always
    (I := fun _ w' => w'.vars.timers = w.vars.timers) _ rfl ?_) ?_ fun _ h => h⟩
  · intro json_params b w₁ h
    simp only [wp_bind, wp_curl, liftM_eq, wp_lift]
    exact ⟨fun _ => trivial, fun a _ => ⟨fun c _ => h, fun _ _ => trivial⟩⟩
  · intro r w₁ h
    rw [wp_modify]
    exact ⟨fun _ => trivial, h⟩

lemma wp_scan_rearmed {scan : Scan Unit} (hscan : Untimed scan) :
    wp (env x) (do scan; SetTimeout name second) (fun _ => Rearmed name w) (fun _ => True) w := by
  rw [wp_bind]
  exact wp_mono (hscan x w) (fun _ _ h => wp_SetTimeout_rearmed h) fun _ h => h

/-- Where the query yields a row, something is read. -/
lemma wp_loadAddresses_yields {set : String → ℤ → Vars → Vars}
    (h : Yields x w.db.cat short_name) :
    wp (env x) (loadAddresses short_name set)
      (fun _ w' => ∃ l : List (String × ℤ), l ≠ [] ∧
        w' = { w with vars := l.foldl (fun v r => set r.1 r.2 v) w.vars })
      (fun _ => True) w := by
  obtain ⟨hsql, c, hc, a, ha, hac⟩ := h
  have hrow : ∃ row rows, Query.eval w.db (.addresses short_name) = some (row :: rows) := by
    have hmem : a ∈ w.db.cat.account.filter fun a => some a.coin_id = some c := by simp [ha, hac]
    obtain ⟨a', as, has⟩ := List.exists_cons_of_ne_nil (List.ne_nil_of_mem hmem)
    exact ⟨_, _, by rw [Query.eval, hc, Option.map_some, has, List.map_cons]⟩
  obtain ⟨row, rows, heval⟩ := hrow
  simp only [loadAddresses, getData, wp_bind]
  refine wp_getData trivial (fun hnone => ?_) fun rows₁ rows' he hp => ?_
  · rw [heval] at hnone
    exact absurd hnone (by simp [hsql])
  cases rows' with
  | nil =>
    rw [heval, Option.some.injEq] at he
    exact absurd (hp.length_eq) (by simp [← he])
  | cons row' rows' =>
    simp only [wp_lift, liftM_eq]
    refine ⟨fun json_data hdata => ?_, fun _ _ => trivial⟩
    cases hm : (row' :: rows').mapM (rowData [.STRING, .INT]) with
    | error e => simp [hm] at hdata
    | ok jrows =>
      obtain rfl : json_data = .arr jrows := by simpa [hm, eq_comm] using hdata
      have hlen := (forall₂_of_mapM hm).length_eq
      simp only [Json.elems_arr, Except.ok.injEq, reduceCtorEq, implies_true, and_true,
        forall_eq']
      refine wp_mono (wp_forEach (I := fun pre w' => ∃ l : List (String × ℤ),
        l.length = pre.length ∧
        w' = { w with vars := l.foldl (fun v r => set r.1 r.2 v) w.vars }) jrows
        ⟨[], rfl, rfl⟩ ?_) ?_ fun _ h => h
      · rintro pre jrow post _ - ⟨l, hl, rfl⟩
        simp only [wp_bind, wp_lift, wp_modify]
        exact ⟨fun r _ => ⟨fun _ => trivial, l ++ [r], by simp [hl], by simp⟩,
          fun _ _ => trivial⟩
      · rintro - _ ⟨l, hl, rfl⟩
        refine ⟨l, ?_, rfl⟩
        rintro rfl
        simp [← hlen] at hl

/-- A task with addresses of its own arms its timer at its end, or it has found none. -/
lemma wp_scanTask_rearmed {set : String → ℤ → Vars → Vars} {scan : Scan Unit}
    {watch : Vars → List (String × ℤ)} (hscan : Untimed scan)
    (hset : ∀ a i v, watch (set a i v) ≠ []) (hkeep : ∀ a i v, watch v ≠ [] →
      watch (set a i v) ≠ []) (htimers : ∀ a i v, (set a i v).timers = v.timers) :
    wp (env x) (do
      loadAddresses short_name set
      let v ← get
      if (watch v).isEmpty then pure ()
      else
        scan
        SetTimeout name second)
      (fun _ w' => (watch w.vars ≠ [] ∨ Yields x w.db.cat short_name) → Rearmed name w w')
      (fun _ => True) w := by
  have hfold : ∀ (l : List (String × ℤ)) v,
      (l.foldl (fun v r => set r.1 r.2 v) v).timers = v.timers := by
    intro l
    induction l with
    | nil => exact fun _ => rfl
    | cons r l ih => exact fun v => (ih _).trans (htimers _ _ _)
  have hsome : ∀ (l : List (String × ℤ)) v, watch v ≠ [] →
      watch (l.foldl (fun v r => set r.1 r.2 v) v) ≠ [] := by
    intro l
    induction l with
    | nil => exact fun _ h => h
    | cons r l ih => exact fun v h => ih _ (hkeep _ _ _ h)
  have hload : wp (env x) (loadAddresses short_name set) (fun _ w' =>
      w'.vars.timers = w.vars.timers ∧
      ((watch w.vars ≠ [] ∨ Yields x w.db.cat short_name) → watch w'.vars ≠ []))
      (fun _ => True) w := by
    by_cases h : Yields x w.db.cat short_name
    · refine wp_mono (wp_loadAddresses_yields h) ?_ fun _ h => h
      rintro - _ ⟨_ | ⟨r, l⟩, hl, rfl⟩
      · exact absurd rfl hl
      · exact ⟨hfold _ _, fun _ => hsome l _ (hset _ _ _)⟩
    · refine wp_mono wp_loadAddresses ?_ fun _ _ => trivial
      rintro - _ ⟨l, -, rfl⟩
      exact ⟨hfold _ _, fun hw => hsome l _ (hw.resolve_right h)⟩
  rw [wp_bind]
  refine wp_mono hload (fun _ w₁ ⟨htime, hne⟩ => ?_) fun _ h => h
  simp only [wp_bind, wp_get]
  refine ⟨fun _ => trivial, ?_⟩
  split
  · next hempty => exact fun hw => absurd (by simpa using hempty) (hne hw)
  · rw [wp_bind]
    refine wp_mono (hscan x w₁) (fun _ w₂ h => ?_) fun _ h => h
    exact wp_mono (wp_SetTimeout_rearmed (h.trans htime)) (fun _ _ h _ => h) fun _ h => h

lemma wp_task_rearmed (t : Task) (w : World) :
    wp (env x) t.run (fun _ w' => Watched x t w → Rearmed t.name w w') (fun _ => True) w := by
  have hwatch : ∀ {short_name : String} {watch : Vars → List (String × ℤ)} {w' : World},
      t.watch = some (short_name, watch) →
      ((watch w.vars ≠ [] ∨ Yields x w.db.cat short_name) → Rearmed t.name w w') →
      Watched x t w → Rearmed t.name w w' := fun ht h hw => h (hw _ _ ht)
  cases t with
  | ScanBTC =>
    exact wp_mono (wp_scanTask_rearmed untimed_scanBTC (by simp) (by simp) (by simp))
      (fun _ _ => hwatch rfl) fun _ h => h
  | ScanETH =>
    exact wp_mono (wp_scanTask_rearmed untimed_scanETH (by simp) (by simp) (by simp))
      (fun _ _ => hwatch rfl) fun _ h => h
  | ScanOMNI_USDT =>
    exact wp_mono (wp_scanTask_rearmed untimed_scanOMNI_USDT (by simp) (by simp) (by simp))
      (fun _ _ => hwatch rfl) fun _ h => h
  | ScanXRP =>
    exact wp_mono (wp_scan_rearmed untimed_scanXRP) (fun _ _ h _ => h) fun _ h => h
  | ScanEOS =>
    exact wp_mono (wp_scan_rearmed untimed_scanEOS) (fun _ _ h _ => h) fun _ h => h
  | ReCallback =>
    exact wp_mono (wp_scan_rearmed untimed_reCallback) (fun _ _ h _ => h) fun _ h => h

/-- A task that does not find the addresses it needs can return without its timer. -/
lemma exec_unarmed (h : ¬ Watched x t w) :
    ∃ w', Exec (env x) t.run w (.done ()) w' ∧ w'.vars.timers = w.vars.timers := by
  obtain ⟨short_name, watch, ht, hempty, hyields⟩ :
      ∃ short_name watch, t.watch = some (short_name, watch) ∧ watch w.vars = [] ∧
        ¬ Yields x w.db.cat short_name := by
    simpa [Watched, not_or] using h
  -- the query fails, or it has no rows
  have hanswer : ∃ a, (env x).answers (.getData (.addresses short_name)) w a w ∧
      (a = none ∨ a = some []) := by
    by_cases hsql : x.sqlFails
    · exact ⟨none, ⟨rfl, Or.inl ⟨hsql, rfl⟩⟩, Or.inl rfl⟩
    · have hnone : ∀ c, coinId w.db.cat short_name = some (some c) →
          ∀ a ∈ w.db.cat.account, a.coin_id ≠ c := fun c hc a ha hac =>
        hyields ⟨hsql, c, hc, a, ha, hac⟩
      refine ⟨_, ⟨rfl, Or.inr (Or.inl rfl)⟩, ?_⟩
      rw [Query.eval]
      rcases hcoin : coinId w.db.cat short_name with _ | _ | c
      · exact Or.inl rfl
      · exact Or.inr (by simp)
      · exact Or.inr (by simpa using hnone c hcoin)
  obtain ⟨a, ha, hnone⟩ := hanswer
  have hget : (env x).answers .get w w.vars w := ⟨rfl, rfl⟩
  refine ⟨w, ?_, rfl⟩
  cases t with
  | ScanXRP | ScanEOS | ReCallback => exact absurd ht (by simp [Task.watch])
  | ScanBTC | ScanETH | ScanOMNI_USDT =>
    simp only [Task.watch, Option.some.injEq, Prod.mk.injEq] at ht
    obtain ⟨rfl, rfl⟩ := ht
    refine .call ha ?_
    rcases hnone with rfl | rfl
    all_goals
      refine .call hget ?_
      simp only [Prog.bind, hempty, List.isEmpty_nil, if_true]
      exact .ret

end

/-- **Every registered task has a pending timer** while no task runs, in every run of the event
loop whose tasks find the addresses they need; and a task whose timer is not pending can only
be relied on to arm it where it does. -/
theorem armed_iff_watched (callback_url : String) :
    (∀ ts w, Loop callback_url Watched ts w → ∀ t ∈ ts, Armed t w) ∧
    ∀ x t w, ¬ Armed t w →
      ((∀ w', Exec (env x) t.run w (.done ()) w' → Armed t w') ↔ Watched x t w) := by
  have hstep : ∀ {x t w w'}, Watched x t w → Exec (env x) (Task.run t) w (.done ()) w' →
      Rearmed t.name w w' := fun hw hx => exec_post hx (wp_task_rearmed _ _) hw
  refine ⟨fun ts w h => ?_, fun x t w hout => ⟨fun h => ?_, fun hw w' hx => (hstep hw hx).armed⟩⟩
  · induction h with
    | start => simp
    | register x t d _ _ hok hx ih =>
      have hre := hstep hok hx
      intro t' ht'
      rcases List.mem_append.mp ht' with ht' | ht'
      · exact hre.other (ih t' ht')
      · exact List.mem_singleton.mp ht' ▸ hre.armed
    | fire x t d _ _ hok hx ih =>
      have hre := hstep hok hx
      intro t' ht'
      by_cases hne : t' = t
      · exact hne ▸ hre.armed
      · exact hre.other (armed_fired d hne (ih t' ht'))
  · by_contra hw
    obtain ⟨w', hx, htimers⟩ := exec_unarmed hw
    refine hout ?_
    rw [Armed, ← htimers]
    exact h w' hx

/-- A process that has started, with no node up. -/
def started (d : Db) : World :=
  (run (serve fun _ _ => .down) (start "receiver") ⟨.fresh, d, []⟩).2

/-- And that has registered its first task. -/
def registered (d : Db) : World :=
  (run (serve fun _ _ => .down) Task.ScanBTC.run { started d with db := d }).2

lemma loop_registered {ok : Weather → Task → World → Prop} {d : Db}
    (hok : ok (.clear fun _ _ => .down) .ScanBTC { started d with db := d })
    (hstart : alive (run (serve fun _ _ => .down) (start "receiver") ⟨.fresh, d, []⟩).1 = true)
    (hrun : alive (run (serve fun _ _ => .down) Task.ScanBTC.run
      { started d with db := d }).1 = true) :
    Loop "receiver" ok [.ScanBTC] (registered d) :=
  .register _ .ScanBTC d (.start _ d (exec_alive hstart)) rfl hok (exec_alive hrun)

/-- The first task is pending where BTC has an account. -/
theorem armed_account : ∀ t ∈ [Task.ScanBTC], Armed t (registered (smallWorld []).db) := by
  refine (armed_iff_watched "receiver").1 _ _ (loop_registered ?_ (by decide +kernel)
    (by decide +kernel))
  intro short_name watch ht
  obtain ⟨rfl, rfl⟩ : "BTC" = short_name ∧ Vars.s_address_id_btc = watch := by
    simpa [Task.watch] using ht
  exact Or.inr ⟨id, 1, by decide +kernel, by decide +kernel⟩

/-- A setup without an account of BTC. -/
def noAccount : Db :=
  { (smallWorld []).db with cat := { smallCatalog with account := smallCatalog.account.tail } }

/-- **A coin without accounts is never scanned**: its task is gone with its registration. -/
theorem scan_dies : ¬ ∀ callback_url ts w,
    Loop callback_url (fun _ _ _ => True) ts w → ∀ t ∈ ts, Armed t w := by
  intro h
  have hloop : Loop "receiver" (fun _ _ _ => True) [.ScanBTC] (registered noAccount) :=
    loop_registered trivial (by decide +kernel) (by decide +kernel)
  exact absurd (h _ _ _ hloop .ScanBTC (by simp)) (by decide +kernel)

end OpenWallet.Monitor
