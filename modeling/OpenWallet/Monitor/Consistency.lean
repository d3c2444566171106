import OpenWallet.Monitor.BtcChain
import OpenWallet.Monitor.Tasks
import OpenWallet.Monitor.XrpChain

/-!
The committed rows and the stored heights. All scanners append to one buffer and each flushes
all of it, so a row can be committed long before a height of its own coin. Runs in which every
scan finds the buffer empty, and EOS is not scanned again below its stored height, keep every
row below the stored height of its coin and write none of them twice.
-/

namespace OpenWallet.Monitor

open Lib Prog

/-- No row of a coin lies above the stored height of the coin, and no row is there twice. -/
structure Consistent (d : Db) : Prop where
  txutxo_below : ∀ r ∈ d.txutxo, ∃ m, d.maxHeight r.src.coin_id = some m ∧ r.src.height ≤ m
  txaccount_below : ∀ r ∈ d.txaccount,
    ∃ m, d.maxHeight r.src.coin_id = some m ∧ r.src.height ≤ m
  txutxo_once : (d.txutxo.map (·.src)).Nodup
  txaccount_once : (d.txaccount.map (·.src)).Nodup

/-- A scan finds the buffer empty, and the EOS scanner a stored height below its first block. -/
def Ready (t : Task) (w : World) : Prop :=
  (t ≠ .ReCallback → w.vars.vect_sql_ = []) ∧
  (t = .ScanEOS → ∀ c, coinId w.db.cat "EOS" = some (some c) →
    ∀ h ∈ w.db.heights c, h ≤ Eos.start)

lemma le_maxHeight_iff {d : Db} {c : ℤ} {n : ℕ} :
    (∃ m, d.maxHeight c = some m ∧ n ≤ m) ↔ ∃ h ≥ n, otc.Marked c h d.log := by
  constructor
  · rintro ⟨m, hm, hn⟩
    exact ⟨m, hn, marked_iff (w := ⟨.fresh, d, []⟩) |>.mpr (Db.maxHeight_eq_some.mp hm).1⟩
  · rintro ⟨h, hn, hh⟩
    have hmem : h ∈ d.heights c := marked_iff (w := ⟨.fresh, d, []⟩) |>.mp hh
    cases hm : d.maxHeight c with
    | none => simp [Db.maxHeight_eq_none.mp hm] at hmem
    | some m => exact ⟨m, rfl, hn.trans ((Db.maxHeight_eq_some.mp hm).2 h hmem)⟩

lemma once_iff (l : List Stmt) : (l.filterMap Stmt.place).Nodup ↔
    ((l.filterMap Stmt.txutxo?).map (·.src)).Nodup ∧
      ((l.filterMap Stmt.txaccount?).map (·.src)).Nodup := by
  simp only [List.map_filterMap, List.Nodup, List.pairwise_filterMap, ← List.pairwise_and_iff]
  refine List.Pairwise.iff fun s s' => ?_
  cases s <;> cases s' <;> simp [Stmt.place, Stmt.txutxo?, Stmt.txaccount?, place]
  all_goals simp [Src.ext_iff]

lemma consistent_iff {d : Db} : Consistent d ↔ otc.Tidy d.log := by
  constructor
  · rintro ⟨h1, h2, h3, h4⟩
    refine ⟨fun s hs k n p hp => ?_, (once_iff d.log).mpr ⟨h3, h4⟩⟩
    cases s <;> simp only [otc, Stmt.place, Option.some.injEq, Prod.mk.injEq, reduceCtorEq] at hp
    · obtain ⟨rfl, rfl, -⟩ := hp
      exact le_maxHeight_iff.mp (h1 _ (Db.mem_txutxo.mpr hs))
    · obtain ⟨rfl, rfl, -⟩ := hp
      exact le_maxHeight_iff.mp (h2 _ (Db.mem_txaccount.mpr hs))
  · rintro ⟨h1, h2⟩
    obtain ⟨h3, h4⟩ := (once_iff d.log).mp h2
    exact ⟨fun r hr => le_maxHeight_iff.mpr (h1 _ (Db.mem_txutxo.mp hr) _ _ _ rfl),
      fun r hr => le_maxHeight_iff.mpr (h1 _ (Db.mem_txaccount.mp hr) _ _ _ rfl), h3, h4⟩

/-! ### The passes -/

section

variable {x : Weather}

/-- The beginning of a pass with an empty buffer, no lower than the stored height. -/
lemma neat_begun {coin : String} {G : Grounds} {w : World} {coin_id : ℤ} {pre_height s : ℕ}
    {node : NodeInfo} (h : otc.Tidy w.db.log) (hbuf : w.vars.vect_sql_ = [])
    (hb : Begun w coin coin_id pre_height node) (hG : G.coin_id = coin_id)
    (hle : pre_height ≤ s) : (scanner x G).Neat ⟨w, s, ⊥⟩ := by
  refine Scanner.Neat.start h hbuf fun n hn => ?_
  have hmem : n ∈ w.db.heights G.coin_id := marked_iff.mp hn
  rw [hG] at hmem
  exact ((Db.maxHeight_eq_some.mp hb.current.2.1).2 n hmem).trans hle

variable {coin : String} {start : ℕ → ℕ} {G : NodeInfo → ℤ → ℕ → Grounds}
  {tip : NodeInfo → ℕ → World → Prop} {w w' : World}

lemma tidy_returned (h : otc.Tidy w.db.log) (hbuf : w.vars.vect_sql_ = [])
    (hG : ∀ n c m, (G n c m).coin_id = c) (hle : ∀ c m n, Begun w coin c m n → m ≤ start m)
    (hr : Returned x coin start G tip w w') : otc.Tidy w'.db.log := by
  rcases hr with ⟨rfl, -⟩ | ⟨_, _, _, _, hb, ⟨_, _, hs, -⟩, -⟩
  · exact h
  · exact (Scanner.Steps.neat hs (neat_begun h hbuf hb (hG _ _ _) (hle _ _ _ hb))).tidy

lemma tidy_broken (h : otc.Tidy w.db.log) (hbuf : w.vars.vect_sql_ = [])
    (hG : ∀ n c m, (G n c m).coin_id = c) (hle : ∀ c m n, Begun w coin c m n → m ≤ start m)
    (hr : Broken x coin start G w w') : otc.Tidy w'.db.log := by
  rcases hr with ⟨hdb, -⟩ | ⟨_, _, _, _, hb, b, hs, hdb, -⟩
  · rwa [hdb]
  · rw [hdb]
    exact (Scanner.Steps.neat hs (neat_begun h hbuf hb (hG _ _ _) (hle _ _ _ hb))).tidy

end

lemma wp_task_tidy {x : Weather} (t : Task) {w : World} (hready : Ready t w)
    (h : otc.Tidy w.db.log) :
    wp (env x) t.run (fun _ w' => otc.Tidy w'.db.log) (fun w' => otc.Tidy w'.db.log) w := by
  have hIJ : ∀ w : World, otc.Tidy w.db.log → otc.Tidy w.db.log := fun _ h => h
  have ht : Timeless fun w => otc.Tidy w.db.log := fun _ _ h => h
  have hJ : ∀ w' : World, w'.db = w.db → w'.wire = w.wire → otc.Tidy w'.db.log :=
    fun w' hdb _ => by rwa [hdb]
  have hKI : ∀ w : World, otc.Tidy w.db.log ∧ w.vars.vect_sql_ = [] → otc.Tidy w.db.log :=
    fun w h => h.1
  have hid : ∀ {w : World} {coin : String} (c : ℤ) (m : ℕ) (n : NodeInfo),
      Begun w coin c m n → m ≤ id m := fun _ _ _ _ => le_rfl
  cases t with
  | ScanBTC =>
    refine wp_scanTask hKI hIJ ht hJ (fun l _ => ?_) fun w₁ ⟨h₁, hbuf⟩ _ => ?_
    · rw [foldl_btc]
      exact ⟨h, hready.1 (by simp)⟩
    · exact wp_mono (Btc.wp_scanBTC w₁ Btc.Either fun _ _ _ _ _ _ _ _ _ _ _ _ => trivial)
        (fun _ _ hr => tidy_returned h₁ hbuf (fun _ _ _ => rfl) hid hr)
        fun _ hr => tidy_broken h₁ hbuf (fun _ _ _ => rfl) hid hr
  | ScanETH =>
    refine wp_scanTask hKI hIJ ht hJ (fun l _ => ?_) fun w₁ ⟨h₁, hbuf⟩ _ => ?_
    · rw [foldl_eth]
      exact ⟨h, hready.1 (by simp)⟩
    · exact wp_mono (Eth.wp_scanETH w₁)
        (fun _ _ hr => tidy_returned h₁ hbuf (fun _ _ _ => rfl) hid hr)
        fun _ hr => tidy_broken h₁ hbuf (fun _ _ _ => rfl) hid hr
  | ScanXRP =>
    have hbuf := hready.1 (by simp)
    rw [Task.run, ScanXRP, wp_bind]
    refine wp_mono (Xrp.wp_scanXRP w) (fun _ w' hr => wp_SetTimeout hIJ ht ?_)
      fun w' hr => tidy_broken h hbuf (fun _ _ _ => rfl) hid hr
    rcases hr with ⟨rfl, -⟩ | hr
    · exact h
    · exact tidy_returned h hbuf (fun _ _ _ => rfl) hid hr
  | ScanEOS =>
    have hbuf := hready.1 (by simp)
    have hle : ∀ c m n, Begun w "EOS" c m n → m ≤ Eos.start := fun c m n hb =>
      hready.2 rfl c hb.current.1 m (Db.maxHeight_eq_some.mp hb.current.2.1).1
    rw [Task.run, ScanEOS, wp_bind]
    refine wp_mono (Eos.wp_scanEOS w) (fun _ w' hr => wp_SetTimeout hIJ ht ?_)
      fun w' hr => tidy_broken h hbuf (fun _ _ _ => rfl) hle hr
    rcases hr with ⟨rfl, -⟩ | hr
    · exact h
    · exact tidy_returned h hbuf (fun _ _ _ => rfl) hle hr
  | ScanOMNI_USDT =>
    refine wp_scanTask hKI hIJ ht hJ (fun l _ => ?_) fun w₁ ⟨h₁, hbuf⟩ _ => ?_
    · rw [foldl_omni]
      exact ⟨h, hready.1 (by simp)⟩
    · exact wp_mono (Omni.wp_scanOMNI_USDT w₁)
        (fun _ _ hr => tidy_returned h₁ hbuf (fun _ _ _ => rfl) hid hr)
        fun _ hr => tidy_broken h₁ hbuf (fun _ _ _ => rfl) hid hr
  | ReCallback =>
    rw [Task.run, ReCallback, wp_bind]
    exact wp_mono (wp_reCallback w)
      (fun _ w' hs => wp_SetTimeout hIJ ht (by rw [hs.db]; exact h)) fun w' hdb => by rwa [hdb]

/-- **The database stays consistent** along every run in which each scan finds the buffer empty
and EOS is not scanned again, whatever fails and wherever a process ends. -/
theorem consistent_of_ready {x : Weather} {callback_url : String} {w₀ w : World} {b : Bool}
    (hr : Reach x callback_url Ready w₀ b w) (h : Consistent w₀.db) : Consistent w.db := by
  rw [consistent_iff] at h ⊢
  refine (hr.inv (I := fun w => otc.Tidy w.db.log) (fun _ h => h) h (fun w h => ?_)
    fun t w hready h => wp_task_tidy t hready h).1
  refine wp_mono (wp_start callback_url _) (fun _ w' hs => ?_) fun w' hdb => by rwa [hdb]
  rw [hs.db]
  exact h

/-- One node for both coins; the request number `lost` fails. -/
def interrupted (height lost : ℕ) (t : ℕ) (r : Request) : Answer :=
  if t = lost then .down
  else match r.data.find? "method" with
    | some (.str "ledger") | some (.str "tx") => Xrp.onePayment.node height r
    | _ => Btc.oneTx.node height r

lemma interrupted_btc (height lost : ℕ) :
    Btc.oneTx.Honest (.clear (interrupted height lost)) := by
  refine Btc.honest_of_node (fun _ => height) fun t url auth d hd => ?_
  unfold interrupted
  split
  · exact Or.inl rfl
  · rcases hd with ⟨i, rfl⟩ | ⟨hash, rfl⟩ | ⟨txid, rfl⟩ <;> exact Or.inr rfl

lemma interrupted_xrp (height lost : ℕ) :
    Xrp.onePayment.Honest (.clear (interrupted height lost)) := by
  refine Xrp.honest_of_node (fun _ => height) fun t url auth d hd => ?_
  unfold interrupted
  split
  · exact Or.inl rfl
  · rcases hd with ⟨i, rfl⟩ | ⟨hash, rfl⟩ <;> exact Or.inr rfl

/-- The BTC scan breaks off after the first of two blocks, and the XRP scan commits its row. -/
theorem inconsistent_interrupted : ¬ ∀ (x : Weather) (callback_url : String) (w₀ w : World)
    (b : Bool), Reach x callback_url Free w₀ b w → Consistent w₀.db → Consistent w.db := by
  intro h
  have hc := h _ _ _ _ _ (reach_play (interrupted 2 5) "receiver" [.ScanBTC, .ScanXRP]
    (smallWorld [(1, 0), (3, 0)]) fun _ _ _ _ => trivial) ⟨nofun, nofun, .nil, .nil⟩
  have hrow : ∃ r ∈ (play (interrupted 2 5) "receiver" [.ScanBTC, .ScanXRP]
      (smallWorld [(1, 0), (3, 0)])).2.db.txutxo, r.src.coin_id = 1 ∧ r.src.height = 1 := by
    decide +kernel
  have hmax : (play (interrupted 2 5) "receiver" [.ScanBTC, .ScanXRP]
      (smallWorld [(1, 0), (3, 0)])).2.db.maxHeight 1 = some 0 := by decide +kernel
  obtain ⟨r, hr, hcoin, hheight⟩ := hrow
  obtain ⟨m, hm, hle⟩ := hc.txutxo_below r hr
  rw [hcoin, hmax, Option.some.injEq] at hm
  omega

/-- Where nothing breaks off, the same scans leave the database consistent. -/
theorem consistent_uninterrupted : Consistent (play (interrupted 2 100) "receiver"
    [.ScanBTC, .ScanXRP] (smallWorld [(1, 0), (3, 0)])).2.db := by
  refine consistent_of_ready (reach_play _ _ _ _ fun pre t post hts => ?_)
    ⟨nofun, nofun, .nil, .nil⟩
  rcases pre with _ | ⟨t₁, _ | ⟨t₂, pre⟩⟩
  · obtain ⟨rfl, -⟩ := List.cons_eq_cons.mp hts
    exact ⟨fun _ => rfl, by simp⟩
  · obtain ⟨rfl, rfl, -⟩ : t₁ = .ScanBTC ∧ t = .ScanXRP ∧ post = [] := by
      simpa [eq_comm] using hts
    have hbuf : (play (interrupted 2 100) "receiver" [.ScanBTC]
        (smallWorld [(1, 0), (3, 0)])).2.vars.vect_sql_ = [] := by decide +kernel
    exact ⟨fun _ => hbuf, by simp⟩
  · simp at hts

end OpenWallet.Monitor
