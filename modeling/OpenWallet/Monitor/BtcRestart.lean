import OpenWallet.Monitor.BtcSpend
import OpenWallet.Monitor.Once

/-!
A scan that is split by a restart. The process remembers the deposits it has seen, and a new one
every transaction that has a row, the spends among them too; so after a restart it takes more
transactions for spends than it would have without one.
-/

namespace OpenWallet.Monitor.Btc

open Lib Prog

/-- The transactions taken for spends by a process that has begun with an empty table. -/
abbrev Detected {c : Chain} (hord : c.Ordered) (watch : String → Prop) (h₀ : ℕ) : String → Prop :=
  Taken hord watch h₀ fun _ => False

/-- The verdicts of a process up to the height `k`, and of the one that takes its place. -/
def Resumed {c : Chain} (hord : c.Ordered) (watch : String → Prop) (h₀ k : ℕ)
    (seed : String → Prop) (n : ℕ) (txid : String) : Prop :=
  n ≤ k ∧ Detected hord watch h₀ txid ∨ k < n ∧ Taken hord watch k seed txid

/-- Up to a height the tables have the same rows. -/
def Same (h : ℕ) (d d' : Db) : Prop :=
  ∀ e, (∃ r ∈ d.txutxo, r.src.height ≤ h ∧ r.cols = e) ↔
    ∃ r ∈ d'.txutxo, r.src.height ≤ h ∧ r.cols = e

section

variable {c : Chain} {watch : String → Prop} {h₀ h : ℕ}

def Lists (c : Chain) (watch : String → Prop) (h₀ h : ℕ) (W : ℕ → String → Prop) (d : Db) :
    Prop :=
  ∀ e, (∃ r ∈ d.txutxo, r.src.height ≤ h ∧ r.cols = e) ↔
    ∃ n txid, ∃ vin : Bool, h₀ < n ∧ n ≤ h ∧ txid ∈ c.block (c.hash n) ∧ (vin = true ↔ W n txid) ∧
      c.Entry watch txid vin e

lemma Chain.Distinct.height_eq (hd : c.Distinct) {n n' : ℕ} {txid : String}
    (h : txid ∈ c.block (c.hash n)) (h' : txid ∈ c.block (c.hash n')) : n = n' := by
  obtain ⟨j, hj⟩ := List.getElem?_of_mem h
  obtain ⟨j', hj'⟩ := List.getElem?_of_mem h'
  exact (hd n j n' j' txid hj hj').1

/-- A row that one table has for a transaction, and the other one too, tells the same verdict. -/
lemma Lists.verdict_eq (hd : c.Distinct) {W W' : ℕ → String → Prop} {d d' : Db}
    (hl : Lists c watch h₀ h W d) (hl' : Lists c watch h₀ h W' d') (hsame : Same h d d') {n : ℕ}
    {txid : String} (h1 : h₀ < n) (h2 : n ≤ h) (ht : txid ∈ c.block (c.hash n)) {vin vin' : Bool}
    (hv : vin = true ↔ W n txid) (hv' : vin' = true ↔ W' n txid) {o : Vout} {address : String}
    (ho : o ∈ (c.tx txid).vout) (ha : address ∈ o.addresses.getD [])
    (hw : watch address ∨ vin = true) : vin = vin' := by
  obtain ⟨e, he, -⟩ := Chain.entry_exists vin ho ha hw
  obtain ⟨n', txid', vin'', -, -, ht', hv'', he'⟩ :=
    (hl' e).mp ((hsame e).mp ((hl e).mpr ⟨n, txid, vin, h1, h2, ht, hv, he⟩))
  obtain rfl : txid = txid' := he.txid_eq.symm.trans he'.txid_eq
  obtain rfl := hd.height_eq ht ht'
  rw [he.vin_eq he', Bool.eq_iff_iff]
  exact hv''.trans hv'.symm

/-- Two tables have the same rows just when the verdicts are the same. -/
lemma same_iff (hd : c.Distinct) {W W' : ℕ → String → Prop} {d d' : Db}
    (hl : Lists c watch h₀ h W d) (hl' : Lists c watch h₀ h W' d') :
    Same h d d' ↔ ∀ n, h₀ < n → n ≤ h → ∀ txid ∈ c.block (c.hash n), c.Addressed txid →
      (W n txid ↔ W' n txid) := by
  classical
  constructor
  · rintro hsame n h1 h2 txid ht ⟨o, ho, address, ha⟩
    have hv : decide (W n txid) = true ↔ W n txid := by simp
    have hv' : decide (W' n txid) = true ↔ W' n txid := by simp
    suffices decide (W n txid) = decide (W' n txid) by rw [← hv, this, hv']
    have hsame' : Same h d' d := fun e => (hsame e).symm
    by_cases hw : watch address ∨ decide (W n txid) = true
    · exact hl.verdict_eq hd hl' hsame h1 h2 ht hv hv' ho ha hw
    · by_cases hw' : watch address ∨ decide (W' n txid) = true
      · exact (hl'.verdict_eq hd hl hsame' h1 h2 ht hv' hv ho ha hw').symm
      · rw [Bool.eq_false_iff.mpr (not_or.mp hw).2, Bool.eq_false_iff.mpr (not_or.mp hw').2]
  · intro hW e
    rw [hl e, hl' e]
    refine exists_congr fun n => exists_congr fun txid => exists_congr fun vin => ?_
    refine and_congr_right fun h1 => and_congr_right fun h2 => and_congr_right fun ht => ?_
    refine and_congr_left fun ⟨j, o, k, address, ho, ha, _⟩ => ?_
    rw [hW n h1 h2 txid ht ⟨o, List.mem_of_getElem? ho, address, List.mem_of_getElem? ha⟩]

end

/-! ### One process, and two -/

section

variable {c : Chain} {hord : c.Ordered} {cat : Catalog} {coin_id : ℤ} {h₀ h k : ℕ}

lemma Filed.height_eq {watch : String → Prop} {seed : String → Prop} (hd : c.Distinct)
    {r : Txutxo} (hr : Filed hord watch k seed r) {n : ℕ} (ht : r.txid ∈ c.block (c.hash n)) :
    r.src.height = n :=
  hd.height_eq (List.mem_of_getElem? hr.tx) ht

section

variable {watch seed : String → Prop} {n : ℕ} {txid : String}

lemma resumed_of_le (hn : n ≤ k) :
    Resumed hord watch h₀ k seed n txid ↔ Detected hord watch h₀ txid := by
  simp [Resumed, hn]

lemma resumed_of_lt (hn : k < n) :
    Resumed hord watch h₀ k seed n txid ↔ Taken hord watch k seed txid := by
  simp [Resumed, hn]

end

variable {old : List Stmt} (hd : c.Distinct)

include hd

lemma Exact.lists {w : World} (hw : Exact hord cat coin_id h₀ (fun _ => False) old w)
    (hold : ∀ r, .txutxo r ∉ old) (hh : h ∈ w.db.heights coin_id) :
    Lists c (Owned cat "BTC") h₀ h (fun _ => Detected hord (Owned cat "BTC") h₀) w.db := by
  have hfiled : ∀ r ∈ w.db.txutxo, Filed hord (Owned cat "BTC") h₀ (fun _ => False) r :=
    fun r hr => (hw.rows r (Db.mem_txutxo.mp hr)).resolve_left (hold r)
  intro e
  constructor
  · rintro ⟨r, hr, hle, rfl⟩
    obtain ⟨hheight, hat, vin, hv, he⟩ := hfiled r hr
    exact ⟨_, _, vin, hheight, hle, List.mem_of_getElem? hat, hv, he⟩
  · rintro ⟨n, txid, vin, h1, h2, ht, hv, he⟩
    obtain ⟨r, hr, rfl⟩ := hw.covered h (marked_iff.mpr hh) n h1 h2 txid ht vin hv e he
    obtain rfl : r.txid = txid := he.txid_eq
    have hr' := Db.mem_txutxo.mpr hr
    exact ⟨r, hr', ((hfiled r hr').height_eq hd ht).trans_le h2, rfl⟩

variable (h₀) in
lemma Exact.lists_restarted {w₁ w : World}
    (hw₁ : Exact hord cat coin_id h₀ (fun _ => False) old w₁) (hold : ∀ r, .txutxo r ∉ old)
    (hk : w₁.db.maxHeight coin_id = some k) (hle : ∀ r ∈ w₁.db.txutxo, r.src.height ≤ k)
    (hkh : h₀ ≤ k) {seed : String → Prop}
    (hw : Exact hord cat coin_id k seed w₁.db.log w) (hh : h ∈ w.db.heights coin_id) :
    Lists c (Owned cat "BTC") h₀ h (Resumed hord (Owned cat "BTC") h₀ k seed) w.db := by
  have hfiled₁ : ∀ r, .txutxo r ∈ w₁.db.log →
      Filed hord (Owned cat "BTC") h₀ (fun _ => False) r :=
    fun r hr => (hw₁.rows r hr).resolve_left (hold r)
  intro e
  constructor
  · rintro ⟨r, hr, hrh, rfl⟩
    rcases hw.rows r (Db.mem_txutxo.mp hr) with hr | hr
    · obtain ⟨hheight, hat, vin, hv, he⟩ := hfiled₁ r hr
      refine ⟨_, _, vin, hheight, hrh, List.mem_of_getElem? hat, ?_, he⟩
      rwa [resumed_of_le (hle r (Db.mem_txutxo.mpr hr))]
    · obtain ⟨hheight, hat, vin, hv, he⟩ := hr
      refine ⟨_, _, vin, hkh.trans_lt hheight, hrh, List.mem_of_getElem? hat, ?_, he⟩
      rwa [resumed_of_lt hheight]
  · rintro ⟨n, txid, vin, h1, h2, ht, hv, he⟩
    obtain ⟨r, hr, rfl⟩ : ∃ r, .txutxo r ∈ w.db.log ∧ r.cols = e := by
      rcases le_or_gt n k with hnk | hnk
      · rw [resumed_of_le hnk] at hv
        have hmark := marked_iff.mpr (Db.maxHeight_eq_some.mp hk).1
        obtain ⟨r, hr, hcols⟩ := hw₁.covered k hmark n h1 hnk txid ht vin hv e he
        exact ⟨r, hw.grown hr, hcols⟩
      · rw [resumed_of_lt hnk] at hv
        exact hw.covered h (marked_iff.mpr hh) n hnk h2 txid ht vin hv e he
    obtain rfl : r.txid = txid := he.txid_eq
    have hheight : r.src.height = n := by
      rcases hw.rows r hr with hr | hr
      · exact (hfiled₁ r hr).height_eq hd ht
      · exact hr.height_eq hd ht
    exact ⟨r, Db.mem_txutxo.mpr hr, hheight.trans_le h2, rfl⟩

omit hd in
/-- The transactions a new process remembers: the recorded ones. -/
lemma Exact.seed_iff {w₁ : World} (hw₁ : Exact hord cat coin_id h₀ (fun _ => False) old w₁)
    (hold : ∀ r, .txutxo r ∉ old) (hk : w₁.db.maxHeight coin_id = some k)
    (hle : ∀ r ∈ w₁.db.txutxo, r.src.height ≤ k) (p : String) :
    (∃ r ∈ w₁.db.txutxo, r.txid = p) ↔ (∃ n, h₀ < n ∧ n ≤ k ∧ p ∈ c.block (c.hash n)) ∧
      c.Addressed p ∧ (c.Pays (Owned cat "BTC") p ∨ Detected hord (Owned cat "BTC") h₀ p) := by
  constructor
  · rintro ⟨r, hr, rfl⟩
    obtain ⟨hheight, hat, vin, hv, j, o, n, address, ho, ha, he⟩ :=
      (hw₁.rows r (Db.mem_txutxo.mp hr)).resolve_left (hold r)
    have ho := List.mem_of_getElem? ho
    have ha := List.mem_of_getElem? ha
    refine ⟨⟨_, hheight, hle r hr, List.mem_of_getElem? hat⟩, ⟨o, ho, address, ha⟩, ?_⟩
    rcases he with ⟨hw, -⟩ | ⟨-, hvin, -⟩
    · exact Or.inl ⟨o, ho, address, ha, hw⟩
    · exact Or.inr (hv.mp hvin)
  · rintro ⟨⟨n, h1, h2, ht⟩, haddressed, hor⟩
    obtain ⟨vin, hv⟩ := verdict_exists hord (Owned cat "BTC") h₀ (fun _ => False) p
    obtain ⟨e, he⟩ : ∃ e, c.Entry (Owned cat "BTC") p vin e := by
      rcases hor with ⟨o, ho, address, ha, hw⟩ | hdet
      · obtain ⟨e, he, -⟩ := Chain.entry_exists vin ho ha (Or.inl hw)
        exact ⟨e, he⟩
      · obtain ⟨o, ho, address, ha⟩ := haddressed
        have hentry : ∃ e, c.Entry (Owned cat "BTC") p vin e ∧ e.2.2.1 = address :=
          Chain.entry_exists vin ho ha (Or.inr (hv.mpr hdet))
        exact hentry.imp fun e he => he.1
    have hmark := marked_iff.mpr (Db.maxHeight_eq_some.mp hk).1
    obtain ⟨r, hr, rfl⟩ := hw₁.covered k hmark n h1 h2 p ht vin hv e he
    exact ⟨r, Db.mem_txutxo.mpr hr, he.txid_eq⟩

end

variable {x : Weather} {c : Chain}

/-- A process as it is after its start: it remembers every transaction that has a row. -/
lemma aware_started (hord : c.Ordered) (hsql : ¬ x.sqlFails) {url : String} {w w' : World}
    (hs : Exec (env x) (start url) { w with vars := .fresh } (.done ()) w') {coin_id : ℤ} {k : ℕ}
    (hk : w.db.maxHeight coin_id = some k) : Aware hord w.db.cat coin_id k
      (fun p => ∃ r ∈ w.db.txutxo, r.txid = p) w.db.log w' := by
  have hstarted : Started x { w with vars := .fresh } w' := exec_post hs (wp_start url _)
  have hdb : w'.db = w.db := hstarted.db
  rw [← hdb] at hk ⊢
  refine Aware.begin hord _ hk hstarted.buf (Or.inl hstarted.btc) (fun txid => ?_)
    fun r hr => ⟨r, hr, rfl⟩
  rw [lookup_isSome_iff, hstarted.txids hsql, hdb]
  simp [Vars.fresh]

lemma resumed_iff {hord : c.Ordered} {watch : String → Prop} {h₀ k : ℕ} (hk : h₀ ≤ k)
    {recorded : String → Prop} (hrec : ∀ p, recorded p ↔
      (∃ n, h₀ < n ∧ n ≤ k ∧ p ∈ c.block (c.hash n)) ∧ c.Addressed p ∧
        (c.Pays watch p ∨ Detected hord watch h₀ p)) (txid : String) (hafter : c.After k txid) :
    (Detected hord watch h₀ txid ↔ (∃ p, c.Names p txid ∧ recorded p) ∨
      ∃ p, c.Feeds k p txid ∧ c.Pays watch p ∧ ¬ Detected hord watch h₀ p) ↔
    ((∃ p, c.Names p txid ∧ (∃ n, h₀ < n ∧ n ≤ k ∧ p ∈ c.block (c.hash n)) ∧ c.Addressed p ∧
      Detected hord watch h₀ p) → Detected hord watch h₀ txid) := by
  have hiff : Detected hord watch h₀ txid ↔
      ∃ p, c.Feeds h₀ p txid ∧ c.Pays watch p ∧ ¬ Detected hord watch h₀ p :=
    (fires_iff _ _ _ txid).trans (or_iff_right fun ⟨_, _, h⟩ => h)
  constructor
  · rintro h ⟨p, hnames, hin, haddressed, hdet⟩
    exact h.mpr (Or.inl ⟨p, hnames, (hrec p).mpr ⟨hin, haddressed, Or.inr hdet⟩⟩)
  · intro h
    constructor
    · intro hdet
      obtain ⟨p, ⟨hnames, ⟨n, j, hn, hp⟩, -⟩, hpays, hnot⟩ := hiff.mp hdet
      rcases le_or_gt n k with hle | hlt
      · exact Or.inl ⟨p, hnames, (hrec p).mpr
          ⟨⟨n, hn, hle, List.mem_of_getElem? hp⟩, hpays.addressed, Or.inl hpays⟩⟩
      · exact Or.inr ⟨p, ⟨hnames, ⟨n, j, hlt, hp⟩, hafter⟩, hpays, hnot⟩
    · rintro (⟨p, hnames, hp⟩ | ⟨p, ⟨hnames, hp, -⟩, hpays, hnot⟩)
      · obtain ⟨⟨n, h1, h2, hmem⟩, haddressed, hor⟩ := (hrec p).mp hp
        by_cases hdet : Detected hord watch h₀ p
        · exact h ⟨p, hnames, ⟨n, h1, h2, hmem⟩, haddressed, hdet⟩
        · obtain ⟨j, hj⟩ := List.getElem?_of_mem hmem
          exact hiff.mpr ⟨p, ⟨hnames, ⟨n, j, h1, hj⟩, hafter.mono hk⟩, hor.resolve_right hdet, hdet⟩
      · exact hiff.mpr ⟨p, ⟨hnames, hp.mono hk, hafter.mono hk⟩, hpays, hnot⟩

/-- **When a restart does not show.** The rows of a scan that is split by a restart at the height
`k` are those of a scan in one process, if and only if every transaction above `k` whose inputs
name a recorded spend from below is a detected spend anyway. -/
theorem same_iff_detected {x' : Weather} (hc : c.Honest x) (hc' : c.Honest x')
    (hsql : ¬ x.sqlFails) (hsql' : ¬ x'.sqlFails) (hord : c.Ordered) (hd : c.Distinct)
    {url : String} {w : World} {coin_id : ℤ} {h₀ : ℕ}
    (hcoin : coinId w.db.cat "BTC" = some (some coin_id))
    (hstart : w.db.maxHeight coin_id = some h₀) (hempty : w.db.txutxo = [])
    -- the whole scan
    {v v' : World} {b : Bool} (hs : Exec (env x) (start url) { w with vars := .fresh } (.done ()) v)
    (hr : Session x (fun p _ => p = ScanBTC) v b v')
    -- the scan up to `k`, and the rest of it after a restart
    {w₀ w₁ w₂ w₃ : World} {b₁ b₂ : Bool} {k : ℕ}
    (hs₀ : Exec (env x') (start url) { w with vars := .fresh } (.done ()) w₀)
    (hr₁ : Session x' (fun p _ => p = ScanBTC) w₀ b₁ w₁)
    (hk : w₁.db.maxHeight coin_id = some k) (hle : ∀ r ∈ w₁.db.txutxo, r.src.height ≤ k)
    (hs₂ : Exec (env x') (start url) { w₁ with vars := .fresh } (.done ()) w₂)
    (hr₃ : Session x' (fun p _ => p = ScanBTC) w₂ b₂ w₃)
    {h : ℕ} (hh : h ∈ v'.db.heights coin_id) (hh' : h ∈ w₃.db.heights coin_id) :
    Same h v'.db w₃.db ↔ ∀ n, k < n → n ≤ h → ∀ txid ∈ c.block (c.hash n), c.Addressed txid →
      (∃ p, c.Names p txid ∧ (∃ m, h₀ < m ∧ m ≤ k ∧ p ∈ c.block (c.hash m)) ∧ c.Addressed p ∧
        Detected hord (Owned w.db.cat "BTC") h₀ p) →
      Detected hord (Owned w.db.cat "BTC") h₀ txid := by
  have hnone : ∀ r, .txutxo r ∉ w.db.log := by
    intro r hr
    simpa [hempty] using Db.mem_txutxo.mpr hr
  have hseed : (fun p => ∃ r ∈ w.db.txutxo, r.txid = p) = fun _ => False := by
    funext p
    simp [hempty]
  have hwhole := aware_started hord hsql hs hstart
  have hfirst := aware_started hord hsql' hs₀ hstart
  rw [hseed] at hwhole hfirst
  have hwhole := session_exact hc hcoin hwhole hr
  have hfirst := session_exact hc' hcoin hfirst hr₁
  have hsecond := aware_started hord hsql' hs₂ hk
  rw [hfirst.tables] at hsecond
  have hsecond := session_exact hc' hcoin hsecond hr₃
  have hkh : h₀ ≤ k := by
    have hmark := (marked_iff.mpr (Db.maxHeight_eq_some.mp hstart).1).mono hfirst.grown
    exact (Db.maxHeight_eq_some.mp hk).2 h₀ (marked_iff.mp hmark)
  rw [same_iff hd (hwhole.lists hd hnone hh)
    (Exact.lists_restarted h₀ hd hfirst hnone hk hle hkh hsecond hh')]
  have hlocal := agree_iff (wellFounded_feeds (k := k) hord)
    (fun txid => ∃ p, c.Names p txid ∧ ∃ r ∈ w₁.db.txutxo, r.txid = p)
    (c.Pays (Owned w.db.cat "BTC"))
    (fun txid => (∃ n, k < n ∧ n ≤ h ∧ txid ∈ c.block (c.hash n)) ∧ c.Addressed txid)
    (Detected hord (Owned w.db.cat "BTC") h₀) ?_
  · have hlocal' := resumed_iff hkh (hfirst.seed_iff hnone hk hle)
    have hafter : ∀ {n txid}, k < n → txid ∈ c.block (c.hash n) → c.After k txid := by
      intro n txid hn ht
      obtain ⟨j, hj⟩ := List.getElem?_of_mem ht
      exact ⟨n, j, hn, hj⟩
    constructor
    · intro hall n h1 h2 txid ht ha
      refine (hlocal' txid (hafter h1 ht)).mp (hlocal.mp ?_ txid ⟨⟨n, h1, h2, ht⟩, ha⟩)
      rintro t ⟨⟨m, h3, h4, hm⟩, ha'⟩
      exact (hall m (hkh.trans_lt h3) h4 t hm ha').trans (resumed_of_lt h3)
    · intro hall n h1 h2 txid ht ha
      rcases le_or_gt n k with hnk | hnk
      · exact (resumed_of_le hnk).symm
      · rw [resumed_of_lt hnk]
        refine hlocal.mpr ?_ txid ⟨⟨n, hnk, h2, ht⟩, ha⟩
        rintro t ⟨⟨m, h3, h4, hm⟩, ha'⟩
        exact (hlocal' t (hafter h3 hm)).mpr (hall m h3 h4 t hm ha')
  · rintro t p ⟨⟨n, h1, h2, ht⟩, -⟩ hfeeds hpays
    exact ⟨hfeeds.le hord ht h2, hpays.addressed⟩

/-! ### A spend of a spend -/

lemma oneOutput_small (address : String) :
    ([⟨1, some [address]⟩] : List Vout).length < 2 ^ 31 := by
  rw [List.length_singleton]
  norm_num

/-- A deposit, its spend, and the spend of that. -/
def threeTxs : Chain where
  hash n := if n = 1 then "first" else if n = 2 then "second" else if n = 3 then "third" else ""
  block hash := if hash = "first" then ["paid"] else if hash = "second" then ["spent"]
    else if hash = "third" then ["moved"] else []
  tx txid := if txid = "paid" then ⟨[], [⟨1, some ["A"]⟩], oneOutput_small "A"⟩
    else if txid = "spent" then ⟨[⟨some "paid", 0⟩], [⟨1, some ["C"]⟩], oneOutput_small "C"⟩
    else ⟨[⟨some "spent", 0⟩], [⟨1, some ["D"]⟩], oneOutput_small "D"⟩

lemma threeTxs_at {n j : ℕ} {txid : String} (h : threeTxs.At n j txid) : j = 0 ∧
    (n = 1 ∧ txid = "paid" ∨ n = 2 ∧ txid = "spent" ∨ n = 3 ∧ txid = "moved") := by
  unfold Chain.At at h
  by_cases h1 : n = 1
  · subst h1
    cases j <;> simp_all [threeTxs]
  · by_cases h2 : n = 2
    · subst h2
      cases j <;> simp_all [threeTxs]
    · by_cases h3 : n = 3
      · subst h3
        cases j <;> simp_all [threeTxs]
      · simp [threeTxs, h1, h2, h3] at h

lemma threeTxs_distinct : threeTxs.Distinct := by
  intro n j n' j' txid h h'
  obtain ⟨rfl, hn⟩ := threeTxs_at h
  obtain ⟨rfl, hn'⟩ := threeTxs_at h'
  refine ⟨?_, rfl⟩
  rcases hn with ⟨rfl, rfl⟩ | ⟨rfl, rfl⟩ | ⟨rfl, rfl⟩ <;> simpa [eq_comm] using hn'

lemma threeTxs_names {p txid : String} (h : threeTxs.Names p txid) : txid ≠ "paid" ∧
    (txid = "spent" → p = "paid") ∧ (txid ≠ "spent" → p = "spent") := by
  obtain ⟨i, hi, hp⟩ := h
  by_cases h1 : txid = "paid"
  · subst h1
    simp [threeTxs] at hi
  · by_cases h2 : txid = "spent"
    · subst h2
      simp_all [threeTxs]
    · simp_all [threeTxs]

lemma threeTxs_ordered : threeTxs.Ordered := by
  intro n j txid h p hp n' j' h'
  obtain ⟨h1, h2, h3⟩ := threeTxs_names hp
  obtain ⟨rfl, ⟨rfl, rfl⟩ | ⟨rfl, rfl⟩ | ⟨rfl, rfl⟩⟩ := threeTxs_at h
  · exact absurd rfl h1
  · obtain rfl := h2 rfl
    rcases (threeTxs_at h').2 with ⟨rfl, -⟩ | ⟨-, hp'⟩ | ⟨-, hp'⟩
    · exact Or.inl (by decide)
    · exact absurd hp' (by decide)
    · exact absurd hp' (by decide)
  · obtain rfl := h3 (by decide)
    rcases (threeTxs_at h').2 with ⟨-, hp'⟩ | ⟨rfl, -⟩ | ⟨-, hp'⟩
    · exact absurd hp' (by decide)
    · exact Or.inl (by decide)
    · exact absurd hp' (by decide)

/-- The node serves the blocks up to `low` for the first exchanges, and all three after. -/
def rising (low rest : ℕ) (t : ℕ) (r : Request) : Answer :=
  threeTxs.node (if t < rest then low else 3) r

lemma rising_honest (low rest : ℕ) : threeTxs.Honest (.clear (rising low rest)) :=
  honest_of_node (fun t => if t < rest then low else 3) fun _ _ _ _ _ => Or.inr rfl

/-- A process that is started and scans. -/
def scanned (net : ℕ → Request → Answer) (w : World) : World :=
  (calls net [ScanBTC] (true, (play net "receiver" [] w).2)).2

lemma session_scanned (net : ℕ → Request → Answer) (w : World) :
    ∃ b, Session (.clear net) (fun p _ => p = ScanBTC) (play net "receiver" [] w).2 b
      (scanned net w) := by
  refine ⟨_, session_calls net [ScanBTC] _ fun pre p post hps => ?_⟩
  have hp : p ∈ [ScanBTC] := by simp [hps]
  simpa using hp

lemma exec_started {net : ℕ → Request → Answer} {w : World}
    (h : (play net "receiver" [] w).1 = true) :
    Exec (env (.clear net)) (start "receiver") { w with vars := .fresh } (.done ())
      (play net "receiver" [] w).2 :=
  exec_alive h

/-- After a restart the spend of the spend gets a row. -/
theorem not_same_threeTxs : ¬ ∀ (c : Chain) (x x' : Weather), c.Honest x → c.Honest x' →
    ¬ x.sqlFails → ¬ x'.sqlFails → c.Ordered → c.Distinct → ∀ (url : String) (w : World)
    (coin_id : ℤ) (h₀ : ℕ), coinId w.db.cat "BTC" = some (some coin_id) →
    w.db.maxHeight coin_id = some h₀ → w.db.txutxo = [] → ∀ (v v' : World) (b : Bool),
    Exec (env x) (start url) { w with vars := .fresh } (.done ()) v →
    Session x (fun p _ => p = ScanBTC) v b v' → ∀ (w₀ w₁ w₂ w₃ : World) (b₁ b₂ : Bool) (k : ℕ),
    Exec (env x') (start url) { w with vars := .fresh } (.done ()) w₀ →
    Session x' (fun p _ => p = ScanBTC) w₀ b₁ w₁ → w₁.db.maxHeight coin_id = some k →
    (∀ r ∈ w₁.db.txutxo, r.src.height ≤ k) →
    Exec (env x') (start url) { w₁ with vars := .fresh } (.done ()) w₂ →
    Session x' (fun p _ => p = ScanBTC) w₂ b₂ w₃ → ∀ h ∈ v'.db.heights coin_id,
    h ∈ w₃.db.heights coin_id → Same h v'.db w₃.db := by
  intro h
  obtain ⟨b, hr⟩ := session_scanned (rising 3 0) (smallWorld [(1, 0)])
  obtain ⟨b₁, hr₁⟩ := session_scanned (rising 2 9) (smallWorld [(1, 0)])
  obtain ⟨b₂, hr₃⟩ := session_scanned (rising 2 9) (scanned (rising 2 9) (smallWorld [(1, 0)]))
  have hsame := h threeTxs _ _ (rising_honest 3 0) (rising_honest 2 9) id id threeTxs_ordered
    threeTxs_distinct "receiver" (smallWorld [(1, 0)]) 1 0 rfl (by decide +kernel)
    (by decide +kernel) _ _ b (exec_started (by decide +kernel)) hr _ _ _ _ b₁ b₂ 2
    (exec_started (by decide +kernel)) hr₁ (by decide +kernel) (by decide +kernel)
    (exec_started (by decide +kernel)) hr₃ 3 (by decide +kernel) (by decide +kernel)
  obtain ⟨r, hr, hle, htxid⟩ : ∃ r ∈ (scanned (rising 2 9) (scanned (rising 2 9)
      (smallWorld [(1, 0)]))).db.txutxo, r.src.height ≤ 3 ∧ r.txid = "moved" := by decide +kernel
  have hnone : ∀ r ∈ (scanned (rising 3 0) (smallWorld [(1, 0)])).db.txutxo, r.txid ≠ "moved" := by
    decide +kernel
  obtain ⟨r', hr', -, hcols⟩ := (hsame r.cols).mpr ⟨r, hr, hle, rfl⟩
  exact hnone r' hr' ((congrArg Prod.fst hcols).trans htxid)

/-- A restart below the spend does not show. -/
theorem same_threeTxs : Same 3 (scanned (rising 3 0) (smallWorld [(1, 0)])).db
    (scanned (rising 1 5) (scanned (rising 1 5) (smallWorld [(1, 0)]))).db := by
  obtain ⟨b, hr⟩ := session_scanned (rising 3 0) (smallWorld [(1, 0)])
  obtain ⟨b₁, hr₁⟩ := session_scanned (rising 1 5) (smallWorld [(1, 0)])
  obtain ⟨b₂, hr₃⟩ := session_scanned (rising 1 5) (scanned (rising 1 5) (smallWorld [(1, 0)]))
  have hstart : (smallWorld [(1, 0)]).db.maxHeight 1 = some 0 := by decide +kernel
  have hk : (scanned (rising 1 5) (smallWorld [(1, 0)])).db.maxHeight 1 = some 1 := by
    decide +kernel
  refine (same_iff_detected (rising_honest 3 0) (rising_honest 1 5) id id threeTxs_ordered
    threeTxs_distinct rfl hstart (by decide +kernel) (exec_started (by decide +kernel)) hr
    (exec_started (by decide +kernel)) hr₁ hk (by decide +kernel)
    (exec_started (by decide +kernel)) hr₃ (by decide +kernel) (by decide +kernel)).mpr ?_
  rintro n h1 h2 txid ht - ⟨p, hnames, ⟨m, h3, h4, hp⟩, -, hdet⟩
  obtain rfl : m = 1 := by omega
  obtain rfl : p = "paid" := by simpa [threeTxs] using hp
  rcases (fires_iff _ _ _ _).mp hdet with ⟨q, hq, -⟩ | ⟨q, ⟨hq, -⟩, -⟩
  · exact absurd rfl (threeTxs_names hq).1
  · exact absurd rfl (threeTxs_names hq).1

end OpenWallet.Monitor.Btc
