import OpenWallet.Lib.Kernel
import OpenWallet.Monitor.BtcChain
import OpenWallet.Monitor.Tasks

/-!
Which transactions the BTC scanner takes for spends of the wallet. It remembers transactions and
not outputs, and only those that pay a watched address and were not taken for spends themselves;
so its verdict on a transaction follows from the verdicts on the transactions its inputs name.
A process may begin with transactions that it remembers from `txutxo`: they are the seed.
-/

namespace OpenWallet

open Lib Prog

def Txutxo.cols (r : Txutxo) : String × ℤ × String × String × Option ℕ :=
  (r.txid, r.n, r.address, r.amount, r.flag)

namespace Monitor.Btc

section

variable (c : Chain) (watch : String → Prop) (k : ℕ)

def Chain.At (n j : ℕ) (txid : String) : Prop := (c.block (c.hash n))[j]? = some txid

def Chain.After (txid : String) : Prop := ∃ n j, k < n ∧ c.At n j txid

def Chain.Names (p txid : String) : Prop := ∃ i ∈ (c.tx txid).vin, i.txid = some p

/-- The transactions an input names come before it. -/
def Chain.Ordered : Prop :=
  ∀ n j txid, c.At n j txid → ∀ p, c.Names p txid →
    ∀ n' j', c.At n' j' p → n' < n ∨ n' = n ∧ j' < j

def Chain.Pays (txid : String) : Prop :=
  ∃ o ∈ (c.tx txid).vout, ∃ address ∈ o.addresses.getD [], watch address

/-- Some input spends an output that pays a watched address. -/
def Chain.Spends (txid : String) : Prop :=
  ∃ i ∈ (c.tx txid).vin, ∃ p o, i.txid = some p ∧ (c.tx p).vout[i.vout]? = some o ∧
    ∃ address ∈ o.addresses.getD [], watch address

def Chain.Addressed (txid : String) : Prop :=
  ∃ o ∈ (c.tx txid).vout, ∃ address, address ∈ o.addresses.getD []

/-- Some input of the transaction names `p`, and both stand above `k`. -/
def Chain.Feeds (p txid : String) : Prop := c.Names p txid ∧ c.After k p ∧ c.After k txid

/-- The columns `txutxo` owes for a transaction: a row for each watched address, and where the
transaction is a spend, one for each other address. -/
def Chain.Entry (txid : String) (vin : Bool)
    (e : String × ℤ × String × String × Option ℕ) : Prop :=
  ∃ (j : ℕ) (o : Vout) (n : ℕ) (address : String), (c.tx txid).vout[j]? = some o ∧
    (o.addresses.getD [])[n]? = some address ∧
    (watch address ∧ e = (txid, (n : ℤ), address, Text.to_string (10000000 * o.value),
        some (if vin then 2 else 0)) ∨
      ¬ watch address ∧ vin = true ∧
        e = (txid, (j : ℤ), address, Text.to_string (10000000 * o.value), some 1))

variable {c watch k}

lemma Chain.After.mono {k' : ℕ} {txid : String} (h : c.After k' txid) (hk : k ≤ k') :
    c.After k txid := by
  obtain ⟨n, j, hn, hat⟩ := h
  exact ⟨n, j, by omega, hat⟩

lemma Chain.Pays.addressed {txid : String} (h : c.Pays watch txid) : c.Addressed txid := by
  obtain ⟨o, ho, address, ha, -⟩ := h
  exact ⟨o, ho, address, ha⟩

/-- A transaction with an address owes a row, unless the address is not watched and the
transaction no spend. -/
lemma Chain.entry_exists {txid : String} (vin : Bool) {o : Vout} {address : String}
    (ho : o ∈ (c.tx txid).vout) (ha : address ∈ o.addresses.getD [])
    (h : watch address ∨ vin = true) : ∃ e, c.Entry watch txid vin e ∧ e.2.2.1 = address := by
  obtain ⟨j, hj⟩ := List.getElem?_of_mem ho
  obtain ⟨n, hn⟩ := List.getElem?_of_mem ha
  by_cases hw : watch address
  · exact ⟨_, ⟨j, o, n, address, hj, hn, Or.inl ⟨hw, rfl⟩⟩, rfl⟩
  · exact ⟨_, ⟨j, o, n, address, hj, hn, Or.inr ⟨hw, h.resolve_left hw, rfl⟩⟩, rfl⟩

lemma Chain.Entry.vin_eq {txid txid' : String} {vin vin' : Bool}
    {e : String × ℤ × String × String × Option ℕ} (h : c.Entry watch txid vin e)
    (h' : c.Entry watch txid' vin' e) : vin = vin' := by
  obtain ⟨j, o, n, address, -, -, ⟨hw, rfl⟩ | ⟨hw, rfl, rfl⟩⟩ := h <;>
    obtain ⟨j', o', n', address', -, -, ⟨hw', he⟩ | ⟨hw', rfl, he⟩⟩ := h' <;>
    simp only [Prod.mk.injEq, Option.some.injEq] at he
  · obtain ⟨-, -, -, -, hflag⟩ := he
    cases vin <;> cases vin' <;> simp_all
  · obtain ⟨-, -, rfl, -⟩ := he
    exact absurd hw hw'
  · obtain ⟨-, -, rfl, -⟩ := he
    exact absurd hw' hw
  · rfl

lemma Chain.Entry.txid_eq {txid : String} {vin : Bool}
    {e : String × ℤ × String × String × Option ℕ} (h : c.Entry watch txid vin e) :
    e.1 = txid := by
  obtain ⟨j, o, n, address, -, -, ⟨-, rfl⟩ | ⟨-, -, rfl⟩⟩ := h <;> rfl

lemma wellFounded_feeds (hord : c.Ordered) : WellFounded (c.Feeds k) := by
  classical
  have hpos : ∀ txid, ∃ q : ℕ ×ₗ ℕ, c.After k txid → c.At (ofLex q).1 (ofLex q).2 txid := by
    intro txid
    by_cases h : c.After k txid
    · obtain ⟨n, j, -, hat⟩ := h
      exact ⟨toLex (n, j), fun _ => hat⟩
    · exact ⟨toLex (0, 0), fun h' => absurd h' h⟩
  choose pos hat using hpos
  refine Subrelation.wf (r := fun p t => pos p < pos t) ?_ (InvImage.wf pos wellFounded_lt)
  rintro p t ⟨hnames, hafter, hafter'⟩
  exact Prod.Lex.lt_iff.mpr (hord _ _ _ (hat t hafter') p hnames _ _ (hat p hafter))

lemma Chain.Feeds.le (hord : c.Ordered) {p txid : String} (h : c.Feeds k p txid) {n h' : ℕ}
    (ht : txid ∈ c.block (c.hash n)) (hn : n ≤ h') :
    ∃ n', k < n' ∧ n' ≤ h' ∧ p ∈ c.block (c.hash n') := by
  obtain ⟨hnames, ⟨n', j', hk, hp⟩, -⟩ := h
  obtain ⟨j, hj⟩ := List.getElem?_of_mem ht
  refine ⟨n', hk, ?_, List.mem_of_getElem? hp⟩
  rcases hord _ _ _ hj p hnames _ _ hp with hlt | ⟨rfl, -⟩ <;> omega

variable {S : List (String × ℤ)} (hS : ∀ address, watched S address ↔ watch address)

include hS

lemma row_cols_watched {src : Src} {txid : String} {vin : Bool} {number : ℤ}
    {value address : String} (hw : watch address) :
    (row S src txid vin number value address).cols =
      (txid, (src.slot : ℤ), address, value, some (if vin then 2 else 0)) := by
  rw [row, if_pos ((hS address).mpr hw)]
  rfl

lemma row_cols_other {src : Src} {txid : String} {vin : Bool} {number : ℤ}
    {value address : String} (hw : ¬ watch address) :
    (row S src txid vin number value address).cols =
      (txid, number, address, value, some 1) := by
  rw [row, if_neg ((hS address).not.mpr hw)]
  rfl

variable {x : Weather} (hc : c.Honest x) {t₀ : ℕ} {node : NodeInfo} {w : World}

include hc

lemma TxDone.entries {V : String → Bool → Prop} {txid : String}
    (h : TxDone x t₀ node S V w (.str txid)) : ∃ vin, V txid vin ∧
      ∀ e, c.Entry watch txid vin e → ∃ r, .txutxo r ∈ otc.total w ∧ r.cols = e := by
  obtain ⟨vin, hv, hrow⟩ := h.honest hc
  refine ⟨vin, hv, ?_⟩
  rintro e ⟨j, o, n, address, ho, ha, ⟨hw, rfl⟩ | ⟨hw, rfl, rfl⟩⟩
  · obtain ⟨src, rfl, hr⟩ := hrow j o ho n address ha (Or.inl ((hS address).mpr hw))
    exact ⟨_, hr, row_cols_watched hS hw⟩
  · obtain ⟨src, -, hr⟩ := hrow j o ho n address ha (Or.inr rfl)
    exact ⟨_, hr, row_cols_other hS hw⟩

lemma Pays.entry {i : ℕ} {src : Src} {txid value address : String} {number : ℤ} {vin : Bool}
    (h : Pays x t₀ node w i src txid number value address)
    (hw : watch address ∨ vin = true) :
    c.Entry watch txid vin (row S src txid vin number value address).cols := by
  obtain ⟨-, rfl, o, as, ho, has, ha, rfl⟩ := h.honest hc
  refine ⟨src.out, o, src.slot, address, ho, by simpa [has] using ha, ?_⟩
  by_cases hwatch : watch address
  · exact Or.inl ⟨hwatch, row_cols_watched hS hwatch⟩
  · exact Or.inr ⟨hwatch, hw.resolve_left hwatch, row_cols_other hS hwatch⟩

end

/-! ### What the scanner remembers -/

section

variable {c : Chain} (hord : c.Ordered) (watch : String → Prop) (k : ℕ) (seed : String → Prop)

/-- The transactions above `k` that the scanner takes for spends: some input names a transaction
of the seed, or one above `k` that pays the wallet and is not taken for a spend. -/
def Taken : String → Prop :=
  Fires (wellFounded_feeds (k := k) hord) (fun txid => ∃ p, c.Names p txid ∧ seed p)
    (c.Pays watch)

abbrev Verdict (txid : String) (vin : Bool) : Prop := vin = true ↔ Taken hord watch k seed txid

/-- The row is written for a transaction above `k`, on the right verdict. -/
structure Filed (r : Txutxo) : Prop where
  height : k < r.src.height
  tx : c.At r.src.height r.src.tx r.txid
  entry : ∃ vin, Verdict hord watch k seed r.txid vin ∧ c.Entry watch r.txid vin r.cols

/-- What `txutxo` owes for the block at a height. -/
def Owes (n : ℕ) (l : List Stmt) : Prop :=
  ∀ txid ∈ c.block (c.hash n), ∀ vin, Verdict hord watch k seed txid vin →
    ∀ e, c.Entry watch txid vin e → ∃ r, .txutxo r ∈ l ∧ r.cols = e

/-- What is remembered beyond the seed pays the wallet and is not taken for a spend, and each
row beyond the old ones was written on the right verdict; a transaction that has a row with
flag 0 is remembered. -/
structure Judged (old : List Stmt) (w : World) : Prop where
  kept : ∀ txid, (w.vars.s_txid_address.lookup txid).isSome →
    seed txid ∨ c.After k txid ∧ c.Pays watch txid ∧ ¬ Taken hord watch k seed txid
  seeded : ∀ txid, seed txid → (w.vars.s_txid_address.lookup txid).isSome
  tracked : ∀ r, .txutxo r ∈ otc.total w → watch r.address → r.flag = some 0 →
    (w.vars.s_txid_address.lookup r.txid).isSome
  rows : ∀ r, .txutxo r ∈ otc.total w → .txutxo r ∈ old ∨ Filed hord watch k seed r

variable {hord watch k seed}

lemma Verdict.eq {txid : String} {vin vin' : Bool} (h : Verdict hord watch k seed txid vin)
    (h' : Verdict hord watch k seed txid vin') : vin = vin' := by
  rw [Bool.eq_iff_iff]
  exact h.trans h'.symm

variable (hord watch k seed) in
lemma verdict_exists (txid : String) : ∃ vin, Verdict hord watch k seed txid vin := by
  classical
  exact ⟨decide (Taken hord watch k seed txid), by simp [Verdict]⟩

lemma Owes.mono (n : ℕ) (l l' : List Stmt) (hl : l ⊆ l') (h : Owes hord watch k seed n l) :
    Owes hord watch k seed n l' := by
  intro txid ht vin hv e he
  obtain ⟨r, hr, hcols⟩ := h txid ht vin hv e he
  exact ⟨r, hl hr, hcols⟩

/-- A transaction that pays the wallet and is not taken for a spend is remembered, once the rows
it is owed are there. -/
lemma Judged.remembers {old : List Stmt} {w : World} (h : Judged hord watch k seed old w)
    {p : String} (hpays : c.Pays watch p)
    (howes : ∀ e, c.Entry watch p false e → ∃ r, .txutxo r ∈ otc.total w ∧ r.cols = e) :
    (w.vars.s_txid_address.lookup p).isSome := by
  obtain ⟨o, ho, address, ha, hw⟩ := hpays
  obtain ⟨e, he, haddress⟩ := Chain.entry_exists false ho ha (Or.inl hw)
  obtain ⟨r, hr, rfl⟩ := howes e he
  have htxid : r.txid = p := he.txid_eq
  obtain ⟨j, o', n, address', -, -, ⟨hw', hcols⟩ | ⟨-, hvin, -⟩⟩ := he
  · simp only [Txutxo.cols, Prod.mk.injEq] at hcols haddress
    obtain ⟨-, -, rfl, -, hflag⟩ := hcols
    exact htxid ▸ h.tracked r hr hw' hflag
  · cases hvin

variable {x : Weather} (hc : c.Honest x) {t₀ : ℕ} {node : NodeInfo} {S : List (String × ℤ)}
  (hS : ∀ address, watched S address ↔ watch address) {coin_id : ℤ} {height : ℕ}

include hc hS

lemma Done.owes {w : World} {n : ℕ}
    (h : Done x t₀ node S (Verdict hord watch k seed) w n) :
    Owes hord watch k seed n (otc.total w) := by
  intro txid ht vin hv e he
  obtain ⟨vin', hv', hrow⟩ := TxDone.entries hS hc (h.honest hc txid ht)
  obtain rfl := hv.eq hv'
  exact hrow e he

lemma step_judged {old : List Stmt} {a b : At} (hk : k ≤ a.done)
    (h : (scanner x (grounds x t₀ node S (Verdict hord watch k seed) coin_id height)).Step a b)
    (ha : Judged hord watch k seed old a.w) : Judged hord watch k seed old b.w := by
  obtain ⟨hkept, hseeded, htracked, hrows⟩ := ha
  cases h with
  | @quiet w w' i p h =>
    cases h with
    | sent => exact ⟨hkept, hseeded, htracked, hrows⟩
    | @track txid address htrack =>
      obtain ⟨hv, src, number, value, address', hpays, hw⟩ := htrack
      obtain ⟨hat, -, o, as, ho, has, haddress, -⟩ := hpays.honest hc
      have hmono : ∀ txid', (w.vars.s_txid_address.lookup txid').isSome →
          ((w.track txid address).vars.s_txid_address.lookup txid').isSome := by
        intro txid' h
        simp only [World.track, List.lookup_cons]
        split
        · rfl
        · exact h
      refine ⟨fun txid' h' => ?_, fun t ht => hmono t (hseeded t ht),
        fun r hr hw' hf => hmono _ (htracked r hr hw' hf), hrows⟩
      simp only [World.track, List.lookup_cons] at h'
      split at h'
      · next heq =>
        obtain rfl : txid' = txid := by simpa using heq
        refine Or.inr ⟨⟨_, _, Nat.lt_succ_of_le hk, hat⟩, ?_, fun ht => by cases hv.mpr ht⟩
        have hmem : address' ∈ o.addresses.getD [] := by
          simpa [has] using List.mem_of_getElem? haddress
        exact ⟨o, List.mem_of_getElem? ho, address', hmem, (hS address').mp hw⟩
      · exact hkept txid' h'
  | room => exact ⟨hkept, hseeded, htracked, hrows⟩
  | skip => exact ⟨hkept, hseeded, htracked, hrows⟩
  | @store w w' i p s h =>
    obtain ⟨-, -, ⟨hash, rfl⟩, rfl⟩ := h
    have htotal : ∀ r, .txutxo r ∈ otc.total (w.push (.block ⟨coin_id, hash, i + 1⟩)).flush →
        .txutxo r ∈ otc.total w := by
      intro r hr
      simpa [Store.total, otc, World.flush, World.push, Db.commit] using hr
    exact ⟨hkept, hseeded, fun r hr => htracked r (htotal r hr), fun r hr => hrows r (htotal r hr)⟩
  | @credit w w' i p q r s h hplace hpq hqr =>
    have hafter : (scanner x _).credit (i + 1) s w w' := h
    have hsame : w'.vars.s_txid_address = w.vars.s_txid_address ∧
        ∃ b, (grounds x t₀ node S (Verdict hord watch k seed) coin_id height).credit
          (i + 1) s b w := by
      cases h with
      | push hc => exact ⟨rfl, _, hc⟩
      | notify hc => exact ⟨by simp [World.push], _, hc⟩
    obtain ⟨hvars, b, src, txid, vin, number, value, address, hpays, hv, rfl, -, hw, hknown⟩ := hsame
    have htotal : ∀ r, .txutxo r ∈ otc.total w' → .txutxo r ∈ otc.total w ∨
        r = row S src txid vin number value address := by
      intro r hr
      simpa [Store.total, (scanner x _).credit_log hafter, (scanner x _).credit_buf hafter,
        or_assoc] using hr
    rw [hS] at hw hknown
    have hentry := Pays.entry hS hc hpays hw
    refine ⟨fun t ht => hkept t (hvars ▸ ht), fun t ht => hvars ▸ hseeded t ht, ?_, ?_⟩
    · intro r hr hw' hflag
      rw [hvars]
      rcases htotal r hr with hr | rfl
      · exact htracked r hr hw' hflag
      · rw [row_address] at hw'
        rw [row_txid]
        refine hknown hw' ?_
        rw [row, if_pos ((hS address).mpr hw')] at hflag
        cases vin <;> simp_all
    · intro r hr
      rcases htotal r hr with hr | rfl
      · exact hrows r hr
      · obtain ⟨hat, -⟩ := hpays.honest hc
        have hheight := hpays.height
        refine Or.inr ⟨?_, ?_, vin, ?_, ?_⟩
        · rw [row_src, hheight]
          exact Nat.lt_succ_of_le hk
        · rw [row_src, row_txid, hheight]
          exact hat
        · rwa [row_txid]
        · rwa [row_txid]

lemma Steps.judged {old : List Stmt} {a b : At} (hk : k ≤ a.done)
    (h : Steps x (grounds x t₀ node S (Verdict hord watch k seed) coin_id height) a b)
    (ha : Judged hord watch k seed old a.w) : Judged hord watch k seed old b.w := by
  induction h with
  | refl => exact ha
  | tail hs hstep ih =>
    have hle := Scanner.Steps.done_le hs
    exact step_judged hc hS (hk.trans hle) hstep ih

/-- The scanner finds a remembered transaction among the inputs exactly of the transactions it
takes for spends: all that could feed one have been dealt with before. -/
lemma Looked.verdict {old : List Stmt} {w : World} {i : ℕ} {l : List Json} {txid : String}
    {vin : Bool} (hk : k ≤ i) (hj : Judged hord watch k seed old w)
    (howed : ∀ n, k < n → n ≤ i → Owes hord watch k seed n (otc.total w))
    (h : Looked x t₀ node S (Verdict hord watch k seed) w (i + 1) l txid vin) :
    Verdict hord watch k seed txid vin := by
  obtain ⟨⟨l', hlist⟩, hbefore, vins, hinputs, hvin⟩ := h
  have hblock : l ++ .str txid :: l' = (c.block (c.hash (i + 1))).map .str := hlist.honest hc
  have hat : c.At (i + 1) l.length txid := by
    have hget := congrArg (·[l.length]?) hblock
    simpa [Chain.At, eq_comm] using hget
  have hshow := hinputs.honest hc
  rw [Verdict, hvin, Taken, fires_iff]
  constructor
  · rintro ⟨j, hj', p, hp, hknown⟩
    obtain ⟨i', hi', hs⟩ := forall₂_mem_right hshow hj'
    have hnames : c.Names p txid := by
      refine ⟨i', hi', ?_⟩
      have hfind := hs.1
      rw [hp] at hfind
      cases htxid : i'.txid with
      | none => simp [htxid] at hfind
      | some p' => simpa [htxid, eq_comm] using hfind
    rcases hj.kept p hknown with hseed | ⟨hafter, hpays, hnot⟩
    · exact Or.inl ⟨p, hnames, hseed⟩
    · exact Or.inr ⟨p, ⟨hnames, hafter, _, _, Nat.lt_succ_of_le hk, hat⟩, hpays, hnot⟩
  · intro h
    obtain ⟨p, hnames, hknown⟩ : ∃ p, c.Names p txid ∧
        (w.vars.s_txid_address.lookup p).isSome := by
      rcases h with ⟨p, hnames, hseed⟩ | ⟨p, ⟨hnames, ⟨n, j, hn, hp⟩, -⟩, hpays, hnot⟩
      · exact ⟨p, hnames, hj.seeded p hseed⟩
      · have hv : Verdict hord watch k seed p false :=
          iff_of_false (by simp) hnot
        refine ⟨p, hnames, hj.remembers hpays ?_⟩
        rcases hord _ _ _ hat p hnames _ _ hp with hlt | ⟨rfl, hlt⟩
        · exact howed n hn (by omega) p (List.mem_of_getElem? hp) false hv
        · have hmem : .str p ∈ l := by
            have hget := congrArg (·[j]?) hblock
            simp only [List.getElem?_append_left hlt, List.getElem?_map] at hget
            rw [show (c.block (c.hash (i + 1)))[j]? = some p from hp] at hget
            exact List.mem_of_getElem? hget
          obtain ⟨vin', hv', hrow⟩ := TxDone.entries hS hc (hbefore _ hmem)
          obtain rfl := hv.eq hv'
          exact hrow
    obtain ⟨i', hi', hp⟩ := hnames
    obtain ⟨j, hj', hs⟩ := forall₂_mem_left hshow hi'
    exact ⟨j, hj', p, by rw [hs.1, hp]; rfl, hknown⟩

end

/-! ### A process that scans -/

section

variable {c : Chain} (hord : c.Ordered) (cat : Catalog) (coin_id : ℤ) (k : ℕ)
  (seed : String → Prop) (old : List Stmt)

/-- The database: up to a stored height the rows above `k` are the ones owed. -/
structure Exact (w : World) : Prop where
  tables : w.db.cat = cat
  covered : otc.Covered (Owes hord (Owned cat "BTC") k seed) coin_id k w.db.log
  rows : ∀ r, .txutxo r ∈ w.db.log → .txutxo r ∈ old ∨ Filed hord (Owned cat "BTC") k seed r
  grown : old ⊆ w.db.log

/-- The process: it watches no addresses or all of the wallet's, and remembers what it should. -/
structure Aware (w : World) : Prop where
  tables : w.db.cat = cat
  covered : otc.Covered (Owes hord (Owned cat "BTC") k seed) coin_id k w.db.log
  clean : ∀ n, ¬ otc.Marked coin_id n w.vars.vect_sql_
  start : otc.Marked coin_id k w.db.log
  watch : w.vars.s_address_id_btc = [] ∨
    ∀ address, watched w.vars.s_address_id_btc address ↔ Owned cat "BTC" address
  judged : Judged hord (Owned cat "BTC") k seed old w
  grown : old ⊆ w.db.log

variable {hord cat coin_id k seed old}

lemma Aware.exact {w : World} (h : Aware hord cat coin_id k seed old w) :
    Exact hord cat coin_id k seed old w :=
  ⟨h.tables, h.covered, fun r hr => h.judged.rows r (List.mem_append_left _ hr), h.grown⟩

lemma Exact.of_db {w w' : World} (h : Exact hord cat coin_id k seed old w) (hdb : w'.db = w.db) :
    Exact hord cat coin_id k seed old w' :=
  ⟨by rw [hdb]; exact h.tables, by rw [hdb]; exact h.covered, by rw [hdb]; exact h.rows, by rw [hdb]; exact h.grown⟩

lemma Aware.of_vars {w : World} {v : Vars} (h : Aware hord cat coin_id k seed old w)
    (hbuf : v.vect_sql_ = w.vars.vect_sql_) (htxids : v.s_txid_address = w.vars.s_txid_address)
    (hwatch : v.s_address_id_btc = [] ∨
      ∀ address, watched v.s_address_id_btc address ↔ Owned cat "BTC" address) :
    Aware hord cat coin_id k seed old { w with vars := v } := by
  obtain ⟨hkept, hseeded, htracked, hrows⟩ := h.judged
  have htotal : otc.total { w with vars := v } = otc.total w := by
    simp [Store.total, otc, hbuf]
  refine ⟨h.tables, h.covered, ?_, h.start, hwatch, ⟨?_, ?_, ?_, ?_⟩, h.grown⟩
  · rw [hbuf]
    exact h.clean
  · rwa [htxids]
  · rwa [htxids]
  · rwa [htotal, htxids]
  · rwa [htotal]

variable (hord seed) in
lemma Aware.begin {w : World} (hstart : w.db.maxHeight coin_id = some k)
    (hbuf : w.vars.vect_sql_ = []) (hwatch : w.vars.s_address_id_btc = [] ∨
      ∀ address, watched w.vars.s_address_id_btc address ↔ Owned w.db.cat "BTC" address)
    (hseed : ∀ txid, (w.vars.s_txid_address.lookup txid).isSome ↔ seed txid)
    (hrows : ∀ r ∈ w.db.txutxo, seed r.txid) :
    Aware hord w.db.cat coin_id k seed w.db.log w := by
  have hstored := Db.maxHeight_eq_some.mp hstart
  have htotal : otc.total w = w.db.log := by simp [Store.total, otc, hbuf]
  refine ⟨rfl, fun m hm n h1 h2 => ?_, ?_, marked_iff.mpr hstored.1, hwatch,
    ⟨fun txid h => Or.inl ((hseed txid).mp h), fun txid h => (hseed txid).mpr h, ?_, ?_⟩,
    List.Subset.refl _⟩
  · have hle := hstored.2 m (marked_iff.mp hm)
    omega
  · simp [hbuf, Store.Marked]
  · rw [htotal]
    exact fun r hr _ _ => (hseed _).mpr (hrows r (Db.mem_txutxo.mpr hr))
  · rw [htotal]
    exact fun r hr => Or.inl hr

variable {x : Weather} (hc : c.Honest x) (hcoin : coinId cat "BTC" = some (some coin_id))

include hc hcoin

lemma Aware.pass {w : World} (h : Aware hord cat coin_id k seed old w)
    (hne : w.vars.s_address_id_btc ≠ []) {coin_id' : ℤ} {pre_height height : ℕ}
    {node : NodeInfo} (hb : Begun w "BTC" coin_id' pre_height node) {b : At}
    (hs : Steps x (grounds x w.wire.length node w.vars.s_address_id_btc
      (Verdict hord (Owned cat "BTC") k seed) coin_id' height) ⟨w, pre_height, ⊥⟩ b) :
    k ≤ b.done ∧ (∀ n, k < n → n ≤ b.done →
      Owes hord (Owned cat "BTC") k seed n (otc.total b.w)) ∧
      Aware hord cat coin_id k seed old b.w := by
  obtain ⟨hcur, hmax, -⟩ := hb.current
  rw [h.tables, hcoin] at hcur
  obtain rfl : coin_id = coin_id' := by simpa using hcur
  have hS := h.watch.resolve_left hne
  have hstored := Db.maxHeight_eq_some.mp hmax
  have hk : k ≤ pre_height := hstored.2 k (marked_iff.mp h.start)
  have hstart : (scanner x (grounds x w.wire.length node w.vars.s_address_id_btc
      (Verdict hord (Owned cat "BTC") k seed) coin_id height)).Sound
      (Owes hord (Owned cat "BTC") k seed) k ⟨w, pre_height, ⊥⟩ := by
    refine ⟨h.covered, fun n h1 h2 => ?_, h.clean⟩
    exact Owes.mono _ _ _ (List.subset_append_left _ _)
      (h.covered _ (marked_iff.mpr hstored.1) n h1 h2)
  have hsound := Scanner.Steps.sound Owes.mono ?_ ?_ hs hstart
  · obtain ⟨new, -, -, hlog⟩ := hs.total
    have hf := hs.frame
    refine ⟨hk.trans hs.done_le, hsound.owed, hf.cat.trans h.tables, hsound.covered, hsound.clean,
      h.start.mono hlog, ?_, Steps.judged hc hS hk hs h.judged, fun s hs => hlog (h.grown hs)⟩
    rw [hf.btc]
    exact h.watch
  · rintro n w₁ (⟨hd, -⟩ | hf)
    · exact hd.owes hc hS
    · exact hf.elim
  · rintro n s w₁ w₂ ⟨hd, -⟩
    exact hd.owes hc hS

lemma wp_scanBTC_aware {w : World} (h : Aware hord cat coin_id k seed old w)
    (hne : w.vars.s_address_id_btc ≠ []) :
    wp (env x) scanBTC (fun _ => Aware hord cat coin_id k seed old)
      (Exact hord cat coin_id k seed old) w := by
  refine wp_mono (wp_scanBTC w (Verdict hord (Owned cat "BTC") k seed) ?_) ?_ ?_
  · intro coin_id' pre_height node height i w₁ l txid vin hb hs hlooked
    obtain ⟨hk, howed, hw₁⟩ := h.pass hc hcoin hne hb hs
    exact hlooked.verdict hc (h.watch.resolve_left hne) hk hw₁.judged howed
  · rintro - w' (⟨rfl, -⟩ | ⟨_, _, _, _, hb, ⟨_, _, hs, -⟩, -⟩)
    · exact h
    · exact (h.pass hc hcoin hne hb hs).2.2
  · rintro w' (⟨hdb, -⟩ | ⟨_, _, _, _, hb, b, hs, hdb, -⟩)
    · exact h.exact.of_db hdb
    · exact (h.pass hc hcoin hne hb hs).2.2.exact.of_db hdb

lemma wp_ScanBTC_aware {w : World} (h : Aware hord cat coin_id k seed old w) :
    wp (env x) ScanBTC (fun _ => Aware hord cat coin_id k seed old)
      (Exact hord cat coin_id k seed old) w := by
  refine wp_scanTask (fun _ h => h) (fun _ h => h.exact) (fun w ts h => ?_)
    (fun w' hdb _ => h.exact.of_db hdb) (fun l hl => ?_)
    fun w₁ h₁ hne => wp_scanBTC_aware hc hcoin h₁ hne
  · exact h.of_vars rfl rfl h.watch
  · rw [foldl_btc]
    refine h.of_vars rfl rfl ?_
    rw [h.tables] at hl
    rcases hl with rfl | hl
    · simpa using h.watch
    · refine Or.inr fun address => ?_
      rw [watched, lookup_isSome_iff, List.map_append, List.mem_append, List.map_reverse,
        List.mem_reverse, hl]
      rcases h.watch with hnil | hwatch
      · simp [hnil]
      · have hmem := hwatch address
        rw [watched, lookup_isSome_iff] at hmem
        rw [hmem, or_self]

lemma session_exact {w₀ w : World} {b : Bool} (h : Aware hord cat coin_id k seed old w₀)
    (hr : Session x (fun p _ => p = ScanBTC) w₀ b w) : Exact hord cat coin_id k seed old w :=
  (hr.inv (fun _ h => h.exact) h fun _ _ hp h => hp ▸ wp_ScanBTC_aware hc hcoin h).1

end

/-! ### The rows and the spends -/

section

variable {c : Chain}

/-- The rows of a transaction are the ones it owes, where it is a spend when some input spends an
output that pays a watched address. -/
def Chain.Shown (c : Chain) (watch : String → Prop) (rows : List Txutxo) (txid : String) : Prop :=
  ∀ vin : Bool, (vin = true ↔ c.Spends watch txid) →
    (∀ r ∈ rows, r.txid = txid → c.Entry watch txid vin r.cols) ∧
      ∀ e, c.Entry watch txid vin e → ∃ r ∈ rows, r.cols = e

/-- The rows of a transaction tell the verdict on it, if it has an address. -/
lemma shown_iff {hord : c.Ordered} {watch : String → Prop} {k : ℕ} {seed : String → Prop}
    {d : Db} {txid : String} {vin : Bool} (hv : Verdict hord watch k seed txid vin)
    (hrows : ∀ r ∈ d.txutxo, Filed hord watch k seed r)
    (howes : ∀ e, c.Entry watch txid vin e → ∃ r ∈ d.txutxo, r.cols = e) :
    c.Shown watch d.txutxo txid ↔
      (c.Addressed txid → (c.Spends watch txid ↔ Taken hord watch k seed txid)) := by
  classical
  have hfiled : ∀ r ∈ d.txutxo, r.txid = txid → c.Entry watch txid vin r.cols := by
    rintro r hr rfl
    obtain ⟨vin', hv', he⟩ := (hrows r hr).entry
    exact hv.eq hv' ▸ he
  constructor
  · rintro hshown ⟨o, ho, address, ha⟩
    obtain ⟨hsound, hcomplete⟩ := hshown (decide (c.Spends watch txid)) (by simp)
    suffices heq : vin = decide (c.Spends watch txid) by
      have hv' : vin = true ↔ Taken hord watch k seed txid := hv
      rw [← hv', heq, decide_eq_true_eq]
    by_cases h : watch address ∨ vin = true
    · obtain ⟨e, he, -⟩ := Chain.entry_exists _ ho ha h
      obtain ⟨r, hr, rfl⟩ := howes e he
      exact he.vin_eq (hsound r hr he.txid_eq)
    · by_cases h' : c.Spends watch txid
      · obtain ⟨e, he, -⟩ := Chain.entry_exists (decide (c.Spends watch txid)) ho ha
          (Or.inr (by simpa using h'))
        obtain ⟨r, hr, rfl⟩ := hcomplete e he
        exact (hfiled r hr he.txid_eq).vin_eq he
      · have hvin : vin = false := by simpa using (not_or.mp h).2
        simp [hvin, h']
  · intro h vin' hvin'
    by_cases haddr : c.Addressed txid
    · obtain rfl : vin = vin' := by
        rw [Bool.eq_iff_iff, hvin', h haddr]
        exact hv
      exact ⟨hfiled, howes⟩
    · have hnone : ∀ vin' e, ¬ c.Entry watch txid vin' e := by
        rintro vin' e ⟨j, o, n, address, ho, ha, -⟩
        exact haddr ⟨o, List.mem_of_getElem? ho, address, List.mem_of_getElem? ha⟩
      exact ⟨fun r hr ht => absurd (hfiled r hr ht) (hnone _ _),
        fun e he => absurd he (hnone _ _)⟩

end

/-- **The rows show the spends exactly where spends by transaction are spends by output.** Up to
a stored height every transaction has the rows it owes, if and only if each that has an address
spends an output of the wallet just when some input names a transaction above the first height
that pays the wallet and does not spend its outputs. -/
theorem shown_iff_spends {c : Chain} {x : Weather} (hc : c.Honest x) (hord : c.Ordered)
    {w₀ w : World} {b : Bool} (hr : Session x (fun p _ => p = ScanBTC) w₀ b w) {coin_id : ℤ}
    {h₀ : ℕ} (hcoin : coinId w₀.db.cat "BTC" = some (some coin_id))
    (hstart : w₀.db.maxHeight coin_id = some h₀) (hempty : w₀.db.txutxo = [])
    (hbuf : w₀.vars.vect_sql_ = []) (htxids : w₀.vars.s_txid_address = [])
    (hwatch : w₀.vars.s_address_id_btc = [] ∨
      ∀ address, watched w₀.vars.s_address_id_btc address ↔ Owned w₀.db.cat "BTC" address)
    {h : ℕ} (hh : h ∈ w.db.heights coin_id) :
    (∀ n, h₀ < n → n ≤ h → ∀ txid ∈ c.block (c.hash n),
      c.Shown (Owned w₀.db.cat "BTC") w.db.txutxo txid) ↔
    ∀ n, h₀ < n → n ≤ h → ∀ txid ∈ c.block (c.hash n), c.Addressed txid →
      (c.Spends (Owned w₀.db.cat "BTC") txid ↔ ∃ p, c.Names p txid ∧ c.After h₀ p ∧
        c.Pays (Owned w₀.db.cat "BTC") p ∧ ¬ c.Spends (Owned w₀.db.cat "BTC") p) := by
  have hexact : Exact hord w₀.db.cat coin_id h₀ (fun _ => False) w₀.db.log w := by
    have hbegin := Aware.begin hord (fun _ => False) hstart hbuf hwatch (by simp [htxids])
      (by simp [hempty])
    exact session_exact hc hcoin hbegin hr
  have hrows : ∀ r ∈ w.db.txutxo, Filed hord (Owned w₀.db.cat "BTC") h₀ (fun _ => False) r := by
    intro r hr
    refine (hexact.rows r (Db.mem_txutxo.mp hr)).resolve_left fun hold => ?_
    simpa [hempty] using Db.mem_txutxo.mpr hold
  have hshown : ∀ n, h₀ < n → n ≤ h → ∀ txid ∈ c.block (c.hash n),
      (c.Shown (Owned w₀.db.cat "BTC") w.db.txutxo txid ↔ (c.Addressed txid →
        (c.Spends (Owned w₀.db.cat "BTC") txid ↔
          Taken hord (Owned w₀.db.cat "BTC") h₀ (fun _ => False) txid))) := by
    intro n h1 h2 txid ht
    obtain ⟨vin, hv⟩ :=
      verdict_exists hord (Owned w₀.db.cat "BTC") h₀ (fun _ => False) txid
    refine shown_iff hv hrows fun e he => ?_
    obtain ⟨r, hr, hcols⟩ := hexact.covered h (marked_iff.mpr hh) n h1 h2 txid ht vin hv e he
    exact ⟨r, Db.mem_txutxo.mpr hr, hcols⟩
  -- the verdicts agree with the spends on these transactions as soon as one step does
  have hlocal := agree_iff (wellFounded_feeds (k := h₀) hord)
    (fun txid => ∃ p, c.Names p txid ∧ False) (c.Pays (Owned w₀.db.cat "BTC"))
    (fun txid => (∃ n, h₀ < n ∧ n ≤ h ∧ txid ∈ c.block (c.hash n)) ∧ c.Addressed txid)
    (c.Spends (Owned w₀.db.cat "BTC")) ?_
  · constructor
    · intro hall n h1 h2 txid ht ha
      have hiff := hlocal.mp (fun t ⟨⟨m, h3, h4, hm⟩, ha'⟩ =>
        (hshown m h3 h4 t hm).mp (hall m h3 h4 t hm) ha') txid ⟨⟨n, h1, h2, ht⟩, ha⟩
      obtain ⟨j, hj⟩ := List.getElem?_of_mem ht
      have hafter : c.After h₀ txid := ⟨n, j, h1, hj⟩
      simpa [Chain.Feeds, hafter, and_assoc] using hiff
    · intro hall n h1 h2 txid ht
      refine (hshown n h1 h2 txid ht).mpr fun ha => ?_
      refine hlocal.mpr (fun t ⟨⟨m, h3, h4, hm⟩, ha'⟩ => ?_) txid ⟨⟨n, h1, h2, ht⟩, ha⟩
      obtain ⟨j, hj⟩ := List.getElem?_of_mem hm
      have hafter : c.After h₀ t := ⟨m, j, h3, hj⟩
      simpa [Chain.Feeds, hafter, and_assoc] using hall m h3 h4 t hm ha'
  · rintro t p ⟨⟨n, h1, h2, ht⟩, -⟩ hfeeds hpays
    exact ⟨hfeeds.le hord ht h2, hpays.addressed⟩

/-- The first transaction pays the wallet and someone else, who spends his output in the next
block. -/
def twoTxs : Chain where
  hash n := if n = 1 then "first" else if n = 2 then "second" else "later"
  block hash := if hash = "first" then ["paid"] else if hash = "second" then ["moved"] else []
  tx txid := if txid = "paid" then ⟨[], [⟨1, some ["A"]⟩, ⟨1, some ["B"]⟩], by decide⟩
    else ⟨[⟨some "paid", 1⟩], [⟨1, some ["C"]⟩], by decide⟩

lemma twoTxs_at {n j : ℕ} {txid : String} (h : twoTxs.At n j txid) :
    n = 1 ∧ j = 0 ∧ txid = "paid" ∨ n = 2 ∧ j = 0 ∧ txid = "moved" := by
  by_cases h1 : n = 1
  · subst h1
    cases j <;> simp_all [Chain.At, twoTxs]
  · by_cases h2 : n = 2
    · subst h2
      cases j <;> simp_all [Chain.At, twoTxs]
    · simp [Chain.At, twoTxs, h1, h2] at h

lemma twoTxs_ordered : twoTxs.Ordered := by
  intro n j txid h p ⟨i, hi, hp⟩ n' j' h'
  rcases twoTxs_at h with ⟨rfl, rfl, rfl⟩ | ⟨rfl, rfl, rfl⟩
  · cases hi
  · obtain rfl : i = ⟨some "paid", 1⟩ := List.mem_singleton.mp hi
    obtain rfl : "paid" = p := Option.some.inj hp
    rcases twoTxs_at h' with ⟨rfl, rfl, -⟩ | ⟨-, -, h'⟩
    · exact Or.inl (by decide)
    · simp at h'

lemma owned_small {address : String} : Owned smallCatalog "BTC" address ↔ address = "A" := by
  constructor
  · rintro ⟨c, hc, a, ha, hac, haddress⟩
    obtain rfl : some 1 = c := Option.some.inj hc
    have hall : ∀ a ∈ smallCatalog.account, a.coin_id = 1 → a.address = some "A" := by decide
    rw [hall a ha (Option.some.inj hac)] at haddress
    exact (Option.some.inj haddress).symm
  · rintro rfl
    exact ⟨some 1, rfl, ⟨1, 1, some "A", none⟩, List.mem_cons_self, rfl, rfl⟩

lemma watched_small (stored : List (ℤ × ℕ)) (address : String) :
    watched (smallProcess stored).vars.s_address_id_btc address ↔
      Owned smallCatalog "BTC" address := by
  rw [watched, lookup_isSome_iff, owned_small]
  simp [smallProcess]

/-- The spend of the other output gets a row. -/
theorem shown_twoTxs : ¬ ∀ (c : Chain) (x : Weather), c.Honest x → c.Ordered →
    ∀ (w₀ w : World) (b : Bool), Session x (fun p _ => p = ScanBTC) w₀ b w →
    ∀ (coin_id : ℤ) (h₀ : ℕ), coinId w₀.db.cat "BTC" = some (some coin_id) →
    w₀.db.maxHeight coin_id = some h₀ → w₀.db.txutxo = [] → w₀.vars.vect_sql_ = [] →
    w₀.vars.s_txid_address = [] → (w₀.vars.s_address_id_btc = [] ∨
      ∀ address, watched w₀.vars.s_address_id_btc address ↔ Owned w₀.db.cat "BTC" address) →
    ∀ h ∈ w.db.heights coin_id, ∀ n, h₀ < n → n ≤ h → ∀ txid ∈ c.block (c.hash n),
      c.Shown (Owned w₀.db.cat "BTC") w.db.txutxo txid := by
  intro h
  have honest : twoTxs.Honest (.clear fun _ => twoTxs.node 2) :=
    honest_of_node (fun _ => 2) fun _ _ _ _ _ => Or.inr rfl
  have hscans : ∀ pre p post, [ScanBTC] = pre ++ p :: post → p = ScanBTC := by
    intro pre p post hps
    have hp : p ∈ [ScanBTC] := by simp [hps]
    simpa using hp
  have hshown := h twoTxs _ honest twoTxs_ordered _ _ _
    (session_calls _ [ScanBTC] (smallProcess [(1, 0)]) hscans) 1 0 rfl (by decide +kernel)
    (by decide +kernel) rfl rfl (Or.inr (watched_small _)) 2 (by decide +kernel) 2 (by decide)
    le_rfl "moved" List.mem_cons_self
  have hspends : ¬ twoTxs.Spends (Owned smallCatalog "BTC") "moved" := by
    rintro ⟨i, hi, p, o, hp, ho, address, ha, hw⟩
    obtain rfl : i = ⟨some "paid", 1⟩ := List.mem_singleton.mp hi
    obtain rfl : "paid" = p := Option.some.inj hp
    obtain rfl : ⟨1, some ["B"]⟩ = o := Option.some.inj ho
    obtain rfl : address = "B" := List.mem_singleton.mp ha
    exact absurd (owned_small.mp hw) (by decide)
  obtain ⟨r, hr, htxid⟩ : ∃ r ∈ (calls (fun _ => twoTxs.node 2) [ScanBTC]
      (true, smallProcess [(1, 0)])).2.db.txutxo, r.txid = "moved" := by decide +kernel
  obtain ⟨j, o, n, address, ho, ha, ⟨hw, -⟩ | ⟨-, hvin, -⟩⟩ :=
    (hshown false (iff_of_false (by simp) hspends)).1 r hr htxid
  · obtain rfl : o = ⟨1, some ["C"]⟩ := List.mem_singleton.mp (List.mem_of_getElem? ho)
    obtain rfl : address = "C" := List.mem_singleton.mp (List.mem_of_getElem? ha)
    exact absurd (owned_small.mp hw) (by decide)
  · cases hvin

/-- The same two transactions, the second of which spends the output that pays the wallet. -/
def ownSpend : Chain where
  hash := twoTxs.hash
  block := twoTxs.block
  tx txid := if txid = "paid" then ⟨[], [⟨1, some ["A"]⟩, ⟨1, some ["B"]⟩], by decide⟩
    else ⟨[⟨some "paid", 0⟩], [⟨1, some ["C"]⟩], by decide⟩

lemma ownSpend_ordered : ownSpend.Ordered := by
  intro n j txid h p ⟨i, hi, hp⟩ n' j' h'
  rcases twoTxs_at h with ⟨rfl, rfl, rfl⟩ | ⟨rfl, rfl, rfl⟩
  · cases hi
  · obtain rfl : i = ⟨some "paid", 0⟩ := List.mem_singleton.mp hi
    obtain rfl : "paid" = p := Option.some.inj hp
    rcases twoTxs_at h' with ⟨rfl, rfl, -⟩ | ⟨-, -, h'⟩
    · exact Or.inl (by decide)
    · simp at h'

lemma ownSpend_pays : ownSpend.Pays (Owned smallCatalog "BTC") "paid" :=
  ⟨⟨1, some ["A"]⟩, List.mem_cons_self, "A", List.mem_cons_self, owned_small.mpr rfl⟩

theorem shown_ownSpend : ownSpend.Shown (Owned smallCatalog "BTC")
    (calls (fun _ => ownSpend.node 2) [ScanBTC] (true, smallProcess [(1, 0)])).2.db.txutxo
    "moved" := by
  have honest : ownSpend.Honest (.clear fun _ => ownSpend.node 2) :=
    honest_of_node (fun _ => 2) fun _ _ _ _ _ => Or.inr rfl
  have hscans : ∀ pre p post, [ScanBTC] = pre ++ p :: post → p = ScanBTC := by
    intro pre p post hps
    have hp : p ∈ [ScanBTC] := by simp [hps]
    simpa using hp
  have hstart : (smallProcess [(1, 0)]).db.maxHeight 1 = some 0 := by decide +kernel
  refine (shown_iff_spends honest ownSpend_ordered (session_calls _ [ScanBTC]
    (smallProcess [(1, 0)]) hscans) rfl hstart (by decide +kernel) rfl rfl (Or.inr (watched_small _))
    (h := 2) (by decide +kernel)).mpr ?_ 2 (by decide) le_rfl "moved" List.mem_cons_self
  rintro n - - txid htxid -
  have hfirst : ¬ ownSpend.Spends (Owned smallCatalog "BTC") "paid" := by
    rintro ⟨i, hi, -⟩
    cases hi
  obtain ⟨j, hj⟩ := List.getElem?_of_mem htxid
  rcases twoTxs_at hj with ⟨-, -, rfl⟩ | ⟨-, -, rfl⟩
  · refine iff_of_false hfirst ?_
    rintro ⟨p, ⟨i, hi, -⟩, -⟩
    cases hi
  · refine iff_of_true ?_ ?_
    · exact ⟨⟨some "paid", 0⟩, List.mem_cons_self, "paid", ⟨1, some ["A"]⟩, rfl, rfl, "A",
        List.mem_cons_self, owned_small.mpr rfl⟩
    · exact ⟨"paid", ⟨⟨some "paid", 0⟩, List.mem_cons_self, rfl⟩, ⟨1, 0, by decide, rfl⟩,
        ownSpend_pays, hfirst⟩

end Monitor.Btc

end OpenWallet
