import OpenWallet.Lib.Picks
import OpenWallet.Monitor.Callback
import OpenWallet.Monitor.EthPass
import OpenWallet.Monitor.Omni

/-!
What `scanETH` writes down of the transactions of a block, against the law of the flag that
`scanOMNI_USDT` follows.
-/

namespace OpenWallet.Monitor.Eth

open Lib Prog

/-- The transaction has both ends and a value. -/
structure Native (json_tran : Json) (txid «from» «to» value : String) : Prop where
  hash : json_tran.field "hash" = .ok (.str txid)
  from_eq : json_tran.field "from" = .ok (.str «from»)
  to_eq : json_tran.field "to" = .ok (.str «to»)
  value_eq : json_tran.field "value" = .ok (.str value)
  value_ne : value ≠ "0x0"

/-- Two ends that name the same addresses in any letter case. -/
abbrev law (S : List (String × ℤ)) («from» «to» : String) : Option (ℕ × String) :=
  Omni.classify S (Text.toupper «from») (Text.toupper «to»)

structure Books (S : List (String × ℤ)) (json_tran : Json) (txid «from» «to» value : String)
    (c : Credit) : Prop where
  coin : c.token_id = 0 ∧ c.coinCode = "ETH" ∧ c.type = false
  txid_eq : c.txid = txid
  ends : c.vin = Text.toupper «from» ∧ c.vout = Text.toupper «to»
  amount : ∃ amount, Text.mpz value = .ok amount ∧ c.value = toString amount
  fee : ∃ f, Eth.fee json_tran = .ok f ∧ c.fee = toString f
  law : law S «from» «to» = some (c.flag, c.address)

/-- The two rows of what is kept of the transaction number `j`. -/
def rows (coin_id : ℤ) (height : ℕ) (e : ℕ × Credit) : List Stmt :=
  [.txaccount (e.2.txaccount coin_id ⟨coin_id, height, e.1, 0, 0⟩),
    .txutxo (e.2.txutxo ⟨coin_id, height, e.1, 0, 0⟩)]

/-- What is written and posted in a block: one pair of rows and one notice for each transaction of
some, in their order, and of the native ones these are those with a watched end, with what is to be
kept of them. -/
structure Booked (S : List (String × ℤ)) (coin_id : ℤ) (height : ℕ) (json_trans : List Json)
    (w w' : World) (kept : List (ℕ × Credit)) : Prop where
  rows : w'.vars.vect_sql_ = w.vars.vect_sql_ ++ kept.flatMap (rows coin_id height)
  notices : (w'.wire.map (·.1.data)) = (w.wire.map (·.1.data)) ++ kept.map fun e => e.2.notice
  order : (kept.map Prod.fst).Pairwise (· < ·)
  native : ∀ j json_tran txid «from» «to» value, json_trans[j]? = some json_tran →
    Native json_tran txid «from» «to» value →
    ((∃ c, (j, c) ∈ kept) ↔ (law S «from» «to»).isSome) ∧
      ∀ c, (j, c) ∈ kept → Books S json_tran txid «from» «to» value c

/-! ### What the scanner keeps -/

section

variable {C S : List (String × ℤ)} {json_tran : Json} {txid «from» «to» value : String} {c : Credit}

lemma classify_isSome : (Omni.classify S «from» «to»).isSome ↔
    watched S «from» ∨ watched S «to» := by
  unfold Omni.classify watched
  split_ifs <;> simp_all

/-- What the native branch keeps: everything is as it is to be, but for the flag and the address,
where both ends are watched. -/
lemma credit_native (hn : Native json_tran txid «from» «to» value) {r : Option (String × Option Credit)}
    (h : credit C S json_tran = .ok r) : ∃ kept, r = some (txid, kept) ∧
      (kept.isSome ↔ (law S «from» «to»).isSome) ∧ ∀ c, kept = some c →
        (¬ (watched S (Text.toupper «from») ∧ watched S (Text.toupper «to»)) →
          Books S json_tran txid «from» «to» value c) ∧
        (watched S (Text.toupper «from») ∧ watched S (Text.toupper «to») → c.flag = 0) := by
  simp only [credit, hn.to_eq, hn.from_eq, hn.value_eq, hn.hash, ok_bind, Json.is_null_str,
    Bool.false_eq_true, or_self, if_false, Json.getStr_str, if_neg hn.value_ne, bind_eq_ok,
    pure_eq_ok, Except.ok.injEq] at h
  obtain ⟨kept, hkept, rfl⟩ := h
  refine ⟨kept, rfl, ?_⟩
  rw [law, classify_isSome]
  simp only [native, hn.to_eq, ok_bind, Json.getStr_str] at hkept
  split at hkept
  · next hnot =>
    obtain rfl := (Except.ok.inj hkept).symm
    refine ⟨by simpa using hnot, nofun⟩
  next hsome =>
  simp only [bind_eq_ok, pure_eq_ok, Except.ok.injEq] at hkept
  obtain ⟨f, hf, amount, hamount, rfl⟩ := hkept
  refine ⟨by simpa [or_iff_not_imp_left] using hsome, ?_⟩
  rintro c ⟨⟩
  refine ⟨fun hnot => ⟨⟨rfl, rfl, rfl⟩, rfl, ⟨rfl, rfl⟩, ⟨amount, hamount, rfl⟩, ⟨f, hf, rfl⟩, ?_⟩,
    fun hboth => ?_⟩
  · dsimp only
    unfold law Omni.classify watched at *
    split_ifs <;> simp_all
  · simp [hboth.2]

variable (C S) in
def keeps (json_trans : List Json) : List (ℕ × Credit) :=
  picks (fun json_tran => (credit C S json_tran).toOption.join.bind Prod.snd) json_trans

lemma keeps_concat (pre : List Json) {r : Option (String × Option Credit)}
    (h : credit C S json_tran = .ok r) : keeps C S (pre ++ [json_tran]) = keeps C S pre ++
      ((r.bind Prod.snd).map (pre.length, ·)).toList := by
  simp [keeps, picks_concat, h, Except.toOption]

lemma mem_keeps {json_trans : List Json} {j : ℕ} {r : Option (String × Option Credit)}
    (hj : json_trans[j]? = some json_tran) (h : credit C S json_tran = .ok r) :
    (j, c) ∈ keeps C S json_trans ↔ r.bind Prod.snd = some c := by
  simp [keeps, mem_picks, hj, h, Except.toOption]

end

section

variable {x : Weather} {C S : List (String × ℤ)} {coin_id : ℤ} {height : ℕ} {w w' : World}

/-- The buffer and the notices after a part of a block. -/
structure Wrote (C S : List (String × ℤ)) (coin_id : ℤ) (height : ℕ) (w : World) (pre : List Json)
    (w' : World) : Prop where
  frame : w'.vars.s_ethcontranct_tokenid = C ∧ w'.vars.s_address_id_eth = S
  rows : w'.vars.vect_sql_ =
    w.vars.vect_sql_ ++ (keeps C S pre).flatMap (Eth.rows coin_id height)
  notices : (w'.wire.map (·.1.data)) =
    (w.wire.map (·.1.data)) ++ (keeps C S pre).map fun e => e.2.notice
  read : ∀ json_tran ∈ pre, ∃ r, credit C S json_tran = .ok r

lemma wp_scanTrans (json_trans : List Json) (hC : w.vars.s_ethcontranct_tokenid = C)
    (hS : w.vars.s_address_id_eth = S) :
    wp (env x) (scanTrans coin_id height json_trans)
      (fun _ => Wrote C S coin_id height w json_trans) (fun _ => True) w := by
  refine wp_mono (wp_loop_zipIdx (I := fun pre _ => Wrote C S coin_id height w pre)
    (B := fun _ _ _ => False) (D := fun _ => True) json_trans
    ⟨⟨hC, hS⟩, by simp [keeps], by simp [keeps], by simp⟩ ?_) ?_ fun _ h => h
  · intro pre json_tran post txid w₁ _ h
    simp only [wp_bind, scanTran, wp_get, liftM_eq, wp_lift, h.frame.1, h.frame.2]
    refine ⟨fun _ => trivial, fun r hr => ?_, fun _ _ => trivial⟩
    have hkeep := keeps_concat pre hr
    have hread : ∀ t ∈ pre ++ [json_tran], ∃ r, credit C S t = .ok r := by
      intro t ht
      rcases List.mem_append.mp ht with ht | ht
      · exact h.read t ht
      · exact ⟨r, List.mem_singleton.mp ht ▸ hr⟩
    rcases r with _ | ⟨hash, _ | c⟩
    · exact ⟨h.frame, by simpa [hkeep] using h.rows, by simpa [hkeep] using h.notices, hread⟩
    · exact ⟨h.frame, by simpa [hkeep] using h.rows, by simpa [hkeep] using h.notices, hread⟩
    · simp only [wp_bind]
      refine wp_callbackTransaction trivial fun a ha => ⟨trivial, fun _ _ => ?_⟩
      refine wp_push_back trivial (wp_push_back trivial ?_)
      have hframe := frame_notify w₁ c.notice a
      refine ⟨⟨hframe.contract.trans h.frame.1, hframe.eth.trans h.frame.2⟩, ?_, ?_, hread⟩
      · rw [hkeep, List.flatMap_append, ← List.append_assoc, ← h.rows]
        simp [World.push, Eth.rows]
      · rw [hkeep, List.map_append, ← List.append_assoc, ← h.notices]
        simp [World.push, notify_wire, World.sent]
  · rintro ⟨fl, txid⟩ w₁ h
    cases fl with
    | next => exact h
    | brk => obtain ⟨_, _, _, h⟩ := h; exact h.elim

/-- A block of transactions that can be read comes to its end, as long as the receiver answers
with codes. -/
lemma returns_scanTrans {json_trans : List Json} (hx : ¬ x.crashes)
    (hnet : ∀ t r a, x.net t r a → (spoken a).isSome)
    (hread : ∀ json_tran ∈ json_trans, ∃ r, credit w.vars.s_ethcontranct_tokenid
      w.vars.s_address_id_eth json_tran = .ok r) :
    Returns (env x) (scanTrans coin_id height json_trans) (fun _ _ => True) w := by
  refine returns_of_wp (wp_mono (wp_loop_zipIdx (I := fun _ _ w' => Frame w w')
    (B := fun _ _ _ => True) json_trans (Frame.refl w) ?_) (fun _ _ _ => trivial) fun _ h => h)
  intro pre json_tran post txid w₁ hpre h
  obtain ⟨r, hr⟩ := hread json_tran (by simp [hpre])
  simp only [wp_bind, scanTran, wp_get, liftM_eq, wp_lift, h.contract, h.eth, hr, Except.ok.injEq,
    forall_eq', reduceCtorEq, false_implies, implies_true, and_true]
  refine ⟨fun hc => (hx hc).elim, ?_⟩
  rcases r with _ | ⟨hash, _ | c⟩
  · exact h
  · exact h
  · simp only [wp_bind]
    refine wp_callbackTransaction_of (fun hc => hx hc) fun a ha => ⟨fun hc => hx hc,
      fun e he => not_spoken_of_code he (hnet _ _ _ ha), fun _ _ => ?_⟩
    simp only [push_back, wp_modify]
    have hframe := frame_notify w₁ c.notice a
    exact ⟨fun hc => hx hc, fun hc => hx hc,
      h.trans (hframe.trans ((frame_push _ _).trans (frame_push _ _)))⟩

lemma flag_of_rows {kept kept' : List (ℕ × Credit)} {e : ℕ × Credit} (he : e ∈ kept)
    (h : kept.flatMap (Eth.rows coin_id height) = kept'.flatMap (Eth.rows coin_id height)) :
    ∃ c, (e.1, c) ∈ kept' ∧ c.flag = e.2.flag := by
  have hmem : .txutxo (e.2.txutxo ⟨coin_id, height, e.1, 0, 0⟩) ∈
      kept'.flatMap (Eth.rows coin_id height) := by
    rw [← h]
    exact List.mem_flatMap.mpr ⟨e, he, by simp [Eth.rows]⟩
  obtain ⟨⟨j, c⟩, hc, hrow⟩ := List.mem_flatMap.mp hmem
  simp only [Eth.rows, List.mem_cons, reduceCtorEq, false_or, List.not_mem_nil, or_false,
    Stmt.txutxo.injEq, Credit.txutxo, Txutxo.mk.injEq, Src.mk.injEq, Option.some.injEq] at hrow
  obtain ⟨-, -, -, -, hflag, -, -, hj, -⟩ := hrow
  exact ⟨c, hj ▸ hc, hflag.symm⟩

/-- A transfer between two watched addresses is not written down as it is to be. -/
lemma Booked.not_inside {r : Flow × String} {json_trans : List Json} {kept : List (ℕ × Credit)}
    (hS : w.vars.s_address_id_eth = S)
    (hx : Exec (env x) (scanTrans coin_id height json_trans) w (.done r) w')
    (hkept : Booked S coin_id height json_trans w w' kept) : ∀ json_tran ∈ json_trans,
      ∀ txid «from» «to» value, Native json_tran txid «from» «to» value →
        ¬ (watched S (Text.toupper «from») ∧ watched S (Text.toupper «to»)) := by
  have hwrote : Wrote w.vars.s_ethcontranct_tokenid S coin_id height w json_trans w' :=
    exec_post hx (wp_scanTrans json_trans rfl hS)
  rintro json_tran hmem txid f t value hn ⟨hf, ht⟩
  obtain ⟨j, hj, rfl⟩ := List.getElem_of_mem hmem
  have hj' := List.getElem?_eq_getElem hj
  obtain ⟨r, hr⟩ := hwrote.read _ hmem
  obtain ⟨c?, rfl, hsome, hflag⟩ := credit_native hn hr
  have hlaw : law S f t = some (2, Text.toupper f) := if_pos ⟨hf, ht⟩
  obtain ⟨c, rfl⟩ := Option.isSome_iff_exists.mp (hsome.mpr (by rw [hlaw]; rfl))
  have hrows := List.append_cancel_left (hwrote.rows.symm.trans hkept.rows)
  obtain ⟨c', hc', heq⟩ := flag_of_rows ((mem_keeps hj' hr).mpr rfl) hrows
  have hbooks := ((hkept.native j _ _ _ _ _ hj' hn).2 c' hc').law
  rw [hlaw] at hbooks
  have htwo : 2 = c'.flag := (Prod.ext_iff.mp (Option.some.inj hbooks)).1
  have hzero : c.flag = 0 := (hflag c rfl).2 ⟨hf, ht⟩
  dsimp only at heq
  omega

/-- **The books of a block are in order if and only if** it has no native transfer between two
watched addresses. -/
theorem booked_iff {r : Flow × String} {json_trans : List Json}
    (hS : w.vars.s_address_id_eth = S)
    (hx : Exec (env x) (scanTrans coin_id height json_trans) w (.done r) w') :
    (∃ kept, Booked S coin_id height json_trans w w' kept) ↔
      ∀ json_tran ∈ json_trans, ∀ txid «from» «to» value, Native json_tran txid «from» «to» value →
        ¬ (watched S (Text.toupper «from») ∧ watched S (Text.toupper «to»)) := by
  refine ⟨fun ⟨kept, hkept⟩ => hkept.not_inside hS hx, fun hnot => ?_⟩
  have hwrote : Wrote w.vars.s_ethcontranct_tokenid S coin_id height w json_trans w' :=
    exec_post hx (wp_scanTrans json_trans rfl hS)
  refine ⟨keeps w.vars.s_ethcontranct_tokenid S json_trans, hwrote.rows, hwrote.notices,
    picks_order _, fun j json_tran txid f t value hj hn => ?_⟩
  have hmem := List.mem_of_getElem? hj
  obtain ⟨r, hr⟩ := hwrote.read _ hmem
  obtain ⟨c?, rfl, hsome, hbooks⟩ := credit_native hn hr
  have hcredit : ∀ c, (j, c) ∈ keeps w.vars.s_ethcontranct_tokenid S json_trans ↔ c? = some c :=
    fun c => mem_keeps hj hr
  refine ⟨?_, fun c hc => (hbooks c ((hcredit c).mp hc)).1 (hnot _ hmem _ _ _ _ hn)⟩
  rw [← hsome, Option.isSome_iff_exists]
  exact exists_congr hcredit

end

def transfer («from» «to» : String) : Json :=
  .obj [("hash", .str "0x1"), ("from", .str «from»), ("to", .str «to»), ("value", .str "0x1"),
    ("gas", .str "0x1"), ("gasPrice", .str "0x1")]

lemma native_transfer («from» «to» : String) :
    Native (transfer «from» «to») "0x1" «from» «to» "0x1" := ⟨rfl, rfl, rfl, rfl, by decide⟩

def takes (_ : ℕ) (_ : Request) : Answer := .body (.obj [("code", .int 0)])

def twoAddresses : World :=
  let w := smallProcess []
  { w with vars := { w.vars with s_address_id_eth := [("0XA", 2), ("0XB", 6)] } }

lemma exec_transfer («from» «to» : String)
    (h : (run (serve takes) (scanTrans 2 500 [transfer «from» «to»]) twoAddresses).1 =
      .done (.next, "0x1")) :
    Exec (env (.clear takes)) (scanTrans 2 500 [transfer «from» «to»]) twoAddresses
      (.done (.next, "0x1"))
      (run (serve takes) (scanTrans 2 500 [transfer «from» «to»]) twoAddresses).2 := by
  have hx := exec_run (serve_answers takes) (scanTrans 2 500 [transfer «from» «to»]) twoAddresses
  rwa [h] at hx

theorem booked_deposit : ∃ kept, Booked [("0XA", 2), ("0XB", 6)] 2 500 [transfer "0xc" "0xa"]
    twoAddresses (run (serve takes) (scanTrans 2 500 [transfer "0xc" "0xa"]) twoAddresses).2
    kept := by
  refine (booked_iff rfl (exec_transfer "0xc" "0xa" rfl)).mpr ?_
  rintro json_tran hmem txid f t value hn ⟨hf, -⟩
  rw [List.mem_singleton.mp hmem] at hn
  obtain rfl : "0xc" = f := Json.str.inj (Except.ok.inj hn.from_eq)
  exact absurd hf (by decide)

/-- A transfer from one address of the wallet to another is booked as a deposit. -/
theorem not_booked_inside : ∃ w', Exec (env (.clear takes)) (scanTrans 2 500 [transfer "0xa" "0xb"])
    twoAddresses (.done (.next, "0x1")) w' ∧
    ¬ ∃ kept, Booked [("0XA", 2), ("0XB", 6)] 2 500 [transfer "0xa" "0xb"] twoAddresses w' kept := by
  have hx := exec_transfer "0xa" "0xb" rfl
  refine ⟨_, hx, fun ⟨kept, hkept⟩ => ?_⟩
  exact hkept.not_inside rfl hx _ List.mem_cons_self _ _ _ _ (native_transfer "0xa" "0xb")
    ⟨by decide, by decide⟩

end OpenWallet.Monitor.Eth
