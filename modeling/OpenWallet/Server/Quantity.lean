import OpenWallet.Lib.Decimal
import OpenWallet.Server.Payments

/-!
The amounts in the requests of `transferEos` and `transferOmniUsdt`, which `std::to_string` prints
with six decimals: what they denote, and for which amounts that is what was asked for.
-/

namespace OpenWallet.Server

open Lib Prog Decimal
open Monitor (NodeInfo)

section

variable {q b : ℚ}

lemma roundEven_of_lt {n : ℕ} (hle : (n : ℚ) ≤ q) (hlt : q < n + 1 / 2) :
    Double.roundEven q = n := by
  have hfloor : ⌊q⌋ = n := Int.floor_eq_iff.mpr ⟨by exact_mod_cast hle, by push_cast; linarith⟩
  rw [Double.roundEven, hfloor, if_pos]
  push_cast
  linarith

lemma roundEven_of_le {n : ℕ} (hn : n % 2 = 0) (hle : (n : ℚ) - 1 / 2 ≤ q)
    (hlt : q < n) : Double.roundEven q = n := by
  have hfloor : ⌊q⌋ = (n : ℤ) - 1 := by
    refine Int.floor_eq_iff.mpr ⟨?_, ?_⟩ <;> push_cast <;> linarith
  rw [Double.roundEven, hfloor]
  push_cast
  rw [if_neg (by linarith)]
  split
  · ring
  · rw [if_neg (by omega)]
    ring

lemma roundEven_near (q : ℚ) :
    (Double.roundEven q : ℚ) - 1 / 2 ≤ q ∧ q ≤ Double.roundEven q + 1 / 2 := by
  have hle := Int.floor_le q
  have hlt := Int.lt_floor_add_one q
  unfold Double.roundEven
  split_ifs <;> push_cast <;> constructor <;> linarith

lemma roundEven_nonneg (hq : 0 ≤ q) : 0 ≤ Double.roundEven q := by
  have hfloor := Int.floor_nonneg.mpr hq
  unfold Double.roundEven
  split_ifs <;> omega

/-- What is printed, in millionths. -/
def millionths (b : ℚ) : ℕ := (Double.roundEven (b * 10 ^ 6)).toNat

lemma millionths_cast (hb : 0 ≤ b) : ((millionths b : ℕ) : ℚ) = Double.roundEven (b * 10 ^ 6) := by
  have hnonneg := roundEven_nonneg (q := b * 10 ^ 6) (by positivity)
  exact_mod_cast Int.toNat_of_nonneg hnonneg

lemma millionths_near (hb : 0 ≤ b) :
    (millionths b : ℚ) - 1 / 2 ≤ b * 10 ^ 6 ∧ b * 10 ^ 6 ≤ millionths b + 1 / 2 := by
  rw [millionths_cast hb]
  exact roundEven_near _

lemma to_string_eq (hb : 0 ≤ b) :
    Text.to_string b = String.ofList (fixed 6 (millionths b)) := by
  refine String.ext ?_
  simp [Text.to_string, abs_of_nonneg hb, not_lt.mpr hb, Text.six, fixed, pad, millionths]

/-- The quantity has the first four of the six decimals. -/
lemma quantityOf_eq (hb : 0 ≤ b) :
    quantityOf b = .ok (String.ofList (fixed 4 (millionths b / 100)) ++ " EOS") := by
  have hdigits := Numeral.digits_toDigits (b := 10) (by norm_num) (millionths b / 10 ^ 6)
  have hlen := length_pad (d := 6) (by norm_num) (Nat.mod_lt (millionths b) (by norm_num))
  have hbefore : Text.before ['.'] (Nat.toDigits 10 (millionths b / 10 ^ 6) ++
      '.' :: pad 6 (millionths b % 10 ^ 6)) = some _ :=
    Text.before_append _ fun h => ne_point hdigits _ h rfl
  set whole := Nat.toDigits 10 (millionths b / 10 ^ 6) with hwhole
  set part := pad 6 (millionths b % 10 ^ 6) with hpart
  have hfixed : fixed 6 (millionths b) = whole ++ '.' :: part := rfl
  have htake : fixed 4 (millionths b / 100) = whole ++ '.' :: part.take 4 :=
    (take_fixed (d := 4) (by norm_num) 2 (millionths b)).symm
  have hsub : Text.substr (String.ofList (whole ++ '.' :: part)) (whole.length + 1)
      (whole ++ '.' :: part).length = .ok (String.ofList part) := by
    rw [Text.substr_eq_ok, List.take_of_length_le (by simp; omega)]
    simp
  have hcut : Text.substr (String.ofList (whole ++ '.' :: part)) 0 (whole.length + 1 + 4) =
      .ok (String.ofList (whole ++ '.' :: part.take 4)) := by
    rw [Text.substr_eq_ok]
    simp [List.take_append, List.take_of_length_le, Nat.add_assoc]
  simp only [quantityOf, to_string_eq hb, hfixed, String.toList_ofList, hbefore, hsub, hcut, ok_bind,
    hlen, htake]
  simp

/-! ### What is sent -/

inductive Asset
  | EOS
  | USDT

namespace Asset

def precision : Asset → ℕ
  | EOS => 4
  | USDT => 8

def transfer (expires : String → String) (node : NodeInfo) (tokenInfo : TokenInfo)
    (json_request : Json) : Asset → Srv (Bool × Json)
  | EOS => transferEos expires node json_request
  | USDT => transferOmniUsdt node tokenInfo json_request

def Pays (r : Request) : Asset → Prop
  | EOS => r.data.find? "action" = some (.str "transfer")
  | USDT => r.data.find? "method" = some (.str "omni_funded_send")

def amount (r : Request) : Asset → Option Json
  | EOS => (r.data.find? "args").bind (·.find? "quantity")
  | USDT => match r.data.find? "params" with
    | some (.arr params) => params[3]?
    | _ => none

/-- The text of an amount denotes a number; that of EOS has four decimals and the symbol. -/
def Denotes (s : String) (q : ℚ) : Asset → Prop
  | EOS => ∃ whole part, s = String.ofList (whole ++ '.' :: part) ++ " EOS" ∧ '.' ∉ whole ∧
    part.length = 4 ∧ denotes (whole ++ '.' :: part) = some q
  | USDT => denotes s.toList = some q

/-- A multiple of the smallest amount of the asset. -/
def Representable (b : ℚ) (a : Asset) : Prop := ∃ n : ℕ, b = n / 10 ^ a.precision

/-- The text denotes what was asked for, where the asset has that amount, and else no more. -/
def Tells (b : ℚ) (s : String) (a : Asset) : Prop :=
  ∃ q, a.Denotes s q ∧ q ≤ b ∧ (a.Representable b → q = b)

/-- For EOS, the six decimals are not rounded up to where the last two of them are zeros. For
USDT, two more decimals are zeros, or not zeros and followed by others, and rounded down. -/
def Fits (b : ℚ) : Asset → Prop
  | EOS => ∀ n : ℕ, ¬ ((n : ℚ) / 10 ^ 4 - 5 / 10 ^ 7 ≤ b ∧ b < n / 10 ^ 4)
  | USDT => (∃ n : ℕ, b = n / 10 ^ 6) ∨
    ¬ USDT.Representable b ∧ ∃ n : ℕ, (n : ℚ) / 10 ^ 6 ≤ b ∧ b < n / 10 ^ 6 + 5 / 10 ^ 7

/-- The text that is sent for an amount. -/
def text (b : ℚ) : Asset → String
  | EOS => String.ofList (fixed 4 (millionths b / 100)) ++ " EOS"
  | USDT => Text.to_string b

def told (b : ℚ) : Asset → ℚ
  | EOS => (millionths b / 100 : ℕ) / 10 ^ 4
  | USDT => (millionths b : ℕ) / 10 ^ 6

end Asset

lemma point_notMem_fixed (d n : ℕ) : '.' ∉ Nat.toDigits 10 (n / 10 ^ d) := fun h =>
  ne_point (Numeral.digits_toDigits (by norm_num) _) _ h rfl

lemma denotes_text (hb : 0 ≤ b) (a : Asset) (q : ℚ) :
    a.Denotes (a.text b) q ↔ q = a.told b := by
  cases a with
  | USDT =>
    rw [Asset.Denotes, Asset.text, to_string_eq hb, String.toList_ofList,
      denotes_fixed (by norm_num), Option.some.injEq, eq_comm]
    rfl
  | EOS =>
    have hdenotes := denotes_fixed (d := 4) (by norm_num) (millionths b / 100)
    constructor
    · rintro ⟨whole, part, hs, -, -, hq⟩
      have hlist := String.ofList_injective ((String.append_left_inj " EOS").mp hs)
      rw [← hlist, hdenotes] at hq
      exact (Option.some.inj hq).symm
    · rintro rfl
      refine ⟨_, pad 4 (millionths b / 100 % 10 ^ 4), rfl, point_notMem_fixed 4 _,
        length_pad (by norm_num) (Nat.mod_lt _ (by norm_num)), hdenotes⟩

lemma tells_text (hb : 0 ≤ b) (a : Asset) :
    a.Tells b (a.text b) ↔ a.told b ≤ b ∧ (a.Representable b → a.told b = b) := by
  simp only [Asset.Tells, denotes_text hb, exists_eq_left]

lemma tells_eos_iff (hb : 0 ≤ b) : Asset.EOS.Tells b (Asset.EOS.text b) ↔ Asset.EOS.Fits b := by
  rw [tells_text hb]
  obtain ⟨hlow, hhigh⟩ := millionths_near hb
  constructor
  · rintro ⟨hle, -⟩ n ⟨hn, hlt⟩
    have hup : Double.roundEven (b * 10 ^ 6) = (100 * n : ℕ) := by
      refine roundEven_of_le (by omega) ?_ ?_ <;> push_cast <;> linarith
    have hprinted : millionths b / 100 = n := by
      rw [millionths, hup, Int.toNat_natCast, Nat.mul_div_cancel_left n (by norm_num)]
    rw [Asset.told, hprinted] at hle
    exact absurd hlt (not_lt.mpr hle)
  · intro hfits
    have hcut : 100 * (millionths b / 100 : ℕ) ≤ (millionths b : ℚ) := by
      exact_mod_cast Nat.mul_div_le (millionths b) 100
    have hle : Asset.EOS.told b ≤ b := by
      by_contra hnot
      rw [Asset.told, not_le] at hnot
      exact hfits _ ⟨by linarith, hnot⟩
    refine ⟨hle, ?_⟩
    rintro ⟨n, rfl⟩
    have hwhole : (n : ℚ) / 10 ^ Asset.EOS.precision * 10 ^ 6 = (100 * n : ℕ) := by
      rw [Asset.precision]
      push_cast
      ring
    rw [Asset.told, millionths, hwhole, Double.roundEven_natCast, Int.toNat_natCast,
      Nat.mul_div_cancel_left n (by norm_num)]
    rfl

lemma tells_usdt_iff (hb : 0 ≤ b) :
    Asset.USDT.Tells b (Asset.USDT.text b) ↔ Asset.USDT.Fits b := by
  rw [tells_text hb]
  obtain ⟨hlow, hhigh⟩ := millionths_near hb
  constructor
  · rintro ⟨hle, hexact⟩
    by_cases hrep : Asset.USDT.Representable b
    · exact Or.inl ⟨_, (hexact hrep).symm⟩
    · rw [Asset.told] at hle
      refine Or.inr ⟨hrep, _, hle, lt_of_le_of_ne (by linarith) fun heq => hrep ?_⟩
      refine ⟨100 * millionths b + 50, heq.trans ?_⟩
      rw [Asset.precision]
      push_cast
      ring
  · rintro (⟨n, rfl⟩ | ⟨hrep, n, hle, hlt⟩)
    · have hwhole : (n : ℚ) / 10 ^ 6 * 10 ^ 6 = n := by ring
      have htold : Asset.USDT.told (n / 10 ^ 6) = n / 10 ^ 6 := by
        rw [Asset.told, millionths, hwhole, Double.roundEven_natCast, Int.toNat_natCast]
      exact ⟨htold.le, fun _ => htold⟩
    · have hdown : Double.roundEven (b * 10 ^ 6) = n := roundEven_of_lt (by linarith) (by linarith)
      refine ⟨?_, fun h => absurd h hrep⟩
      rwa [Asset.told, millionths, hdown, Int.toNat_natCast]

lemma tells_iff (hb : 0 ≤ b) (a : Asset) : a.Tells b (a.text b) ↔ a.Fits b := by
  cases a with
  | EOS => exact tells_eos_iff hb
  | USDT => exact tells_usdt_iff hb

/-! ### Over runs -/

section

variable {S : Op → Prop} {G : Request → Prop} {x : Weather} {w w' : World} {α : Type}

lemma wire_of_answers {o : Op} {r : Ans o} (h : (env x).answers o w r w')
    (hne : ∀ r', o ≠ .curl r') : w'.wire = w.wire := by
  cases o with
  | curl r' => exact absurd rfl (hne r')
  | getData | getWallet => rw [h.1]
  | createAccount | get | find => rw [h.2]
  | batchRefreshDB =>
    obtain ⟨_, -, rfl⟩ := h
    rfl
  | openDB | putWallet | refreshDB =>
    rw [show w' = if r then _ else _ from h]
    split <;> rfl
  | _ => rw [show w' = _ from h]

lemma wired_of_within {p : Srv α} {P : α → Prop} {o : Outcome Exn α}
    (hp : p.Within (fun o => ∀ r, o = .curl r → G r) P) (hrun : Exec (env x) p w o w') :
    ∀ r a, (r, a) ∈ w'.wire.drop w.wire.length → G r := by
  have hpost := exec_post hrun (wp_within (S := fun o => ∀ r, o = .curl r → G r)
    (I := fun w' => ∃ es, w'.wire = w.wire ++ es ∧ ∀ e ∈ es, G e.1) hp ?_ ?_ ⟨[], by simp, by simp⟩)
  · obtain ⟨es, hwire, hes⟩ : ∃ es, w'.wire = w.wire ++ es ∧ ∀ e ∈ es, G e.1 := by
      cases o with
      | done r => exact hpost.2
      | threw | died => exact hpost
    intro r a hmem
    rw [hwire, List.drop_left] at hmem
    exact hes _ hmem
  · rintro o w₁ w₂ - hI ⟨-, rfl⟩
    exact hI
  · rintro o w₁ r w₂ ho ⟨es, hwire, hes⟩ hans
    by_cases hcurl : ∃ r, o = .curl r
    · obtain ⟨r', rfl⟩ := hcurl
      obtain ⟨-, rfl⟩ := hans
      refine ⟨es ++ [(r', r)], by simp [hwire], fun e he => ?_⟩
      rcases List.mem_append.mp he with he | he
      · exact hes e he
      · rw [List.mem_singleton.mp he]
        exact ho r' rfl
    · exact ⟨es, (wire_of_answers hans fun r' h => hcurl ⟨r', h⟩).trans hwire, hes⟩

variable {expires : String → String} {node : NodeInfo} {tokenInfo : TokenInfo} {json_request : Json}
  {b : ℚ}

/-- Every request for the payment carries the text of the amount. -/
lemma transfer_within (hb : 0 ≤ b) (hrequest : (json_request.idx 4 >>= Json.getDouble) = .ok b)
    (a : Asset) : (a.transfer expires node tokenInfo json_request).Within
      (fun o => ∀ r, o = .curl r → a.Pays r → a.amount r = some (.str (a.text b))) fun _ => True := by
  cases a with
  | EOS =>
    refine transferEos_within nofun ?_ ?_
    · rintro url «from» «to» balance quantity hbalance hquantity _ ⟨⟩ -
      obtain rfl := Except.ok.inj (hrequest.symm.trans hbalance)
      obtain rfl := Except.ok.inj ((quantityOf_eq hb).symm.trans hquantity)
      rfl
    · rintro url data hdata _ ⟨⟩ hpays
      rw [Asset.Pays, hdata] at hpays
      cases hpays
  | USDT =>
    refine transferOmniUsdt_within nofun ?_ ?_
    · rintro «from» «to» contract balance fee_address_omni_ hbalance _ ⟨⟩ -
      obtain rfl := Except.ok.inj (hrequest.symm.trans hbalance)
      rfl
    · rintro address _ ⟨⟩ hpays
      simp [Asset.Pays, call, structRpc, List.lookup_cons] at hpays

/-- A payment of an amount, and no fee. -/
def paymentOf (b : ℚ) : Json :=
  .arr [.str "name", .bool false, .str "A", .str "B", .float b, .float 0]

/-- The node has one output to pay the fee with. -/
def feeOutput : Json := .obj [("amount", .float 1), ("spendable", .bool true)]

def feeReply : Json := .obj [("result", .arr [feeOutput])]

def omniToken : TokenInfo := ⟨5, 1, "USDT", "31", 8⟩

lemma run_sendFunded (w : World) :
    run (serve (showsOnce feeReply) fun _ => .null)
      (sendFunded btcNode omniToken "A" "B" b 0 feeOutput (true, 0, .null)) w =
    (.done (.brk, false, Double.round (0 + 1), .null), { w with
      wire := w.wire ++ [(call btcNode "omni_funded_send"
        (fundedSend "A" "B" 31 b w.vars.fee_address_omni_), .down)] }) := by
  have hspendable : feeOutput.field "spendable" = .ok (.bool true) := rfl
  have hamount : feeOutput.field "amount" = .ok (.float 1) := rfl
  have henough : Double.round (Double.round (0 + 1) - 0) ≥ Double.round (5 / 10 ^ 7) := by
    decide +kernel
  have hcontract : Text.stoul omniToken.contract = .ok 31 :=
    Text.stoul_toString (n := 31) (by norm_num)
  simp only [sendFunded, liftM_eq, hspendable, hamount, hcontract, lift_ok, ret_bind,
    Json.getBool_bool, Json.getDouble_float, Bool.not_true, Bool.false_eq_true, if_false]
  rw [if_pos henough]
  rfl

lemma pays_paymentOf (hb : 0 ≤ b) (a : Asset) : ∃ r, a.Pays r ∧ (r, Answer.down) ∈
    (run (serve (showsOnce feeReply) fun _ => .null)
      (a.transfer id btcNode omniToken (paymentOf b)) idle).2.wire := by
  have h2 : (paymentOf b).idx 2 = .ok (.str "A") := rfl
  have h3 : (paymentOf b).idx 3 = .ok (.str "B") := rfl
  have h4 : (paymentOf b).idx 4 = .ok (.float b) := rfl
  cases a with
  | EOS =>
    refine ⟨⟨curl_base_chain btcNode ++ "abi_json_to_bin", "",
      abiJson "A" "B" (Asset.EOS.text b)⟩, rfl, ?_⟩
    have hquantity : quantityOf b = .ok (Asset.EOS.text b) := quantityOf_eq hb
    have hpost : run (serve (showsOnce feeReply) fun _ => .null)
        (postChecked (curl_base_chain btcNode ++ "abi_json_to_bin")
          (abiJson "A" "B" (Asset.EOS.text b))) idle = (.done none, { idle with
        wire := [(⟨curl_base_chain btcNode ++ "abi_json_to_bin", "",
          abiJson "A" "B" (Asset.EOS.text b)⟩, .down)] }) := rfl
    simp only [Asset.transfer, transferEos, liftM_eq, h2, h3, h4, lift_ok, ret_bind,
      Json.getStr_str, Json.getDouble_float, hquantity, run_bind_of _ _ hpost]
    exact List.mem_singleton_self _
  | USDT =>
    refine ⟨call btcNode "omni_funded_send" (fundedSend "A" "B" 31 b ""), rfl, ?_⟩
    have h5 : (paymentOf b).idx 5 = .ok (.float 0) := rfl
    have hresult : feeReply.field "result" = .ok (.arr [feeOutput]) := rfl
    have hget : run (serve (showsOnce feeReply) fun _ => .null) get idle =
        (.done idle.vars, idle) := rfl
    have hlist : run (serve (showsOnce feeReply) fun _ => .null)
        (CallNodeRPC "listunspent" (unspentOf idle.vars.fee_address_omni_) btcNode.node_url
          btcNode.node_auth) idle = (.done (true, feeReply), { idle with
          wire := [(call btcNode "listunspent" (unspentOf ""), .body feeReply)] }) := rfl
    simp only [Asset.transfer, transferOmniUsdt, liftM_eq, h2, h3, h4, h5, lift_ok, ret_bind,
      Json.getStr_str, Json.getDouble_float]
    rw [run_bind_of _ _ hget, run_bind_of _ _ hlist]
    simp only [Bool.not_true, Bool.false_eq_true, if_false, hresult, lift_ok, ret_bind, Json.empty,
      List.isEmpty_cons, Json.elems_arr, loop]
    rw [Prog.bind_assoc, run_bind_of _ _ (run_sendFunded _)]
    exact List.mem_cons_of_mem _ (List.mem_singleton_self _)

/-- In every run, the text that is sent for an amount tells it. -/
def Asset.Faithful (a : Asset) (b : ℚ) : Prop :=
  ∀ (x : Weather) (w w' : World) (expires : String → String) (node : NodeInfo)
    (tokenInfo : TokenInfo) (json_request : Json) (o : Outcome Exn (Bool × Json)),
    (json_request.idx 4 >>= Json.getDouble) = .ok b →
    Exec (env x) (a.transfer expires node tokenInfo json_request) w o w' →
    ∀ r answer, (r, answer) ∈ w'.wire.drop w.wire.length → a.Pays r →
      ∃ s, a.amount r = some (.str s) ∧ a.Tells b s

variable {a : Asset}

lemma fits_of_faithful (hb : 0 ≤ b) (h : a.Faithful b) : a.Fits b := by
  obtain ⟨r, hpays, hmem⟩ := pays_paymentOf hb a
  have hrun := exec_run (serve_answers (showsOnce feeReply) fun _ => .null)
    (a.transfer id btcNode omniToken (paymentOf b)) idle
  obtain ⟨s, hs, htells⟩ := h _ _ _ _ _ _ _ _ rfl hrun r _ hmem hpays
  have htext := wired_of_within (transfer_within hb rfl a) hrun r _ hmem hpays
  obtain rfl := Json.str.inj (Option.some.inj (hs.symm.trans htext))
  exact (tells_iff hb a).mp htells

/-- **What is sent denotes what was asked for**, where the asset has that amount, and never more,
exactly if the amount survives the printing of six decimals. -/
theorem amounts_iff (hb : 0 ≤ b) : a.Faithful b ↔ a.Fits b := by
  refine ⟨fits_of_faithful hb, ?_⟩
  intro hfits x w w' expires node tokenInfo json_request o hrequest hrun r answer hmem hpays
  have htext := wired_of_within (transfer_within hb hrequest a) hrun r _ hmem hpays
  exact ⟨_, htext, (tells_iff hb a).mpr hfits⟩

end

theorem amounts_one : ∃ r s,
    (r, Answer.down) ∈ (run (serve (showsOnce feeReply) fun _ => .null)
      (Asset.USDT.transfer id btcNode omniToken (paymentOf 1)) idle).2.wire ∧
    Asset.USDT.amount r = some (.str s) ∧ Asset.USDT.Tells 1 s := by
  obtain ⟨r, hpays, hmem⟩ := pays_paymentOf (b := 1) (by norm_num) .USDT
  have hrun := exec_run (serve_answers (showsOnce feeReply) fun _ => .null)
    (Asset.USDT.transfer id btcNode omniToken (paymentOf 1)) idle
  obtain ⟨s, hs, htells⟩ := (amounts_iff (a := .USDT) (b := 1) (by norm_num)).mpr
    (Or.inl ⟨10 ^ 6, by norm_num⟩) _ _ _ _ _ _ _ _ rfl hrun r _ hmem hpays
  exact ⟨r, s, hmem, hs, htells⟩

/-- The smallest amount of USDT is sent as nothing, and EOS that is less than one as one. -/
theorem smallest_not_faithful :
    ¬ Asset.USDT.Faithful (1 / 10 ^ 8) ∧ ¬ Asset.EOS.Faithful (1 - 5 / 10 ^ 8) := by
  constructor
  · intro h
    have hrep : Asset.USDT.Representable (1 / 10 ^ 8) := ⟨1, by norm_num [Asset.precision]⟩
    rcases fits_of_faithful (by norm_num) h with ⟨n, hn⟩ | ⟨hnot, -⟩
    · have hcast : (100 * n : ℕ) = (1 : ℚ) := by
        push_cast
        linarith
      have hone : 100 * n = 1 := by exact_mod_cast hcast
      omega
    · exact hnot hrep
  · intro h
    exact fits_of_faithful (by norm_num) h 10000 ⟨by norm_num, by norm_num⟩

end

end OpenWallet.Server
