import Mathlib
import OpenWallet.Monitor.Provenance
import OpenWallet.Statements

/-!
What the statements of the monitor are made of: texts out of the answers of nodes, base addresses
and numbers. Where nothing in these texts means anything between quotes, whatever statement has been
executed has inserted its row.
-/

namespace OpenWallet

open Lib Lib.Quoting

/-- No character that means anything between quotes. -/
def Bare (s : String) : Prop := ∀ c ∈ s.toList, c ≠ '\'' ∧ c ≠ '\\' ∧ c ≠ '\x00'

instance : DecidablePred Bare := fun s => List.decidableBAll _ s.toList

lemma bare_empty : Bare "" := by decide

lemma Bare.append {s t : String} (hs : Bare s) (ht : Bare t) : Bare (s ++ t) := by
  intro c hc
  rw [String.toList_append, List.mem_append] at hc
  exact hc.elim (hs c) (ht c)

lemma Bare.of_subset {s : String} {cs : List Char} (hs : Bare s) (h : cs ⊆ s.toList) :
    Bare (String.ofList cs) := by
  intro c hc
  rw [String.toList_ofList] at hc
  exact hs c (h hc)

lemma toUpper_ne {c d : Char} (hd : d.isAlpha = false) (h : c ≠ d) : c.toUpper ≠ d := by
  by_cases hc : c.isLower
  · rintro rfl
    rw [Char.isAlpha_toUpper_eq_isAlpha, Char.isAlpha, hc, Bool.or_true] at hd
    cases hd
  · rwa [Char.toUpper_eq_of_not_isLower hc]

lemma Bare.toupper {s : String} (hs : Bare s) : Bare (Text.toupper s) := by
  intro c hc
  rw [Text.toupper, String.toList_ofList] at hc
  obtain ⟨d, hd, rfl⟩ := List.mem_map.mp hc
  obtain ⟨hquote, hescape, hnull⟩ := hs d hd
  exact ⟨toUpper_ne rfl hquote, toUpper_ne rfl hescape, toUpper_ne rfl hnull⟩

lemma Bare.verbatim {s : String} (hs : Bare s) : verbatim s.toList ∧ '\x00' ∉ s.toList := by
  refine ⟨?_, fun h => (hs _ h).2.2 rfl⟩
  unfold Bare at hs
  generalize s.toList = cs at hs
  induction cs with
  | nil => rfl
  | cons c cs ih =>
    obtain ⟨hc, hs⟩ := List.forall_mem_cons.mp hs
    rw [verbatim_cons hc.1 hc.2.1]
    exact ih hs

lemma bare_of_isDigit {cs : List Char} (h : ∀ c ∈ cs, c.isDigit) : Bare (String.ofList cs) := by
  intro c hc
  rw [String.toList_ofList] at hc
  have hdigit := h c hc
  refine ⟨?_, ?_, ?_⟩ <;> rintro rfl <;> exact absurd hdigit (by decide)

lemma bare_nat (n : ℕ) : Bare (toString n) :=
  bare_of_isDigit fun _ hc => Nat.isDigit_of_mem_toDigits (by norm_num) le_rfl hc

lemma bare_int (z : ℤ) : Bare (toString z) := by
  cases z with
  | ofNat n => exact bare_nat n
  | negSucc n => exact Bare.append (s := "-") (by decide) (bare_nat (n + 1))

lemma bare_six (n : ℕ) : Bare (Text.six n) := by
  refine bare_of_isDigit fun c hc => ?_
  rcases List.mem_append.mp hc with hc | hc
  · rw [List.eq_of_mem_replicate hc]
    rfl
  · exact Nat.isDigit_of_mem_toDigits (by norm_num) le_rfl hc

lemma bare_to_string (q : Double) : Bare (Text.to_string q) := by
  refine Bare.append (Bare.append (Bare.append ?_ (bare_nat _)) (by decide)) (bare_six _)
  split <;> decide

lemma Bare.substr {s t : String} {pos n : ℕ} (hs : Bare s) (h : Text.substr s pos n = .ok t) :
    Bare t := by
  obtain ⟨-, rfl⟩ := Text.substr_eq_ok.mp h
  exact hs.of_subset (List.Subset.trans (List.take_subset _ _) (List.drop_subset _ _))

lemma before_subset {pat cs ds : List Char} (h : Text.before pat cs = some ds) : ds ⊆ cs := by
  induction cs generalizing ds with
  | nil =>
    rw [Text.before] at h
    split at h <;> simp_all
  | cons c cs ih =>
    rw [Text.before] at h
    split at h
    · simp_all
    · obtain ⟨ds, hds, rfl⟩ := Option.map_eq_some_iff.mp h
      exact List.cons_subset_cons _ (ih hds)

mutual

/-- The texts among the values. -/
def Json.texts : Json → List String
  | .str s => [s]
  | .arr xs => elemTexts xs
  | .obj kvs => memberTexts kvs
  | _ => []

def elemTexts : List Json → List String
  | [] => []
  | j :: js => j.texts ++ elemTexts js

def memberTexts : List (String × Json) → List String
  | [] => []
  | kv :: kvs => valueTexts kv ++ memberTexts kvs

def valueTexts : String × Json → List String
  | (_, j) => j.texts

end

def Json.Clean (j : Json) : Prop := ∀ s ∈ j.texts, Bare s

instance : DecidablePred Json.Clean := fun j => List.decidableBAll _ j.texts

lemma clean_arr_iff {xs : List Json} : (Json.arr xs).Clean ↔ ∀ j ∈ xs, j.Clean := by
  unfold Json.Clean
  rw [Json.texts]
  induction xs with
  | nil => simp [elemTexts]
  | cons j xs ih => rw [elemTexts, List.forall_mem_append, ih, List.forall_mem_cons]

lemma clean_obj_iff {kvs : List (String × Json)} :
    (Json.obj kvs).Clean ↔ ∀ kv ∈ kvs, kv.2.Clean := by
  unfold Json.Clean
  rw [Json.texts]
  induction kvs with
  | nil => simp [memberTexts]
  | cons kv kvs ih =>
    obtain ⟨key, j⟩ := kv
    rw [memberTexts, valueTexts, List.forall_mem_append, ih, List.forall_mem_cons]

namespace Json.Clean

variable {j v : Json} {s key : String}

lemma str (h : (Json.str s).Clean) : Bare s := h s (List.mem_singleton.mpr rfl)

lemma null : Json.null.Clean := fun _ h => absurd h List.not_mem_nil

lemma lookup {kvs : List (String × Json)} (h : (Json.obj kvs).Clean)
    (hj : kvs.lookup key = some j) : j.Clean := by
  obtain ⟨_, _, rfl, -⟩ := List.lookup_eq_some_iff.mp hj
  exact clean_obj_iff.mp h (key, j) (by simp)

lemma find? (h : j.Clean) (hv : j.find? key = some v) : v.Clean := by
  cases j with
  | obj kvs => exact h.lookup hv
  | _ => cases hv

lemma field (h : j.Clean) (hv : j.field key = .ok v) : v.Clean := by
  cases j with
  | obj kvs =>
    obtain rfl := Except.ok.inj hv
    cases hk : kvs.lookup key with
    | none => exact null
    | some v => exact h.lookup hk
  | null =>
    obtain rfl := Except.ok.inj hv
    exact null
  | _ => cases hv

lemma touch (h : j.Clean) (hv : j.touch key = .ok v) : v.Clean := by
  cases j with
  | obj kvs =>
    obtain rfl := Except.ok.inj hv
    split
    · exact h
    · refine clean_obj_iff.mpr (List.forall_mem_append.mpr ⟨clean_obj_iff.mp h, ?_⟩)
      exact List.forall_mem_singleton.mpr null
  | null =>
    obtain rfl := Except.ok.inj hv
    exact clean_obj_iff.mpr (List.forall_mem_singleton.mpr null)
  | _ => cases hv

lemma elems {xs : List Json} (h : j.Clean) (hx : j.elems = .ok xs) (hv : v ∈ xs) : v.Clean := by
  unfold Json.elems at hx
  split at hx
  · obtain rfl := Except.ok.inj hx
    cases hv
  · obtain rfl := Except.ok.inj hx
    exact clean_arr_iff.mp h v hv
  · obtain rfl := Except.ok.inj hx
    cases hv
  · cases hx

lemma getStr (h : j.Clean) (hs : j.getStr = .ok s) : Bare s := by
  cases j with
  | str t =>
    obtain rfl := Except.ok.inj hs
    exact h.str
  | _ => cases hs

end Json.Clean


/-- Whatever was in a flag that was never set, the values mean nothing between quotes. -/
def Stmt.Plain (s : Stmt) : Prop := ∀ unset, ∀ v ∈ s.values unset, Bare v

lemma Stmt.Plain.inserts {s : Stmt} (h : s.Plain) (m : Database) (unset : ℕ) :
    m.Inserts unset s :=
  (m.inserts_iff unset s).mpr fun v hv => (h unset v hv).verbatim

lemma plain_txutxo {r : Txutxo} (htxid : Bare r.txid) (haddress : Bare r.address)
    (hamount : Bare r.amount) : (Stmt.txutxo r).Plain := by
  intro unset v hv
  simp only [Stmt.values, List.mem_cons, List.not_mem_nil, or_false] at hv
  rcases hv with rfl | rfl | rfl | rfl | rfl
  · exact htxid
  · exact bare_int _
  · exact haddress
  · exact hamount
  · exact bare_nat _

lemma plain_txaccount {r : Txaccount} (htxid : Bare r.txid) (hvin : Bare r.vin)
    (hvout : Bare r.vout) (hamount : Bare r.amount) (hfee : Bare r.fee) :
    (Stmt.txaccount r).Plain := by
  intro unset v hv
  simp only [Stmt.values, List.mem_cons, List.not_mem_nil, or_false] at hv
  rcases hv with rfl | rfl | rfl | rfl | rfl | rfl | rfl
  · exact bare_int _
  · exact bare_int _
  · exact htxid
  · exact hvin
  · exact hvout
  · exact hamount
  · exact hfee

def Answer.Clean : Answer → Prop
  | .body j => j.Clean
  | _ => True

instance : DecidablePred Answer.Clean
  | .body j => inferInstanceAs (Decidable j.Clean)
  | .down | .garbage => inferInstanceAs (Decidable True)

namespace Monitor

open Prog

/-- No text in an answer so far means anything between quotes. -/
def Harmless (w : World) : Prop := ∀ e ∈ w.wire, e.2.Clean

instance : DecidablePred Harmless := fun w => List.decidableBAll _ w.wire

lemma Harmless.mono {w w' : World} (h : Harmless w') (hw : w.wire <+: w'.wire) : Harmless w :=
  fun e he => h e (hw.subset he)

lemma clean_reply {a : Answer} {j : Json} (h : a.Clean)
    (hr : reply a = .ok (.ok j)) : j.Clean := by
  cases a with
  | body j' =>
    simp only [reply, bind_eq_ok, pure_eq_ok, Except.ok.injEq] at hr
    obtain ⟨j'', htouch, error, -, hr⟩ := hr
    split at hr
    · obtain rfl := Reply.ok.inj hr
      exact Json.Clean.touch h htouch
    · cases hr
  | _ => cases hr

lemma Learnt.clean {x : Weather} {t₀ : ℕ} {w : World} {url auth : String} {json_post : Json}
    {α : Type} {read : Json → Except Exn α} {r : α} (hq : Harmless w)
    (h : Learnt x t₀ w url auth json_post read r) : ∃ j, j.Clean ∧ read j = .ok r := by
  obtain ⟨j, ⟨a, ⟨t, -, ht, -⟩, hr⟩, hread⟩ := h
  exact ⟨j, clean_reply (hq _ (List.mem_of_getElem? ht)) hr, hread⟩

section

variable {x : Weather} {t₀ n height : ℕ} {w : World} {node : NodeInfo} {C S : List (String × ℤ)}
  {base : String} {coin_id : ℤ} {s : Stmt} {b : Option Json} {j : Json}

lemma Btc.clean_vout {number : ℤ} {value : String} {addresses : List Json} (hj : j.Clean)
    (h : Btc.vout j = .ok (some (number, value, addresses))) :
    Bare value ∧ ∀ a ∈ addresses, a.Clean := by
  simp only [Btc.vout, bind_eq_ok] at h
  obtain ⟨json_script, hscript, h⟩ := h
  split at h
  · cases h
  · next json_addresses hfind =>
    simp only [bind_eq_ok, pure_eq_ok, Except.ok.injEq, Option.some.injEq, Prod.mk.injEq] at h
    obtain ⟨-, -, -, -, -, -, q, -, xs, hxs, -, rfl, rfl⟩ := h
    exact ⟨bare_to_string _, fun a ha => ((hj.field hscript).find? hfind).elems hxs ha⟩

lemma Btc.plain {V : String → Bool → Prop} (hq : Harmless w)
    (h : (Btc.grounds x t₀ node S V coin_id height).credit n s b w) : s.Plain := by
  obtain ⟨src, txid, vin, number, value, address, hpays, -, rfl, -⟩ := h
  obtain ⟨-, ⟨txs, ⟨hash, -, hlist⟩, ht⟩, vouts, json_vout, addresses, hread, ho, hv, ha⟩ := hpays
  obtain ⟨j, hj, h⟩ := hlist.clean hq
  simp only [Btc.blockTxs, bind_eq_ok] at h
  obtain ⟨result, hresult, tx, htx, hxs⟩ := h
  have htxid := ((hj.field hresult).field htx).elems hxs (List.mem_of_getElem? ht)
  obtain ⟨j, hj, h⟩ := hread.clean hq
  simp only [Btc.txVouts, bind_eq_ok] at h
  obtain ⟨result, hresult, jvouts, hvouts, hxs⟩ := h
  have hvout := ((hj.field hresult).field hvouts).elems hxs (List.mem_of_getElem? ho)
  obtain ⟨hvalue, haddresses⟩ := Btc.clean_vout hvout hv
  have haddress := (haddresses _ (List.mem_of_getElem? ha)).str
  unfold Btc.row
  split <;> exact plain_txutxo htxid.str haddress hvalue

/-- No part of what is kept of a transaction means anything between quotes. -/
structure Eth.Credit.Plain (c : Eth.Credit) : Prop where
  txid : Bare c.txid
  vin : Bare c.vin
  vout : Bare c.vout
  value : Bare c.value
  fee : Bare c.fee
  address : Bare c.address

lemma Eth.clean_erc20 {txid «from» : String} {c : Eth.Credit} (hj : j.Clean) (htxid : Bare txid)
    (hfrom : Bare «from») (h : Eth.erc20 C S txid «from» j = .ok (some c)) : c.Plain := by
  simp only [Eth.erc20, bind_eq_ok] at h
  obtain ⟨_, -, _, -, h⟩ := h
  split at h
  · cases h
  simp only [bind_eq_ok] at h
  obtain ⟨_, -, _, hfield, input, hinput, _, -, h⟩ := h
  split at h
  · cases h
  simp only [bind_eq_ok] at h
  obtain ⟨cut, hcut, h⟩ := h
  split at h
  · cases h
  simp only [bind_eq_ok, pure_eq_ok, Except.ok.injEq, Option.some.injEq] at h
  obtain ⟨_, -, _, -, rfl⟩ := h
  have hto := (Bare.append (s := "0x") (by decide)
    (((hj.field hfield).getStr hinput).substr hcut)).toupper
  refine ⟨htxid, hfrom, hto, bare_int _, bare_int _, ?_⟩
  dsimp only
  split_ifs
  · exact hfrom
  · exact hto
  · exact hfrom

lemma Eth.clean_native {txid «from» value : String} {c : Eth.Credit} (hj : j.Clean)
    (htxid : Bare txid) (hfrom : Bare «from»)
    (h : Eth.native S txid «from» value j = .ok (some c)) : c.Plain := by
  simp only [Eth.native, bind_eq_ok] at h
  obtain ⟨_, hfield, t, ht, h⟩ := h
  split at h
  · cases h
  simp only [bind_eq_ok, pure_eq_ok, Except.ok.injEq, Option.some.injEq] at h
  obtain ⟨_, -, _, -, rfl⟩ := h
  have hto := ((hj.field hfield).getStr ht).toupper
  refine ⟨htxid, hfrom, hto, bare_int _, bare_int _, ?_⟩
  dsimp only
  split_ifs
  · exact hto
  · exact hfrom

lemma Eth.clean_credit {txid : String} {c : Eth.Credit} (hj : j.Clean)
    (h : Eth.credit C S j = .ok (some (txid, some c))) : c.Plain := by
  simp only [Eth.credit, bind_eq_ok] at h
  obtain ⟨_, -, _, -, h⟩ := h
  split at h
  · cases h
  simp only [bind_eq_ok] at h
  obtain ⟨_, -, _, -, _, hfield, f, hfrom, _, hfield', t, htxid, h⟩ := h
  have hfrom := ((hj.field hfield).getStr hfrom).toupper
  have htxid := (hj.field hfield').getStr htxid
  split at h
  · simp only [bind_eq_ok, pure_eq_ok, Except.ok.injEq, Option.some.injEq, Prod.mk.injEq] at h
    obtain ⟨_, hc, -, rfl⟩ := h
    exact Eth.clean_erc20 hj htxid hfrom hc
  · simp only [bind_eq_ok, pure_eq_ok, Except.ok.injEq, Option.some.injEq, Prod.mk.injEq] at h
    obtain ⟨_, hc, -, rfl⟩ := h
    exact Eth.clean_native hj htxid hfrom hc

lemma Eth.plain (hq : Harmless w)
    (h : (Eth.grounds x t₀ node C S coin_id height).credit n s b w) : s.Plain := by
  obtain ⟨src, txs, json_tran, txid, c, ⟨hex_height, -, hlist⟩, ht, hc, -, hs⟩ := h
  obtain ⟨j, hj, h⟩ := hlist.clean hq
  simp only [Eth.transactions, pure_eq_ok] at h
  split at h
  · cases h
  next result hfind =>
  simp only [bind_eq_ok, Except.ok.injEq, Option.some.injEq] at h
  obtain ⟨jtxs, htxs, _, hxs, rfl⟩ := h
  have hplain := Eth.clean_credit
    (((hj.find? hfind).field htxs).elems hxs (List.mem_of_getElem? ht)) hc
  rcases hs with ⟨rfl, -⟩ | ⟨rfl, -⟩
  · exact plain_txaccount hplain.txid hplain.vin hplain.vout hplain.value hplain.fee
  · exact plain_txutxo hplain.txid hplain.address hplain.value

lemma Xrp.plain (hq : Harmless w) (hbase : Bare base)
    (h : (Xrp.grounds x t₀ node base coin_id height).credit n s b w) : s.Plain := by
  obtain ⟨src, txs, hash, h', p, -, -, hread, -, -, -, rfl, -⟩ := h
  obtain ⟨j, hj, h⟩ := hread.clean hq
  simp only [Xrp.payment, bind_eq_ok] at h
  obtain ⟨_, -, h⟩ := h
  split at h
  · cases h
  simp only [bind_eq_ok] at h
  obtain ⟨result, hresult, _, -, _, -, h⟩ := h
  split at h
  · cases h
  simp only [bind_eq_ok] at h
  obtain ⟨json_amount, hamount, h⟩ := h
  split at h
  · cases h
  simp only [bind_eq_ok] at h
  obtain ⟨amount, hamount', _, -, _, -, _, -, _, -, _, hhash, t, hhash', h⟩ := h
  split at h
  · cases h
  obtain ⟨rfl, rfl⟩ : h' = t ∧ (⟨t, amount, _⟩ : Xrp.Payment) = p := by
    simpa [eq_comm] using h
  exact plain_txutxo (((hj.field hresult).field hhash).getStr hhash') hbase
    (((hj.field hresult).field hamount).getStr hamount')

lemma Eos.clean_transactions {txs : List Json} (hj : j.Clean)
    (h : Eos.transactions j = .ok (some txs)) {json_transaction : Json}
    (ht : json_transaction ∈ txs) : json_transaction.Clean := by
  simp only [Eos.transactions, pure_eq_ok] at h
  split at h
  · cases h
  split at h
  · cases h
  next json_transactions hfind =>
  simp only [bind_eq_ok, Except.ok.injEq, Option.some.injEq] at h
  obtain ⟨_, hxs, rfl⟩ := h
  exact (hj.find? hfind).elems hxs ht

lemma Eos.clean_actions {acts : List Json} (hj : j.Clean)
    (h : Eos.actions j = .ok (some acts)) {json_action : Json} (ha : json_action ∈ acts) :
    json_action.Clean := by
  simp only [Eos.actions, pure_eq_ok] at h
  split at h
  · cases h
  split at h
  · cases h
  next json_actions hfind =>
  simp only [bind_eq_ok, Except.ok.injEq, Option.some.injEq] at h
  obtain ⟨_, hxs, rfl⟩ := h
  obtain ⟨inner, hinner, hactions⟩ := Option.bind_eq_some_iff.mp hfind
  obtain ⟨outer, houter, hinner⟩ := Option.bind_eq_some_iff.mp hinner
  exact (((hj.find? houter).find? hinner).find? hactions).elems hxs ha

lemma Eos.clean_action {quantity : String} {flag : Option ℕ} (hj : j.Clean)
    (h : Eos.action base j = .ok (some (quantity, flag))) : Bare quantity := by
  simp only [Eos.action, pure_eq_ok] at h
  split at h
  · cases h
  next json_data hdata =>
  split at h
  · cases h
  simp only [bind_eq_ok] at h
  obtain ⟨_, -, _, -, _, -, _, -, _, hfield, t, ht, h⟩ := h
  split at h
  · cases h
  next cs hbefore =>
  obtain ⟨rfl, -⟩ : String.ofList cs = quantity ∧ _ = flag := by
    simpa using h
  exact (((hj.find? hdata).field hfield).getStr ht).of_subset (before_subset hbefore)

lemma Eos.plain (hq : Harmless w) (hbase : Bare base)
    (h : (Eos.grounds x t₀ node base coin_id height).credit n s b w) : s.Plain := by
  obtain ⟨src, txs, json_transaction, trx, acts, json_action, quantity, flag, hlist, ht, hid,
    hread, ha, hc, -, rfl, -⟩ := h
  obtain ⟨j, hj, h⟩ := hlist.clean hq
  have htx := Eos.clean_transactions hj h (List.mem_of_getElem? ht)
  obtain ⟨inner, hinner, hid⟩ := Option.bind_eq_some_iff.mp hid
  obtain ⟨j, hj, h⟩ := hread.clean hq
  have haction := Eos.clean_actions hj h (List.mem_of_getElem? ha)
  exact plain_txutxo ((htx.find? hinner).find? hid).str hbase (Eos.clean_action haction hc)

lemma Omni.plain (hq : Harmless w)
    (h : (Omni.grounds x t₀ node S coin_id height).credit n s b w) : s.Plain := by
  obtain ⟨src, txs, txid, address, amount, flag, hlist, ht, hread, -, rfl, -⟩ := h
  obtain ⟨j, hj, h⟩ := hlist.clean hq
  simp only [Omni.transactions, bind_eq_ok] at h
  obtain ⟨json_txs, hfield, h⟩ := h
  split at h
  · cases h
  simp only [bind_eq_ok, pure_eq_ok, Except.ok.injEq, Option.some.injEq] at h
  obtain ⟨_, hxs, rfl⟩ := h
  have htxid := ((hj.field hfield).elems hxs (List.mem_of_getElem? ht)).str
  obtain ⟨j, hj, h⟩ := hread.clean hq
  simp only [Omni.detail, bind_eq_ok] at h
  obtain ⟨json_txinfo, hinfo, h⟩ := h
  split at h
  · cases h
  have hclean := hj.field hinfo
  simp only [Omni.transfer, bind_eq_ok] at h
  obtain ⟨_, -, _, -, h⟩ := h
  split at h
  · cases h
  simp only [bind_eq_ok] at h
  obtain ⟨_, hfrom, f, hf, _, hto, t, ht', _, hamount, a, ha, h⟩ := h
  split at h
  · cases h
  next flag' address' hclass =>
  obtain ⟨rfl, rfl, rfl⟩ : address' = address ∧ a = amount ∧ flag' = flag := by
    simpa using h
  refine plain_txutxo htxid ?_ ((hclean.field hamount).getStr ha)
  have hends : address' = f ∨ address' = t := by
    unfold Omni.classify at hclass
    split_ifs at hclass <;> simp_all
  rcases hends with rfl | rfl
  · exact (hclean.field hfrom).getStr hf
  · exact (hclean.field hto).getStr ht'

end

section

variable (w₀ w : World)

/-- A row was there at the beginning, or is a stored height, or its statement is plain where the
answers are. -/
def Spelled (s : Stmt) : Prop :=
  Harmless w → s ∈ w₀.db.log ∨ (∃ r, s = .block r) ∨ s.Plain

structure PlainLog : Prop extends Rests (Spelled w₀) (fun _ _ => True) w₀.wire.length w where
  since : w₀.wire.length ≤ w.wire.length
  cat : w.db.cat = w₀.db.cat

/-- What holds in a process: its base addresses are plain too. -/
structure PlainProcess : Prop extends Backed (Spelled w₀) (fun _ _ => True) w₀.wire.length w where
  cat : w.db.cat = w₀.db.cat
  xrp : Bare w.vars.xrp_base_address_
  eos : Bare w.vars.eos_base_address_

end

section

variable {x : Weather} {w₀ w w' : World}

lemma Spelled.mono (w₀ : World) : ∀ w w' s, w.wire <+: w'.wire → Spelled w₀ w s →
    Spelled w₀ w' s :=
  fun _ _ _ hw h hq => h (hq.mono hw)

lemma PlainProcess.log (h : PlainProcess w₀ w) (hdb : w'.db = w.db) (hwire : w'.wire = w.wire) :
    PlainLog w₀ w' :=
  ⟨h.toBacked.rests (Spelled.mono w₀) (fun _ _ _ _ _ => trivial) hdb hwire,
    hwire ▸ h.since, hdb ▸ h.cat⟩

/-- The members of the process that statements are not made of may change. -/
lemma PlainProcess.same {v : Vars} (h : PlainProcess w₀ w) (hbuf : v.vect_sql_ = w.vars.vect_sql_)
    (hxrp : v.xrp_base_address_ = w.vars.xrp_base_address_)
    (heos : v.eos_base_address_ = w.vars.eos_base_address_) :
    PlainProcess w₀ { w with vars := v } := by
  refine ⟨⟨h.since, fun s hs => h.rows s ?_, h.notices⟩, h.cat, ?_, ?_⟩
  · simpa [Store.total, otc, hbuf] using hs
  · exact hxrp ▸ h.xrp
  · exact heos ▸ h.eos

variable {G : Grounds} {a b : At}

lemma PlainProcess.pass (hG : ∀ n s b w, G.credit n s b w → Harmless w → s.Plain)
    (hs : Steps x G a b) (h : PlainProcess w₀ a.w) : PlainProcess w₀ b.w := by
  have hf := Steps.frame hs
  refine ⟨Steps.backed (Spelled.mono w₀) (fun _ _ _ _ _ => trivial)
    (fun _ r _ => .inr (.inl ⟨r, rfl⟩))
    (fun n s b w hc => ⟨fun hq => .inr (.inr (hG n s b w hc hq)), fun _ _ => trivial⟩)
    hs h.toBacked, hf.cat.trans h.cat, ?_, ?_⟩
  · exact hf.xrp ▸ h.xrp
  · exact hf.eos ▸ h.eos

lemma PlainProcess.sent (h : PlainProcess w₀ w) (r : Request) (a : Answer) :
    PlainProcess w₀ (w.sent r a) := by
  refine ⟨?_, h.cat, h.xrp, h.eos⟩
  exact h.toBacked.step (Spelled.mono w₀) (fun _ _ _ _ _ => trivial) [] [(r, a)]
    (by simp [Store.total, otc, World.sent]) rfl (by simp) fun _ _ _ => trivial

lemma PlainLog.wp_start (callback_url : String)
    (haccounts : ∀ a ∈ w₀.db.cat.account, ∀ s ∈ a.address, Bare s) (h : PlainLog w₀ w) :
    wp (env x) (start callback_url) (fun _ => PlainProcess w₀) (PlainLog w₀)
      { w with vars := .fresh } := by
  have hbased : ∀ {s s' : String}, Bare s → Based w₀.db.cat s s' → Bare s' := by
    rintro s s' hs (rfl | ⟨a, ha, has⟩)
    · exact hs
    · exact haccounts a ha s' has
  have hkeeps := wp_start_keeps (x := x) (w := { w with vars := .fresh }) (I := fun w' =>
      w'.wire = w.wire ∧ w'.db.cat = w₀.db.cat ∧ Bare w'.vars.xrp_base_address_ ∧
        Bare w'.vars.eos_base_address_) (D := fun w' => w'.wire = w.wire) (fun _ h => h.1)
    (fun _ _ h _ hxrp heos => ⟨h.1, h.2.1, hbased h.2.2.1 (h.2.1 ▸ hxrp),
      hbased h.2.2.2 (h.2.1 ▸ heos)⟩) callback_url
    ⟨rfl, h.cat, bare_empty, bare_empty⟩
  refine wp_mono (wp_and (Monitor.wp_start callback_url _) hkeeps) (fun _ w' hs => ?_)
    fun w' hs => ?_
  · obtain ⟨hstart, hwire, hcat, hxrp, heos⟩ := hs
    refine ⟨⟨hwire ▸ h.since, fun s hs => ?_, fun _ _ _ => trivial⟩, hcat, hxrp, heos⟩
    refine Spelled.mono w₀ w w' s (by rw [hwire]) (h.rows s ?_)
    have hbuf : w'.vars.vect_sql_ = [] := hstart.buf
    simpa [Store.total, otc, hstart.db, hbuf] using hs
  · obtain ⟨hdb, hwire⟩ := hs
    refine ⟨⟨fun s hs => ?_, fun _ _ _ => trivial⟩, ?_, ?_⟩
    · rw [hdb] at hs
      exact Spelled.mono w₀ w w' s (by rw [hwire]) (h.rows s hs)
    · rw [hwire]
      exact h.since
    · rw [hdb]
      exact h.cat

variable (x w₀) in
lemma keeps_plain : Keeps x (PlainProcess w₀) (PlainLog w₀) where
  le _ h := h.log rfl rfl
  timers _ _ h := h.same rfl rfl rfl
  idle _ _ h := h.log
  loadBTC _ _ h _ := h.same rfl rfl rfl
  loadETH _ _ h _ := h.same rfl rfl rfl
  loadOMNI _ _ h _ := h.same rfl rfl rfl
  scanBTC _ h _ := wp_scanBTC_kept (fun _ _ h => h.log) h fun _ _ _ _ _ =>
    PlainProcess.pass fun _ _ _ _ hc hq => Btc.plain hq hc
  scanETH _ h _ := wp_scanETH_kept (fun _ _ h => h.log) h fun _ _ _ _ _ =>
    PlainProcess.pass fun _ _ _ _ hc hq => Eth.plain hq hc
  scanXRP _ h := wp_scanXRP_kept (fun _ _ h => h.log) h fun _ _ _ _ _ =>
    PlainProcess.pass fun _ _ _ _ hc hq => Xrp.plain hq h.xrp hc
  scanEOS _ h := wp_scanEOS_kept (fun _ _ h => h.log) h fun _ _ _ _ _ =>
    PlainProcess.pass fun _ _ _ _ hc hq => Eos.plain hq h.eos hc
  scanOMNI _ h _ := wp_scanOMNI_kept (fun _ _ h => h.log) h fun _ _ _ _ _ =>
    PlainProcess.pass fun _ _ _ _ hc hq => Omni.plain hq hc
  reCallback _ h := wp_reCallback_kept (fun _ _ h => h.log) h
    (fun _ _ a h₁ _ _ => h₁.sent _ a) fun _ _ h₁ _ _ => h₁.same rfl rfl rfl

/-- **Each statement inserts its row.** In every run of the monitor, where no text in an answer and
no address of an account means anything between quotes, the text of each statement for `txutxo` and
`txaccount` that has been executed is read, by any database, as the insertion of its row. -/
theorem statements_insert {callback_url : String} {b : Bool}
    (haccounts : ∀ a ∈ w₀.db.cat.account, ∀ s ∈ a.address, Bare s)
    (hr : Reach x callback_url Free w₀ b w) (hq : Harmless w) :
    ∀ s ∈ w.db.log, s ∈ w₀.db.log ∨ (∃ r, s = .block r) ∨
      ∀ (m : Database) (unset : ℕ), m.Inserts unset s := by
  have hbegin : PlainLog w₀ w₀ :=
    ⟨⟨fun s hs _ => .inl hs, fun _ _ _ => trivial⟩, le_rfl, rfl⟩
  have hlog := (hr.inv (fun _ h => h.log rfl rfl) hbegin
    (fun w h => h.wp_start callback_url haccounts) fun t w _ h => (keeps_plain x w₀).task t h).1
  intro s hs
  exact (hlog.rows s hs hq).imp_right fun h => h.imp_right Stmt.Plain.inserts

end

/-- BTC and XRP with a transaction each: the words of the text ask for the row. -/
theorem statements_insert_small : ∃ r, r ∈ (play (interrupted 2 100) "receiver"
      [.ScanBTC, .ScanXRP] (smallWorld [(1, 0), (3, 0)])).2.db.txutxo ∧
    (wordDatabase.tokens ((Stmt.txutxo r).sent 0)).bind wordDatabase.rows =
      some (.txutxo, [(Stmt.txutxo r).values 0]) := by
  have hrows : (play (interrupted 2 100) "receiver" [.ScanBTC, .ScanXRP]
      (smallWorld [(1, 0), (3, 0)])).2.db.txutxo ≠ [] := by decide +kernel
  obtain ⟨r, hr⟩ := List.exists_mem_of_ne_nil _ hrows
  refine ⟨r, hr, ?_⟩
  have hinsert := statements_insert (by decide +kernel) (reach_play (interrupted 2 100) "receiver"
    [.ScanBTC, .ScanXRP] (smallWorld [(1, 0), (3, 0)]) fun _ _ _ _ => trivial)
    (by decide +kernel) _ (Db.mem_txutxo.mp hr)
  rcases hinsert with h | ⟨_, h⟩ | h
  · have hnone : (smallWorld [(1, 0), (3, 0)]).db.txutxo = [] := by decide +kernel
    have hmem := Db.mem_txutxo.mpr h
    rw [hnone] at hmem
    cases hmem
  · cases h
  · exact (h wordDatabase 0).2

/-- A quantity that closes its literal: the text asks for something else. -/
example (m : Database) (unset : ℕ) (src : Src) :
    ¬ m.Inserts unset (.txutxo (Eos.row "E" src "t" "1','0'),('x','0','E','0" (some 0))) := by
  intro h
  have hquantity := (m.inserts_iff unset _).mp h "1','0'),('x','0','E','0"
    (by simp [Eos.row, Stmt.values])
  exact absurd hquantity.1 (by decide)

end Monitor

end OpenWallet
