import OpenWallet.Server.Receipts

/-!
A transfer asks for at most one broadcast, whatever it is answered and however it ends.
-/

namespace OpenWallet.Server

open Lib Prog
open Monitor (NodeInfo)

/-- The call asks a node to broadcast a transaction. -/
def Submits : Joint → Prop
  | .server (.curl r) => method r = some (.str "sendrawtransaction") ∨
    method r = some (.str "submit") ∨ method r = some (.str "omni_funded_send") ∨
    (method r = none ∧ ∃ node, r.url = curl_base_chain node ++ "push_transaction")
  | .eth (.sendRawTransaction _) => True
  | _ => False

/-- A call of the server that neither signs nor asks for a broadcast. -/
def Plain : Op → Prop
  | .offlineSign .. | .offlineSignERC20 .. => False
  | o => ¬ Submits (.server o)

section

variable {web3 : Web3.Package} {α β : Type} {h : Hist} {P : α → Prop} {Q : Hist → α → Prop}
  {Q' : Hist → β → Prop}

variable (web3) in
/-- After the calls `h`, the program asks for a broadcast only where none was asked for before,
and returns only values in `Q`. -/
abbrev Once (Q : Hist → α → Prop) (h : Hist) (p : Srv α) : Prop :=
  (signing web3 p).Follows (First Submits) Q h

/-- No broadcast has been asked for. -/
def Unsent (h : Hist) : Prop := ∀ e ∈ h, ¬ Submits e.1

lemma within_signing {p : Srv α} (hp : p.Within Plain P) :
    (signing web3 p).Within (fun o => ¬ Submits o) P := by
  induction p with
  | ret a => exact hp
  | raise e => trivial
  | call o k ih =>
    cases o with
    | offlineSign | offlineSignERC20 => exact hp.1.elim
    | _ => exact ⟨hp.1, fun r => ih r (hp.2 r)⟩

lemma once_lift {x : Except Exn α} {f : α → Srv β} (hf : ∀ a, x = .ok a → Once web3 Q' h (f a)) :
    Once web3 Q' h ((liftM x : Srv α) >>= f) := by
  cases x with
  | ok a => exact hf a rfl
  | error e => trivial

/-- A part without a broadcast comes first. -/
lemma once_bind {p : Srv α} {f : α → Srv β} (hp : p.Within Plain P) (hh : Unsent h)
    (hf : ∀ h a, Unsent h → Once web3 Q' h (f a)) : Once web3 Q' h (p >>= f) := by
  rw [Once, signing_bind]
  exact follows_bind (follows_quiet (within_signing hp) hh) fun h a ha => hf h a ha.2

lemma once_then {p : Srv α} {f : α → Srv β} (hp : Once web3 Q h p)
    (hf : ∀ a, (f a).Within Plain fun _ => True) :
    Once web3 (fun _ _ => True) h (p >>= f) := by
  rw [Once, signing_bind]
  exact follows_bind hp fun h a _ => follows_rest (within_signing (hf a))

lemma once_of_within {p : Srv α} (hp : p.Within Plain fun _ => True) :
    Once web3 (fun _ _ => True) h p := follows_rest (within_signing hp)

lemma once_CallNodeRPC {strMethod : String} {params : Json} {node : NodeInfo}
    {f : Bool × Json → Srv β} (hh : Unsent h)
    (hf : ∀ r, (f r).Within Plain fun _ => True) : Once web3 (fun _ _ => True) h
      (CallNodeRPC strMethod params node.node_url node.node_auth >>= f) := by
  refine ⟨fun _ => hh, fun a => ?_⟩
  cases a with
  | down => exact once_of_within (hf (false, .null))
  | garbage => trivial
  | body j => exact once_of_within (hf (true, j))

lemma once_postChecked {url : String} {data : Json} {f : Option Json → Srv β} (hh : Unsent h)
    (hf : ∀ r, (f r).Within Plain fun _ => True) :
    Once web3 (fun _ _ => True) h (postChecked url data >>= f) := by
  refine ⟨fun _ => hh, fun a => ?_⟩
  cases a with
  | down => exact once_of_within (hf none)
  | garbage => trivial
  | body j =>
    change Once web3 _ _ ((if (j.find? "error").isSome then ret none else ret (some j)) >>= f)
    split
    · exact once_of_within (hf none)
    · exact once_of_within (hf (some j))

lemma plain_call {node : NodeInfo} {strMethod : String} {params : Json}
    (h₁ : strMethod ≠ "sendrawtransaction") (h₂ : strMethod ≠ "submit")
    (h₃ : strMethod ≠ "omni_funded_send") : Plain (.curl (call node strMethod params)) := by
  simp [Plain, Submits, method_call, h₁, h₂, h₃]

lemma plain_post {url : String} {data : Json} (hdata : data.find? "method" = none)
    (hurl : ∀ node, url ≠ curl_base_chain node ++ "push_transaction") :
    Plain (.curl ⟨url, "", data⟩) := by
  simp [Plain, Submits, method, hdata, hurl]

/-- No other address that is posted to ends like that of the broadcast. -/
lemma url_ne {base last : String} (hlast : ¬ (last.toList.reverse <+:
      "push_transaction".toList.reverse ∨
    "push_transaction".toList.reverse <+: last.toList.reverse)) (node : NodeInfo) :
    base ++ last ≠ curl_base_chain node ++ "push_transaction" := by
  intro h
  have hrev := congrArg (fun t => t.toList.reverse) h
  simp only [String.toList_append, List.reverse_append] at hrev
  refine hlast (List.prefix_or_prefix_of_prefix (List.prefix_append _ base.toList.reverse) ?_)
  rw [hrev]
  exact List.prefix_append _ _

lemma plain_key (address : String) : (readPrivateKey address).Within Plain fun _ => True :=
  readPrivateKey_within not_false (fun _ => not_false) address

end

/-! ### The Python wallet -/

section

variable {web3 : Web3.Package} {α : Type} {h : Hist}

def SendsRaw : Web3.Op → Prop
  | .sendRawTransaction _ => True
  | _ => False

lemma once_python {p : Web3.Py PyResp} {k : PyResp → Prog Joint.Ans Exn α}
    {h' : List (Event Web3.Ans)} (hp : p.Follows (First SendsRaw) (fun _ _ => True) h')
    (hh : Unsent h) (hk : ∀ r, (k r).Within (fun o => ¬ Submits o) fun _ => True) :
    (python k p).Follows (First Submits) (fun _ _ => True) (h ++ h'.map ethEvent) := by
  induction p generalizing h' with
  | ret a => exact follows_rest (hk a)
  | raise e => exact follows_rest (hk .null)
  | call o f ih =>
    refine ⟨fun ho e he => ?_, fun r => ?_⟩
    · have hsends : SendsRaw o := by
        cases o with
        | sendRawTransaction => trivial
        | _ => exact ho
      rcases List.mem_append.mp he with he | he
      · exact hh e he
      · obtain ⟨⟨o', r⟩, hmem, rfl⟩ := List.mem_map.mp he
        have hno := hp.1 hsends _ hmem
        cases o' with
        | sendRawTransaction => exact absurd trivial hno
        | _ => exact id
    · have hr := ih r (hp.2 r)
      rwa [List.map_append, ← List.append_assoc] at hr

variable {privkey «to» contractAddr : String} {amount fee : Double} {decimals : ℤ}

lemma calc_within {isERC20 : Bool} :
    (Web3.calcGasAndPrice web3 fee isERC20).Within (fun o => ¬ SendsRaw o) fun _ => True := by
  unfold Web3.calcGasAndPrice
  refine within_lift_bind fun feeEth _ => ?_
  split
  · trivial
  refine within_bind (P := fun _ => True) ?_ fun price _ => ?_
  · exact ⟨id, fun _ => within_lift fun _ => trivial⟩
  · split <;> trivial

lemma send_follows {h' : List (Event Web3.Ans)} (hh : ∀ e ∈ h', ¬ SendsRaw e.1) {tx : Web3.Tx} :
    (do
      web3.signTransaction tx
      let data ← Web3.sendRawTransaction tx
      return Web3.dumps 0 "data" data : Web3.Py PyResp).Follows (First SendsRaw)
      (fun _ _ => True) h' := by
  refine follows_lift_bind fun _ _ => ⟨fun _ => hh, fun r => ?_⟩
  cases r <;> trivial

lemma count_within :
    Web3.getTransactionCount.Within (fun o => ¬ SendsRaw o) fun _ => True :=
  ⟨id, fun _ => within_lift fun _ => trivial⟩

lemma offlineSign_follows : (Web3.offlineSign web3 privkey «to» amount fee).Follows (First SendsRaw)
    (fun _ _ => True) [] := by
  refine follows_caught ?_ fun h e => by cases e <;> trivial
  unfold Web3.trySign
  split
  · trivial
  refine follows_lift_bind fun _ _ => follows_bind (follows_quiet calc_within (by simp)) ?_
  rintro h ⟨gas, price⟩ ⟨-, hh⟩
  dsimp only
  split
  · trivial
  refine follows_bind (follows_quiet count_within hh) ?_
  rintro h nonce ⟨-, hh⟩
  exact follows_lift_bind fun chktoaddress _ => follows_lift_bind fun value _ => send_follows hh

lemma offlineSignERC20_follows :
    (Web3.offlineSignERC20 web3 privkey «to» contractAddr amount fee decimals).Follows
      (First SendsRaw) (fun _ _ => True) [] := by
  refine follows_caught ?_ fun h e => by cases e <;> trivial
  unfold Web3.trySignERC20
  split
  · trivial
  split
  · trivial
  refine follows_lift_bind fun _ _ => follows_bind (follows_quiet calc_within (by simp)) ?_
  rintro h ⟨gas, price⟩ ⟨-, hh⟩
  dsimp only
  split
  · trivial
  refine follows_bind (follows_quiet count_within hh) ?_
  rintro h nonce ⟨-, hh⟩
  exact follows_lift_bind fun chkContractAddr _ => send_follows hh

variable {β : Type} {f : PyResp → Srv β}

lemma once_signing {p : Web3.Py PyResp} {k : PyResp → Prog Joint.Ans Exn α}
    (hp : p.Follows (First SendsRaw) (fun _ _ => True) []) (hh : Unsent h)
    (hk : ∀ r, (k r).Within (fun o => ¬ Submits o) fun _ => True) :
    (python k p).Follows (First Submits) (fun _ _ => True) h := by
  have hpython := once_python (h := h) hp hh hk
  rwa [List.map_nil, List.append_nil] at hpython

lemma once_offlineSign (hh : Unsent h) (hf : ∀ r, (f r).Within Plain fun _ => True) :
    Once web3 (fun _ _ => True) h (Prog.op (Op.offlineSign privkey «to» amount fee) >>= f) :=
  once_signing offlineSign_follows hh fun r => within_signing (hf r)

lemma once_offlineSignERC20 (hh : Unsent h) (hf : ∀ r, (f r).Within Plain fun _ => True) :
    Once web3 (fun _ _ => True) h
      (Prog.op (Op.offlineSignERC20 privkey «to» contractAddr amount fee decimals) >>= f) :=
  once_signing offlineSignERC20_follows hh fun r => within_signing (hf r)

end

/-! ### The transfers -/

section

variable {web3 : Web3.Package} {h : Hist} {node : NodeInfo} {json_request : Json}

lemma once_transferBtc {fl : ℚ → Double} (hh : Unsent h) :
    Once web3 (fun _ _ => True) h (transferBtc fl node json_request) := by
  unfold transferBtc
  refine once_lift fun _ _ => once_lift fun «from» _ => once_lift fun _ _ => ?_
  refine once_lift fun «to» _ => once_lift fun _ _ => once_lift fun balance _ => ?_
  refine once_lift fun _ _ => once_lift fun fee _ => ?_
  refine once_bind (callNodeRPC_within_of (plain_call (by decide) (by decide) (by decide))) hh ?_
  rintro h ⟨ok, json_reply⟩ hh
  dsimp only
  split
  · trivial
  refine once_lift fun _ _ => once_lift fun json_unspent _ => ?_
  refine once_bind (P := fun _ => True) (within_loop_always (I := fun _ => True) trivial
    fun _ _ _ => within_lift fun _ => trivial) hh fun h r hh => ?_
  refine once_bind (callNodeRPC_within_of (plain_call (by decide) (by decide) (by decide))) hh ?_
  rintro h ⟨ok, json_reply⟩ hh
  dsimp only
  split
  · trivial
  refine once_lift fun _ _ => once_lift fun unsign_txhex _ => ?_
  refine once_bind (callNodeRPC_within_of (plain_call (by decide) (by decide) (by decide))) hh ?_
  rintro h ⟨ok, json_reply⟩ hh
  dsimp only
  split
  · trivial
  refine once_lift fun _ _ => once_lift fun _ _ => once_lift fun sign_txhex _ => ?_
  refine once_CallNodeRPC hh ?_
  rintro ⟨ok, json_reply⟩
  dsimp only
  split
  · trivial
  exact within_lift_bind fun _ _ => within_lift_bind fun _ _ => trivial

lemma once_transferXrp (hh : Unsent h) :
    Once web3 (fun _ _ => True) h (transferXrp node json_request) := by
  unfold transferXrp
  refine once_lift fun _ _ => once_lift fun «from» _ => once_lift fun _ _ => ?_
  refine once_lift fun «to» _ => once_lift fun _ _ => once_lift fun balance _ => ?_
  refine once_lift fun _ _ => once_lift fun fee _ => ?_
  refine once_bind (plain_key «from») hh fun h key hh => ?_
  cases key with
  | none => trivial
  | some privkey =>
    refine once_CallNodeRPC hh ?_
    rintro ⟨ok, json_reply⟩
    dsimp only
    split
    · trivial
    refine within_lift_bind fun _ _ => within_lift_bind fun _ _ => within_lift_bind fun _ _ => ?_
    split
    · trivial
    refine within_lift_bind fun _ _ => within_lift_bind fun _ _ => within_lift_bind fun _ _ => ?_
    split
    · trivial
    refine within_lift_bind fun _ _ => within_lift_bind fun _ _ => within_lift_bind fun _ _ => ?_
    exact within_lift_bind fun _ _ => trivial

lemma once_transferEth (hh : Unsent h) :
    Once web3 (fun _ _ => True) h (transferEth json_request) := by
  unfold transferEth
  refine once_lift fun _ _ => once_lift fun «from» _ => once_lift fun _ _ => ?_
  refine once_lift fun «to» _ => once_lift fun _ _ => once_lift fun balance _ => ?_
  refine once_lift fun _ _ => once_lift fun fee _ => ?_
  refine once_bind (plain_key «from») hh fun h key hh => ?_
  cases key with
  | none => trivial
  | some privkey =>
    refine once_offlineSign hh fun pyResp => ?_
    split <;> trivial

lemma once_transferErc20Usdt {tokenInfo : TokenInfo} (hh : Unsent h) :
    Once web3 (fun _ _ => True) h (transferErc20Usdt tokenInfo json_request) := by
  unfold transferErc20Usdt
  refine once_lift fun _ _ => once_lift fun «from» _ => once_lift fun _ _ => ?_
  refine once_lift fun «to» _ => once_lift fun _ _ => once_lift fun balance _ => ?_
  refine once_lift fun _ _ => once_lift fun fee _ => ?_
  refine once_bind (plain_key «from») hh fun h key hh => ?_
  cases key with
  | none => trivial
  | some privkey =>
    refine once_offlineSignERC20 hh fun pyResp => ?_
    split <;> trivial

lemma once_transferEos {expires : String → String} (hh : Unsent h) :
    Once web3 (fun _ _ => True) h (transferEos expires node json_request) := by
  have hchain : ∀ {last : String} {data : Json}, data.find? "method" = none →
      ¬ (last.toList.reverse <+: "push_transaction".toList.reverse ∨
        "push_transaction".toList.reverse <+: last.toList.reverse) →
      ∀ base : String, (postChecked (base ++ last) data).Within Plain fun _ => True :=
    fun hdata hlast _ => postChecked_within (plain_post hdata (url_ne hlast))
  unfold transferEos
  refine once_lift fun _ _ => once_lift fun «from» _ => once_lift fun _ _ => ?_
  refine once_lift fun «to» _ => once_lift fun _ _ => once_lift fun balance _ => ?_
  refine once_lift fun quantity _ => once_bind (hchain rfl (by decide) _) hh ?_
  rintro h (_ | _) hh
  · trivial
  refine once_lift fun _ _ => once_lift fun binargs _ => once_bind (hchain rfl (by decide) _) hh ?_
  rintro h (_ | _) hh
  · trivial
  refine once_lift fun _ _ => once_lift fun chain_id _ => once_lift fun _ _ => ?_
  refine once_lift fun head_block_num _ => once_bind (hchain rfl (by decide) _) hh ?_
  rintro h (_ | _) hh
  · trivial
  refine once_lift fun _ _ => once_lift fun timestamp _ => once_lift fun _ _ => ?_
  refine once_lift fun ref_block_prefix _ => ?_
  refine once_bind (post_within (plain_post rfl (url_ne (by decide)))) hh ?_
  rintro h (_ | _) hh
  · trivial
  refine once_lift fun unlocked _ => ?_
  split
  · trivial
  refine once_bind (P := fun _ => True) (within_op not_false fun _ => trivial) hh fun h v hh => ?_
  refine once_bind (hchain rfl (by decide) _) hh ?_
  rintro h (_ | _) hh
  · trivial
  refine once_lift fun json_signature_arrays _ => once_postChecked hh ?_
  rintro (_ | json_reply)
  · trivial
  · exact within_lift_bind fun _ _ => within_lift_bind fun _ _ => trivial

lemma once_sendFunded {tokenInfo : TokenInfo} {«from» «to» : String} {balance fee : Double}
    {json_unspent : Json} {s : Bool × Double × Json} (hh : Unsent h) :
    Once web3 (fun h r => r.1 = .next → Unsent h) h
      (sendFunded node tokenInfo «from» «to» balance fee json_unspent s) := by
  obtain ⟨ok, total, json_response⟩ := s
  unfold sendFunded
  dsimp only
  refine once_lift fun _ _ => once_lift fun spendable _ => ?_
  split
  · exact fun _ => hh
  refine once_lift fun _ _ => once_lift fun amount _ => ?_
  split
  · refine once_lift fun contract _ => ?_
    refine once_bind (P := fun _ => True) (within_op not_false fun _ => trivial) hh fun h v hh => ?_
    refine ⟨fun _ => hh, fun a => ?_⟩
    cases a with
    | down => exact nofun
    | garbage => trivial
    | body j =>
      refine once_lift fun result _ => ?_
      split
      · exact nofun
      · exact once_lift fun _ _ => once_lift fun txid _ => nofun
  · exact fun _ => hh

lemma once_funded {tokenInfo : TokenInfo} {«from» «to» : String} {balance fee : Double}
    (js : List Json) {s : Bool × Double × Json} (hh : Unsent h) :
    Once web3 (fun _ _ => True) h
      (loop (sendFunded node tokenInfo «from» «to» balance fee) js s) := by
  induction js generalizing h s with
  | nil => trivial
  | cons json_unspent js ih =>
    rw [loop, Once, signing_bind]
    refine follows_bind (once_sendFunded hh) ?_
    rintro h ⟨_ | _, s'⟩ hnext
    · exact ih (hnext rfl)
    · trivial

lemma once_transferOmniUsdt {tokenInfo : TokenInfo} (hh : Unsent h) :
    Once web3 (fun _ _ => True) h (transferOmniUsdt node tokenInfo json_request) := by
  unfold transferOmniUsdt
  refine once_lift fun _ _ => once_lift fun «from» _ => once_lift fun _ _ => ?_
  refine once_lift fun «to» _ => once_lift fun _ _ => once_lift fun balance _ => ?_
  refine once_lift fun _ _ => once_lift fun fee _ => ?_
  refine once_bind (P := fun _ => True) (within_op not_false fun _ => trivial) hh fun h v hh => ?_
  refine once_bind (callNodeRPC_within_of (plain_call (by decide) (by decide) (by decide))) hh ?_
  rintro h ⟨ok, json_reply⟩ hh
  dsimp only
  split
  · trivial
  refine once_lift fun json_unspent _ => ?_
  split
  · trivial
  exact once_lift fun js _ => once_then (once_funded js hh) fun _ => trivial

lemma once_dispatch {expires : String → String} {v : Vars} {coin_name : String} {is_token : Bool}
    {p : Srv (Bool × Json)} (hd : dispatch expires v coin_name is_token json_request = some p)
    (hh : Unsent h) : Once web3 (fun _ _ => True) h p := by
  cases is_token with
  | false =>
    obtain ⟨node, -, rfl⟩ := Option.map_eq_some_iff.mp hd
    rw [transferCoin]
    split
    · exact once_transferBtc hh
    split
    · exact once_transferEth hh
    split
    · exact once_transferXrp hh
    split
    · exact once_transferEos hh
    · trivial
  | true =>
    obtain ⟨⟨node, tokenInfo⟩, -, rfl⟩ := Option.map_eq_some_iff.mp hd
    dsimp only
    rw [transferToken]
    split
    · exact once_transferOmniUsdt hh
    split
    · exact once_transferErc20Usdt hh
    · trivial

/-- **No transfer is broadcast twice by one call.** Whatever the database, the wallets and the
nodes answer, and also where the call throws or the process dies, a node is asked for a broadcast
only where none was asked for before. -/
theorem transfer_once (web3 : Web3.Package) (expires : String → String) (json_request : Json) :
    Once web3 (fun _ _ => True) [] (ClientRpc.transfer expires json_request) := by
  refine once_bind (P := fun _ => True) (within_op not_false fun _ => trivial) (by simp [Unsent]) ?_
  intro h opened hh
  split
  · trivial
  refine once_lift fun _ _ => once_lift fun coin_name _ => ?_
  refine once_lift fun _ _ => once_lift fun is_token _ => ?_
  refine once_bind (P := fun _ => True) (within_op not_false fun _ => trivial) hh fun h v hh => ?_
  cases hd : dispatch expires v coin_name is_token json_request with
  | none => trivial
  | some p =>
    refine once_then (once_dispatch hd hh) fun r => ?_
    exact ⟨not_false, fun _ => trivial⟩

end

end OpenWallet.Server
