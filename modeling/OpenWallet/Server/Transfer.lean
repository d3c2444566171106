import OpenWallet.Server.Rows

/-!
`ClientRpc::transferBtc`: unspent outputs of the sender are taken one after the other until they
cover the amount and the fee, and what is left over goes back to the sender. The sums are rounded
as `fl` says, which is `Double.round` in the code; exact arithmetic is the case of `id`.
-/

namespace OpenWallet.Server

open Lib Prog
open Monitor (NodeInfo)

/-- What the loop over `json_unspent` puts together: `json_vins`, `total` and `json_params`. -/
structure Selection where
  json_vins : List Json
  total : Double
  json_params : Json

/-- One unspent output. The loop stops at the first that leaves some change. -/
def selectUnspent (fl : ℚ → Double) («from» «to» : String) (balance fee : Double)
    (json_unspent : Json) (s : Selection) : Except Exn (Flow × Selection) := do
  let txid ← (← json_unspent.field "txid").getStr
  let vout ← (← json_unspent.field "vout").getInt
  let json_vins := s.json_vins ++ [.obj [("txid", .str txid), ("vout", .int vout)]]
  let total := fl (s.total + (← (← json_unspent.field "amount").getDouble))
  let recharge := fl (fl (total - balance) - fee)
  if recharge ≥ fl (5 / 10 ^ 7) then
    let json_vouts := [.obj [(«to», .float balance)], .obj [(«from», .float recharge)]]
    return (.brk, ⟨json_vins, total, .arr [.arr json_vins, .arr json_vouts]⟩)
  else return (.next, ⟨json_vins, total, s.json_params⟩)

def unspentOf («from» : String) : Json := .arr [.int 1, .int 9999999, .arr [.str «from»]]

/-- The result, and the response. A loop that does not stop leaves the parameters of the call
before. -/
def transferBtc (fl : ℚ → Double) (node : NodeInfo) (json_request : Json) :
    Srv (Bool × Json) := do
  let «from» ← (← json_request.idx 2).getStr
  let «to» ← (← json_request.idx 3).getStr
  let balance ← (← json_request.idx 4).getDouble
  let fee ← (← json_request.idx 5).getDouble
  let json_params := unspentOf «from»
  let (ok, json_reply) ← CallNodeRPC "listunspent" json_params node.node_url node.node_auth
  if !ok then
    return (false, .null)
  let json_unspent ← (← json_reply.field "result").elems
  let r ← loop (fun unspent s => lift (selectUnspent fl «from» «to» balance fee unspent s))
    json_unspent ⟨[], 0, json_params⟩
  let n : ℤ := 0
  let (ok, json_reply) ← CallNodeRPC "createrawtransaction" r.2.json_params node.node_url
    node.node_auth
  if !ok then
    return (false, .null)
  let unsign_txhex ← (← json_reply.field "result").getStr
  let (ok, json_reply) ← CallNodeRPC "signrawtransactionwithwallet" (.arr [.str unsign_txhex])
    node.node_url node.node_auth
  if !ok then
    return (false, .null)
  let sign_txhex ← (← (← json_reply.field "result").field "hex").getStr
  let (ok, json_reply) ← CallNodeRPC "sendrawtransaction" (.arr [.str sign_txhex])
    node.node_url node.node_auth
  if !ok then
    return (false, .null)
  let txid ← (← json_reply.field "result").getStr
  return (true, .obj [("n", .int n), ("txid", .str txid)])

/-- An unspent output. No transaction is large enough for an index that does not fit an `int`. -/
structure Unspent where
  txid : String
  vout : ℕ
  amount : ℚ
  small : vout < 2 ^ 31

/-- An element of the result of `listunspent`. -/
structure Unspent.Shown (u : Unspent) (json_unspent : Json) : Prop where
  txid : json_unspent.find? "txid" = some (.str u.txid)
  vout : json_unspent.find? "vout" = some (.int u.vout)
  amount : ∃ v, json_unspent.find? "amount" = some v ∧ v.getDouble = .ok u.amount

/-- A transaction as `createrawtransaction` is asked for it: outpoints, and addresses with what
they get. -/
structure RawTx where
  ins : List Unspent
  outs : List (String × ℚ)

def RawTx.params (t : RawTx) : Json :=
  .arr [.arr (t.ins.map fun u => .obj [("txid", .str u.txid), ("vout", .int u.vout)]),
    .arr (t.outs.map fun o => .obj [(o.1, .float o.2)])]

def total (us : List Unspent) : ℚ := (us.map (·.amount)).sum

/-- These outputs cover the amount and the fee, and leave some change. -/
def Covers (balance fee : ℚ) (us : List Unspent) : Prop := total us - balance - fee ≥ 5 / 10 ^ 7

/-- The shortest nonempty prefix of a kind. -/
structure Selects (E : List Unspent → Prop) (us l : List Unspent) : Prop where
  initial : l <+: us
  nonempty : l ≠ []
  enough : E l
  shortest : ∀ l', l' <+: us → l' ≠ [] → E l' → l <+: l'

section

variable (fl : ℚ → Double) («from» «to» : String) (balance fee : ℚ) (us : List Unspent)

/-- The total as it is added up. -/
def added : Double := us.foldl (fun t u => fl (t + u.amount)) 0

/-- The change as it is worked out. -/
def recharge : Double := fl (fl (added fl us - balance) - fee)

/-- The test of the loop. -/
def Enough : Prop := recharge fl balance fee us ≥ fl (5 / 10 ^ 7)

/-- The recipient first, and the change back to the sender. -/
def payment : RawTx := ⟨us, [(«to», balance), («from», recharge fl balance fee us)]⟩

/-! In exact arithmetic. -/

lemma added_id : added id us = total us := by
  induction us using List.reverseRecOn with
  | nil => rfl
  | append_singleton us u ih =>
    rw [added, List.foldl_concat, ← added, ih]
    simp [total]

lemma recharge_id : recharge id balance fee us = total us - balance - fee := by
  rw [recharge, added_id]
  rfl

lemma enough_id : Enough id balance fee = Covers balance fee := by
  funext us
  rw [Enough, recharge_id]
  rfl

lemma payment_fee : total (payment id «from» «to» balance fee us).ins -
      ((payment id «from» «to» balance fee us).outs.map Prod.snd).sum = fee := by
  simp only [payment, recharge_id, List.map_cons, List.map_nil, List.sum_cons, List.sum_nil]
  ring

end

section

variable {fl : ℚ → Double} {«from» «to» : String} {balance fee : ℚ} {us : List Unspent}
  {js : List Json} {E : List Unspent → Prop}

/-- No part of these outputs is enough. -/
def Short (E : List Unspent → Prop) (l : List Unspent) : Prop :=
  ∀ l', l' <+: l → l' ≠ [] → ¬ E l'

/-- What the loop has put together from these outputs, without an end yet. -/
def gathered (fl : ℚ → Double) («from» : String) (l : List Unspent) : Selection :=
  ⟨l.map fun u => .obj [("txid", .str u.txid), ("vout", .int u.vout)], added fl l, unspentOf «from»⟩

lemma select_shown {u : Unspent} {json_unspent : Json} (h : u.Shown json_unspent)
    (l : List Unspent) :
    selectUnspent fl «from» «to» balance fee json_unspent (gathered fl «from» l) = .ok (
      if recharge fl balance fee (l ++ [u]) ≥ fl (5 / 10 ^ 7) then (.brk,
        { gathered fl «from» (l ++ [u]) with
          json_params := (payment fl «from» «to» balance fee (l ++ [u])).params })
      else (.next, gathered fl «from» (l ++ [u]))) := by
  obtain ⟨v, hv, hamount⟩ := h.amount
  have hadded : fl (added fl l + u.amount) = added fl (l ++ [u]) := by
    rw [added, added, List.foldl_concat]
  have hchange : fl (fl (added fl (l ++ [u]) - balance) - fee) =
      recharge fl balance fee (l ++ [u]) := rfl
  simp only [selectUnspent, Json.field_of_find? h.txid, Json.field_of_find? h.vout,
    Json.field_of_find? hv, ok_bind, Json.getStr_str, Json.getInt_natCast u.small, hamount,
    pure_eq_ok, gathered, hadded, hchange]
  by_cases hen : recharge fl balance fee (l ++ [u]) ≥ fl (5 / 10 ^ 7)
  · simp [if_pos hen, payment, RawTx.params]
  · simp [if_neg hen]

lemma Short.concat {l : List Unspent} {u : Unspent} (h : Short E l) (hu : ¬ E (l ++ [u])) :
    Short E (l ++ [u]) := by
  intro l' hl hne
  rcases List.prefix_concat_iff.mp hl with rfl | hl
  · exact hu
  · exact h l' hl hne

/-- What is enough with one more output is the shortest part that is. -/
lemma Short.selects {l : List Unspent} {u : Unspent} (h : Short E l) (hl : l ++ [u] <+: us)
    (hu : E (l ++ [u])) : Selects E us (l ++ [u]) := by
  refine ⟨hl, by simp, hu, fun l' hl' hne hen => ?_⟩
  rcases List.prefix_or_prefix_of_prefix hl hl' with hle | hle
  · exact hle
  rcases List.prefix_concat_iff.mp hle with rfl | hle
  · exact List.prefix_refl _
  · exact absurd hen (h l' hle hne)

lemma concat_prefix {l : List Unspent} {u : Unspent} (hl : l <+: us)
    (hu : us[l.length]? = some u) : l ++ [u] <+: us := by
  obtain ⟨l₂, rfl⟩ := hl
  cases l₂ with
  | nil => simp at hu
  | cons v l₂ =>
    obtain rfl : v = u := by simpa using hu
    exact ⟨l₂, by simp⟩

variable {x : Weather} {D : World → Prop} {w : World}

lemma wp_select (h : List.Forall₂ Unspent.Shown us js) :
    wp (env x) (loop (fun unspent s => lift (selectUnspent fl «from» «to» balance fee unspent s)) js
      (gathered fl «from» []))
      (fun r w' => w' = w ∧
        ((r.1 = .next ∧ Short (Enough fl balance fee) us ∧ r.2 = gathered fl «from» us) ∨
        (r.1 = .brk ∧ ∃ l, Selects (Enough fl balance fee) us l ∧
          r.2.json_params = (payment fl «from» «to» balance fee l).params))) D w := by
  refine wp_mono (wp_loop (I := fun pre s w' => w' = w ∧ ∃ l, l <+: us ∧ pre.length = l.length ∧
      Short (Enough fl balance fee) l ∧ s = gathered fl «from» l)
    (B := fun _ s w' => w' = w ∧ ∃ l, Selects (Enough fl balance fee) us l ∧
      s.json_params = (payment fl «from» «to» balance fee l).params) js
    ⟨rfl, [], List.nil_prefix, rfl, ?_, rfl⟩ ?_) ?_ fun _ h => h
  · intro l' hl hne
    exact absurd (List.prefix_nil.mp hl) hne
  · rintro pre j post _ _ rfl ⟨rfl, l, hl, hlen, hshort, rfl⟩
    obtain ⟨u, hu, hshown⟩ := forall₂_getElem? h.flip
      (show (pre ++ j :: post)[l.length]? = some j by simp [← hlen])
    have hnext : l ++ [u] <+: us := concat_prefix hl hu
    rw [wp_lift, select_shown hshown]
    refine ⟨?_, nofun⟩
    rintro r hr
    obtain rfl := Except.ok.inj hr
    by_cases hen : recharge fl balance fee (l ++ [u]) ≥ fl (5 / 10 ^ 7)
    · rw [if_pos hen]
      exact ⟨rfl, l ++ [u], hshort.selects hnext hen, rfl⟩
    · rw [if_neg hen]
      exact ⟨rfl, l ++ [u], hnext, by simp [hlen], hshort.concat hen, rfl⟩
  · rintro ⟨fl, s⟩ w' hr
    cases fl with
    | next =>
      obtain ⟨rfl, l, hl, hlen, hshort, rfl⟩ := hr
      obtain rfl := hl.eq_of_length (hlen.symm.trans h.length_eq.symm)
      exact ⟨rfl, Or.inl ⟨rfl, hshort, rfl⟩⟩
    | brk =>
      obtain ⟨pre, post, -, rfl, hl⟩ := hr
      exact ⟨rfl, Or.inr ⟨rfl, hl⟩⟩

/-! ### What is sent -/

def call (node : NodeInfo) (strMethod : String) (params : Json) : Request :=
  ⟨node.node_url, node.node_auth, structRpc strMethod params⟩

lemma wp_CallNodeRPC {node : NodeInfo} {strMethod : String} {params : Json}
    {Q : Bool × Json → World → Prop} (hD : x.crashes → D w)
    (h : ∀ a, x.net w.wire.length (call node strMethod params) a →
      ∀ w', w' = { w with wire := w.wire ++ [(call node strMethod params, a)] } →
        (a = .down → Q (false, .null) w') ∧ (a = .garbage → D w') ∧
        ∀ j, a = .body j → Q (true, j) w') :
    wp (env x) (CallNodeRPC strMethod params node.node_url node.node_auth) Q D w := by
  simp only [CallNodeRPC, curl, wp_bind, wp_op]
  refine ⟨fun _ hd => hd.2 ▸ hD hd.1, ?_⟩
  rintro a w' ⟨hnet, rfl⟩
  obtain ⟨hdown, hgarbage, hbody⟩ := h a hnet _ rfl
  cases a with
  | down => exact hdown rfl
  | garbage => exact hgarbage rfl
  | body j => exact hbody j rfl

structure Requests (json_request : Json) («from» «to» : String) (balance fee : ℚ) : Prop where
  from_eq : (json_request.idx 2 >>= Json.getStr) = .ok «from»
  to_eq : (json_request.idx 3 >>= Json.getStr) = .ok «to»
  balance_eq : (json_request.idx 4 >>= Json.getDouble) = .ok balance
  fee_eq : (json_request.idx 5 >>= Json.getDouble) = .ok fee

/-- The unspent outputs that the node shows. -/
def Lists (reply : Json) (us : List Unspent) : Prop :=
  ∃ js, reply.field "result" = .ok (.arr js) ∧ List.Forall₂ Unspent.Shown us js

/-- The same where the result may be missing. -/
def Shows (reply : Json) (us : List Unspent) : Prop :=
  ∃ v js, reply.field "result" = .ok v ∧ v.elems = .ok js ∧ List.Forall₂ Unspent.Shown us js

lemma Lists.shows {reply : Json} (h : Lists reply us) : Shows reply us := by
  obtain ⟨js, hjs, hshown⟩ := h
  exact ⟨_, js, hjs, rfl, hshown⟩

/-- The first exchanges of a transfer. -/
def Opens (fl : ℚ → Double) (node : NodeInfo) («from» «to» : String) (balance fee : ℚ)
    (us : List Unspent) (reply : Json) (w w' : World) : Prop :=
  ∃ params a, w.wire ++ [(call node "listunspent" (unspentOf «from»), .body reply),
      (call node "createrawtransaction" params, a)] <+: w'.wire ∧
    ((Short (Enough fl balance fee) us ∧ params = unspentOf «from») ∨
      ∃ l, Selects (Enough fl balance fee) us l ∧
        params = (payment fl «from» «to» balance fee l).params)

lemma wp_transferBtc {node : NodeInfo} {json_request reply : Json}
    (hreq : Requests json_request «from» «to» balance fee) (hx : ¬ x.crashes)
    (hnet : ∀ a, x.net w.wire.length (call node "listunspent" (unspentOf «from»)) a →
      a = .body reply) (hlist : Shows reply us) :
    wp (env x) (transferBtc fl node json_request)
      (fun r w' => Opens fl node «from» «to» balance fee us reply w w' ∧
        (r.1 = true → r.2.find? "n" = some (.int 0)))
      (Opens fl node «from» «to» balance fee us reply w) w := by
  obtain ⟨v, js, hv, hjs, hshown⟩ := hlist
  obtain ⟨jfrom, h2, hfrom⟩ := bind_eq_ok.mp hreq.from_eq
  obtain ⟨jto, h3, hto⟩ := bind_eq_ok.mp hreq.to_eq
  obtain ⟨jbalance, h4, hbalance⟩ := bind_eq_ok.mp hreq.balance_eq
  obtain ⟨jfee, h5, hfee⟩ := bind_eq_ok.mp hreq.fee_eq
  simp only [transferBtc, wp_bind, liftM_eq, wp_lift, h2, h3, h4, h5, hfrom, hto, hbalance, hfee,
    Except.ok.injEq, forall_eq', reduceCtorEq, false_implies, implies_true, and_true]
  refine wp_CallNodeRPC (fun hc => (hx hc).elim) ?_
  rintro a ha w₁ rfl
  obtain rfl := hnet a ha
  refine ⟨by simp, by simp, ?_⟩
  rintro _ ⟨⟩
  simp only [Bool.not_true, Bool.false_eq_true, if_false, wp_bind, wp_lift, hv, hjs,
    Except.ok.injEq, forall_eq', reduceCtorEq, false_implies, implies_true, and_true]
  refine wp_mono (wp_select hshown) ?_ fun _ h => h
  rintro r w₁ ⟨rfl, hr⟩
  refine wp_CallNodeRPC (fun hc => (hx hc).elim) ?_
  rintro a - w₁ hw₁
  have hopen : Opens fl node «from» «to» balance fee us reply w w₁ := by
    refine ⟨r.2.json_params, a, by simp [hw₁], ?_⟩
    rcases hr with ⟨-, hshort, hs⟩ | ⟨-, l, hl, hparams⟩
    · exact Or.inl ⟨hshort, congrArg Selection.json_params hs⟩
    · exact Or.inr ⟨l, hl, hparams⟩
  refine ⟨fun _ => ⟨hopen, by simp⟩, fun _ => hopen, fun json_reply _ => ?_⟩
  -- what comes after is said on the wire too
  refine wp_mono (wp_within (S := fun o => ∃ r, o = .curl r)
    (P := fun r : Bool × Json => r.1 = true → r.2.find? "n" = some (.int 0))
    (I := Opens fl node «from» «to» balance fee us reply w) ?_ ?_ ?_ hopen)
    (fun _ _ h => ⟨h.2, h.1⟩) fun _ h => h
  · have hcurl : ∀ r, ∃ r', Op.curl r = .curl r' := fun r => ⟨r, rfl⟩
    refine within_bind (P := fun _ => True) (within_lift fun _ => trivial) fun _ _ => ?_
    refine within_bind (P := fun _ => True) (within_lift fun _ => trivial) fun _ _ => ?_
    refine within_bind (callNodeRPC_within hcurl _ _ _ _) ?_
    rintro ⟨_ | _, json_reply⟩ -
    · simp
    refine within_bind (P := fun _ => True) (within_lift fun _ => trivial) fun _ _ => ?_
    refine within_bind (P := fun _ => True) (within_lift fun _ => trivial) fun _ _ => ?_
    refine within_bind (P := fun _ => True) (within_lift fun _ => trivial) fun _ _ => ?_
    refine within_bind (callNodeRPC_within hcurl _ _ _ _) ?_
    rintro ⟨_ | _, json_reply⟩ -
    · simp
    refine within_bind (P := fun _ => True) (within_lift fun _ => trivial) fun _ _ => ?_
    exact within_bind (P := fun _ => True) (within_lift fun _ => trivial) fun _ _ _ => rfl
  · rintro o w₂ w₃ - hI ⟨hc, -⟩
    exact (hx hc).elim
  · rintro o w₂ a w₃ ⟨r, rfl⟩ ⟨params, b, hpre, hparams⟩ ⟨-, rfl⟩
    exact ⟨params, b, hpre.trans (List.prefix_append _ _), hparams⟩

lemma opens_of_exec {node : NodeInfo} {json_request reply : Json}
    {o : Outcome Exn (Bool × Json)} {w' : World}
    (hreq : Requests json_request «from» «to» balance fee) (hx : ¬ x.crashes)
    (hnet : ∀ a, x.net w.wire.length (call node "listunspent" (unspentOf «from»)) a →
      a = .body reply) (hshows : Shows reply us)
    (hrun : Exec (env x) (transferBtc fl node json_request) w o w') :
    Opens fl node «from» «to» balance fee us reply w w' := by
  have hpost := exec_post hrun (wp_transferBtc hreq hx hnet hshows)
  cases o with
  | done r => exact hpost.1
  | threw | died => exact hpost

/-- **Coin selection conserves value** in exact arithmetic: where the loop stops, the node is asked
for a transaction of the shortest nonempty prefix of the unspent outputs that is enough, in their
order, to the recipient and back to the sender, that leaves the fee; and the reported index is the
recipient's. The loop does not stop only where no prefix is enough. -/
theorem selection {node : NodeInfo} {json_request reply : Json} {o : Outcome Exn (Bool × Json)}
    {w' : World} (hreq : Requests json_request «from» «to» balance fee) (hx : ¬ x.crashes)
    (hnet : ∀ a, x.net w.wire.length (call node "listunspent" (unspentOf «from»)) a →
      a = .body reply) (hlist : Lists reply us)
    (hrun : Exec (env x) (transferBtc id node json_request) w o w') :
    ∃ params a, w.wire ++ [(call node "listunspent" (unspentOf «from»), .body reply),
      (call node "createrawtransaction" params, a)] <+: w'.wire ∧
    ((∃ l tx, Selects (Covers balance fee) us l ∧ params = RawTx.params tx ∧ tx.ins = l ∧
        tx.outs = [(«to», balance), («from», total l - balance - fee)] ∧
        total tx.ins - (tx.outs.map Prod.snd).sum = fee ∧
        ∀ json_response, o = .done (true, json_response) → ∃ n : ℕ,
          json_response.find? "n" = some (.int n) ∧ tx.outs[n]? = some («to», balance)) ∨
      ∀ l, l <+: us → l ≠ [] → ¬ Covers balance fee l) := by
  have hpost := exec_post hrun (wp_transferBtc hreq hx hnet hlist.shows)
  have hn : ∀ json_response, o = .done (true, json_response) →
      json_response.find? "n" = some (.int 0) := by
    rintro json_response rfl
    exact hpost.2 rfl
  obtain ⟨params, a, hpre, hparams⟩ := opens_of_exec hreq hx hnet hlist.shows hrun
  rw [enough_id] at hparams
  rcases hparams with ⟨hshort, -⟩ | ⟨l, hl, rfl⟩
  · exact ⟨params, a, hpre, Or.inr hshort⟩
  · refine ⟨_, a, hpre, Or.inl ⟨l, payment id «from» «to» balance fee l, hl, rfl, rfl, ?_,
      payment_fee «from» «to» balance fee l, fun j hj => ⟨0, hn j hj, rfl⟩⟩⟩
    rw [payment, recharge_id]

/-! ### Insufficient funds -/

/-- Where the outputs do not cover the amount and the fee, nothing follows on their list; and a
transaction is only asked for as the loop has put it together. -/
structure Frugal (fl : ℚ → Double) (node : NodeInfo) («from» «to» : String) (balance fee : ℚ)
    (us : List Unspent) (reply : Json) (w : World) (o : Outcome Exn (Bool × Json)) (w' : World) :
    Prop where
  short : ¬ Enough fl balance fee us →
    w'.wire <+: w.wire ++ [(call node "listunspent" (unspentOf «from»), .body reply)] ∧
      ∀ json_response, o ≠ .done (true, json_response)
  built : ∀ params a, (call node "createrawtransaction" params, a) ∈ w'.wire.drop w.wire.length →
    ∃ l, Selects (Enough fl balance fee) us l ∧
      params = (payment fl «from» «to» balance fee l).params

/-- What the second half of it says. -/
def Built (fl : ℚ → Double) (node : NodeInfo) («from» «to» : String) (balance fee : ℚ)
    (us : List Unspent) (w w' : World) : Prop :=
  ∃ es, w'.wire = w.wire ++ es ∧
    ∀ params a, (call node "createrawtransaction" params, a) ∈ es →
      ∃ l, Selects (Enough fl balance fee) us l ∧
      params = (payment fl «from» «to» balance fee l).params

lemma Built.exchange {node : NodeInfo} {w w' : World}
    (h : Built fl node «from» «to» balance fee us w w') (strMethod : String) (params : Json)
    (a : Answer) (hmethod : strMethod = "createrawtransaction" →
      ∃ l, Selects (Enough fl balance fee) us l ∧
        params = (payment fl «from» «to» balance fee l).params) :
    Built fl node «from» «to» balance fee us w
      { w' with wire := w'.wire ++ [(call node strMethod params, a)] } := by
  obtain ⟨es, hwire, hes⟩ := h
  refine ⟨es ++ [(call node strMethod params, a)], by simp [hwire], fun params' a' hmem => ?_⟩
  rcases List.mem_append.mp hmem with hmem | hmem
  · exact hes params' a' hmem
  · have heq := List.mem_singleton.mp hmem
    simp only [call, structRpc, Prod.mk.injEq, Request.mk.injEq, true_and, Json.obj.injEq,
      List.cons.injEq, Json.str.injEq, and_true] at heq
    obtain ⟨⟨hstr, rfl⟩, -⟩ := heq
    exact hmethod hstr.symm

lemma Built.within {node : NodeInfo} {strMethod : String} {params : Json}
    (hmethod : strMethod ≠ "createrawtransaction") :
    (CallNodeRPC strMethod params node.node_url node.node_auth).Within
      (fun o => ∃ strMethod params, strMethod ≠ "createrawtransaction" ∧
        o = .curl (call node strMethod params)) fun _ => True :=
  callNodeRPC_within_of ⟨strMethod, params, hmethod, rfl⟩

lemma wp_transferBtc_built {node : NodeInfo} {json_request reply : Json}
    (hreq : Requests json_request «from» «to» balance fee)
    (hnet : ∀ a, x.net w.wire.length (call node "listunspent" (unspentOf «from»)) a →
      a = .body reply) (hshows : Shows reply us) (hne : us ≠ [])
    (henough : Enough fl balance fee us) :
    wp (env x) (transferBtc fl node json_request)
      (fun _ => Built fl node «from» «to» balance fee us w)
      (Built fl node «from» «to» balance fee us w) w := by
  obtain ⟨v, js, hv, hjs, hshown⟩ := hshows
  obtain ⟨jfrom, h2, hfrom⟩ := bind_eq_ok.mp hreq.from_eq
  obtain ⟨jto, h3, hto⟩ := bind_eq_ok.mp hreq.to_eq
  obtain ⟨jbalance, h4, hbalance⟩ := bind_eq_ok.mp hreq.balance_eq
  obtain ⟨jfee, h5, hfee⟩ := bind_eq_ok.mp hreq.fee_eq
  have hself : Built fl node «from» «to» balance fee us w w := ⟨[], by simp, by simp⟩
  simp only [transferBtc, wp_bind, liftM_eq, wp_lift, h2, h3, h4, h5, hfrom, hto, hbalance, hfee,
    Except.ok.injEq, forall_eq', reduceCtorEq, false_implies, implies_true, and_true]
  refine wp_CallNodeRPC (fun _ => hself) ?_
  rintro a ha w₁ rfl
  obtain rfl := hnet a ha
  have hlisted := hself.exchange "listunspent" (unspentOf «from») (.body reply) (by simp)
  refine ⟨by simp, by simp, ?_⟩
  rintro _ ⟨⟩
  simp only [Bool.not_true, Bool.false_eq_true, if_false, wp_bind, wp_lift, hv, hjs,
    Except.ok.injEq, forall_eq', reduceCtorEq, false_implies, implies_true, and_true]
  refine wp_mono (wp_select hshown) ?_ fun _ h => h
  rintro r w₁ ⟨rfl, hr⟩
  obtain ⟨l, hl, hparams⟩ : ∃ l, Selects (Enough fl balance fee) us l ∧
      r.2.json_params = (payment fl «from» «to» balance fee l).params := by
    rcases hr with ⟨-, hshort, -⟩ | ⟨-, l, hl, hparams⟩
    · exact absurd henough (hshort us (List.prefix_refl _) hne)
    · exact ⟨l, hl, hparams⟩
  refine wp_CallNodeRPC (fun _ => hlisted) ?_
  rintro a - w₁ rfl
  have hraw := hlisted.exchange "createrawtransaction" r.2.json_params a fun _ => ⟨l, hl, hparams⟩
  refine ⟨fun _ => hraw, fun _ => hraw, fun json_reply _ => ?_⟩
  refine wp_mono (wp_within (S := fun o => ∃ strMethod params,
      strMethod ≠ "createrawtransaction" ∧ o = .curl (call node strMethod params))
    (P := fun _ : Bool × Json => True) (I := Built fl node «from» «to» balance fee us w)
    ?_ ?_ ?_ hraw)
    (fun _ _ h => h.2) fun _ h => h
  · refine within_bind (P := fun _ => True) (within_lift fun _ => trivial) fun _ _ => ?_
    refine within_bind (P := fun _ => True) (within_lift fun _ => trivial) fun _ _ => ?_
    refine within_bind (Built.within (by simp)) ?_
    rintro ⟨_ | _, json_reply⟩ -
    · trivial
    refine within_bind (P := fun _ => True) (within_lift fun _ => trivial) fun _ _ => ?_
    refine within_bind (P := fun _ => True) (within_lift fun _ => trivial) fun _ _ => ?_
    refine within_bind (P := fun _ => True) (within_lift fun _ => trivial) fun _ _ => ?_
    refine within_bind (Built.within (by simp)) ?_
    rintro ⟨_ | _, json_reply⟩ -
    · trivial
    refine within_bind (P := fun _ => True) (within_lift fun _ => trivial) fun _ _ => ?_
    exact within_bind (P := fun _ => True) (within_lift fun _ => trivial) fun _ _ => trivial
  · rintro o w₂ w₃ - hI ⟨-, rfl⟩
    exact hI
  · rintro o w₂ a w₃ ⟨strMethod, params, hmethod, rfl⟩ hI ⟨-, rfl⟩
    exact hI.exchange strMethod params a fun h => absurd h hmethod

def idle : World := ⟨.fresh, [], ⟨⟨[], [], [], [], List.nodup_nil⟩, []⟩, [], 0, [], []⟩

/-- A node that shows the outputs and is down from then on. -/
def showsOnce (reply : Json) (_ : ℕ) (r : Request) : Answer :=
  match r.data.find? "method" with
  | some (.str "listunspent") => .body reply
  | _ => .down

/-- Where the funds do not do, the next call is made all the same. -/
lemma enough_of_frugal {node : NodeInfo} {json_request reply : Json}
    (hreq : Requests json_request «from» «to» balance fee) (hshows : Shows reply us)
    (h : ∀ (x : Weather) (w w' : World) (o : Outcome Exn (Bool × Json)),
      (∀ a, x.net w.wire.length (call node "listunspent" (unspentOf «from»)) a → a = .body reply) →
      Exec (env x) (transferBtc fl node json_request) w o w' →
      Frugal fl node «from» «to» balance fee us reply w o w') :
    us ≠ [] ∧ Enough fl balance fee us := by
  have hnet : ∀ a, (Weather.clear (showsOnce reply) fun _ => .null).net idle.wire.length
      (call node "listunspent" (unspentOf «from»)) a → a = .body reply := fun a ha => ha
  have hrun := exec_run (serve_answers (showsOnce reply) fun _ => .null)
    (transferBtc fl node json_request) idle
  obtain ⟨hshort, hbuilt⟩ := h _ _ _ _ hnet hrun
  obtain ⟨params, a, hpre, hparams⟩ := opens_of_exec hreq id hnet hshows hrun
  have hmem := hpre.subset (a := (call node "createrawtransaction" params, a)) (by simp)
  obtain ⟨l, hl, -⟩ := hbuilt params a hmem
  refine ⟨?_, ?_⟩
  · rintro rfl
    exact hl.nonempty (List.prefix_nil.mp hl.initial)
  · by_contra hnot
    have hlen := (hpre.trans (hshort hnot).1).length_le
    simp at hlen

/-- **Nothing is sent that the funds do not cover**, whatever the node answers, exactly if there
are funds and they cover the amount and the fee. -/
theorem frugal_iff {node : NodeInfo} {json_request reply : Json}
    (hreq : Requests json_request «from» «to» balance fee) (hshows : Shows reply us) :
    (∀ (x : Weather) (w w' : World) (o : Outcome Exn (Bool × Json)),
      (∀ a, x.net w.wire.length (call node "listunspent" (unspentOf «from»)) a → a = .body reply) →
      Exec (env x) (transferBtc fl node json_request) w o w' →
      Frugal fl node «from» «to» balance fee us reply w o w') ↔
    us ≠ [] ∧ Enough fl balance fee us := by
  refine ⟨enough_of_frugal hreq hshows, ?_⟩
  rintro ⟨hne, henough⟩ x w w' o hnet hrun
  obtain ⟨es, hwire, hes⟩ : Built fl node «from» «to» balance fee us w w' := by
    have hpost := exec_post hrun (wp_transferBtc_built hreq hnet hshows hne henough)
    cases o <;> exact hpost
  refine ⟨fun hshort => absurd henough hshort, fun params a hmem => hes params a ?_⟩
  rwa [hwire, List.drop_left] at hmem

end

/-- The outputs of a sender, of which the first does not do. -/
def twoOutputs : List Unspent := [⟨"small", 0, 1 / 2, by decide⟩, ⟨"large", 1, 3, by decide⟩]

def twoOutputsReply : Json :=
  .obj [("result", .arr [
    .obj [("amount", .float (1 / 2)), ("txid", .str "small"), ("vout", .int 0)],
    .obj [("amount", .float 3), ("txid", .str "large"), ("vout", .int 1)]])]

lemma twoOutputs_lists : Lists twoOutputsReply twoOutputs :=
  ⟨_, rfl, .cons ⟨rfl, rfl, _, rfl, rfl⟩ (.cons ⟨rfl, rfl, _, rfl, rfl⟩ .nil)⟩

/-- A node that lists them, signs and sends. -/
def twoUnspent (_ : ℕ) (r : Request) : Answer :=
  match r.data.find? "method" with
  | some (.str "listunspent") => .body twoOutputsReply
  | some (.str "signrawtransactionwithwallet") => .body (.obj [("result",
      .obj [("hex", .str "signed")])])
  | _ => .body (.obj [("result", .str "hash")])

def btcNode : NodeInfo := ⟨1, "node", "auth", "wallet", "auth"⟩

/-- A payment of 1 and a fee of a half. -/
def smallPayment : Json :=
  .arr [.str "BTC", .bool false, .str "A", .str "B", .float 1, .float (1 / 2)]

lemma smallPayment_requests : Requests smallPayment "A" "B" 1 (1 / 2) :=
  ⟨rfl, rfl, rfl, rfl⟩

/-- The payment from them. -/
def payTwo (fl : ℚ → Double) : Outcome Exn (Bool × Json) × World :=
  run (serve twoUnspent fun _ => .null) (transferBtc fl btcNode smallPayment) idle

theorem selection_two : ∃ a, [
    (call btcNode "listunspent" (unspentOf "A"), .body twoOutputsReply),
    (call btcNode "createrawtransaction"
      (RawTx.params ⟨twoOutputs, [("B", 1), ("A", 2)]⟩), a)] <+:
    (payTwo id).2.wire := by
  obtain ⟨params, a, hpre, ⟨l, ⟨ins, outs⟩, hl, rfl, hins, houts, -⟩ | hshort⟩ :=
    selection (x := .clear twoUnspent fun _ => .null) (w := idle) smallPayment_requests id
      (fun a ha => ha) twoOutputs_lists
      (exec_run (serve_answers twoUnspent fun _ => .null) _ _)
  · obtain rfl : ins = l := hins
    obtain rfl : ins = twoOutputs := by
      rcases List.prefix_cons_iff.mp hl.initial with hnil | ⟨l', rfl, hl'⟩
      · exact absurd hnil hl.nonempty
      rcases List.prefix_cons_iff.mp hl' with rfl | ⟨l'', rfl, hl''⟩
      · -- the first output alone does not cover the payment
        have hcovers : (1 / 2 : ℚ) + 0 - 1 - 1 / 2 ≥ 5 / 10 ^ 7 := hl.enough
        norm_num at hcovers
      · rw [List.prefix_nil.mp hl'']
        rfl
    have hchange : total twoOutputs - 1 - 1 / 2 = 2 := by norm_num [total, twoOutputs]
    obtain rfl : outs = [("B", 1), ("A", total twoOutputs - 1 - 1 / 2)] := houts
    rw [hchange] at hpre
    exact ⟨a, hpre⟩
  · refine absurd ?_ (hshort _ (List.prefix_refl _) (by simp [twoOutputs]))
    norm_num [Covers, total, twoOutputs]

theorem frugal_two : Frugal Double.round btcNode "A" "B" 1 (1 / 2) twoOutputs twoOutputsReply idle
    (payTwo Double.round).1 (payTwo Double.round).2 := by
  have henough : Enough Double.round 1 (1 / 2) twoOutputs := by
    unfold Enough
    decide +kernel
  exact (frugal_iff smallPayment_requests twoOutputs_lists.shows).mpr
    ⟨by simp [twoOutputs], henough⟩ (.clear twoUnspent fun _ => .null) _ _ _ (fun a ha => ha)
    (exec_run (serve_answers twoUnspent fun _ => .null) _ _)

/-- Without a result, `createrawtransaction` gets the parameters of `listunspent`. -/
theorem missing_not_frugal : ¬ ∀ (x : Weather) (w w' : World) (o : Outcome Exn (Bool × Json)),
    (∀ a, x.net w.wire.length (call btcNode "listunspent" (unspentOf "A")) a →
      a = .body (.obj [])) →
    Exec (env x) (transferBtc Double.round btcNode smallPayment) w o w' →
    Frugal Double.round btcNode "A" "B" 1 (1 / 2) [] (.obj []) w o w' := fun h =>
  (enough_of_frugal smallPayment_requests ⟨_, _, rfl, rfl, .nil⟩ h).1 rfl

end OpenWallet.Server
