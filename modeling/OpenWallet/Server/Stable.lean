import OpenWallet.Server.Cache
import OpenWallet.Server.Runs

/-!
Whether a user keeps his address over requests and restarts. A lookup of his account that fails
looks like one that finds none, so that the request goes on to take the next account for him.
-/

namespace OpenWallet.Server

open Lib Prog

/-- A call that ends before it has the numbers of a user and a coin. -/
def Refused (E : Env Ans World) (fHelp : Bool) (params : Json) (w : World) (o : Outcome Exn Json)
    (w' : World) : Prop :=
  (∃ e, o = .threw e ∧ Exec E (lookupCoin fHelp params) w (.threw e) w') ∨
    (o = .died ∧ Exec E (lookupCoin fHelp params) w .died w')

def Called (E : Env Ans World) (fHelp : Bool) (params : Json) (p : ℤ × ℤ) (w : World)
    (o : Outcome Exn Json) (w' : World) : Prop :=
  ∃ coin_name w₁, Exec E (lookupCoin fHelp params) w (.done (coin_name, p.1, p.2)) w₁ ∧
    Exec E (assign true coin_name p.1 p.2) w₁ o w'

/-- Every call is of one of the two kinds. -/
lemma exec_getrechargeaddress {E : Env Ans World} {fHelp : Bool} {params : Json} {w w' : World}
    {o : Outcome Exn Json} : Exec E (getrechargeaddress true fHelp params) w o w' ↔
      (∃ p, Called E fHelp params p w o w') ∨ Refused E fHelp params w o w' := by
  rw [getrechargeaddress, exec_bind]
  constructor
  · rintro (⟨⟨coin_name, user_id, coin_id⟩, w₁, hlookup, hassign⟩ | hrefused)
    · exact Or.inl ⟨(user_id, coin_id), coin_name, w₁, hlookup, hassign⟩
    · exact Or.inr hrefused
  · rintro (⟨p, coin_name, w₁, hlookup, hassign⟩ | hrefused)
    · exact Or.inl ⟨(coin_name, p.1, p.2), w₁, hlookup, hassign⟩
    · exact Or.inr hrefused

/-- The server between two calls, and the pairs of a user and a coin that the calls to its
process have named. -/
structure State where
  world : World
  named : List (ℤ × ℤ)

namespace State

def restart (s : State) : State := ⟨s.world.restarted, []⟩

/-- A process that died is followed by another. -/
def left (o : Outcome Exn Json) (s : State) : State := if survived o then s else s.restart

end State

inductive Turn
  | restart
  | refused
  | call (p : ℤ × ℤ) (o : Outcome Exn Json)

/-- The steps of the server, where `ok` says which calls it gets. -/
inductive Step (E : Env Ans World) (ok : State → ℤ × ℤ → Prop) : State → Turn → State → Prop
  | restart (s : State) : Step E ok s .restart s.restart
  | refused {s : State} {fHelp : Bool} {params : Json} {o : Outcome Exn Json} {w' : World} :
      Refused E fHelp params s.world o w' → Step E ok s .refused (State.left o ⟨w', s.named⟩)
  | call {s : State} {fHelp : Bool} {params : Json} {p : ℤ × ℤ} {o : Outcome Exn Json}
      {w' : World} :
      ok s p → Called E fHelp params p s.world o w' →
      Step E ok s (.call p o) (State.left o ⟨w', p :: s.named⟩)

def Runs (E : Env Ans World) (ok : State → ℤ × ℤ → Prop) : State → State → Prop :=
  Relation.ReflTransGen fun s s' => ∃ e, Step E ok s e s'

/-- The account is the one the user has of the coin. -/
structure Has (d : Db) (p : ℤ × ℤ) (a : AccountRow) : Prop where
  row : ⟨p.1, a.account_id, p.2⟩ ∈ d.user
  account : a ∈ d.cat.account
  coin : a.coin_id = p.2

/-- A user with an account does not share his key with another one that the process has met. -/
def Clear (s : State) (p : ℤ × ℤ) : Prop :=
  Enrolled s.world.db p.1 p.2 → ∀ q ∈ s.named, Enrolled s.world.db q.1 q.2 →
    encode_user q.1 q.2 = encode_user p.1 p.2 → q = p

/-! ### What a call keeps -/

structure Further (d d' : Db) : Prop where
  cat : d'.cat = d.cat
  user : ∀ u ∈ d.user, u ∈ d'.user

lemma Further.has {d d' : Db} {p : ℤ × ℤ} {a : AccountRow} (h : Further d d') (ha : Has d p a) :
    Has d' p a :=
  ⟨h.user _ ha.row, h.cat ▸ ha.account, ha.coin⟩

lemma Further.owns {d d' : Db} {user_id coin_id : ℤ} {i : AccountInfo} (h : Further d d')
    (ho : Owns d user_id coin_id i) : Owns d' user_id coin_id i :=
  ⟨h.user _ ho.row, h.cat ▸ ho.account, ho.int⟩

lemma further_refl (d : Db) : Further d d := ⟨rfl, fun _ hu => hu⟩

lemma Further.trans {d d₁ d₂ : Db} (h : Further d d₁) (h' : Further d₁ d₂) : Further d d₂ :=
  ⟨h'.cat.trans h.cat, fun u hu => h'.user u (h.user u hu)⟩

lemma Underway.further {w w' : World} {user_id coin_id : ℤ} (h : Underway w user_id coin_id w') :
    Further w.db w'.db := by
  rcases h.db with hdb | ⟨account_id, hgives⟩
  · rw [hdb]
    exact further_refl _
  · rw [hgives.insert]
    exact ⟨rfl, fun u hu => List.mem_append_left _ hu⟩

lemma Kept.unique {d : Db} {p : ℤ × ℤ} {a : AccountRow} {i : AccountInfo} (h : Kept d)
    (ha : Has d p a) (ho : Owns d p.1 p.2 i) : a.address = some i.address ∧ a.tag = some i.tag := by
  have hid : a.account_id = i.account_id :=
    congrArg UserRow.account_id (List.inj_on_of_nodup_map h.once ha.row ho.row rfl)
  obtain rfl := List.inj_on_of_nodup_map h.distinct ha.account ho.account (Prod.ext hid ha.coin)
  exact ⟨rfl, rfl⟩

/-- What is in the cache are accounts of pairs that were named. -/
structure Sound (s : State) : Prop where
  kept : Kept s.world.db
  cache : ∀ key i, s.world.s_usercoin_accountinfo.lookup key = some i →
    ∃ p ∈ s.named, key = encode_user p.1 p.2 ∧ Owns s.world.db p.1 p.2 i

section

variable {x : Weather} {s : State} {w w' : World} {named : List (ℤ × ℤ)}

lemma Sound.same (h : Sound ⟨w, named⟩) (hs : Same w w') : Sound ⟨w', named⟩ := by
  refine ⟨hs.db ▸ h.kept, fun key i hi => ?_⟩
  rw [show w'.s_usercoin_accountinfo = _ from hs.cache] at hi
  rw [show w'.db = _ from hs.db]
  exact h.cache key i hi

lemma Sound.underway {p : ℤ × ℤ} (h : Sound ⟨w, named⟩) (hu : Underway w p.1 p.2 w') :
    Sound ⟨w', p :: named⟩ := by
  refine ⟨hu.kept, fun key i hi => ?_⟩
  rcases hu.cache key i hi with hi | ⟨hkey, ho⟩
  · obtain ⟨q, hq, hkey, ho⟩ := h.cache key i hi
    exact ⟨q, List.mem_cons_of_mem p hq, hkey, hu.further.owns ho⟩
  · exact ⟨p, List.mem_cons_self, hkey, ho⟩

lemma Sound.left {o : Outcome Exn Json} (h : Sound s) : Sound (State.left o s) := by
  unfold State.left
  split
  · exact h
  · exact ⟨h.kept, fun _ _ hi => by cases hi⟩

lemma wp_lookupCoin_same (fHelp : Bool) (params : Json) (w : World)
    {ok : (o : Op) → World → Ans o → Prop} :
    wp ((env x).only ok) (lookupCoin fHelp params) (fun _ => Same w) (Same w) w := by
  refine wp_mono (wp_within (I := Same w) (lookupCoin_looks fHelp params) ?_ ?_ ⟨rfl, rfl⟩)
    (fun _ _ h => h.2) fun _ h => h
  · rintro o w₁ w₂ - h ⟨-, rfl⟩
    exact h
  · rintro o w₁ r w₂ ho h ⟨ha, -⟩
    cases o with
    | openDB =>
      obtain rfl := ha
      split
      · exact ⟨h.cache, h.db⟩
      · exact h
    | closeDB =>
      obtain rfl := ha
      exact ⟨h.cache, h.db⟩
    | getData q =>
      obtain ⟨rfl, -⟩ := ha
      exact h
    | _ => exact ho.elim

/-- A request answers a user who has an account with his own. -/
lemma wp_assign_own {p : ℤ × ℤ} (coin_name : String) (h : Sound ⟨w, named⟩)
    (hclear : Clear ⟨w, named⟩ p) :
    wp ((env x).only Sure) (assign true coin_name p.1 p.2)
      (fun j w' => Underway w p.1 p.2 w' ∧ ∀ a, Has w.db p a → ∃ address tag,
        a.address = some address ∧ a.tag = some tag ∧ answered (.done j) = some (address, tag))
      (Underway w p.1 p.2) w := by
  have hsame : ∀ w', Same w w' → Underway w p.1 p.2 w' := fun w' hs => hs.underway h.kept
  rw [assign, wp_bind, cacheFind, if_pos rfl, find, wp_op]
  refine ⟨fun w₁ hd => hd.2 ▸ hsame w ⟨rfl, rfl⟩, ?_⟩
  rintro hit w₁ ⟨⟨rfl, rfl⟩, -⟩
  cases hhit : w₁.s_usercoin_accountinfo.lookup (encode_user p.1 p.2) with
  | some i =>
    refine wp_only ?_
    simp only [wp_bind, wp_closeDB, pure_eq, wp_ret]
    refine ⟨fun _ => hsame _ ⟨rfl, rfl⟩, hsame _ ⟨rfl, rfl⟩, fun a ha => ⟨i.address, i.tag, ?_⟩⟩
    obtain ⟨q, hq, hkey, ho⟩ := h.cache _ i hhit
    obtain rfl := hclear ⟨_, ha.row, rfl, rfl⟩ q hq ⟨_, ho.row, rfl, rfl⟩ hkey.symm
    obtain ⟨haddress, htag⟩ := h.kept.unique ha ho
    exact ⟨haddress, htag, rfl⟩
  | none =>
    refine wp_mono (wp_assignMissed coin_name p.1 p.2 h.kept) ?_ ?_
    · rintro j w' ⟨i, hi⟩
      refine ⟨hi.underway, fun a ha => ⟨i.address, i.tag, ?_⟩⟩
      obtain ⟨haddress, htag⟩ := hi.kept.unique (hi.underway.further.has ha) hi.owns
      exact ⟨haddress, htag, by rw [hi.json, answered_json_result]⟩
    · rintro w' (hs | ⟨-, hu⟩)
      · exact hsame w' hs
      · exact hu

/-! ### What a run keeps -/

lemma Refused.same {fHelp : Bool} {params : Json} {o : Outcome Exn Json}
    {ok : (o : Op) → World → Ans o → Prop}
    (h : Refused ((env x).only ok) fHelp params w o w') : Same w w' := by
  rcases h with ⟨e, -, hx⟩ | ⟨-, hx⟩
  · exact exec_post hx (wp_lookupCoin_same fHelp params w)
  · exact exec_post hx (wp_lookupCoin_same fHelp params w)

lemma Called.own {fHelp : Bool} {params : Json} {p : ℤ × ℤ} {o : Outcome Exn Json}
    (h : Called ((env x).only Sure) fHelp params p w o w') (hs : Sound ⟨w, named⟩)
    (hclear : Clear ⟨w, named⟩ p) : (∃ w₁, Same w w₁ ∧ Underway w₁ p.1 p.2 w') ∧
      ∀ j a, o = .done j → Has w.db p a → ∃ address tag,
        a.address = some address ∧ a.tag = some tag ∧ answered o = some (address, tag) := by
  obtain ⟨coin_name, w₁, hlookup, hassign⟩ := h
  have hsame : Same w w₁ := exec_post hlookup (wp_lookupCoin_same fHelp params w)
  have hclear₁ : Clear ⟨w₁, named⟩ p := by
    rw [Clear, hsame.db]
    exact hclear
  have hpost := exec_post hassign (wp_assign_own coin_name (hs.same hsame) hclear₁)
  cases o with
  | done j =>
    refine ⟨⟨w₁, hsame, hpost.1⟩, fun _ a _ ha => hpost.2 a ?_⟩
    rw [hsame.db]
    exact ha
  | threw | died => exact ⟨⟨w₁, hsame, hpost⟩, nofun⟩

end

section

variable {x : Weather} {s s' : State}

/-- A step keeps what is in the cache true, and takes no row away. -/
lemma Step.sound {e : Turn} (h : Step ((env x).only Sure) Clear s e s') (hs : Sound s) :
    Sound s' ∧ Further s.world.db s'.world.db := by
  have hleft : ∀ (o : Outcome Exn Json) (s₁ : State), (State.left o s₁).world.db = s₁.world.db := by
    intro o s₁
    unfold State.left
    split <;> rfl
  cases h with
  | restart => exact ⟨⟨hs.kept, fun _ _ hi => by cases hi⟩, further_refl _⟩
  | refused hr =>
    refine ⟨(hs.same hr.same).left, ?_⟩
    rw [hleft, hr.same.db]
    exact further_refl _
  | call hclear hc =>
    obtain ⟨⟨w₁, hsame, hunder⟩, -⟩ := hc.own hs hclear
    refine ⟨((hs.same hsame).underway hunder).left, ?_⟩
    rw [hleft, ← hsame.db]
    exact hunder.further

lemma Runs.sound (h : Runs ((env x).only Sure) Clear s s') (hs : Sound s) :
    Sound s' ∧ Further s.world.db s'.world.db := by
  induction h with
  | refl => exact ⟨hs, further_refl _⟩
  | tail _ hstep ih =>
    obtain ⟨e, hstep⟩ := hstep
    obtain ⟨hsound, hfurther⟩ := hstep.sound ih.1
    exact ⟨hsound, ih.2.trans hfurther⟩

end

end OpenWallet.Server
