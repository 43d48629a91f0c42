import Mevacoin.Lib.Indexed
import Mevacoin.Trust.Rebuild
import Mevacoin.Trust.SybilCaps

/-!
# One signature, one effect?

A deregistration and a circle operation name no block and no number, so a copy in another
transaction acts again as soon as the state allows it.
-/

namespace Mevacoin.Trust

open Lib Std

/-! ### Payloads -/

/-- The payloads that register nodes and change circles. -/
inductive Offer where
  | registration (reg : Registration)
  | deregister (dereg : Deregister)
  | circle (o : CircleOp)
  | vote (v : CircleVote)
deriving DecidableEq

/-- The payloads of a transaction, in the order of the sections. -/
def txOffers (t : LoadedTx) : List Offer :=
  (parseRegistration t.tx).toList.map .registration ++
    (parseDeregister t.tx).toList.map .deregister ++
    (parseCircle t.tx).toList.map .circle ++ (parseCircleVote t.tx).toList.map .vote

/-- The payload of an action. -/
def Action.offer : Action → Option Offer
  | node (.register reg) => some (.registration reg)
  | node (.deregister dereg) => some (.deregister dereg)
  | circle (.op o _) => some (.circle o)
  | circle (.vote v) => some (.vote v)
  | _ => none

/-- The second payload, processed between two copies of the first, lets the first act again:

* a registration of the node under the wallet key, for a deregistration;
* a creation, for any circle operation: it may be of the same circle;
* for a `JOIN`, a `LEAVE` of the same member from the same circle;
* for a `CHANGE_ADMIN`, another one that makes its signer the administrator, or the end of a
  vote. -/
def Offer.ReopenedBy : Offer → Offer → Prop
  | deregister dereg, registration reg =>
    reg.nodeId = dereg.nodeId ∧ reg.walletPubkey = dereg.walletPubkey
  | circle o, circle o' =>
    CircleOpType.ofUInt8 o'.opType = some .create ∨
      o'.circleId = o.circleId ∧
        (CircleOpType.ofUInt8 o.opType = some .join ∧
            CircleOpType.ofUInt8 o'.opType = some .leave ∧ o'.targetPubkey = o.targetPubkey ∨
          CircleOpType.ofUInt8 o.opType = some .changeAdmin ∧
            CircleOpType.ofUInt8 o'.opType = some .changeAdmin ∧ o'.targetPubkey = o.signerPubkey)
  | circle o, vote v =>
    CircleOpType.ofUInt8 o.opType = some .changeAdmin ∧
      VoteOpType.ofUInt8 v.opType = some .finalizeVote
  | _, _ => False

/-- The payload can act twice in a row: a `LEAVE`, and a `CHANGE_ADMIN` to the signer. -/
def Offer.Renews : Offer → Prop
  | circle o => CircleOpType.ofUInt8 o.opType = some .leave ∨
    CircleOpType.ofUInt8 o.opType = some .changeAdmin ∧ o.signerPubkey = o.targetPubkey
  | _ => False

instance (p q : Offer) : Decidable (p.ReopenedBy q) := by
  unfold Offer.ReopenedBy
  split <;> infer_instance

instance (p : Offer) : Decidable p.Renews := by
  unfold Offer.Renews
  split <;> infer_instance

/-- **Copies at a safe distance**: no payload that can act twice in a row is copied, and nothing
between two copies lets the second act again. -/
def Spaced (l : List Offer) : Prop :=
  ∀ p ∈ l, ([p, p].Sublist l → ¬ p.Renews) ∧
    ∀ q ∈ l, [p, q, p].Sublist l → ¬ p.ReopenedBy q
deriving Decidable

/-- Fewer payloads keep their distance. -/
theorem Spaced.of_sublist {l l' : List Offer} (h : Spaced l') (hl : l.Sublist l') : Spaced l :=
  fun p hp => ⟨fun hpp => (h p (hl.subset hp)).1 (hpp.trans hl),
    fun q hq hpqp => (h p (hl.subset hp)).2 q (hl.subset hq) (hpqp.trans hl)⟩

/-! ### What a payload does -/

section

variable {F : Type}

/-- The action is a deregistration or a circle operation other than `CREATE`, and is not refused. -/
def Action.takesEffect (ctx : BlockCtx) (now : UInt64) (s : Manager F) : Action → Bool
  | node (.deregister dereg) => (s.registry.deregisterNodeOnchain dereg).isSome
  | circle (.op o txHash) =>
    decide (CircleOpType.ofUInt8 o.opType ≠ some .create ∧ CircleOpType.ofUInt8 o.opType ≠ none) &&
      (applyCircleOp ctx.env.crypto s.circles o txHash ctx.height now).isSome
  | _ => false

/-- The payload would be refused. -/
def Offer.Spent (s : Manager F) : Offer → Prop
  | deregister dereg =>
    ∀ e ∈ s.registry.nodes[dereg.nodeId]?, e.walletPubkey ≠ dereg.walletPubkey
  | circle o =>
    match CircleOpType.ofUInt8 o.opType with
    | some .join => ∀ e ∈ s.circles.circles[o.circleId]?, o.targetPubkey ∈ e.members
    | some .changeAdmin => ∀ e ∈ s.circles.circles[o.circleId]?, e.adminPubkey ≠ o.signerPubkey
    | some .disband => s.circles.circles[o.circleId]? = none
    | _ => False
  | _ => False

variable [FloatArith F] {D : Type} [FloatArith D] {ctx : BlockCtx} {now : UInt64} {s : Manager F}
  {a : Action}

/-! ### How the entry of a circle changes -/

variable {c c' : CircleRegistry} {cid k : Hash} {f : CircleEntry → Option CircleEntry}
  {e' : CircleEntry} {pid : Hash} {p : Offer}

/-- Where an entry after a change comes from. -/
theorem modify_lookup (h : c.modify cid f = some c') (he : c'.circles[k]? = some e') :
    ∃ e, c.circles[k]? = some e ∧ (e' = e ∨ k = cid ∧ f e = some e') := by
  obtain ⟨e, e₁, hc, hf, rfl⟩ := modify_eq_some h
  by_cases hk : cid = k
  · subst hk
    obtain rfl := Option.some.inj (ExtTreeMap.getElem?_insert_self.symm.trans he)
    exact ⟨e, hc, .inr ⟨rfl, hf⟩⟩
  · exact ⟨e', (getElem?_insert_of_ne hk _).symm.trans he, .inl rfl⟩

/-- The end of a vote leaves the members alone. -/
theorem finalizeVote_lookup {height : UInt64}
    (he : (c.finalizeVote D pid height now).1.circles[k]? = some e') :
    ∃ e, c.circles[k]? = some e ∧ e'.members = e.members := by
  have hclosing := voteClosing D c pid height now
  generalize c.finalizeVote D pid height now = out at hclosing he
  cases hclosing with
  | idle | lost | recalled => exact ⟨e', he, rfl⟩
  | @carried p e _ _ _ hc =>
    by_cases hk : p.circleId = k
    · subst hk
      obtain rfl := Option.some.inj (ExtTreeMap.getElem?_insert_self.symm.trans he)
      exact ⟨e, hc, rfl⟩
    · exact ⟨e', (getElem?_insert_of_ne hk _).symm.trans he, rfl⟩

/-- The action takes the key out of the circle. -/
def CircleAct.Expels (cid : Hash) (k : PublicKey) : CircleAct → Prop
  | op o _ => CircleOpType.ofUInt8 o.opType = some .leave ∧ o.circleId = cid ∧ o.targetPubkey = k
  | vote _ => False

/-- The action may make the key the administrator of the circle. -/
def CircleAct.Crowns (cid : Hash) (k : PublicKey) : CircleAct → Prop
  | op o _ =>
    CircleOpType.ofUInt8 o.opType = some .changeAdmin ∧ o.circleId = cid ∧ o.targetPubkey = k
  | vote v => VoteOpType.ofUInt8 v.opType = some .finalizeVote

/-- **How the entry of a circle changes**: unless a circle is created, an entry was there before,
with the members that are not expelled, and with the same administrator unless one is crowned. -/
theorem CircleAct.entry_of_step {a : CircleAct}
    (hcreate : ∀ o txHash, a = .op o txHash → CircleOpType.ofUInt8 o.opType ≠ some .create)
    (he : (a.step D ctx now c).1.circles[cid]? = some e') :
    ∃ e, c.circles[cid]? = some e ∧ (∀ m ∈ e.members, m ∈ e'.members ∨ a.Expels cid m) ∧
      (e'.adminPubkey = e.adminPubkey ∨ a.Crowns cid e'.adminPubkey) := by
  have hsame : c.circles[cid]? = some e' → ∃ e, c.circles[cid]? = some e ∧
      (∀ m ∈ e.members, m ∈ e'.members ∨ a.Expels cid m) ∧
      (e'.adminPubkey = e.adminPubkey ∨ a.Crowns cid e'.adminPubkey) :=
    fun h => ⟨e', h, fun m hm => .inl hm, .inl rfl⟩
  cases a with
  | op o txHash =>
    cases hop : CircleOpType.ofUInt8 o.opType with
    | none =>
      rw [step_unset hop] at he
      exact hsame he
    | some kind =>
      cases kind with
      | create => exact absurd hop (hcreate o txHash rfl)
      | join =>
        rw [step_join hop] at he
        cases hc : c.addMember o.circleId o.targetPubkey o.signerPubkey now with
        | none => exact hsame (by rwa [hc] at he)
        | some c' =>
          rw [hc] at he
          obtain ⟨e, hold, rfl | ⟨-, hf⟩⟩ := modify_lookup hc he
          · exact hsame hold
          · split_ifs at hf
            obtain rfl := Option.some_inj.1 hf
            exact ⟨e, hold, fun m hm => .inl (List.mem_append_left _ hm), .inl rfl⟩
      | leave =>
        rw [step_leave hop] at he
        cases hc : c.removeMember o.circleId o.targetPubkey o.signerPubkey now with
        | none => exact hsame (by rwa [hc] at he)
        | some c' =>
          rw [hc] at he
          obtain ⟨e, hold, rfl | ⟨hk, hf⟩⟩ := modify_lookup hc he
          · exact hsame hold
          · split_ifs at hf
            obtain rfl := Option.some_inj.1 hf
            refine ⟨e, hold, fun m hm => ?_, .inl rfl⟩
            by_cases hmt : m = o.targetPubkey
            · exact .inr ⟨hop, hk.symm, hmt.symm⟩
            · exact .inl (List.mem_filter.2 ⟨hm, by simpa using hmt⟩)
      | changeAdmin =>
        rw [step_changeAdmin hop] at he
        cases hc : c.changeAdmin o.circleId o.targetPubkey o.signerPubkey now with
        | none => exact hsame (by rwa [hc] at he)
        | some c' =>
          rw [hc] at he
          obtain ⟨e, hold, rfl | ⟨hk, hf⟩⟩ := modify_lookup hc he
          · exact hsame hold
          · split_ifs at hf
            obtain rfl := Option.some_inj.1 hf
            exact ⟨e, hold, fun m hm => .inl hm, .inr ⟨hop, hk.symm, rfl⟩⟩
      | disband =>
        rw [step_disband hop] at he
        cases hc : c.disbandCircle o.circleId o.signerPubkey with
        | none => exact hsame (by rwa [hc] at he)
        | some c' =>
          rw [hc] at he
          obtain ⟨e, -, -, rfl⟩ := disbandCircle_eq_some hc
          simp only [ExtTreeMap.getElem?_erase] at he
          split_ifs at he
          exact hsame he
  | vote v =>
    cases hop : VoteOpType.ofUInt8 v.opType with
    | none =>
      rw [step_unsetVote hop] at he
      exact hsame he
    | some kind =>
      cases kind with
      | proposeChangeAdmin =>
        rw [step_propose hop] at he
        obtain hidle | ⟨p, -, -, -, -, hset⟩ := createProposal_cases c ctx.env.crypto v.circleId
          v.signerPubkey v.targetPubkey ctx.height
        · rw [hidle] at he
          exact hsame he
        · rw [hset] at he
          exact hsame he
      | castVote =>
        rw [step_castVote hop] at he
        cases hc : c.castVote v.proposalId v.signerPubkey v.voteYes ctx.height with
        | none => exact hsame (by rwa [hc] at he)
        | some c' =>
          rw [hc] at he
          obtain ⟨-, -, rfl⟩ := castVote_eq_some_iff.1 hc
          exact hsame he
      | finalizeVote =>
        rw [step_finalizeVote hop] at he
        obtain ⟨e, hold, hmem⟩ := finalizeVote_lookup he
        exact ⟨e, hold, fun m hm => .inl (hmem ▸ hm), .inr hop⟩

/-! ### Spent payloads -/

/-- No registration of the node under the wallet key. -/
def goneRules (F : Type) (dereg : Deregister) : Rules F where
  enter _ reg := ¬ (reg.nodeId = dereg.nodeId ∧ reg.walletPubkey = dereg.walletPubkey)

/-- **The moves of the registry keep a node away** that is not registered again. -/
theorem gone_upheld (ctx : BlockCtx) (dereg : Deregister) :
    Upheld ctx (goneRules F dereg)
      fun r => ∀ e ∈ r.nodes[dereg.nodeId]?, e.walletPubkey ≠ dereg.walletPubkey where
  update := by
    intro r n f h hf e' he'
    rw [NodeRegistry.modify_nodes] at he'
    split_ifs at he' with hn
    · subst hn
      obtain ⟨e, he, rfl⟩ := Option.map_eq_some_iff.1 he'
      have hkey : (f e).walletPubkey = e.walletPubkey := congrArg Identity.walletPubkey (hf e he).1
      exact hkey ▸ h e he
    · exact h e' he'
  enter := by
    intro r r' reg now h hnot hreg e he
    rw [(NodeRegistry.registerNodeOnchain_eq_some hreg).2, ExtTreeMap.getElem?_insert] at he
    split_ifs at he with hn
    · obtain rfl := Option.some_inj.1 he
      exact fun hw => hnot ⟨LawfulEqCmp.eq_of_compare hn, hw⟩
    · exact h e he
  leave := by
    intro r n h _ e he
    rw [NodeRegistry.getElem?_unregisterNode] at he
    split_ifs at he
    · cases he
    · exact h e he
  expire := by
    intro r now h e' he'
    rw [NodeRegistry.getElem?_expireInactiveNodes] at he'
    obtain ⟨e, he, rfl⟩ := Option.map_eq_some_iff.1 he'
    have hne := h e he
    split_ifs
    · exact hne
    · exact hne

/-- What an action does to the circles. -/
theorem Action.step_circles (a : Action) :
    (a.step D ctx now s).1.circles =
      match a with
      | circle act => (act.step D ctx now s.circles).1
      | _ => s.circles := by
  cases a with
  | node | circle => exact Manager.logAll_circles _ _ _
  | chainProof | store | poolDistribution => rfl

/-- A circle operation that is refused stays refused until it is reopened. -/
theorem spent_circle_action {o : CircleOp} (h : (Offer.circle o).Spent s)
    (hopen : ∀ q ∈ a.offer, ¬ (Offer.circle o).ReopenedBy q) :
    (Offer.circle o).Spent (a.step D ctx now s).1 := by
  have hentry : ∀ e' ∈ (a.step D ctx now s).1.circles.circles[o.circleId]?,
      ∃ e ∈ s.circles.circles[o.circleId]?,
        (o.targetPubkey ∈ e.members → CircleOpType.ofUInt8 o.opType = some .join →
          o.targetPubkey ∈ e'.members) ∧
        (e.adminPubkey ≠ o.signerPubkey → CircleOpType.ofUInt8 o.opType = some .changeAdmin →
          e'.adminPubkey ≠ o.signerPubkey) := by
    intro e' he'
    rw [Action.step_circles] at he'
    cases a with
    | circle act =>
      have hcreate : ∀ o' txHash, act = .op o' txHash →
          CircleOpType.ofUInt8 o'.opType ≠ some .create := by
        rintro o' txHash rfl hc
        exact hopen _ rfl (.inl hc)
      obtain ⟨e, hold, hmem, hadmin⟩ := CircleAct.entry_of_step hcreate he'
      refine ⟨e, hold, fun hin hj => (hmem _ hin).resolve_right ?_, fun hne hch heq => ?_⟩
      · cases act with
        | op o' txHash =>
          rintro ⟨hl, hcid, ht⟩
          exact hopen _ rfl (.inr ⟨hcid, .inl ⟨hj, hl, ht⟩⟩)
        | vote v => exact id
      · rcases hadmin with hsame | hcrown
        · exact hne (hsame.symm.trans heq)
        · cases act with
          | op o' txHash =>
            obtain ⟨hch', hcid, ht⟩ := hcrown
            exact hopen _ rfl (.inr ⟨hcid, .inr ⟨hch, hch', ht.trans heq⟩⟩)
          | vote v => exact hopen _ rfl ⟨hch, hcrown⟩
    | node | chainProof | store
    | poolDistribution => exact ⟨e', he', fun hin _ => hin, fun hne _ => hne⟩
  unfold Offer.Spent at h ⊢
  dsimp only at h ⊢
  cases hop : CircleOpType.ofUInt8 o.opType with
  | none => simp only [hop] at h
  | some kind =>
    cases kind with
    | create | leave => simp only [hop] at h
    | join =>
      simp only [hop] at h
      intro e' he'
      obtain ⟨e, he, hin, -⟩ := hentry e' he'
      exact hin (h e he) hop
    | changeAdmin =>
      simp only [hop] at h
      intro e' he'
      obtain ⟨e, he, -, hne⟩ := hentry e' he'
      exact hne (h e he) hop
    | disband =>
      simp only [hop] at h
      by_contra hsome
      obtain ⟨e', he'⟩ := Option.ne_none_iff_exists'.1 hsome
      obtain ⟨e, he, -⟩ := hentry e' he'
      rw [h] at he
      cases he

/-- **A spent payload stays spent** until it is reopened. -/
theorem Offer.Spent.action (h : p.Spent s) (hopen : ∀ q ∈ a.offer, ¬ p.ReopenedBy q) :
    p.Spent (a.step D ctx now s).1 := by
  cases p with
  | deregister dereg =>
    refine (gone_upheld ctx dereg).action D (a := (a, now)) h ?_
    cases a with
    | node act =>
      refine NodeAct.within_of_enter (fun _ _ _ => trivial) (fun _ _ => trivial) ?_
      rintro reg rfl -
      exact hopen _ rfl
    | circle | chainProof | store | poolDistribution => exact trivial
  | circle o => exact spent_circle_action h hopen
  | registration | vote => exact h.elim

omit [FloatArith F] in
/-- Who offers a deregistration. -/
theorem offer_eq_deregister {dereg : Deregister} (h : a.offer = some (.deregister dereg)) :
    a = .node (.deregister dereg) := by
  unfold Action.offer at h
  split at h <;> cases h
  rfl

omit [FloatArith F] in
/-- Who offers a circle operation. -/
theorem offer_eq_circle {o : CircleOp} (h : a.offer = some (.circle o)) :
    ∃ txHash, a = .circle (.op o txHash) := by
  unfold Action.offer at h
  split at h <;> cases h
  exact ⟨_, rfl⟩

omit [FloatArith F] in
/-- A spent payload has no effect. -/
theorem Offer.Spent.not_takesEffect {p : Offer} (h : p.Spent s) (hp : a.offer = some p) :
    a.takesEffect ctx now s = false := by
  cases p with
  | deregister dereg =>
    obtain rfl := offer_eq_deregister hp
    dsimp only [Action.takesEffect]
    unfold NodeRegistry.deregisterNodeOnchain
    cases hn : s.registry.nodes[dereg.nodeId]? with
    | none => rfl
    | some e =>
      dsimp only
      rw [if_neg (h e hn)]
      rfl
  | circle o =>
    obtain ⟨txHash, rfl⟩ := offer_eq_circle hp
    dsimp only [Offer.Spent] at h
    dsimp only [Action.takesEffect, applyCircleOp]
    rw [Bool.and_eq_false_iff]
    cases hop : CircleOpType.ofUInt8 o.opType with
    | none => exact .inl (by simp)
    | some kind =>
      simp only [hop] at h
      cases kind with
      | create => exact .inl (by simp)
      | leave => exact h.elim
      | join =>
        refine .inr ?_
        rw [Option.isSome_map, addMember_eq_none fun e he hadmits => hadmits.2.1 (h e he)]
        rfl
      | changeAdmin =>
        refine .inr ?_
        rw [Option.isSome_map, changeAdmin_eq_none fun e he hadmin => h e he hadmin.1]
        rfl
      | disband =>
        refine .inr ?_
        rw [Option.isSome_map, disbandCircle_of_none h]
        rfl
  | registration | vote => exact h.elim

/-- **A payload that takes effect is spent**, unless it can act twice in a row. -/
theorem spent_of_takesEffect (hp : a.offer = some p) (heffect : a.takesEffect ctx now s = true)
    (hrenews : ¬ p.Renews) : p.Spent (a.step D ctx now s).1 := by
  cases p with
  | deregister dereg =>
    obtain rfl := offer_eq_deregister hp
    obtain ⟨r', hr⟩ := Option.isSome_iff_exists.1 heffect
    have hreg : (Action.step D ctx now s (.node (.deregister dereg))).1.registry = r' := by
      show (Manager.logAll _ _ _).registry = r'
      rw [Manager.logAll_toRewardState]
      dsimp only [NodeAct.step]
      rw [hr]
    intro e he
    have hnone : r'.nodes[dereg.nodeId]? = none := by
      have hlookup := s.registry.getElem?_unregisterNode dereg.nodeId dereg.nodeId
      unfold NodeRegistry.deregisterNodeOnchain at hr
      split at hr
      · cases hr
      · split_ifs at hr
        rwa [hr, if_pos rfl] at hlookup
    rw [hreg, hnone] at he
    cases he
  | circle o =>
    obtain ⟨txHash, rfl⟩ := offer_eq_circle hp
    obtain ⟨hkind, hsome⟩ := Bool.and_eq_true_iff.1 heffect
    obtain ⟨⟨c', po⟩, hc⟩ := Option.isSome_iff_exists.1 hsome
    have hcircles : (Action.step D ctx now s (.circle (.op o txHash))).1.circles = c' := by
      rw [Action.step_circles]
      dsimp only [CircleAct.step]
      rw [hc]
    dsimp only [Offer.Spent]
    rw [hcircles]
    dsimp only [applyCircleOp] at hc
    cases hop : CircleOpType.ofUInt8 o.opType with
    | none => simp [hop] at hkind
    | some kind =>
      simp only [hop] at hc
      cases kind with
      | create => simp [hop] at hkind
      | leave => exact absurd (.inl hop) hrenews
      | join =>
        obtain ⟨c₁, hadd, heq⟩ := Option.map_eq_some_iff.1 hc
        cases heq
        obtain ⟨e, e', -, hf, rfl⟩ := modify_eq_some hadd
        split_ifs at hf
        obtain rfl := Option.some_inj.1 hf
        intro e₁ he₁
        obtain rfl := Option.some_inj.1 (ExtTreeMap.getElem?_insert_self.symm.trans he₁)
        exact List.mem_append_right _ (List.mem_singleton_self _)
      | changeAdmin =>
        obtain ⟨c₁, hchange, heq⟩ := Option.map_eq_some_iff.1 hc
        cases heq
        obtain ⟨e, e', -, hf, rfl⟩ := modify_eq_some hchange
        split_ifs at hf
        obtain rfl := Option.some_inj.1 hf
        intro e₁ he₁
        obtain rfl := Option.some_inj.1 (ExtTreeMap.getElem?_insert_self.symm.trans he₁)
        exact fun hsigner => hrenews (.inr ⟨hop, hsigner.symm⟩)
      | disband =>
        obtain ⟨c₁, hdisband, heq⟩ := Option.map_eq_some_iff.1 hc
        cases heq
        obtain ⟨e, -, -, rfl⟩ := disbandCircle_eq_some hdisband
        exact ExtTreeMap.getElem?_erase_self
  | registration reg | vote v =>
    unfold Action.takesEffect at heffect
    split at heffect
    · cases hp
    · cases hp
    · cases heffect

end

/-! ### The ledger of payloads -/

/-- A payload that got as far as an action, and whether it took effect. -/
structure Met where
  offer : Offer
  acted : Bool
deriving DecidableEq

/-- The payloads met. -/
def offersOf (evs : List Met) : List Offer := evs.map (·.offer)

/-- The payloads that took effect, once for each time they did. -/
def actedOf (evs : List Met) : List Offer := (evs.filter (·.acted)).map (·.offer)

/-- What acted was offered. -/
theorem actedOf_sublist (evs : List Met) : (actedOf evs).Sublist (offersOf evs) :=
  List.filter_sublist.map _

section

variable {F : Type} [FloatArith F]

/-- The actions of a block, with the payloads met as events. -/
def ledger (F D : Type) [FloatArith F] [FloatArith D] (ctx : BlockCtx) :
    Machine (Manager F) (Action × UInt64) Met where
  step s a :=
    ((a.1.step D ctx a.2 s).1,
      (a.1.offer.map fun p => (⟨p, a.1.takesEffect ctx a.2 s⟩ : Met)).toList)

omit [FloatArith F] in
/-- If the payloads met are copied at a safe distance, none took effect twice, and one that did is
spent, unless it renews or something met later lets it act again. -/
def Settled (s : Manager F) (evs : List Met) : Prop :=
  Spaced (offersOf evs) → (actedOf evs).Nodup ∧
    ∀ p ∈ actedOf evs, p.Renews ∨ p.Spent s ∨
      ∃ q, [p, q].Sublist (offersOf evs) ∧ p.ReopenedBy q

variable {D : Type} [FloatArith D] {ctx : BlockCtx} {s s' : Manager F} {evs : List Met}

omit [FloatArith F] in
/-- Nothing was met. -/
theorem settled_nil (s : Manager F) : Settled s [] :=
  fun _ => ⟨List.nodup_nil, fun _ hp => absurd hp List.not_mem_nil⟩

omit [FloatArith F] in
/-- What is spent stays spent. -/
theorem Settled.congr (h : Settled s evs) (hspent : ∀ p : Offer, p.Spent s → p.Spent s') :
    Settled s' evs := fun hspaced =>
  ⟨(h hspaced).1, fun p hp => ((h hspaced).2 p hp).imp_right (.imp_left (hspent p))⟩

/-- **One action settles its payload.** -/
theorem Settled.ledger_step (h : Settled s evs) (a : Action × UInt64) :
    Settled ((ledger F D ctx).step s a).1 (evs ++ ((ledger F D ctx).step s a).2) := by
  obtain ⟨a, now⟩ := a
  show Settled (a.step D ctx now s).1
    (evs ++ (a.offer.map fun p => (⟨p, a.takesEffect ctx now s⟩ : Met)).toList)
  cases hoffer : a.offer with
  | none =>
    rw [Option.map_none, Option.toList_none, List.append_nil]
    exact h.congr fun p hp => hp.action (by simp [hoffer])
  | some q =>
    intro hspaced
    have hoffers : offersOf (evs ++ [⟨q, a.takesEffect ctx now s⟩]) = offersOf evs ++ [q] :=
      List.map_append
    rw [Option.map_some, Option.toList_some] at hspaced ⊢
    rw [hoffers] at hspaced ⊢
    obtain ⟨hnodup, hsettled⟩ := h (hspaced.of_sublist (List.sublist_append_left _ _))
    -- what was settled before
    have hold : ∀ p ∈ actedOf evs, p.Renews ∨ p.Spent (a.step D ctx now s).1 ∨
        ∃ q', [p, q'].Sublist (offersOf evs ++ [q]) ∧ p.ReopenedBy q' := by
      intro p hp
      have hmem := (actedOf_sublist evs).subset hp
      by_cases hopen : p.ReopenedBy q
      · exact .inr (.inr ⟨q, (List.singleton_sublist.2 hmem).append (List.Sublist.refl [q]), hopen⟩)
      · have hstill : ∀ q' ∈ a.offer, ¬ p.ReopenedBy q' := by
          rw [hoffer]
          rintro q' ⟨⟩
          exact hopen
        refine (hsettled p hp).imp_right (Or.imp (fun hs => hs.action hstill) ?_)
        rintro ⟨q', hsub, hq'⟩
        exact ⟨q', hsub.trans (List.sublist_append_left _ _), hq'⟩
    cases heffect : a.takesEffect ctx now s with
    | false =>
      have hacted : actedOf (evs ++ [⟨q, false⟩]) = actedOf evs := by
        unfold actedOf
        rw [List.filter_append]
        exact congrArg _ (List.append_nil _)
      rw [hacted]
      exact ⟨hnodup, hold⟩
    | true =>
      have hacted : actedOf (evs ++ [⟨q, true⟩]) = actedOf evs ++ [q] := by
        unfold actedOf
        rw [List.filter_append, List.map_append]
        rfl
      rw [hacted]
      -- the payload did not take effect before: it would be spent, or copied too close
      have hnew : q ∉ actedOf evs := by
        intro hq
        have hmem := (actedOf_sublist evs).subset hq
        have htwice : [q, q].Sublist (offersOf evs ++ [q]) :=
          (List.singleton_sublist.2 hmem).append (List.Sublist.refl [q])
        obtain ⟨hrenews, hopen⟩ := hspaced q (List.mem_append_left _ hmem)
        rcases hsettled q hq with hr | hs | ⟨q', hsub, hq'⟩
        · exact hrenews htwice hr
        · exact Bool.false_ne_true ((hs.not_takesEffect hoffer).symm.trans heffect)
        · have hmem' : q' ∈ offersOf evs := hsub.subset (by simp)
          exact hopen q' (List.mem_append_left _ hmem') (hsub.append (List.Sublist.refl [q])) hq'
      refine ⟨List.nodup_append.2 ⟨hnodup, List.nodup_singleton q, ?_⟩, ?_⟩
      · intro p hp p' hp'
        rw [List.mem_singleton.1 hp']
        exact fun heq => hnew (heq ▸ hp)
      · intro p hp
        rcases List.mem_append.1 hp with hp | hp
        · exact hold p hp
        · obtain rfl := List.mem_singleton.1 hp
          by_cases hr : p.Renews
          · exact .inl hr
          · exact .inr (.inl (spent_of_takesEffect hoffer heffect hr))

/-! ### Blocks, restarts and rebuilds -/

/-- The payloads met in `process_mevatrust_txs`. -/
def metIn (D : Type) [FloatArith D] (ctx : BlockCtx) (clock : BlockClock) (s : Manager F) :
    List Met :=
  if s.initialized = false then [] else ((ledger F D ctx).run s (actionsOf D ctx clock s)).2

/-- Blocks that go through `process_mevatrust_txs`, with the payloads met as events. -/
def processing (F D : Type) [FloatArith F] [FloatArith D] :
    Machine (Manager F) (BlockCtx × BlockClock) Met where
  step s b := (processMevatrustTxs D b.1 b.2 s, metIn D b.1 b.2 s)

omit [FloatArith F] in
/-- What a restart loses: the processed transactions and the reorganisation log are kept in memory
only. -/
def Manager.restarted (s : Manager F) : Manager F :=
  { s with circles := { s.circles with processedTxs := ∅ }, reorgLog := ∅ }

/-- What happens to the daemon.  `core::init` rebuilds the registry when no node is active, and the
samples when there are none. -/
inductive DaemonOp where
  | block (ctx : BlockCtx) (clock : BlockClock)
  | restart
  | rebuildRegistry (blocks : List (BlockCtx × BlockClock))
  | rebuild (blocks : List (BlockCtx × BlockClock))

/-- The payloads that go through `process_mevatrust_txs`. -/
def DaemonOp.offers : DaemonOp → List Offer
  | block ctx _ => ctx.txs.flatMap txOffers
  | restart => []
  | rebuildRegistry blocks | rebuild blocks => blocks.flatMap fun b => b.1.txs.flatMap txOffers

/-- The daemon on a chain that only grows, with restarts and rebuilds. -/
def daemon (F D : Type) [FloatArith F] [FloatArith D] [FloatWiden F D] :
    Machine (Manager F) DaemonOp Met where
  step s
    | .block ctx clock =>
      (applyBlock D ctx clock s, metIn D ctx clock (onNewBlock D ctx clock.newBlock s))
    | .restart => (s.restarted, [])
    | .rebuildRegistry blocks =>
      (rebuildRegistryFromChain D blocks s,
        if s.initialized = false then []
        else ((processing F D).run { s with registry := {} } blocks).2)
    | .rebuild blocks =>
      (rebuildUptimeSamplesFromChain D blocks s,
        if s.initialized = false then [] else ((processing F D).run s.clearSamples blocks).2)

/-! Settled runs -/

/-- The ledger runs as the actions do. -/
theorem ledger_run_state (as : List (Action × UInt64)) (s : Manager F) :
    ((ledger F D ctx).run s as).1 = ((actionMachine F D ctx).run s as).1 := by
  induction as generalizing s with
  | nil => rfl
  | cons a as ih => exact ih _

omit [FloatArith F] in
/-- A payload is spent or not by what is registered and by the circles. -/
theorem Offer.Spent.congr {p : Offer} (h : p.Spent s) (hreg : s'.registry = s.registry)
    (hcircles : s'.circles.circles = s.circles.circles) : p.Spent s' := by
  unfold Offer.Spent at h ⊢
  rwa [hreg, hcircles]

/-- Processing a block keeps the books. -/
theorem Settled.process (h : Settled s evs) (ctx : BlockCtx) (clock : BlockClock) :
    Settled (processMevatrustTxs D ctx clock s) (evs ++ metIn D ctx clock s) := by
  unfold metIn
  cases hinit : s.initialized with
  | false =>
    rw [if_pos rfl, List.append_nil, processMevatrustTxs, if_pos hinit]
    exact h
  | true =>
    rw [processMevatrustTxs_eq_run hinit, ← ledger_run_state]
    have hrun := Machine.run_invariant_from (ledger F D ctx) (P := fun _ _ => True)
      (I := Settled) (fun s evs a hs _ => hs.ledger_step a) (actionsOf D ctx clock s) s evs h
      (Machine.guarded_of_forall _ (fun _ _ _ => trivial) _)
    refine hrun.congr fun p hp => ?_
    cases p with
    | deregister dereg => exact (gone_upheld ctx dereg).expirySweep hp
    | circle o =>
      unfold expirySweep
      split
      · exact hp
      · exact hp
    | registration | vote => exact hp.elim

/-- Processing a chain again keeps them. -/
theorem Settled.reprocess (h : Settled s evs) (blocks : List (BlockCtx × BlockClock)) :
    Settled (Trust.reprocess D blocks s) (evs ++ ((processing F D).run s blocks).2) := by
  have hrun := Machine.run_invariant_from (processing F D) (P := fun _ _ => True)
    (I := Settled) (fun s evs b hs _ => hs.process b.1 b.2) blocks s evs h
    (Machine.guarded_of_forall _ (fun _ _ _ => trivial) _)
  have hstate : ((processing F D).run s blocks).1 = Trust.reprocess D blocks s := by
    clear h hrun
    induction blocks generalizing s with
    | nil => rfl
    | cons b blocks ih => exact ih
  rwa [hstate] at hrun

variable [FloatWiden F D]

/-- A period boundary reopens nothing. -/
theorem Offer.Spent.onNewBlock {p : Offer} (h : p.Spent s) (now : UInt64) :
    p.Spent (Trust.onNewBlock D ctx now s) := by
  cases p with
  | deregister dereg => exact (gone_upheld ctx dereg).onNewBlock D (fun _ _ => trivial) h
  | circle o =>
    unfold Offer.Spent at h ⊢
    rwa [onNewBlock_project D (p := (·.circles)) (fun _ _ _ _ _ _ => rfl)]
  | registration | vote => exact h.elim

/-- **One step of the daemon.** -/
theorem Settled.daemon_step (h : Settled s evs) (op : DaemonOp) :
    Settled ((daemon F D).step s op).1 (evs ++ ((daemon F D).step s op).2) := by
  cases op with
  | block ctx clock =>
    exact (h.congr fun p hp => hp.onNewBlock clock.newBlock).process ctx clock
  | restart =>
    show Settled s.restarted (evs ++ [])
    rw [List.append_nil]
    exact h.congr fun p hp => hp.congr rfl rfl
  | rebuildRegistry blocks =>
    show Settled (rebuildRegistryFromChain D blocks s) (evs ++ if s.initialized = false then []
      else ((processing F D).run { s with registry := {} } blocks).2)
    unfold rebuildRegistryFromChain
    split
    · rw [List.append_nil]
      exact h
    · refine Settled.reprocess (h.congr fun p hp => ?_) blocks
      -- nobody is registered, and the circles are as they were
      cases p with
      | deregister dereg => simp [Offer.Spent]
      | circle o => exact hp
      | registration | vote => exact hp.elim
  | rebuild blocks =>
    show Settled (rebuildUptimeSamplesFromChain D blocks s)
      (evs ++ if s.initialized = false then [] else ((processing F D).run s.clearSamples blocks).2)
    unfold rebuildUptimeSamplesFromChain
    split
    · rw [List.append_nil]
      exact h
    · have hclear : Settled s.clearSamples evs := h.congr fun p hp => hp.congr rfl rfl
      exact hclear.reprocess blocks

/-! ### What is met was offered -/

section

omit [FloatWiden F D]

/-- What a section may do is one of its payload, or nothing. -/
theorem offers_section {α : Type} {o : Option α} {acts : List Action} {f : α → Offer}
    (hnone : o = none → acts = []) (hsome : ∀ x, o = some x → acts = [] ∨
      ∃ a : Action, acts = [a] ∧ a.offer = some (f x)) (now : UInt64) :
    ((acts.map (·, now)).filterMap (·.1.offer)).Sublist (o.toList.map f) := by
  cases ho : o with
  | none =>
    rw [hnone ho]
    exact List.Sublist.refl _
  | some x =>
    rcases hsome x ho with h | ⟨a, h, hoffer⟩
    · rw [h]
      exact List.nil_sublist _
    · subst h
      simp [hoffer]

/-- A section whose actions are of other payloads. -/
theorem offers_section_none {acts : List Action} (h : ∀ a ∈ acts, a.offer = none) (now : UInt64) :
    ((acts.map (·, now)).filterMap (·.1.offer)).Sublist ([] : List Offer) := by
  rw [List.filterMap_eq_nil_iff.2]
  intro x hx
  obtain ⟨a, ha, rfl⟩ := List.mem_map.1 hx
  exact h a ha

/-- The payloads among the actions of a transaction, in their order. -/
theorem offers_txActions (t : LoadedTx) (now : UInt64) (s : Manager F) :
    ((txActions D ctx t now s).filterMap (·.1.offer)).Sublist (txOffers t) := by
  suffices h : List.Forall₂
      (fun x l => ∀ s, ((x.2 s).filterMap fun a : Action × UInt64 => a.1.offer).Sublist l)
      (actingSections (F := F) D ctx t now)
      [(parseRegistration t.tx).toList.map .registration,
        (parseDeregister t.tx).toList.map .deregister, [], [],
        (parseCircle t.tx).toList.map .circle, (parseCircleVote t.tx).toList.map .vote,
        [], [], [], [], [], []] by
    simpa [txOffers, txActions] using Flow.performed_filterMap_sublist h s
  refine .cons ?_ (.cons ?_ (.cons ?_ (.cons ?_ (.cons ?_ (.cons ?_ (.cons ?_ (.cons ?_
    (.cons ?_ (.cons ?_ (.cons ?_ (.cons ?_ .nil)))))))))))
  all_goals intro s
  · refine offers_section (fun h => ?_) (fun reg h => ?_) now
    · simp [registrationActions, h]
    · simp only [registrationActions, h]
      split_ifs
      exacts [.inl rfl, .inl rfl, .inr ⟨_, rfl, rfl⟩]
  · refine offers_section (fun h => ?_) (fun dereg h => ?_) now
    · simp [deregisterActions, h]
    · simp only [deregisterActions, h]
      split_ifs
      exacts [.inl rfl, .inr ⟨_, rfl, rfl⟩]
  rotate_left
  · refine offers_section_none (fun a ha => ?_) now
    unfold snapshotActions at ha
    split at ha
    · exact absurd ha List.not_mem_nil
    · obtain ⟨b, -, rfl⟩ := List.mem_map.1 ha
      rfl
  · refine offers_section (fun h => ?_) (fun o h => ?_) now
    · simp [circleActions, h]
    · simp only [circleActions, h]
      split_ifs
      exacts [.inl rfl, .inl rfl, .inr ⟨_, rfl, rfl⟩]
  · refine offers_section (fun h => ?_) (fun v h => ?_) now
    · simp [circleVoteActions, h]
    · simp only [circleVoteActions, h]
      split_ifs
      exacts [.inl rfl, .inr ⟨_, rfl, rfl⟩]
  -- the other sections act on their own payload or not at all
  all_goals
    refine offers_section_none (fun a ha => ?_) now
    simp only [validatorActions, penaltyActions, uptimeActions, challengeActions,
      chainProofActions, storeActions, poolDistributionActions] at ha
    split at ha
    · exact absurd ha List.not_mem_nil
    · first
        | obtain rfl := List.mem_singleton.1 ha
          rfl
        | split_ifs at ha <;> simp_all [Action.offer]

/-- The payloads of the actions are what the ledger records. -/
theorem offersOf_ledger_run (as : List (Action × UInt64)) (s : Manager F) :
    offersOf ((ledger F D ctx).run s as).2 = as.filterMap (·.1.offer) := by
  induction as generalizing s with
  | nil => rfl
  | cons a as ih =>
    rw [Machine.run_cons, offersOf, List.map_append, ← offersOf, ← offersOf, ih]
    show offersOf ((a.1.offer.map fun p => (⟨p, a.1.takesEffect ctx a.2 s⟩ : Met)).toList) ++ _ = _
    cases h : a.1.offer with
    | none | some p =>
      rw [List.filterMap_cons, h]
      rfl

/-- A block acts on what its transactions offer. -/
theorem offers_blockActions (txs : List LoadedTx) (time : ℕ → UInt64) (s : Manager F) :
    ((blockActions D ctx txs time s).filterMap (·.1.offer)).Sublist (txs.flatMap txOffers) := by
  induction txs generalizing time s with
  | nil => exact List.Sublist.refl _
  | cons t ts ih =>
    rw [blockActions, List.filterMap_append]
    exact (offers_txActions t _ s).append (ih _ _)

/-- The payloads met in a block are payloads of its transactions. -/
theorem offersOf_metIn (ctx : BlockCtx) (clock : BlockClock) (s : Manager F) :
    (offersOf (metIn D ctx clock s)).Sublist (ctx.txs.flatMap txOffers) := by
  unfold metIn
  split
  · exact List.nil_sublist _
  · rw [offersOf_ledger_run]
    exact offers_blockActions ctx.txs clock.tx s

/-- A chain acts on what its transactions offer. -/
theorem offersOf_processing_run (blocks : List (BlockCtx × BlockClock)) (s : Manager F) :
    (offersOf ((processing F D).run s blocks).2).Sublist
      (blocks.flatMap fun b => b.1.txs.flatMap txOffers) := by
  induction blocks generalizing s with
  | nil => exact List.Sublist.refl _
  | cons b blocks ih =>
    rw [Machine.run_cons, offersOf, List.map_append]
    exact (offersOf_metIn b.1 b.2 s).append (ih _)

end

/-- The daemon acts on what the transactions offer. -/
theorem offersOf_daemon_run (ops : List DaemonOp) (s : Manager F) :
    (offersOf ((daemon F D).run s ops).2).Sublist (ops.flatMap DaemonOp.offers) := by
  induction ops generalizing s with
  | nil => exact List.Sublist.refl _
  | cons op ops ih =>
    rw [Machine.run_cons, offersOf, List.map_append]
    refine List.Sublist.append ?_ (ih _)
    cases op with
    | block ctx clock => exact offersOf_metIn ctx clock _
    | restart => exact List.Sublist.refl _
    | rebuildRegistry blocks | rebuild blocks =>
      dsimp only [daemon]
      split
      · exact List.nil_sublist _
      · exact offersOf_processing_run blocks _

/-- **One signature, one effect**: in every run, with restarts and rebuilds, whose payloads are
copied at a safe distance, no payload takes effect twice. -/
theorem signatures_spent_once {s : Manager F} {ops : List DaemonOp}
    (h : Spaced (ops.flatMap DaemonOp.offers)) : (actedOf ((daemon F D).run s ops).2).Nodup := by
  have hrun := Machine.run_invariant (daemon F D) (P := fun _ _ => True) (I := Settled)
    (settled_nil s) (fun s evs op hs _ => hs.daemon_step op)
    (Machine.guarded_of_forall _ (fun _ _ _ => trivial) s : (daemon F D).Guarded _ s ops)
  exact (hrun (h.of_sublist (offersOf_daemon_run ops s))).1

end

/-- The owner of the second node takes it off the network. -/
def twinDeregister : Deregister :=
  { nodeId := Pod32.single 10
    walletPubkey := Pod32.single 4
    signature := ⟨Pod32.single 6, Pod32.single 1⟩ }

/-- A block with the registration. -/
def enrolBlock (height : UInt64) : DaemonOp :=
  .block (carrierBlock 0xA0 (Registration.codec.write twinRegistration) height) (stillClock 2000)

/-- A block with the deregistration. -/
def quitBlock (height : UInt64) : DaemonOp :=
  .block (carrierBlock 0xA1 (Deregister.codec.write twinDeregister) height) (stillClock 2060)

/-- **A signature acts twice**: whoever copies the deregistration takes a returning node off
again. -/
theorem deregistration_acts_twice :
    ¬ ∀ ops : List DaemonOp, (actedOf ((daemon ℚ ℚ).run {} ops).2).Nodup := by
  intro h
  have hnodup := h [enrolBlock 100, quitBlock 101, enrolBlock 102, quitBlock 103]
  have hacted : actedOf ((daemon ℚ ℚ).run {}
      [enrolBlock 100, quitBlock 101, enrolBlock 102, quitBlock 103]).2 =
        [.deregister twinDeregister, .deregister twinDeregister] := by
    decide +kernel
  rw [hacted] at hnodup
  revert hnodup
  decide

/-- After a restart the copy finds nobody to take off the network. -/
theorem deregistration_spent :
    (actedOf ((daemon ℚ ℚ).run {} [enrolBlock 100, quitBlock 101, .restart, quitBlock 103]).2).Nodup
      ∧ actedOf ((daemon ℚ ℚ).run {} [enrolBlock 100, quitBlock 101, .restart, quitBlock 103]).2 =
        [.deregister twinDeregister] :=
  ⟨signatures_spent_once (by decide +kernel), by decide +kernel⟩

end Mevacoin.Trust
