import Mevacoin.Trust.CircleEdits

/-!
# Undoing operations on circles

A refused creation is logged like one that was made, the member who leaves need not have been one,
and proposals and votes are not undone at all.
-/

namespace Mevacoin.Trust

open Lib Std

/-! ### Undoing -/

/-- An entry of the log that is about circles. -/
def PoppedOp.onCircles : PoppedOp → Bool
  | circleCreate _ _ | circleJoin _ _ | circleLeave _ _ _ | circleChangeAdmin _ _ _
  | circleDisband _ _ _ | circlePropose _ _ _ | circleVote _ _ | circleFinalize _ _
  | unset _ _ => true
  | _ => false

/-- What undoing an entry does to the circles. -/
def undoCircles (now : UInt64) (c : CircleRegistry) : PoppedOp → CircleRegistry
  | .circleCreate cid pubkey => (c.disbandCircle cid pubkey).getD c
  | .circleDisband _ _ (some e) => c.restoreCircle e
  | .circleJoin cid pubkey => (c.removeMember cid pubkey pubkey now).getD c
  | .circleLeave cid pubkey (some admin) => (c.addMember cid pubkey admin now).getD c
  | .circleChangeAdmin cid _ (some admin) => (c.setAdmin cid admin now).getD c
  | _ => c

section

variable {M : List PublicKey → List PublicKey → Prop} {c c' : CircleRegistry} {now : UInt64}

/-- What is done to one circle is done alike to circles that agree. -/
theorem CirclesAgree.modify (h : CirclesAgree M c c') (cid : Hash)
    {f : CircleEntry → Option CircleEntry}
    (hf : ∀ {e e'}, e.Agree M e' → Option.Rel (CircleEntry.Agree M) (f e) (f e')) :
    CirclesAgree M ((c.modify cid f).getD c) ((c'.modify cid f).getD c') := by
  unfold CircleRegistry.modify
  have hcid := h.circles cid
  revert hcid
  generalize he : c.circles[cid]? = oe
  generalize he' : c'.circles[cid]? = oe'
  intro hcid
  cases hcid with
  | none => exact h
  | @some e e' hee =>
    have hfe := hf hee
    simp only [Option.bind_eq_bind, Option.bind_some]
    revert hfe
    generalize f e = o
    generalize f e' = o'
    intro hfe
    cases hfe with
    | none => exact h
    | @some a a' haa =>
      refine ⟨?_, h.names, h.proposals, h.votes⟩
      intro i
      show Option.Rel _ (c.circles.insert cid a)[i]? (c'.circles.insert cid a')[i]?
      rw [ExtTreeMap.getElem?_insert, ExtTreeMap.getElem?_insert]
      split
      · exact .some haa
      · exact h.circles i

/-- Disbanding keeps agreement. -/
theorem CirclesAgree.disbandCircle (h : CirclesAgree M c c') (cid : Hash) (caller : PublicKey) :
    CirclesAgree M ((c.disbandCircle cid caller).getD c)
      ((c'.disbandCircle cid caller).getD c') := by
  unfold CircleRegistry.disbandCircle
  have hcid := h.circles cid
  revert hcid
  generalize he : c.circles[cid]? = oe
  generalize he' : c'.circles[cid]? = oe'
  intro hcid
  cases hcid with
  | none => exact h
  | @some e e' hee =>
    dsimp only
    rw [hee.adminPubkey, hee.name]
    split
    · exact h
    · refine ⟨?_, ?_, h.proposals, h.votes⟩
      · intro i
        show Option.Rel _ (c.circles.erase cid)[i]? (c'.circles.erase cid)[i]?
        rw [ExtTreeMap.getElem?_erase, ExtTreeMap.getElem?_erase]
        split
        · exact .none
        · exact h.circles i
      · show c.nameToId.erase e'.name = c'.nameToId.erase e'.name
        rw [h.names]

/-- Restoring keeps agreement. -/
theorem CirclesAgree.restoreCircle (hM : ∀ l, M l l) (h : CirclesAgree M c c') (e : CircleEntry) :
    CirclesAgree M (c.restoreCircle e) (c'.restoreCircle e) where
  circles i := by
    show Option.Rel _ (c.circles.insert e.circleId e)[i]? (c'.circles.insert e.circleId e)[i]?
    rw [ExtTreeMap.getElem?_insert, ExtTreeMap.getElem?_insert]
    split
    · exact .some ⟨rfl, rfl, rfl, rfl, hM e.members⟩
    · exact h.circles i
  names := by
    show c.nameToId.insert e.name e.circleId = c'.nameToId.insert e.name e.circleId
    rw [h.names]
  proposals := h.proposals
  votes := h.votes

/-- **Undoing respects agreement** up to the order of the members. -/
theorem undoCircles_congruence (now : UInt64) :
    UndoCongruence (undoCircles now) (CirclesAgree List.Perm) where
  refl := CirclesAgree.refl List.Perm.refl
  trans := CirclesAgree.trans List.Perm.trans
  undo := by
    intro c c' h op
    unfold undoCircles
    split
    · exact h.disbandCircle _ _
    · exact h.restoreCircle List.Perm.refl _
    · refine h.modify _ ?_
      intro e e' hee
      rw [hee.adminPubkey]
      split_ifs
      · exact .none
      · exact .none
      · exact .some ⟨hee.circleId, hee.name, rfl, hee.createdHeight, hee.members.filter _⟩
    · refine h.modify _ ?_
      intro e e' hee
      simp only [hee.adminPubkey, hee.members.mem_iff, hee.members.length_eq]
      split_ifs
      · exact .none
      · exact .none
      · exact .none
      · exact .some ⟨hee.circleId, hee.name, rfl, hee.createdHeight,
          hee.members.append_right _⟩
    · refine h.modify _ ?_
      intro e e' hee
      exact .some ⟨hee.circleId, hee.name, rfl, hee.createdHeight, hee.members⟩
    · exact h

end

/-! ### The operations of a block on circles -/

/-- The operations on circles, one after another. -/
def circleMachine (D : Type) [FloatArith D] (ctx : BlockCtx) :
    Machine CircleRegistry (CircleAct × UInt64) PoppedOp where
  step c a := a.1.step D ctx a.2 c

/-- An action on circles. -/
def Action.onCircle : Action × UInt64 → Option (CircleAct × UInt64)
  | (.circle a, now) => some (a, now)
  | _ => none

section

variable {F : Type} [FloatArith F] (D : Type) [FloatArith D]

/-- The operations of a block on circles. -/
def circleActs (ctx : BlockCtx) (clock : BlockClock) (s : Manager F) : List (CircleAct × UInt64) :=
  (actionsOf D ctx clock s).filterMap Action.onCircle

variable {D} {ctx : BlockCtx} {now : UInt64}

omit [FloatArith F] in
/-- The log holds no circles. -/
theorem Manager.logAll_circles (s : Manager F) (height : UInt64) (ops : List PoppedOp) :
    (s.logAll height ops).circles = s.circles :=
  Manager.logAll_project (p := (·.circles)) (fun _ _ => rfl) s height ops

/-! What each operation does and logs. -/

section

variable {c : CircleRegistry} {o : CircleOp} {txHash : Hash} {v : CircleVote}

attribute [local simp] CircleAct.step applyCircleOp applyCircleVote

/-- A creation is logged in any case. -/
theorem step_create (h : CircleOpType.ofUInt8 o.opType = some .create) :
    (CircleAct.op o txHash).step D ctx now c =
      ((c.createCircle ctx.env.crypto o.circleName o.signerPubkey ctx.height now).1,
        [.circleCreate
          (if (c.createCircle ctx.env.crypto o.circleName o.signerPubkey ctx.height now).2 =
            Pod32.null then o.circleId
          else (c.createCircle ctx.env.crypto o.circleName o.signerPubkey ctx.height now).2)
          o.targetPubkey]) := by
  simp only [CircleAct.step, applyCircleOp, h]

/-- A `JOIN` is logged if it is not refused. -/
theorem step_join (h : CircleOpType.ofUInt8 o.opType = some .join) :
    (CircleAct.op o txHash).step D ctx now c =
      match c.addMember o.circleId o.targetPubkey o.signerPubkey now with
      | none => (c, [])
      | some c' =>
        (c'.markTxProcessed o.circleId txHash, [.circleJoin o.circleId o.targetPubkey]) := by
  simp only [CircleAct.step, applyCircleOp, h]
  cases c.addMember o.circleId o.targetPubkey o.signerPubkey now <;> rfl

/-- A `LEAVE` is logged with the administrator. -/
theorem step_leave (h : CircleOpType.ofUInt8 o.opType = some .leave) :
    (CircleAct.op o txHash).step D ctx now c =
      match c.removeMember o.circleId o.targetPubkey o.signerPubkey now with
      | none => (c, [])
      | some c' => (c'.markTxProcessed o.circleId txHash,
          [.circleLeave o.circleId o.targetPubkey
            ((c.getCircle o.circleId).map (·.adminPubkey))]) := by
  simp only [CircleAct.step, applyCircleOp, h]
  cases c.removeMember o.circleId o.targetPubkey o.signerPubkey now <;> rfl

/-- A `CHANGE_ADMIN` is logged with the administrator before. -/
theorem step_changeAdmin (h : CircleOpType.ofUInt8 o.opType = some .changeAdmin) :
    (CircleAct.op o txHash).step D ctx now c =
      match c.changeAdmin o.circleId o.targetPubkey o.signerPubkey now with
      | none => (c, [])
      | some c' => (c'.markTxProcessed o.circleId txHash,
          [.circleChangeAdmin o.circleId o.targetPubkey
            ((c.getCircle o.circleId).map (·.adminPubkey))]) := by
  simp only [CircleAct.step, applyCircleOp, h]
  cases c.changeAdmin o.circleId o.targetPubkey o.signerPubkey now <;> rfl

/-- A `DISBAND` is logged with the entry. -/
theorem step_disband (h : CircleOpType.ofUInt8 o.opType = some .disband) :
    (CircleAct.op o txHash).step D ctx now c =
      match c.disbandCircle o.circleId o.signerPubkey with
      | none => (c, [])
      | some c' => (c',
          [.circleDisband o.circleId o.targetPubkey (c.getCircle o.circleId)]) := by
  simp only [CircleAct.step, applyCircleOp, h]
  cases c.disbandCircle o.circleId o.signerPubkey <;> rfl

/-- An unknown operation is logged without a tag. -/
theorem step_unset (h : CircleOpType.ofUInt8 o.opType = none) :
    (CircleAct.op o txHash).step D ctx now c =
      (c, [.unset o.circleId o.targetPubkey]) := by
  simp only [CircleAct.step, applyCircleOp, h]

/-- A proposal is logged in any case. -/
theorem step_propose (h : VoteOpType.ofUInt8 v.opType = some .proposeChangeAdmin) :
    (CircleAct.vote v).step D ctx now c =
      ((c.createProposal ctx.env.crypto v.circleId v.signerPubkey v.targetPubkey ctx.height).1,
        [.circlePropose v.circleId v.targetPubkey
          (c.createProposal ctx.env.crypto v.circleId v.signerPubkey v.targetPubkey
            ctx.height).2]) := by
  simp only [CircleAct.step, applyCircleVote, h]

/-- A vote is logged if it is not refused. -/
theorem step_castVote (h : VoteOpType.ofUInt8 v.opType = some .castVote) :
    (CircleAct.vote v).step D ctx now c =
      match c.castVote v.proposalId v.signerPubkey v.voteYes ctx.height with
      | none => (c, [])
      | some c' => (c', [.circleVote v.circleId v.targetPubkey]) := by
  simp only [CircleAct.step, applyCircleVote, h]
  cases c.castVote v.proposalId v.signerPubkey v.voteYes ctx.height <;> rfl

/-- A decision is logged in any case. -/
theorem step_finalizeVote (h : VoteOpType.ofUInt8 v.opType = some .finalizeVote) :
    (CircleAct.vote v).step D ctx now c =
      ((c.finalizeVote D v.proposalId ctx.height now).1,
        [.circleFinalize v.circleId v.targetPubkey]) := by
  simp only [CircleAct.step, applyCircleVote, h]

/-- An unknown vote is logged without a tag. -/
theorem step_unsetVote (h : VoteOpType.ofUInt8 v.opType = none) :
    (CircleAct.vote v).step D ctx now c = (c, [.unset v.circleId v.targetPubkey]) := by
  simp only [CircleAct.step, applyCircleVote, h]

end

/-- What an operation on circles logs is about circles. -/
theorem CircleAct.step_onCircles (a : CircleAct) (c : CircleRegistry) :
    (a.step D ctx now c).2.filter PoppedOp.onCircles = (a.step D ctx now c).2 := by
  cases a with
  | op o txHash =>
    match h : CircleOpType.ofUInt8 o.opType with
    | none => rw [step_unset h]; rfl
    | some .create => rw [step_create h]; rfl
    | some .join => rw [step_join h]; split <;> rfl
    | some .leave => rw [step_leave h]; split <;> rfl
    | some .changeAdmin => rw [step_changeAdmin h]; split <;> rfl
    | some .disband => rw [step_disband h]; split <;> rfl
  | vote v =>
    match h : VoteOpType.ofUInt8 v.opType with
    | none => rw [step_unsetVote h]; rfl
    | some .proposeChangeAdmin => rw [step_propose h]; rfl
    | some .castVote => rw [step_castVote h]; split <;> rfl
    | some .finalizeVote => rw [step_finalizeVote h]; rfl

/-- What an action on nodes logs is not. -/
theorem NodeAct.step_onCircles (a : NodeAct) (r : NodeRegistry F) (b : BadgeSystem) :
    (a.step ctx now r b).2.filter PoppedOp.onCircles = [] := by
  cases a <;> dsimp only [NodeAct.step]
  all_goals repeat' split
  all_goals rfl

omit [FloatArith F] in
/-- What undoing an entry does to circles. -/
theorem undoOp_circles (now : UInt64) (s : Manager F) (op : PoppedOp) :
    (undoOp now s op).circles = undoCircles now s.circles op := by
  unfold undoOp undoCircles
  repeat' split
  all_goals first | rfl | simp_all

/-- **The circles are a part of the manager.** -/
theorem circlesPart (ctx : BlockCtx) (now : UInt64) :
    Part D ctx now (fun s : Manager F => s.circles) (circleMachine D ctx) Action.onCircle
      PoppedOp.onCircles (undoCircles now) where
  step := by
    rintro s ⟨a, time⟩
    cases a with
    | node a =>
      refine Prod.ext ?_ (a.step_onCircles s.registry s.badges).symm
      show s.circles = (Manager.logAll _ _ _).circles
      rw [Manager.logAll_circles]
    | circle a =>
      refine Prod.ext ?_ ((List.append_nil _).trans (a.step_onCircles s.circles).symm)
      show (a.step D ctx time s.circles).1 = (Manager.logAll _ _ _).circles
      rw [Manager.logAll_circles]
    | chainProof | store | poolDistribution => rfl
  undo := undoOp_circles now
  idle := by
    intro c op hop
    cases op <;> first | rfl | cases hop
  blind := fun _ _ => rfl

end

/-! ### When one operation is undone by its entry -/

/-- The window of the current call is not over. -/
def ProposalEntry.Pending (p : ProposalEntry) (height : UInt64) : Prop :=
  if p.convocation = 0 then height - p.createdHeight < voteWindowBlocks
  else height - p.createdHeight < 2 * voteWindowBlocks
deriving Decidable

/-- The votes on a proposal have their quorum and a majority. -/
def CircleRegistry.Carried (D : Type) [FloatArith D] (c : CircleRegistry) (pid : Hash)
    (p : ProposalEntry) (e : CircleEntry) : Prop :=
  let cast := c.votesOn pid
  let yes := cast.countP (·.voteYes)
  (CircleRegistry.quorumThreshold D (if p.convocation = 0 then 2 else 1) e.members.length).toNat ≤
      cast.length ∧ cast.length - yes < yes
deriving Decidable

/-- **How `finalize_vote` can end.** -/
inductive VoteClosing (D : Type) [FloatArith D] (c : CircleRegistry) (pid : Hash)
    (height now : UInt64) : CircleRegistry × UInt8 → Prop
  | idle {status : UInt8} (h : ∀ p ∈ c.proposals[pid]?, p.isOpen = true →
      (p.Pending height ∨ c.circles[p.circleId]? = none) ∧ status ≠ 2) :
    VoteClosing D c pid height now (c, status)
  | lost {p : ProposalEntry} {e : CircleEntry} (finalizeHeight : UInt64)
    (hp : c.proposals[pid]? = some p) (hopen : p.isOpen = true) (hover : ¬ p.Pending height)
    (he : c.circles[p.circleId]? = some e) :
    VoteClosing D c pid height now (c.setProposal pid { p with status := 3, finalizeHeight }, 3)
  /-- No quorum at the first call. -/
  | recalled {p : ProposalEntry} {e : CircleEntry} (hp : c.proposals[pid]? = some p)
    (hopen : p.isOpen = true) (hover : ¬ p.Pending height) (he : c.circles[p.circleId]? = some e)
    (hfirst : p.convocation = 0) :
    VoteClosing D c pid height now (c.setProposal pid { p with convocation := 1, status := 1 }, 0)
  | carried {p : ProposalEntry} {e : CircleEntry} (hp : c.proposals[pid]? = some p)
    (hopen : p.isOpen = true) (hover : ¬ p.Pending height) (he : c.circles[p.circleId]? = some e)
    (hcarried : c.Carried D pid p e) :
    VoteClosing D c pid height now
      ((c.put p.circleId { e with adminPubkey := p.targetPk, updatedAt := now }).setProposal pid
        { p with status := 2, finalizeHeight := height }, 2)

/-- Every call of `finalize_vote` closes in one of these ways. -/
theorem voteClosing (D : Type) [FloatArith D] (c : CircleRegistry) (pid : Hash)
    (height now : UInt64) : VoteClosing D c pid height now (c.finalizeVote D pid height now) := by
  unfold CircleRegistry.finalizeVote
  cases hp : c.proposals[pid]? with
  | none => exact .idle (by simp [hp])
  | some p =>
    dsimp only
    split_ifs with hopen hfirst hsecond
    · refine .idle fun q hq hq' => ?_
      obtain rfl := Option.some.inj (hp.symm.trans hq)
      simp [hq'] at hopen
    · refine .idle fun q hq _ => ⟨.inl ?_, by decide⟩
      obtain rfl := Option.some.inj (hp.symm.trans hq)
      simpa [ProposalEntry.Pending, hfirst.1] using hfirst.2
    · refine .idle fun q hq _ => ⟨.inl ?_, by decide⟩
      obtain rfl := Option.some.inj (hp.symm.trans hq)
      simpa [ProposalEntry.Pending, hsecond.1] using hsecond.2
    · rw [Bool.not_eq_true', Bool.not_eq_false] at hopen
      have hover : ¬ p.Pending height := by
        unfold ProposalEntry.Pending
        split_ifs with h0
        · exact fun h => hfirst ⟨h0, h⟩
        · exact fun h => hsecond ⟨h0, h⟩
      cases he : c.circles[p.circleId]? with
      | none =>
        refine .idle fun q hq _ => ⟨.inr ?_, by decide⟩
        rwa [← Option.some.inj (hp.symm.trans hq)]
      | some e =>
        unfold CircleRegistry.closeVote
        dsimp only
        generalize hquorum : CircleRegistry.quorumThreshold D _ _ = threshold
        split_ifs with hempty hcarried hfail h0
        · exact .lost p.finalizeHeight hp hopen hover he
        · exact .carried hp hopen hover he (by rwa [← hquorum] at hcarried)
        · exact .lost height hp hopen hover he
        · exact .recalled hp hopen hover he h0
        · exact .lost height hp hopen hover he

/-- The proposal `create_proposal` stores. -/
def proposalOf (ctx : BlockCtx) (v : CircleVote) : ProposalEntry where
  proposalId := ctx.env.crypto.cnFastHash
    (v.circleId.data ++ v.targetPubkey.data ++ leBytes 8 ctx.height.toNat)
  circleId := v.circleId
  proposerPk := v.signerPubkey
  targetPk := v.targetPubkey
  createdHeight := ctx.height
  convocation := 0
  status := 0
  finalizeHeight := 0

/-- **An operation that its log entry undoes**, in the registry it is applied to.

* A creation is logged with the target key, and under the identity in the payload if it was
  refused.
* A join is undone by the member leaving, which an administrator cannot.
* A leave is undone by the member joining, which needs room, and makes a member of a key that
  was none.
* A disbanded circle is put back under its own identity and name.
* Votes are not undone, so they must have no effect. -/
def CircleAct.Reverts (ctx : BlockCtx) (c : CircleRegistry) : CircleAct × UInt64 → Prop
  | (.op o _, now) =>
    match CircleOpType.ofUInt8 o.opType with
    | some .create =>
      if c.Accepts o.circleName then
        c.circles[computeCircleId ctx.env.crypto o.circleName o.signerPubkey now]? = none ∧
          o.targetPubkey = o.signerPubkey ∧
          (computeCircleId ctx.env.crypto o.circleName o.signerPubkey now = Pod32.null →
            o.circleId = Pod32.null)
      else ∀ e ∈ c.circles[o.circleId]?, e.adminPubkey ≠ o.targetPubkey
    | some .join =>
      ∀ e ∈ c.circles[o.circleId]?, e.Admits o.targetPubkey o.signerPubkey →
        e.adminPubkey ≠ o.targetPubkey
    | some .leave =>
      ∀ e ∈ c.circles[o.circleId]?, e.Releases o.targetPubkey o.signerPubkey →
        e.members.count o.targetPubkey ≤ 1 ∧
          (o.targetPubkey ∈ e.members ↔
            (e.members.filter (· ≠ o.targetPubkey)).length < maxCircleMembers)
    | some .changeAdmin => True
    | some .disband =>
      ∀ e ∈ c.circles[o.circleId]?, e.adminPubkey = o.signerPubkey →
        e.circleId = o.circleId ∧ c.nameToId[e.name]? = some o.circleId
    | none => False
  | (.vote v, _) =>
    match VoteOpType.ofUInt8 v.opType with
    | some .proposeChangeAdmin =>
      ∀ e ∈ c.circles[v.circleId]?,
        v.signerPubkey ∈ e.members → e.adminPubkey ≠ v.targetPubkey → v.targetPubkey ∈ e.members →
          c.proposals[(proposalOf ctx v).proposalId]? = some (proposalOf ctx v)
    | some .castVote =>
      ∀ p ∈ c.proposals[v.proposalId]?, p.isOpen = true →
        ∀ e ∈ c.circles[p.circleId]?, v.signerPubkey ∈ e.members →
          c.votes[CircleRegistry.voteKey v.proposalId v.signerPubkey]? ≠ none
    | some .finalizeVote =>
      ∀ p ∈ c.proposals[v.proposalId]?, p.isOpen = true →
        p.Pending ctx.height ∨ c.circles[p.circleId]? = none
    | none => False

instance (ctx : BlockCtx) (c : CircleRegistry) (a : CircleAct × UInt64) :
    Decidable (CircleAct.Reverts ctx c a) := by
  unfold CircleAct.Reverts
  repeat' split
  all_goals infer_instance

end Mevacoin.Trust
