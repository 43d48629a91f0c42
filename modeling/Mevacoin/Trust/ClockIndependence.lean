import Mevacoin.Trust.NodeMoves
import Mevacoin.Trust.Timeless

/-!
# Two nodes, two clocks

Two nodes apply the same blocks, each with its own clock.  `ClockStep` cuts a block at the places
where the clock decides something: a creation of a circle, a period boundary, the sweep.
-/

namespace Mevacoin.Trust

open Lib Std

section

variable {F : Type}

/-- The part of the manager that consensus is computed from, without times. -/
structure View (F : Type) extends RewardState F where
  circles : CircleRegistry

/-- What a manager shows. -/
def Manager.view (s : Manager F) : View F where
  initialized := s.initialized
  registry := s.registry.timeless
  engine := s.engine
  distributor := s.distributor
  circles := s.circles.timeless

/-- What equal views agree on. -/
theorem Manager.view_eq_iff {s t : Manager F} : s.view = t.view ↔
    s.initialized = t.initialized ∧ s.registry.timeless = t.registry.timeless ∧
      s.engine = t.engine ∧ s.distributor = t.distributor ∧
      s.circles.timeless = t.circles.timeless := by
  simp only [Manager.view, View.mk.injEq, RewardState.mk.injEq, and_assoc]

/-- The log is not in the view. -/
@[simp] theorem Manager.view_log (s : Manager F) (height : UInt64) (op : PoppedOp) :
    (s.log height op).view = s.view := rfl

/-- Other nodes. -/
theorem Manager.view_registry {s t : Manager F} (h : s.view = t.view) {r r' : NodeRegistry F}
    (hr : r.timeless = r'.timeless) :
    ({ s with registry := r } : Manager F).view = ({ t with registry := r' } : Manager F).view := by
  obtain ⟨hi, -, he, hd, hc⟩ := Manager.view_eq_iff.1 h
  exact Manager.view_eq_iff.2 ⟨hi, hr, he, hd, hc⟩

/-- Other circles. -/
theorem Manager.view_circles {s t : Manager F} (h : s.view = t.view) {c c' : CircleRegistry}
    (hc : c.timeless = c'.timeless) :
    ({ s with circles := c } : Manager F).view = ({ t with circles := c' } : Manager F).view := by
  obtain ⟨hi, hr, he, hd, -⟩ := Manager.view_eq_iff.1 h
  exact Manager.view_eq_iff.2 ⟨hi, hr, he, hd, hc⟩

end

section

variable {F : Type} [FloatArith F] {s t : Manager F} (now now' : UInt64)

/-- A penalty, in equal views. -/
theorem Manager.view_penalize (h : s.view = t.view) (n : Hash) (offense : OffenseType) :
    (s.penalize n offense now).view = (t.penalize n offense now').view := by
  obtain ⟨-, hr, -⟩ := Manager.view_eq_iff.1 h
  exact Manager.view_registry h (NodeRegistry.timeless_applyPenalty n now now' hr _ _ offense)

omit [FloatArith F] in
/-- A promotion, in equal views. -/
theorem Manager.view_promoteToValidator (h : s.view = t.view) (n : Hash) (height stake : UInt64) :
    (s.promoteToValidator n height stake now).view =
      (t.promoteToValidator n height stake now').view := by
  obtain ⟨-, hr, -⟩ := Manager.view_eq_iff.1 h
  unfold Manager.promoteToValidator
  rcases NodeRegistry.getNodeById_cases hr n with ⟨he, he'⟩ | ⟨e, e', he, he', hee⟩
  · rw [he, he']
    exact h
  · rw [he, he']
    dsimp only
    rw [(NodeRegistryEntry.timeless_eq hee).2.2.1]
    split_ifs
    · exact h
    · rw [Manager.view_log, Manager.view_log]
      exact Manager.view_registry h
        (NodeRegistry.timeless_modify hr n (fun _ => rfl) (fun _ => rfl))

/-! ### The sections -/

variable (ctx : BlockCtx) (tx : LoadedTx)

/-- Tag `0xA0`, in equal views. -/
theorem view_registrationSection (h : s.view = t.view) :
    (registrationSection ctx tx now s).map Manager.view =
      (registrationSection ctx tx now' t).map Manager.view := by
  obtain ⟨-, hr, -⟩ := Manager.view_eq_iff.1 h
  unfold registrationSection
  cases parseRegistration tx.tx with
  | none => exact congrArg Flow.next h
  | some reg =>
    have hwallet : s.registry.isWalletPubkeyRegistered reg.walletPubkey =
        t.registry.isWalletPubkeyRegistered reg.walletPubkey := by
      rw [← NodeRegistry.timeless_isWalletPubkeyRegistered, hr,
        NodeRegistry.timeless_isWalletPubkeyRegistered]
    dsimp only
    rcases option_map_eq_cases (NodeRegistry.timeless_registerNodeOnchain now now' hr reg
      ctx.height ctx.hfVersion) with ⟨ho, ho'⟩ | ⟨q, q', ho, ho', hq⟩
    · rw [ho, ho', hwallet]
      split_ifs
      · exact congrArg Flow.skip h
      · exact congrArg Flow.skip h
      · rcases option_map_eq_cases (NodeRegistry.getNodeByPubkey_congr hr reg.walletPubkey)
          with ⟨he, he'⟩ | ⟨e, e', he, he', hee⟩
        · rw [he, he']
          exact congrArg Flow.next h
        · rw [he, he']
          dsimp only
          rw [(NodeRegistryEntry.timeless_eq hee).1]
          exact congrArg Flow.next (Manager.view_penalize now now' h _ _)
      · exact congrArg Flow.next h
    · rw [ho, ho']
      dsimp only
      split_ifs
      · exact congrArg Flow.skip h
      · exact congrArg Flow.skip h
      · exact congrArg Flow.next (Manager.view_registry h hq)

omit [FloatArith F] in
/-- Tag `0xA1`, in equal views. -/
theorem view_deregisterSection (h : s.view = t.view) :
    (deregisterSection ctx tx s).map Manager.view =
      (deregisterSection ctx tx t).map Manager.view := by
  obtain ⟨-, hr, -⟩ := Manager.view_eq_iff.1 h
  unfold deregisterSection
  cases parseDeregister tx.tx with
  | none => exact congrArg Flow.next h
  | some dereg =>
    dsimp only
    split_ifs
    · exact congrArg Flow.skip h
    · rcases option_map_eq_cases (NodeRegistry.deregisterNodeOnchain_congr hr dereg)
        with ⟨ho, ho'⟩ | ⟨q, q', ho, ho', hq⟩
      · rw [ho, ho']
        exact congrArg Flow.next h
      · rw [ho, ho']
        exact congrArg Flow.next (Manager.view_registry h hq)

omit [FloatArith F] in
/-- Tag `0xAB`, in equal views. -/
theorem view_validatorSection (h : s.view = t.view) :
    (validatorSection ctx tx now s).map Manager.view =
      (validatorSection ctx tx now' t).map Manager.view := by
  unfold validatorSection
  cases parseValidator tx.tx with
  | none => exact congrArg Flow.next h
  | some val =>
    dsimp only
    split_ifs
    · exact congrArg Flow.skip h
    · exact congrArg Flow.skip h
    · exact congrArg Flow.next (Manager.view_promoteToValidator now now' h _ _ _)

omit [FloatArith F] in
/-- Badges are not in the view. -/
theorem view_applyAward (a : BadgeAward) : (applyAward ctx now s a).view = s.view := by
  unfold applyAward
  dsimp only
  split_ifs <;> rfl

omit [FloatArith F] in
/-- Badges are not looked at, whatever the awards do to them. -/
theorem view_snapshotSection (h : s.view = t.view) :
    (snapshotSection ctx tx now s).map Manager.view =
      (snapshotSection ctx tx now' t).map Manager.view := by
  unfold snapshotSection
  cases parseSnapshot tx.tx with
  | none => exact congrArg Flow.next h
  | some snap =>
    refine congrArg Flow.next (foldl_congr_of_map_eq (d := id) rfl (fun a _ b _ _ s t hst => ?_) h)
    rw [view_applyAward, view_applyAward, hst]

omit [FloatArith F] in
/-- A creation needs one clock reading for both; the other operations do not. -/
theorem timeless_applyCircleOp {c c' : CircleRegistry} (h : c.timeless = c'.timeless)
    (cr : Crypto) (op : CircleOp) (txHash : Hash) (height : UInt64)
    (hnow : CircleOpType.ofUInt8 op.opType = some .create → now = now') :
    (applyCircleOp cr c op txHash height now).map (·.1.timeless) =
      (applyCircleOp cr c' op txHash height now').map (·.1.timeless) := by
  have hmark (o o' : Option CircleRegistry)
      (ho : o.map CircleRegistry.timeless = o'.map CircleRegistry.timeless) :
      o.map (fun c => (c.markTxProcessed op.circleId txHash).timeless) =
        o'.map fun c => (c.markTxProcessed op.circleId txHash).timeless := by
    rcases option_map_eq_cases ho with ⟨rfl, rfl⟩ | ⟨x, y, rfl, rfl, hxy⟩
    · rfl
    · exact congrArg (fun q : CircleRegistry => some (q.markTxProcessed op.circleId txHash)) hxy
  unfold applyCircleOp
  dsimp only
  cases hop : CircleOpType.ofUInt8 op.opType with
  | none => exact congrArg some h
  | some o =>
    cases o with
    | create =>
      obtain rfl := hnow hop
      exact congrArg some (CircleRegistry.timeless_createCircle op.signerPubkey now h cr
        op.circleName height)
    | join =>
      simp only [Option.map_map, Function.comp_def]
      exact hmark _ _ (CircleRegistry.timeless_addMember _ _ _ now now' h)
    | leave =>
      simp only [Option.map_map, Function.comp_def]
      exact hmark _ _ (CircleRegistry.timeless_removeMember _ _ _ now now' h)
    | changeAdmin =>
      simp only [Option.map_map, Function.comp_def]
      exact hmark _ _ (CircleRegistry.timeless_changeAdmin _ _ _ now now' h)
    | disband =>
      simp only [Option.map_map, Function.comp_def]
      exact CircleRegistry.timeless_disbandCircle _ _ h

/-- The transaction carries a `0xA3` creation. -/
def LoadedTx.createsCircle (tx : LoadedTx) : Bool :=
  (parseCircle tx.tx).any fun op => CircleOpType.ofUInt8 op.opType = some .create

omit [FloatArith F] in
/-- Tag `0xA3`, with one clock if it creates a circle. -/
theorem view_circleSection (h : s.view = t.view) (hnow : tx.createsCircle = true → now = now') :
    (circleSection ctx tx now s).map Manager.view =
      (circleSection ctx tx now' t).map Manager.view := by
  obtain ⟨-, -, -, -, hc⟩ := Manager.view_eq_iff.1 h
  have hdone (cid txHash : Hash) :
      s.circles.isTxProcessed cid txHash = t.circles.isTxProcessed cid txHash := by
    unfold CircleRegistry.isTxProcessed
    rw [show s.circles.processedTxs = t.circles.processedTxs from congrArg (·.processedTxs) hc]
  unfold circleSection
  cases hp : parseCircle tx.tx with
  | none => exact congrArg Flow.next h
  | some op =>
    have hcreate : CircleOpType.ofUInt8 op.opType = some .create → now = now' := fun hop =>
      hnow (by unfold LoadedTx.createsCircle; rw [hp]; simpa using hop)
    dsimp only
    rw [hdone]
    split_ifs
    · exact congrArg Flow.skip h
    · exact congrArg Flow.skip h
    · rcases option_map_eq_cases (timeless_applyCircleOp now now' hc ctx.env.crypto op tx.hash
        ctx.height hcreate) with ⟨ho, ho'⟩ | ⟨q, q', ho, ho', hq⟩
      · rw [ho, ho']
        exact congrArg Flow.skip h
      · rw [ho, ho']
        exact congrArg Flow.next (Manager.view_circles h hq)

omit [FloatArith F] in
/-- An operation of a vote, up to times. -/
theorem timeless_applyCircleVote (D : Type) [FloatArith D] {c c' : CircleRegistry}
    (h : c.timeless = c'.timeless) (cr : Crypto) (v : CircleVote) (height : UInt64) :
    (applyCircleVote D cr c v height now).map (·.1.timeless) =
      (applyCircleVote D cr c' v height now').map (·.1.timeless) := by
  unfold applyCircleVote
  cases VoteOpType.ofUInt8 v.opType with
  | none => exact congrArg some h
  | some o =>
    cases o with
    | proposeChangeAdmin =>
      exact congrArg some (CircleRegistry.timeless_createProposal _ _ _ h cr height)
    | castVote =>
      simp only [Option.map_map, Function.comp_def]
      exact CircleRegistry.timeless_castVote _ h v.proposalId v.voteYes height
    | finalizeVote =>
      exact congrArg some (CircleRegistry.timeless_finalizeVote now now' D h v.proposalId height)

omit [FloatArith F] in
/-- Tag `0xA9`, in equal views. -/
theorem view_circleVoteSection (D : Type) [FloatArith D] (h : s.view = t.view) :
    (circleVoteSection D ctx tx now s).map Manager.view =
      (circleVoteSection D ctx tx now' t).map Manager.view := by
  obtain ⟨-, -, -, -, hc⟩ := Manager.view_eq_iff.1 h
  unfold circleVoteSection
  cases parseCircleVote tx.tx with
  | none => exact congrArg Flow.next h
  | some v =>
    dsimp only
    split_ifs
    · exact congrArg Flow.skip h
    · rcases option_map_eq_cases (timeless_applyCircleVote now now' D hc ctx.env.crypto v
        ctx.height) with ⟨ho, ho'⟩ | ⟨q, q', ho, ho', hq⟩
      · rw [ho, ho']
        exact congrArg Flow.skip h
      · rw [ho, ho']
        exact congrArg Flow.next (Manager.view_circles h hq)

/-- Tag `0xA4`, in equal views. -/
theorem view_penaltySection (h : s.view = t.view) :
    (penaltySection ctx tx now s).map Manager.view =
      (penaltySection ctx tx now' t).map Manager.view := by
  obtain ⟨-, hr, -⟩ := Manager.view_eq_iff.1 h
  unfold penaltySection
  cases parsePenalty tx.tx with
  | none => exact congrArg Flow.next h
  | some pen =>
    dsimp only
    split_ifs
    · exact congrArg Flow.skip h
    · refine congrArg Flow.next ?_
      unfold applyPenaltyOp
      cases PenOpType.ofUInt8 pen.opType with
      | ban | unban =>
        exact Manager.view_registry h
          (NodeRegistry.timeless_modify hr pen.nodeId (fun _ => rfl) (fun _ => rfl))
      | penalty => exact Manager.view_penalize now now' h _ _

omit [FloatArith F] in
/-- The binding check reads no time. -/
theorem bound_congr {r r' : NodeRegistry F} (h : r.timeless = r'.timeless) (n : Hash)
    (pk : PublicKey) : r.bound n pk = r'.bound n pk := by
  rw [← NodeRegistry.timeless_bound, h, NodeRegistry.timeless_bound]

omit [FloatArith F] in
/-- Tag `0xA5`, in equal views. -/
theorem view_uptimeSection (h : s.view = t.view) :
    (uptimeSection ctx tx now s).map Manager.view =
      (uptimeSection ctx tx now' t).map Manager.view := by
  obtain ⟨hi, hr, he, hd, hc⟩ := Manager.view_eq_iff.1 h
  unfold uptimeSection
  cases parseUptime tx.tx with
  | none => exact congrArg Flow.next h
  | some upt =>
    dsimp only
    rw [bound_congr hr, he]
    split_ifs
    · exact congrArg Flow.skip h
    · exact congrArg Flow.skip h
    · refine congrArg Flow.next (Manager.view_eq_iff.2 ⟨hi, ?_, rfl, hd, hc⟩)
      exact NodeRegistry.timeless_modify
        (NodeRegistry.timeless_recordUptimeEvent upt.nodeId hr true upt.timestamp upt.peerCount)
        upt.nodeId (fun _ => rfl) (fun _ => rfl)

/-- A challenge, up to times. -/
theorem timeless_recordChallenge {r r' : NodeRegistry F} (h : r.timeless = r'.timeless)
    (ch : Challenge) :
    (recordChallenge r ch now).timeless = (recordChallenge r' ch now').timeless := by
  have hcount {r r' : NodeRegistry F} (h : r.timeless = r'.timeless) (n : Hash) :
      ((r.updateNodeChallengeResult n ch.success now).getD r).timeless =
        ((r'.updateNodeChallengeResult n ch.success now').getD r').timeless :=
    NodeRegistry.timeless_modify h n (fun _ => rfl) (fun _ => rfl)
  have hreputation {r r' : NodeRegistry F} (h : r.timeless = r'.timeless) (n : Hash) (d : F) :
      ((r.updateReputation n d now).getD r).timeless =
        ((r'.updateReputation n d now').getD r').timeless :=
    NodeRegistry.timeless_modify h n (fun _ => rfl) (fun _ => rfl)
  have hboth := hcount (hcount h ch.challengerNodeId) ch.challengedNodeId
  unfold recordChallenge
  split_ifs
  · exact hreputation (hreputation hboth _ _) _ _
  · exact hboth

/-- Tag `0xA6`, in equal views. -/
theorem view_challengeSection (h : s.view = t.view) :
    (challengeSection ctx tx now s).map Manager.view =
      (challengeSection ctx tx now' t).map Manager.view := by
  obtain ⟨-, hr, -⟩ := Manager.view_eq_iff.1 h
  unfold challengeSection
  cases parseChallenge tx.tx with
  | none => exact congrArg Flow.next h
  | some ch =>
    dsimp only
    rw [bound_congr hr ch.challengerNodeId, bound_congr hr ch.challengedNodeId]
    split_ifs
    · exact congrArg Flow.skip h
    · exact congrArg Flow.skip h
    · exact congrArg Flow.next (Manager.view_registry h (timeless_recordChallenge now now' hr ch))

omit [FloatArith F] in
/-- Tag `0xAC`, in equal views. -/
theorem view_chainProofSection (h : s.view = t.view) :
    (chainProofSection ctx tx s).map Manager.view =
      (chainProofSection ctx tx t).map Manager.view := by
  obtain ⟨hi, hr, he, hd, hc⟩ := Manager.view_eq_iff.1 h
  unfold chainProofSection chainProofHolds
  cases parseChainProof tx.tx with
  | none => exact congrArg Flow.next h
  | some cp =>
    dsimp only
    rw [bound_congr hr, he]
    split_ifs
    · exact congrArg Flow.next h
    · exact congrArg Flow.skip h
    · exact congrArg Flow.skip h
    · exact congrArg Flow.next (Manager.view_eq_iff.2 ⟨hi, hr, rfl, hd, hc⟩)

omit [FloatArith F] in
/-- Tag `0xA8`, in equal views. -/
theorem view_storeSection (h : s.view = t.view) :
    (storeSection ctx tx now s).map Manager.view =
      (storeSection ctx tx now' t).map Manager.view := by
  unfold storeSection
  cases parseStore tx.tx with
  | none => exact congrArg Flow.next h
  | some op =>
    dsimp only
    split_ifs
    · exact congrArg Flow.skip h
    · exact congrArg Flow.next h

omit [FloatArith F] in
/-- Tag `0xAA`, in equal views. -/
theorem view_poolDistributionSection (h : s.view = t.view) :
    (poolDistributionSection ctx tx s).map Manager.view =
      (poolDistributionSection ctx tx t).map Manager.view := by
  unfold poolDistributionSection
  cases parseTagged PoolDistribution.codec poolDistributionTag tx.tx with
  | none | some pd => exact congrArg Flow.next h

/-- **One transaction, two clocks.**  Unless it creates a circle, the views stay equal
whatever the clocks read. -/
theorem view_processTx (D : Type) [FloatArith D] (h : s.view = t.view)
    (hnow : tx.createsCircle = true → now = now') :
    (processTx D ctx tx now s).view = (processTx D ctx tx now' t).view := by
  have hrel : List.Forall₂ (fun f g => ∀ s t : Manager F, s.view = t.view →
      (f s).map Manager.view = (g t).map Manager.view)
      (sections D ctx tx now) (sections D ctx tx now') := by
    refine .cons (fun _ _ => view_registrationSection now now' ctx tx) <|
      .cons (fun _ _ => view_deregisterSection ctx tx) <|
      .cons (fun _ _ => view_validatorSection now now' ctx tx) <|
      .cons (fun _ _ => view_snapshotSection now now' ctx tx) <|
      .cons (fun _ _ h => view_circleSection now now' ctx tx h hnow) <|
      .cons (fun _ _ => view_circleVoteSection now now' ctx tx D) <|
      .cons (fun _ _ => view_penaltySection now now' ctx tx) <|
      .cons (fun _ _ => view_uptimeSection now now' ctx tx) <|
      .cons (fun _ _ => view_challengeSection now now' ctx tx) <|
      .cons (fun _ _ => view_chainProofSection ctx tx) <|
      .cons (fun _ _ => view_storeSection now now' ctx tx) <|
      .cons (fun _ _ => view_poolDistributionSection ctx tx) .nil
  have hstages := Flow.stages_congr hrel h
  unfold processTx
  rw [← Flow.state_map Manager.view, hstages, Flow.state_map]

/-! ### The period boundary -/

omit [FloatArith F] in
/-- A pass over the nodes of a status that acts on those the clocks agree on. -/
theorem view_foldl_byStatus {st : NodeStatus} {p q : NodeRegistryEntry F → Bool}
    {f g : Manager F → Hash → Manager F} (h : s.view = t.view)
    (hagree : s.registry.AgreeOn t.registry (fun e => e.status = st && p e)
      (fun e => e.status = st && q e))
    (hact : ∀ s t n, s.view = t.view → (f s n).view = (g t n).view) :
    ((s.registry.getNodesByStatus st).foldl
        (fun s e => if p e then f s e.nodeId else s) s).view =
      ((t.registry.getNodesByStatus st).foldl
        (fun t e => if q e then g t e.nodeId else t) t).view := by
  obtain ⟨-, hr, -⟩ := Manager.view_eq_iff.1 h
  have hlist : (s.registry.getNodesByStatus st).map NodeRegistryEntry.timeless =
      (t.registry.getNodesByStatus st).map NodeRegistryEntry.timeless := by
    rw [← NodeRegistry.timeless_getNodesByStatus, hr, NodeRegistry.timeless_getNodesByStatus]
  refine foldl_congr_of_map_eq hlist (fun e he e' he' hee s₁ t₁ h₁ => ?_) h
  obtain ⟨hmem, hst⟩ := List.mem_filter.1 he
  obtain ⟨hmem', hst'⟩ := List.mem_filter.1 he'
  have hid := (NodeRegistryEntry.timeless_eq hee).1
  have hacts := hagree e hmem e' hmem' hid
  simp only [hst, hst', Bool.true_and] at hacts
  rw [hacts, hid]
  split_ifs
  · exact hact s₁ t₁ _ h₁
  · exact h₁

/-- The promotions, on nodes whose clocks promote the same nodes. -/
theorem view_checkAutoValidatorPromotion (h : s.view = t.view) (height : UInt64)
    (hagree : s.registry.AgreeOn t.registry
      (fun e => e.status = .active && autoPromotes s.engine e now)
      (fun e => e.status = .active && autoPromotes t.engine e now')) :
    (checkAutoValidatorPromotion height now s).view =
      (checkAutoValidatorPromotion height now' t).view :=
  view_foldl_byStatus h hagree fun _ _ n h =>
    Manager.view_promoteToValidator now now' h n height 0

variable (D : Type) [FloatArith D] [FloatWiden F D]

/-- A distribution, in equal views. -/
theorem view_triggerDistribution (h : s.view = t.view) :
    (triggerDistribution D ctx s).view = (triggerDistribution D ctx t).view := by
  obtain ⟨hi, hr, he, hd, hc⟩ := Manager.view_eq_iff.1 h
  have hrewards (d : Distributor) : d.distributeRewards D t.engine s.registry =
      d.distributeRewards D t.engine t.registry := by
    rw [← timeless_distributeRewards, hr, timeless_distributeRewards]
  unfold triggerDistribution
  dsimp only
  rw [hd, he, hrewards]
  split_ifs
  · exact h
  · exact Manager.view_eq_iff.2 ⟨hi, hr, rfl, rfl, hc⟩
  · exact Manager.view_eq_iff.2 ⟨hi, hr, rfl, rfl, hc⟩

/-- The escalation, on nodes whose clocks escalate the same nodes. -/
theorem view_escalateSuspended (h : s.view = t.view) (height : UInt64)
    (hagree : s.registry.AgreeOn t.registry (fun e => e.status = .suspended && e.escalates height)
      (fun e => e.status = .suspended && e.escalates height)) :
    (escalateSuspended height now s).view = (escalateSuspended height now' t).view :=
  view_foldl_byStatus h hagree fun _ _ n h => Manager.view_penalize now now' h n .maliciousActivity

/-! ### What two nodes must agree on -/

omit [FloatArith F] in
/-- The same nodes are eligible. -/
theorem eligibleIds_congr {r r' : NodeRegistry F} (h : r.timeless = r'.timeless) :
    r.getEligibleNodes.map (·.nodeId) = r'.getEligibleNodes.map (·.nodeId) := by
  have hids (r : NodeRegistry F) : r.getEligibleNodes.map (·.nodeId) =
      r.timeless.getEligibleNodes.map (·.nodeId) := by
    rw [NodeRegistry.timeless_getEligibleNodes, List.map_map]
    rfl
  rw [hids, h, ← hids]

/-- The state root does not see the times. -/
theorem stateRoot_congr (h : s.view = t.view) (cr : Crypto) (chain : ChainAccess) (upTo : UInt64) :
    computeMevatrustStateRoot cr chain s upTo = computeMevatrustStateRoot cr chain t upTo := by
  obtain ⟨-, hr, -, -, hc⟩ := Manager.view_eq_iff.1 h
  have hnodes (r : NodeRegistry F) :
      (r.getAllNodes.insertionSort fun a b => (compare a.nodeId b.nodeId).isLE = true).flatMap
          NodeRegistryEntry.rootOctets =
        (r.timeless.getAllNodes.insertionSort fun a b =>
          (compare a.nodeId b.nodeId).isLE = true).flatMap NodeRegistryEntry.rootOctets := by
    rw [NodeRegistry.timeless_getAllNodes, ← List.map_insertionSort _ _
      NodeRegistryEntry.timeless r.getAllNodes (fun _ _ _ _ => Iff.rfl), List.flatMap_map]
    rfl
  have hcircles (c : CircleRegistry) :
      (c.listCircles.insertionSort fun a b => (compare a.circleId b.circleId).isLE = true).flatMap
          CircleEntry.rootOctets =
        (c.timeless.listCircles.insertionSort fun a b =>
          (compare a.circleId b.circleId).isLE = true).flatMap CircleEntry.rootOctets := by
    rw [CircleRegistry.timeless_listCircles, ← List.map_insertionSort _ _
      CircleEntry.timeless c.listCircles (fun _ _ _ _ => Iff.rfl), List.flatMap_map]
    rfl
  unfold computeMevatrustStateRoot
  dsimp only
  rw [hnodes, hcircles, hr, hc, ← hnodes, ← hcircles]

/-- The same active nodes, circles, members and state root, and the same payouts for every height,
reward and fork. -/
structure SameConsensus (D : Type) [FloatArith D] [FloatWiden F D] (s t : Manager F) : Prop where
  eligible : s.registry.getEligibleNodes.map (·.nodeId) =
    t.registry.getEligibleNodes.map (·.nodeId)
  circles : s.circles.listCircles.map (fun c => (c.circleId, c.members)) =
    t.circles.listCircles.map fun c => (c.circleId, c.members)
  stateRoot : ∀ cr chain upTo,
    computeMevatrustStateRoot cr chain s upTo = computeMevatrustStateRoot cr chain t upTo
  payouts : ∀ env height reward hf,
    computeExpectedPayouts D env s.toRewardState height reward hf =
      computeExpectedPayouts D env t.toRewardState height reward hf

/-- **The view decides consensus.** -/
theorem sameConsensus_of_view (h : s.view = t.view) :
    SameConsensus D s t where
  eligible := eligibleIds_congr (Manager.view_eq_iff.1 h).2.1
  circles := by
    have hlist (c : CircleRegistry) : c.listCircles.map (fun e => (e.circleId, e.members)) =
        c.timeless.listCircles.map fun e => (e.circleId, e.members) := by
      rw [CircleRegistry.timeless_listCircles, List.map_map]
      rfl
    rw [hlist, (Manager.view_eq_iff.1 h).2.2.2.2, ← hlist]
  stateRoot := stateRoot_congr h
  payouts := by
    intro env height reward hf
    have hst : s.toRewardState.timeless = t.toRewardState.timeless :=
      congrArg View.toRewardState h
    rw [← timeless_computeExpectedPayouts, hst, timeless_computeExpectedPayouts]

/-! ### Blocks as steps -/

/-- The stretches of the application of a block between two places that read the clock. -/
inductive ClockStep where
  /-- `on_new_block` up to the escalation. -/
  | boundary (ctx : BlockCtx)
  /-- The escalation of suspended nodes. -/
  | escalation (ctx : BlockCtx)
  /-- One transaction. -/
  | tx (ctx : BlockCtx) (tx : LoadedTx)
  /-- The expiry sweep. -/
  | sweep (height : UInt64)

/-- `on_new_block` at the end of a period, before the escalation. -/
def openPeriod (D : Type) [FloatArith D] [FloatWiden F D] (ctx : BlockCtx) (now : UInt64)
    (s : Manager F) : Manager F :=
  let engine := s.engine.processRewardPeriod ctx.height
  let badges := s.badges.evaluateAllBadges engine s.registry ctx.height now
  triggerDistribution D ctx (checkAutoValidatorPromotion ctx.height now { s with engine, badges })

/-- Take a step with what the clock reads. -/
def ClockStep.apply (D : Type) [FloatArith D] [FloatWiden F D] :
    ClockStep → UInt64 → Manager F → Manager F
  | .boundary ctx, now, s => if isPeriodBoundary ctx.height then openPeriod D ctx now s else s
  | .escalation ctx, now, s =>
    if isPeriodBoundary ctx.height then escalateSuspended ctx.height now s else s
  | .tx ctx t, now, s => processTx D ctx t now s
  | .sweep height, now, s => expirySweep height now s

/-- The two clocks decide alike: at a period boundary they promote, escalate and expire the same
nodes; at a transaction that creates a circle they read the same. -/
def ClockStep.Alike : ClockStep → UInt64 → UInt64 → Manager F → Manager F → Prop
  | .boundary ctx, now, now', s, t => isPeriodBoundary ctx.height = true →
    s.registry.AgreeOn t.registry (fun e => e.status = .active && autoPromotes s.engine e now)
      (fun e => e.status = .active && autoPromotes t.engine e now')
  | .escalation ctx, _, _, s, t => isPeriodBoundary ctx.height = true →
    s.registry.AgreeOn t.registry (fun e => e.status = .suspended && e.escalates ctx.height)
      (fun e => e.status = .suspended && e.escalates ctx.height)
  | .tx _ t, now, now', _, _ => t.createsCircle = true → now = now'
  | .sweep height, now, now', s, t => isPeriodBoundary height = true →
    s.registry.AgreeOn t.registry
      (NodeRegistry.expires · now NodeRegistry.defaultMaxOfflineBlocks)
      (NodeRegistry.expires · now' NodeRegistry.defaultMaxOfflineBlocks)

instance (step : ClockStep) (now now' : UInt64) (s t : Manager F) :
    Decidable (step.Alike now now' s t) := by
  cases step <;> (unfold ClockStep.Alike; infer_instance)

/-- The promotion looks at the uptime history, which the start of a period leaves alone. -/
theorem autoPromotes_processRewardPeriod (eng : Engine) (height : UInt64)
    (e : NodeRegistryEntry F) :
    autoPromotes (eng.processRewardPeriod height) e now = autoPromotes eng e now := by
  unfold Engine.processRewardPeriod
  split_ifs <;> rfl

/-- **One step, two clocks.** -/
theorem ClockStep.view_apply (step : ClockStep) (h : s.view = t.view)
    (halike : step.Alike now now' s t) :
    (step.apply D now s).view = (step.apply D now' t).view := by
  obtain ⟨hi, hr, he, hd, hc⟩ := Manager.view_eq_iff.1 h
  cases step with
  | boundary ctx =>
    simp only [ClockStep.apply]
    split_ifs with hb
    · refine view_triggerDistribution ctx D (view_checkAutoValidatorPromotion now now' ?_ ctx.height
        (by simpa only [autoPromotes_processRewardPeriod] using halike hb))
      exact Manager.view_eq_iff.2 ⟨hi, hr, congrArg (·.processRewardPeriod ctx.height) he, hd, hc⟩
    · exact h
  | escalation ctx =>
    simp only [ClockStep.apply]
    split_ifs with hb
    · exact view_escalateSuspended now now' h ctx.height (halike hb)
    · exact h
  | tx ctx tx => exact view_processTx now now' ctx tx D h halike
  | sweep height =>
    simp only [ClockStep.apply, expirySweep]
    split_ifs with hb
    · exact Manager.view_registry h
        (NodeRegistry.timeless_expireInactiveNodes now now' hr _ (halike hb))
    · exact h

/-- The loop over the transactions, with the two readings at each. -/
def txSteps (ctx : BlockCtx) :
    List LoadedTx → (ℕ → UInt64) → (ℕ → UInt64) → List (ClockStep × UInt64 × UInt64)
  | [], _, _ => []
  | t :: ts, time, time' =>
    (.tx ctx t, time 0, time' 0) :: txSteps ctx ts (fun i => time (i + 1)) (fun i => time' (i + 1))

/-- The steps of a block, each with what the two clocks read. -/
def blockSteps (ctx : BlockCtx) (clock clock' : BlockClock) : List (ClockStep × UInt64 × UInt64) :=
  [(.boundary ctx, clock.newBlock, clock'.newBlock),
    (.escalation ctx, clock.newBlock, clock'.newBlock)] ++
    (txSteps ctx ctx.txs clock.tx clock'.tx ++ [(.sweep ctx.height, clock.sweep, clock'.sweep)])

/-- The step of the node whose clock `pick` selects. -/
def stepBy (D : Type) [FloatArith D] [FloatWiden F D] (pick : UInt64 × UInt64 → UInt64)
    (a : ClockStep × UInt64 × UInt64) (s : Manager F) : Manager F := a.1.apply D (pick a.2) s

/-- The clock of the node that `pick` selects. -/
def BlockClock.pick (pick : UInt64 × UInt64 → UInt64) (clock clock' : BlockClock) : BlockClock :=
  ⟨pick (clock.newBlock, clock'.newBlock), fun i => pick (clock.tx i, clock'.tx i),
    pick (clock.sweep, clock'.sweep)⟩

variable (pick : UInt64 × UInt64 → UInt64)

/-- The steps of transactions are their processing. -/
theorem runs_txSteps (txs : List LoadedTx) (time time' : ℕ → UInt64) (s : Manager F) :
    runs (stepBy D pick) (txSteps ctx txs time time') s =
      processTxs D ctx txs (fun i => pick (time i, time' i)) s := by
  induction txs generalizing time time' s with
  | nil => rfl
  | cons t ts ih => exact ih _ _ _

/-- **A block is its steps.** -/
theorem runs_blockSteps (clock clock' : BlockClock) (h : s.initialized = true) :
    runs (stepBy D pick) (blockSteps ctx clock clock') s =
      applyBlock D ctx (BlockClock.pick pick clock clock') s := by
  have hopen : runs (stepBy D pick) [(.boundary ctx, clock.newBlock, clock'.newBlock),
      (.escalation ctx, clock.newBlock, clock'.newBlock)] s =
        onNewBlock D ctx (pick (clock.newBlock, clock'.newBlock)) s := by
    simp only [runs_cons, stepBy, ClockStep.apply, openPeriod, onNewBlock, h]
    by_cases hb : isPeriodBoundary ctx.height = true
    · simp [hb]
    · simp [hb]
  have hguard : ¬ (onNewBlock D ctx (BlockClock.pick pick clock clock').newBlock s).initialized
      = false := by
    rw [initialized_onNewBlock, h]
    decide
  unfold blockSteps applyBlock processMevatrustTxs
  rw [runs_append, hopen, runs_append, runs_txSteps, if_neg hguard]
  rfl

/-- A block with the clocks of two nodes. -/
abbrev ClockedBlock := BlockCtx × BlockClock × BlockClock

/-- A node applies the blocks, `pick` saying with which of the two clocks. -/
def applyBlocks (D : Type) [FloatArith D] [FloatWiden F D] (pick : UInt64 × UInt64 → UInt64)
    (blocks : List ClockedBlock) (s : Manager F) : Manager F :=
  blocks.foldl (fun s b => applyBlock D b.1 (BlockClock.pick pick b.2.1 b.2.2) s) s

/-- The steps of a sequence of blocks. -/
def historySteps (blocks : List ClockedBlock) : List (ClockStep × UInt64 × UInt64) :=
  blocks.flatMap fun b => blockSteps b.1 b.2.1 b.2.2

/-- The steps of blocks are their application. -/
theorem runs_historySteps (blocks : List ClockedBlock) (h : s.initialized = true) :
    runs (stepBy D pick) (historySteps blocks) s = applyBlocks D pick blocks s := by
  induction blocks generalizing s with
  | nil => rfl
  | cons b bs ih =>
    show runs (stepBy D pick) (blockSteps b.1 b.2.1 b.2.2 ++ historySteps bs) s = _
    rw [runs_append, runs_blockSteps _ _ _ _ _ h, ih ((initialized_applyBlock D _).trans h)]
    rfl

/-- **Clock independence.**  Two nodes start empty and apply the same blocks.  If their clocks
decide alike at every step, they end with the same active nodes, circles, state root and payouts. -/
theorem consensus_clock_independent (F D : Type) [FloatArith F] [FloatArith D] [FloatWiden F D]
    {blocks : List ClockedBlock}
    (halike : Lockstep (stepBy D Prod.fst) (stepBy D Prod.snd)
      (fun a s t => a.1.Alike a.2.1 a.2.2 s t) (historySteps blocks)
      ({} : Manager F) ({} : Manager F)) :
    SameConsensus D (applyBlocks D Prod.fst blocks ({} : Manager F))
      (applyBlocks D Prod.snd blocks ({} : Manager F)) := by
  have hview := halike.run_congr (c := Manager.view)
    (fun a s t hok h => a.1.view_apply a.2.1 a.2.2 D h hok) rfl
  rw [runs_historySteps D Prod.fst blocks rfl, runs_historySteps D Prod.snd blocks rfl] at hview
  exact sameConsensus_of_view D hview

end

/-! ### Following a chain and downloading it -/

/-- A block of a chain that registers a node in its first block; the other blocks carry no
payload. -/
def registrationChainBlock (height : UInt64) : BlockCtx where
  env := ⟨sevenCurve.crypto, fun _ => none, ⟨Pod32.null, Pod32.null⟩⟩
  block := { minerTx := { tx := { extra :=
    if height = 1 then (packBlob 0xA0 (Registration.codec.write ownerRegistration)).getD []
    else [] } } }
  height := height
  hfVersion := 18

/-- The first period of that chain, for a node that downloads it at once and one that sees a
block every `pace` seconds. -/
def registrationChain (pace : ℕ) : List ClockedBlock :=
  (List.range 240).map fun i =>
    (registrationChainBlock (UInt64.ofNat (i + 1)), stillClock 1760000000,
      stillClock (UInt64.ofNat (1760000000 + pace * i)))

/-- **The sweep splits the network.**  Blocks come every 362 seconds.  A node that follows the chain
marks the node of the first block offline at height 240; one that downloads it at once does not. -/
theorem sweep_splits_nodes :
    ¬ ∀ blocks : List ClockedBlock,
        blocks.map (·.1.height) = (List.range blocks.length).map (fun i => UInt64.ofNat (i + 1)) →
        SameConsensus ℚ (applyBlocks ℚ Prod.fst blocks ({} : Manager ℚ))
          (applyBlocks ℚ Prod.snd blocks ({} : Manager ℚ)) := by
  intro h
  have heligible := (h (registrationChain 362) (by decide +kernel)).eligible
  revert heligible
  decide +kernel

/-- At a pace of one block a minute neither clock finds the node expired. -/
theorem registrationChain_agrees :
    SameConsensus ℚ (applyBlocks ℚ Prod.fst (registrationChain 60) ({} : Manager ℚ))
      (applyBlocks ℚ Prod.snd (registrationChain 60) ({} : Manager ℚ)) :=
  consensus_clock_independent ℚ ℚ (by decide +kernel)

end Mevacoin.Trust
