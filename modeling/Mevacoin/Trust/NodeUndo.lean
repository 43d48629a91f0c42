import Mevacoin.Trust.CircleUndo
import Mevacoin.Trust.NodeFaces

/-!
# One action on nodes, undone

A log entry names the operation and the node but nothing that was there before.
-/

namespace Mevacoin.Trust

open Lib Std

/-! ### Undoing -/

/-- An entry of the log that is about nodes or badges. -/
def PoppedOp.onNodes : PoppedOp → Bool
  | register _ | deregister _ | badgeAward _ _ | validatorPromotion _ | penalty _ | uptime _
  | challenge _ => true
  | _ => false

section

variable {F : Type}

/-- What undoing an entry does to the nodes and badges. -/
def undoNodes (now : UInt64) (x : NodeRegistry F × BadgeSystem) :
    PoppedOp → NodeRegistry F × BadgeSystem
  | .register n => ((x.1.unregisterNode n).getD x.1, x.2)
  | .badgeAward n t => (x.1, x.2.revokeBadge n t (asciiBytes "reorg-rollback"))
  | .validatorPromotion n =>
    ((x.1.updateNodeValidator n false 0 0 now).getD x.1,
      x.2.revokeBadge n .networkValidator (asciiBytes "reorg-rollback"))
  | .penalty n => ((x.1.updateNodeStatus n .active [] now).getD x.1, x.2)
  | _ => x

/-- What undoing an entry does to the faces. -/
def undoFaces (x : Faces F) : PoppedOp → Faces F
  | .register n => { x with node := Function.update x.node n none }
  | .badgeAward n t => { x with badge := Function.update x.badge (n, t) (x.badge (n, t) - 1) }
  | .validatorPromotion n =>
    { node := changeFace x.node n fun f =>
        { f with standing := { f.standing with validator := false } }
      badge := Function.update x.badge (n, .networkValidator)
        (x.badge (n, .networkValidator) - 1) }
  | .penalty n =>
    { x with node := changeFace x.node n fun f =>
        { f with standing := { f.standing with status := .active } } }
  | _ => x

/-- Undoing shows in the faces alone. -/
theorem facesOf_undoNodes (now : UInt64) (x : NodeRegistry F × BadgeSystem) (op : PoppedOp) :
    facesOf (undoNodes now x op) = undoFaces (facesOf x) op := by
  unfold undoNodes undoFaces facesOf
  split
  · rw [NodeRegistry.faces_unregisterNode]
  · rw [BadgeSystem.counts_revokeBadge]
  · rw [NodeRegistry.faces_updateNodeValidator, BadgeSystem.counts_revokeBadge]
  · rw [NodeRegistry.faces_updateNodeStatus]
  · rfl

/-- **Undoing respects equal faces.** -/
theorem undoNodes_congruence (now : UInt64) :
    UndoCongruence (undoNodes (F := F) now) (fun x y => facesOf x = facesOf y) where
  refl _ := rfl
  trans := Eq.trans
  undo h op := by rw [facesOf_undoNodes, facesOf_undoNodes, h]

end

/-! ### The actions of a block on nodes -/

/-- The actions on nodes and badges, one after another. -/
def nodeMachine (F : Type) [FloatArith F] (ctx : BlockCtx) :
    Machine (NodeRegistry F × BadgeSystem) (NodeAct × UInt64) PoppedOp where
  step x a := a.1.step ctx a.2 x.1 x.2

/-- An action on nodes. -/
def Action.onNode : Action × UInt64 → Option (NodeAct × UInt64)
  | (.node a, now) => some (a, now)
  | _ => none

section

variable {F : Type} [FloatArith F] (D : Type) [FloatArith D]

/-- The actions of a block on nodes and badges. -/
def nodeActs (ctx : BlockCtx) (clock : BlockClock) (s : Manager F) : List (NodeAct × UInt64) :=
  (actionsOf D ctx clock s).filterMap Action.onNode

variable {D} {ctx : BlockCtx} {now : UInt64}

/-- What an action on nodes logs is about nodes. -/
theorem NodeAct.step_onNodes (a : NodeAct) (r : NodeRegistry F) (b : BadgeSystem) :
    (a.step ctx now r b).2.filter PoppedOp.onNodes = (a.step ctx now r b).2 := by
  cases a <;> dsimp only [NodeAct.step]
  all_goals repeat' split
  all_goals rfl

/-- What an operation on circles logs is not. -/
theorem CircleAct.step_onNodes (a : CircleAct) (c : CircleRegistry) :
    (a.step D ctx now c).2.filter PoppedOp.onNodes = [] := by
  rw [List.filter_eq_nil_iff]
  intro op hop
  have hcircles := List.filter_eq_self.1 (a.step_onCircles c) op hop
  cases op <;> first | exact Bool.false_ne_true | cases hcircles

omit [FloatArith F] in
theorem Manager.logAll_badges (s : Manager F) (height : UInt64) (ops : List PoppedOp) :
    (s.logAll height ops).badges = s.badges :=
  List.foldlRecOn (motive := fun a : Manager F => a.badges = s.badges) _ _ rfl fun _ ha _ _ => ha

/-- **Nodes and badges are a part of the manager.** -/
theorem nodesPart (ctx : BlockCtx) (now : UInt64) :
    Part D ctx now (fun s : Manager F => (s.registry, s.badges)) (nodeMachine F ctx) Action.onNode
      PoppedOp.onNodes (undoNodes now) where
  step := by
    rintro s ⟨a, time⟩
    cases a with
    | node a =>
      refine Prod.ext ?_ ((List.append_nil _).trans (a.step_onNodes s.registry s.badges).symm)
      show (a.step ctx time s.registry s.badges).1 =
        ((Manager.logAll _ _ _).registry, (Manager.logAll _ _ _).badges)
      rw [Manager.logAll_toRewardState, Manager.logAll_badges]
    | circle a =>
      refine Prod.ext ?_ (a.step_onNodes s.circles).symm
      show (s.registry, s.badges) = ((Manager.logAll _ _ _).registry, (Manager.logAll _ _ _).badges)
      rw [Manager.logAll_toRewardState, Manager.logAll_badges]
    | chainProof | store | poolDistribution => rfl
  undo := by
    intro s op
    unfold undoOp undoNodes
    repeat' split
    all_goals first | rfl | simp_all
  idle := by
    intro x op hop
    cases op <;> first | rfl | cases hop
  blind := fun _ _ => rfl

end

/-! ### When one action is undone by its entries -/

section

variable {F : Type} [FloatArith F]

/-- `register_node_onchain` takes the registration. -/
def NodeRegistry.Accepts (r : NodeRegistry F) (reg : Registration) (hfVersion : UInt8) : Prop :=
  r.liveOfWallet reg.walletAddress < maxNodesPerWallet ∧
    ¬ (hfVersionMevatrustAntisybil ≤ hfVersion ∧ r.nodePubkeyLive reg.nodePubkey = true) ∧
    r.nodes[reg.nodeId]? = none

instance (r : NodeRegistry F) (reg : Registration) (hfVersion : UInt8) :
    Decidable (r.Accepts reg hfVersion) :=
  have : Decidable (r.nodes[reg.nodeId]? = none) :=
    decidable_of_iff _ Option.isNone_iff_eq_none
  inferInstanceAs (Decidable (_ ∧ _ ∧ _))

theorem registerNodeOnchain_isSome_iff (r : NodeRegistry F) (reg : Registration)
    (height : UInt64) (hf : UInt8) (time : UInt64) :
    (r.registerNodeOnchain reg height hf time).isSome = true ↔ r.Accepts reg hf := by
  unfold NodeRegistry.registerNodeOnchain NodeRegistry.Accepts
  split_ifs with hmany hkey hid
  · simp [Nat.not_lt.2 hmany]
  · simp [hkey]
  · simp [ExtTreeMap.contains_iff_mem.1 hid]
  · rw [ExtTreeMap.contains_iff_mem] at hid
    simp [Nat.lt_of_not_le hmany, hkey, hid]

/-- A penalty that does nothing to an active node. -/
def PenaltyHarmless (x : NodeRegistry F × BadgeSystem) (n : Hash) (offense : OffenseType) : Prop :=
  ∀ e ∈ x.1.nodes[n]?, e.status = .active ∧
    shiftReputation offense.delta e.reputationScore = e.reputationScore ∧
    (offense = .maliciousActivity → ∀ bg ∈ x.2.cache.getD n [], bg.isActive = false)

/-- The bonus for a passed challenge does nothing: to either node, or twice to a node that
challenged itself. -/
def BonusHarmless (r : NodeRegistry F) (ch : Challenge) : Prop :=
  if ch.challengerNodeId = ch.challengedNodeId then
    ∀ e ∈ r.nodes[ch.challengerNodeId]?,
      shiftReputation (2 / 100) (shiftReputation (2 / 100) e.reputationScore) = e.reputationScore
  else
    (∀ e ∈ r.nodes[ch.challengerNodeId]?,
        shiftReputation (2 / 100) e.reputationScore = e.reputationScore) ∧
      ∀ e ∈ r.nodes[ch.challengedNodeId]?,
        shiftReputation (2 / 100) e.reputationScore = e.reputationScore

/-- **An action that its log entries undo**, in the registry and badges it is applied to.

* A registration leaves the welcome badge behind; one that is refused may penalize a node.
* A deregistration is not undone.
* A promotion is logged as an award of the validator badge, made or not.
* After a penalty or a ban the node is made active, which is all that is undone.
* Uptime makes a node active and a challenge raises reputations, and neither is undone. -/
def NodeAct.Reverts (ctx : BlockCtx) (x : NodeRegistry F × BadgeSystem) : NodeAct × UInt64 → Prop
  | (.register reg, _) =>
    if x.1.Accepts reg ctx.hfVersion then x.2.hasBadge reg.nodeId .welcome = true
    else x.1.isWalletPubkeyRegistered reg.walletPubkey = true →
      ∀ existing ∈ x.1.getNodeByPubkey reg.walletPubkey,
        PenaltyHarmless x existing.nodeId .doubleRegistration
  | (.deregister dereg, _) =>
    ∀ e ∈ x.1.nodes[dereg.nodeId]?, e.walletPubkey ≠ dereg.walletPubkey
  | (.promote n _, _) => x.2.hasBadge n .networkValidator = false
  | (.award _, _) => True
  | (.penalty pen, _) =>
    match PenOpType.ofUInt8 pen.opType with
    | .ban | .unban => ∀ e ∈ x.1.nodes[pen.nodeId]?, e.status = .active
    | .penalty => PenaltyHarmless x pen.nodeId (OffenseType.ofName pen.offenseType)
  | (.uptime upt, _) => ∀ e ∈ x.1.nodes[upt.nodeId]?, e.status = .active
  | (.challenge ch, _) => ch.success = true → BonusHarmless x.1 ch

instance [DecidableEq F] (x : NodeRegistry F × BadgeSystem) (n : Hash) (offense : OffenseType) :
    Decidable (PenaltyHarmless x n offense) :=
  inferInstanceAs (Decidable (∀ e ∈ x.1.nodes[n]?, _ ∧ _ ∧ _))

instance [DecidableEq F] (r : NodeRegistry F) (ch : Challenge) :
    Decidable (BonusHarmless r ch) := by
  unfold BonusHarmless
  infer_instance

instance [DecidableEq F] (ctx : BlockCtx) (x : NodeRegistry F × BadgeSystem) :
    ∀ a : NodeAct × UInt64, Decidable (NodeAct.Reverts ctx x a)
  | (a, _) => by
    cases a <;> unfold NodeAct.Reverts <;> dsimp only
    case penalty pen => split <;> infer_instance
    all_goals infer_instance

end

end Mevacoin.Trust
