import Mevacoin.Trust.CircleInverse
import Mevacoin.Trust.NodeUndo
import Mevacoin.Trust.Outsiders

/-!
# Nodes and badges after a block is taken back

What is left of each action on nodes when its log entries are undone.
-/

namespace Mevacoin.Trust

open Lib Std

section

variable {F : Type} [FloatArith F]

/-! ### One action, undone -/

/-- Nodes and badges after an action and the undoing of what it logged. -/
def undoneNodes (ctx : BlockCtx) (now : UInt64) (x : NodeRegistry F × BadgeSystem)
    (a : NodeAct × UInt64) : NodeRegistry F × BadgeSystem :=
  undoAll (undoNodes now) ((nodeMachine F ctx).step x a).2 ((nodeMachine F ctx).step x a).1

variable {ctx : BlockCtx} {now time : UInt64} {x : NodeRegistry F × BadgeSystem}

/-- Undoing, seen on the faces. -/
theorem facesOf_undoneNodes (a : NodeAct × UInt64) :
    facesOf (undoneNodes ctx now x a) =
      undoAll undoFaces (a.1.step ctx a.2 x.1 x.2).2 (facesOf (a.1.step ctx a.2 x.1 x.2).1) :=
  undoAll_project (facesOf_undoNodes now) _ _

omit [FloatArith F] in
/-- Two pairs show the same faces if their registries and their badges do. -/
theorem faces_eq_iff {node : Hash → Option (Face F)} {badge : Hash × BadgeType → ℕ} :
    (⟨node, badge⟩ : Faces F) = facesOf x ↔ node = x.1.faces ∧ badge = x.2.counts := by
  rw [facesOf, Faces.mk.injEq]

variable {b : BadgeSystem} (n : Hash) (offense : OffenseType)

/-- A number that an award leaves as it is. -/
theorem max_one_eq_self_iff {n : Hash} {t : BadgeType} :
    Function.update b.counts (n, t) (max 1 (b.counts (n, t))) = b.counts ↔
      b.hasBadge n t = true := by
  rw [Function.update_eq_self_iff, BadgeSystem.hasBadge_eq_decide, decide_eq_true_iff]
  omega

/-- The node is removed again, and the welcome badge stays. -/
theorem facesOf_register {reg : Registration} {r' : NodeRegistry F}
    (h : x.1.registerNodeOnchain reg ctx.height ctx.hfVersion time = some r') :
    facesOf (undoneNodes ctx now x (.register reg, time)) =
      ⟨x.1.faces, Function.update x.2.counts (reg.nodeId, .welcome)
        (max 1 (x.2.counts (reg.nodeId, .welcome)))⟩ := by
  obtain ⟨hnew, hfaces⟩ := NodeRegistry.faces_registerNodeOnchain h
  rw [facesOf_undoneNodes]
  simp only [NodeAct.step, h]
  show (⟨Function.update r'.faces reg.nodeId none, _⟩ : Faces F) = _
  rw [hfaces, Function.update_idem, ← hnew, Function.update_eq_self]
  congr 1
  exact BadgeSystem.counts_awardBadge _ _ _

/-! Penalties -/

/-- The reputation of a penalized node is changed, its status is active again, and badges it
lost are not given back. -/
theorem undoFaces_applyPenalty :
    undoFaces (facesOf (applyPenalty x.1 x.2 n offense time)) (.penalty n) =
      ⟨changeFace x.1.faces n fun f => { f with standing :=
          { f.standing with
            status := .active
            reputation := shiftReputation offense.delta f.standing.reputation } },
        fun p => if p.1 = n ∧ offense = .maliciousActivity ∧ x.1.faces n ≠ none then 0
          else x.2.counts p⟩ := by
  have hbadges : (applyPenalty x.1 x.2 n offense time).2.counts = fun p =>
      if p.1 = n ∧ offense = .maliciousActivity ∧ x.1.faces n ≠ none then 0
      else x.2.counts p := by
    funext p
    exact counts_applyPenalty p.1 p.2
  show (⟨changeFace (applyPenalty x.1 x.2 n offense time).1.faces n _, _⟩ : Faces F) = _
  rw [faces_applyPenalty, changeFace_changeFace]
  exact congrArg (Faces.mk _) hbadges

omit [FloatArith F] in
/-- What holds of a face holds of the entry. -/
theorem forall_mem_faces_iff {r : NodeRegistry F} {n : Hash} {P : Face F → Prop} :
    (∀ f ∈ r.faces n, P f) ↔ ∀ e ∈ r.nodes[n]?, P e.face :=
  Option.forall_mem_map

/-- No badge is active. -/
theorem counts_eq_zero_iff {n : Hash} :
    (∀ t, b.counts (n, t) = 0) ↔ ∀ bg ∈ b.cache.getD n [], bg.isActive = false := by
  simp only [BadgeSystem.counts, List.countP_eq_zero, Bool.and_eq_true, decide_eq_true_eq,
    not_and, Bool.not_eq_true]
  exact ⟨fun h bg hbg => h bg.type bg hbg rfl, fun h _ bg hbg _ => h bg hbg⟩

/-- Badges that are taken from a node were none. -/
theorem cleared_eq_self_iff {n : Hash} {C : Prop} [Decidable C] :
    (fun p => if p.1 = n ∧ C then 0 else b.counts p) = b.counts ↔
      (C → ∀ bg ∈ b.cache.getD n [], bg.isActive = false) := by
  rw [← counts_eq_zero_iff, funext_iff]
  constructor
  · intro h hC t
    have hp := h (n, t)
    rw [if_pos ⟨rfl, hC⟩] at hp
    exact hp.symm
  · rintro h ⟨m, t⟩
    by_cases hp : m = n ∧ C
    · obtain ⟨rfl, hC⟩ := hp
      rw [if_pos ⟨rfl, hC⟩, h hC]
    · rw [if_neg hp]

/-- When a penalty is undone. -/
theorem penalty_iff_harmless :
    undoFaces (facesOf (applyPenalty x.1 x.2 n offense time)) (.penalty n) = facesOf x ↔
      PenaltyHarmless x n offense := by
  rw [undoFaces_applyPenalty, faces_eq_iff, changeFace_eq_self_iff, cleared_eq_self_iff]
  unfold PenaltyHarmless NodeRegistry.faces
  cases he : x.1.nodes[n]? with
  | none => simp
  | some e =>
    simp only [Option.mem_def, Option.some.injEq, forall_eq', Option.map_some, ne_eq,
      reduceCtorEq, not_false_eq_true, and_true]
    rw [← and_assoc]
    refine and_congr ?_ Iff.rfl
    simp only [NodeRegistryEntry.face, NodeRegistryEntry.standing, Face.mk.injEq,
      Standing.mk.injEq, and_true]
    exact and_congr_left fun _ => eq_comm

omit [FloatArith F] in
/-- A node that is made active was active. -/
theorem activated_iff (n : Hash) :
    changeFace x.1.faces n
        (fun f => { f with standing := { f.standing with status := .active } }) = x.1.faces ↔
      ∀ e ∈ x.1.nodes[n]?, e.status = .active := by
  rw [changeFace_eq_self_iff, forall_mem_faces_iff]
  refine forall₂_congr ?_
  intro e _
  simp only [NodeRegistryEntry.face, NodeRegistryEntry.standing, Face.mk.injEq,
    Standing.mk.injEq, and_true]
  exact eq_comm

omit [FloatArith F] in
/-- A ban, or its end, is undone by making the node active. -/
theorem statusChange_iff (n : Hash) (status : NodeStatus) (reason : Bytes) :
    undoFaces (facesOf ((x.1.updateNodeStatus n status reason time).getD x.1, x.2)) (.penalty n) =
        facesOf x ↔
      ∀ e ∈ x.1.nodes[n]?, e.status = .active := by
  have hfaces := NodeRegistry.faces_updateNodeStatus (r := x.1) (n := n) status reason time
  show (⟨changeFace ((x.1.updateNodeStatus n status reason time).getD x.1).faces n _, _⟩ :
    Faces F) = _ ↔ _
  rw [hfaces, changeFace_changeFace, faces_eq_iff, ← activated_iff]
  exact and_iff_left rfl

/-- When tag `0xA4` is undone. -/
theorem faces_iff_penalty (pen : Penalty) :
    facesOf (undoneNodes ctx now x (.penalty pen, time)) = facesOf x ↔
      NodeAct.Reverts ctx x (.penalty pen, time) := by
  rw [facesOf_undoneNodes]
  unfold NodeAct.Reverts NodeAct.step
  dsimp only
  cases PenOpType.ofUInt8 pen.opType with
  | ban | unban => exact statusChange_iff _ _ _
  | penalty => exact penalty_iff_harmless _ _

/-- When a registration is undone. -/
theorem faces_iff_register (reg : Registration) :
    facesOf (undoneNodes ctx now x (.register reg, time)) = facesOf x ↔
      NodeAct.Reverts ctx x (.register reg, time) := by
  have haccepts := registerNodeOnchain_isSome_iff x.1 reg ctx.height ctx.hfVersion time
  unfold NodeAct.Reverts
  dsimp only
  cases hreg : x.1.registerNodeOnchain reg ctx.height ctx.hfVersion time with
  | some r' =>
    rw [hreg] at haccepts
    rw [facesOf_register hreg, faces_eq_iff, if_pos (haccepts.1 rfl), max_one_eq_self_iff]
    exact and_iff_right rfl
  | none =>
    rw [hreg] at haccepts
    rw [if_neg fun h => Bool.false_ne_true (haccepts.2 h), facesOf_undoneNodes]
    unfold NodeAct.step
    simp only [hreg]
    by_cases hwallet : x.1.isWalletPubkeyRegistered reg.walletPubkey = true
    · cases hnode : x.1.getNodeByPubkey reg.walletPubkey with
      | none => simp
      | some existing =>
        simp only [hwallet, true_imp_iff, Option.mem_def, Option.some.injEq, forall_eq']
        exact penalty_iff_harmless _ _
    · simp [hwallet]

/-! Deregistration and promotion -/

/-- When a deregistration is undone. -/
theorem faces_iff_deregister (dereg : Deregister) :
    facesOf (undoneNodes ctx now x (.deregister dereg, time)) = facesOf x ↔
      NodeAct.Reverts ctx x (.deregister dereg, time) := by
  rw [facesOf_undoneNodes]
  unfold NodeAct.Reverts NodeAct.step NodeRegistry.deregisterNodeOnchain
  dsimp only
  cases he : x.1.nodes[dereg.nodeId]? with
  | none => simp
  | some e =>
    simp only [Option.mem_def, Option.some.injEq, forall_eq']
    by_cases hkey : e.walletPubkey = dereg.walletPubkey
    · obtain ⟨r', hr'⟩ : ∃ r', x.1.unregisterNode dereg.nodeId = some r' := by
        unfold NodeRegistry.unregisterNode
        rw [he]
        exact ⟨_, rfl⟩
      have hfaces := NodeRegistry.faces_unregisterNode (r := x.1) (n := dereg.nodeId)
      rw [hr', Option.getD_some] at hfaces
      rw [if_pos hkey, hr']
      refine iff_of_false ?_ (not_not.2 hkey)
      intro h
      have hnode : r'.faces dereg.nodeId = x.1.faces dereg.nodeId :=
        congrFun (congrArg Faces.node h) _
      rw [hfaces, Function.update_self, NodeRegistry.faces, he] at hnode
      cases hnode
    · rw [if_neg hkey]
      exact iff_of_true rfl hkey

omit [FloatArith F] in
/-- An award that was logged and not made is undone all the same. -/
theorem revoked_iff (n : Hash) :
    undoFaces (facesOf x) (.badgeAward n .networkValidator) = facesOf x ↔
      x.2.hasBadge n .networkValidator = false := by
  show (⟨x.1.faces, Function.update x.2.counts _ (x.2.counts (n, .networkValidator) - 1)⟩ :
    Faces F) = _ ↔ _
  rw [faces_eq_iff, Function.update_eq_self_iff, BadgeSystem.hasBadge_eq_false_iff,
    and_iff_right rfl]
  omega

/-- When a promotion is undone. -/
theorem faces_iff_promote (stake : UInt64) :
    facesOf (undoneNodes ctx now x (.promote n stake, time)) = facesOf x ↔
      NodeAct.Reverts ctx x (.promote n stake, time) := by
  rw [facesOf_undoneNodes]
  unfold NodeAct.Reverts NodeAct.step
  dsimp only
  cases he : x.1.getNodeById n with
  | none => exact revoked_iff n
  | some e =>
    dsimp only
    by_cases hval : e.isValidator = true
    · rw [if_pos hval]
      exact revoked_iff n
    · rw [if_neg hval]
      have hfaces := NodeRegistry.faces_updateNodeValidator (r := x.1) (n := n) true ctx.height
        stake time
      have hcounts := BadgeSystem.counts_awardBadge (b := x.2) (n := n) (t := .networkValidator)
        ctx.height (asciiBytes "validator-promotion") time
      rw [undoAll_cons, undoAll_cons, undoAll_nil, facesOf, hfaces, hcounts]
      dsimp only [undoFaces]
      rw [Function.update_self, Function.update_idem, Function.update_self, Function.update_idem,
        changeFace_changeFace, faces_eq_iff, changeFace_eq_self_iff, Function.update_eq_self_iff,
        BadgeSystem.hasBadge_eq_false_iff, forall_mem_faces_iff]
      have hback : ∀ e ∈ x.1.nodes[n]?, ({ e.face with
          standing := { e.face.standing with validator := false } } : Face F) = e.face := by
        intro e' he'
        rw [Option.some_inj.1 ((Option.mem_def.1 he').symm.trans he), NodeRegistryEntry.face,
          NodeRegistryEntry.standing, Bool.eq_false_iff.2 hval]
      refine (and_iff_right hback).trans ?_
      omega

/-! Uptime and challenges -/

/-- When uptime is undone. -/
theorem faces_iff_uptime (upt : Uptime) :
    facesOf (undoneNodes ctx now x (.uptime upt, time)) = facesOf x ↔
      NodeAct.Reverts ctx x (.uptime upt, time) := by
  rw [facesOf_undoneNodes]
  unfold NodeAct.Reverts NodeAct.step
  show facesOf _ = _ ↔ _
  rw [facesOf, NodeRegistry.faces_updateNodeSync, NodeRegistry.faces_recordUptimeEvent,
    faces_eq_iff, activated_iff]
  exact and_iff_left rfl

omit [FloatArith F] in
/-- Changes of two nodes leave the faces as they are only if both do. -/
theorem changeFace_pair_iff {faces : Hash → Option (Face F)} {m n : Hash} (hne : m ≠ n)
    {g g' : Face F → Face F} :
    changeFace (changeFace faces m g) n g' = faces ↔
      (∀ f ∈ faces m, g f = f) ∧ ∀ f ∈ faces n, g' f = f := by
  rw [← changeFace_eq_self_iff, ← changeFace_eq_self_iff]
  constructor
  · intro h
    have hfirst : changeFace faces m g = faces := by
      funext k
      by_cases hk : k = n
      · subst hk
        exact Function.update_of_ne hne.symm _ _
      · rw [← congrFun h k]
        exact (Function.update_of_ne hk _ _).symm
    rw [hfirst] at h
    exact ⟨hfirst, h⟩
  · rintro ⟨hfirst, hsecond⟩
    rw [hfirst, hsecond]

omit [FloatArith F] in
/-- A reputation that is set to itself. -/
theorem setReputation_eq_iff {e : NodeRegistryEntry F} {y : F} :
    ({ e.face with standing := { e.face.standing with reputation := y } } : Face F) = e.face ↔
      y = e.reputationScore := by
  simp only [NodeRegistryEntry.face, NodeRegistryEntry.standing, Face.mk.injEq,
    Standing.mk.injEq, and_true, true_and]

/-- When a challenge is undone. -/
theorem faces_iff_challenge (ch : Challenge) :
    facesOf (undoneNodes ctx now x (.challenge ch, time)) = facesOf x ↔
      NodeAct.Reverts ctx x (.challenge ch, time) := by
  rw [facesOf_undoneNodes]
  unfold NodeAct.Reverts NodeAct.step
  show facesOf _ = _ ↔ _
  rw [facesOf, faces_eq_iff, and_iff_left rfl]
  unfold recordChallenge
  dsimp only
  cases hsuccess : ch.success with
  | false =>
    rw [if_neg Bool.false_ne_true, NodeRegistry.faces_updateNodeChallengeResult,
      NodeRegistry.faces_updateNodeChallengeResult]
    simp
  | true =>
    rw [if_pos rfl, NodeRegistry.faces_updateReputation, NodeRegistry.faces_updateReputation,
      NodeRegistry.faces_updateNodeChallengeResult,
      NodeRegistry.faces_updateNodeChallengeResult, forall_prop_of_true rfl]
    unfold BonusHarmless
    by_cases hself : ch.challengerNodeId = ch.challengedNodeId
    · rw [if_pos hself, ← hself, changeFace_changeFace, changeFace_eq_self_iff,
        forall_mem_faces_iff]
      exact forall₂_congr fun e _ => setReputation_eq_iff
    · rw [if_neg hself, changeFace_pair_iff hself, forall_mem_faces_iff, forall_mem_faces_iff]
      exact and_congr (forall₂_congr fun e _ => setReputation_eq_iff)
        (forall₂_congr fun e _ => setReputation_eq_iff)

/-- An award that was made is taken back. -/
theorem facesOf_award (a : BadgeAward) :
    facesOf (undoneNodes ctx now x (.award a, time)) = facesOf x := by
  rw [facesOf_undoneNodes]
  unfold NodeAct.step
  dsimp only
  cases hbadge : x.2.hasBadge a.nodeId (BadgeType.ofUInt8 a.badgeType) with
  | true => rfl
  | false =>
    have hcounts := BadgeSystem.counts_awardBadge (b := x.2) (n := a.nodeId)
      (t := BadgeType.ofUInt8 a.badgeType) a.awardedHeight (asciiBytes "on-chain-replay") time
    rw [BadgeSystem.hasBadge_eq_false_iff] at hbadge
    rw [if_neg Bool.false_ne_true, undoAll_cons, undoAll_nil, facesOf, hcounts]
    dsimp only [undoFaces]
    rw [Function.update_self, Function.update_idem, faces_eq_iff,
      Function.update_eq_self_iff, hbadge]
    exact ⟨rfl, rfl⟩

/-- **The nodes and the numbers of active badges are back exactly if the action reverts.** -/
theorem faces_iff_reverts (now : UInt64) (a : NodeAct × UInt64) :
    facesOf (undoneNodes ctx now x a) = facesOf x ↔ NodeAct.Reverts ctx x a := by
  obtain ⟨a, time⟩ := a
  cases a with
  | register reg => exact faces_iff_register reg
  | deregister dereg => exact faces_iff_deregister dereg
  | promote n stake => exact faces_iff_promote n stake
  | award a => exact iff_of_true (facesOf_award a) trivial
  | penalty pen => exact faces_iff_penalty pen
  | uptime upt => exact faces_iff_uptime upt
  | challenge ch => exact faces_iff_challenge ch

/-! ### Badges as sets -/

/-- No node has two active badges of one type. -/
def BadgeSystem.Single (b : BadgeSystem) : Prop := ∀ p, b.counts p ≤ 1

/-- Badges stay single if a count stays below two. -/
theorem BadgeSystem.Single.update {b' : BadgeSystem} (h : b.Single) {p : Hash × BadgeType} {k : ℕ}
    (hb' : b'.counts = Function.update b.counts p k) (hk : k ≤ 1) : b'.Single := by
  intro q
  rw [hb', Function.update_apply]
  split
  · exact hk
  · exact h q

/-- An award keeps badges single. -/
theorem BadgeSystem.Single.awardBadge (h : b.Single) (n : Hash) (t : BadgeType) (height : UInt64)
    (reason : Bytes) (now : UInt64) : (b.awardBadge n t height reason now).Single :=
  h.update (counts_awardBadge height reason now) (max_le le_rfl (h _))

/-- A revocation keeps badges single. -/
theorem BadgeSystem.Single.revokeBadge (h : b.Single) (n : Hash) (t : BadgeType) (reason : Bytes) :
    (b.revokeBadge n t reason).Single :=
  h.update (counts_revokeBadge reason) ((Nat.sub_le _ _).trans (h _))

/-- A penalty keeps badges single. -/
theorem BadgeSystem.Single.applyPenalty (h : b.Single) (r : NodeRegistry F) (n : Hash)
    (offense : OffenseType) (now : UInt64) : (Trust.applyPenalty r b n offense now).2.Single := by
  rintro ⟨m, t⟩
  rw [counts_applyPenalty]
  split
  · exact Nat.zero_le 1
  · exact h _

/-- An action keeps badges single. -/
theorem BadgeSystem.Single.step (h : b.Single) (r : NodeRegistry F) (a : NodeAct) :
    (a.step ctx time r b).1.2.Single := by
  cases a <;> dsimp only [NodeAct.step]
  all_goals repeat' split
  all_goals first
    | exact h
    | exact h.awardBadge _ _ _ _ _
    | exact h.applyPenalty _ _ _ _

omit [FloatArith F] in
/-- Undoing an entry keeps badges single. -/
theorem BadgeSystem.Single.undoNodes (h : x.2.Single) (op : PoppedOp) :
    (Trust.undoNodes now x op).2.Single := by
  unfold Trust.undoNodes
  split
  · exact h
  · exact h.revokeBadge _ _ _
  · exact h.revokeBadge _ _ _
  · exact h
  · exact h

/-- An action undone keeps badges single. -/
theorem BadgeSystem.Single.undoneNodes (h : x.2.Single) (a : NodeAct × UInt64) :
    (Trust.undoneNodes ctx now x a).2.Single :=
  List.foldrRecOn (motive := fun y : NodeRegistry F × BadgeSystem => y.2.Single) _ _
    (h.step x.1 a.1) fun _ hy _ _ => hy.undoNodes _

/-- **The nodes and badges are as they were**, with status, reputation, address and validator
flag. -/
structure NodesRestored (x y : NodeRegistry F × BadgeSystem) : Prop where
  nodes : x.1.faces = y.1.faces
  badges : ∀ n t, x.2.hasBadge n t = y.2.hasBadge n t

omit [FloatArith F] in
/-- Equal faces are restored nodes. -/
theorem nodesRestored_of_faces {y : NodeRegistry F × BadgeSystem} (h : facesOf y = facesOf x) :
    NodesRestored y x where
  nodes := congrArg Faces.node h
  badges n t := by
    rw [BadgeSystem.hasBadge_eq_decide, BadgeSystem.hasBadge_eq_decide,
      show y.2.counts = x.2.counts from congrArg Faces.badge h]

omit [FloatArith F] in
/-- Where badges are not held twice, the sets of badges determine their numbers. -/
theorem NodesRestored.faces {y : NodeRegistry F × BadgeSystem} (h : NodesRestored y x)
    (hx : x.2.Single) (hy : y.2.Single) : facesOf y = facesOf x := by
  have hcounts : y.2.counts = x.2.counts := by
    funext p
    obtain ⟨n, t⟩ := p
    have hbadge := h.badges n t
    rw [BadgeSystem.hasBadge_eq_decide, BadgeSystem.hasBadge_eq_decide, decide_eq_decide] at hbadge
    have hxp := hx (n, t)
    have hyp := hy (n, t)
    omega
  exact faces_eq_iff.2 ⟨h.nodes, hcounts⟩

/-! ### Blocks -/

/-- Nothing is logged yet for the height, and every operation of the block on circles has a tag:
where the octet names no operation the tag of the log entry is never set. -/
structure Tagged (D : Type) [FloatArith D] (ctx : BlockCtx) (clock : BlockClock)
    (s : Manager F) : Prop where
  clear : s.logAt ctx.height = []
  named : ∀ a ∈ circleActs D ctx clock s, a.1.Named

/-- Every action of the block on nodes, in the registry and badges it finds, is one that its log
entries undo. -/
structure NodesRevert (D : Type) [FloatArith D] (ctx : BlockCtx) (clock : BlockClock)
    (s : Manager F) : Prop extends Tagged D ctx clock s where
  acts : (nodeMachine F ctx).Guarded (NodeAct.Reverts ctx) (s.registry, s.badges)
    (nodeActs D ctx clock s)

/-- What is left of the nodes and badges. -/
def nodesAfter (D : Type) [FloatArith D] (ctx : BlockCtx) (clock : BlockClock) (now : UInt64)
    (s : Manager F) : NodeRegistry F × BadgeSystem :=
  ((rolledBack D ctx clock now s).registry, (rolledBack D ctx clock now s).badges)

omit [FloatArith F] in
/-- Off a boundary nothing is swept. -/
theorem expirySweep_of_ne {height : UInt64} (h : height % periodLength ≠ 0) (s : Manager F) :
    expirySweep height now s = s := by
  unfold expirySweep isPeriodBoundary
  rw [if_neg (by simp [h])]

/-- Nodes and badges go through their own actions and the undoing of those. -/
theorem nodesAfter_eq (D : Type) [FloatArith D] {clock : BlockClock} {s : Manager F}
    (hheight : ctx.height % periodLength ≠ 0) (hinit : s.initialized = true)
    (hclear : s.logAt ctx.height = []) :
    nodesAfter D ctx clock now s =
      (nodeMachine F ctx).rollback (undoNodes now) (s.registry, s.badges)
        (nodeActs D ctx clock s) := by
  refine (nodesPart ctx now).rolledBack hinit ?_ ?_
  · rw [hclear, List.filter_nil]
  · intro s
    rw [expirySweep_of_ne hheight]

/-- **Nodes and badges after a block is taken back** are as they were, off a period boundary, if
every action of the block on nodes is one that its log entries undo.  For a block with one such
action, where no node has a badge twice, this is necessary. -/
theorem nodes_rolledBack (D : Type) [FloatArith D] (ctx : BlockCtx) (clock : BlockClock)
    (now : UInt64) (s : Manager F) (hheight : ctx.height % periodLength ≠ 0) :
    (NodesRevert D ctx clock s →
        NodesRestored (nodesAfter D ctx clock now s) (s.registry, s.badges)) ∧
      (s.initialized = true → Tagged D ctx clock s → ∀ a, nodeActs D ctx clock s = [a] →
        s.badges.Single →
        (NodesRestored (nodesAfter D ctx clock now s) (s.registry, s.badges) ↔
          NodeAct.Reverts ctx (s.registry, s.badges) a)) := by
  constructor
  · intro h
    cases hinit : s.initialized with
    | false =>
      rw [nodesAfter, rolledBack_uninitialized hinit]
      exact ⟨rfl, fun _ _ => rfl⟩
    | true =>
      rw [nodesAfter_eq D hheight hinit h.clear]
      exact nodesRestored_of_faces ((nodeMachine F ctx).rollback_related
        (undoNodes_congruence now) (fun _ a ha => (faces_iff_reverts now a).2 ha) h.acts)
  · intro hinit htagged a hacts hsingle
    have hone : nodesAfter D ctx clock now s = undoneNodes ctx now (s.registry, s.badges) a := by
      rw [nodesAfter_eq D hheight hinit htagged.clear, hacts, Machine.rollback, Machine.run_cons,
        Machine.run_nil, List.append_nil]
      rfl
    rw [hone, ← faces_iff_reverts now]
    exact ⟨fun h => h.faces hsingle (BadgeSystem.Single.undoneNodes hsingle a),
      nodesRestored_of_faces⟩

end

/-! ### A registration that leaves a badge -/

/-- A block whose miner transaction carries a registration. -/
def registrationBlock (height : UInt64) : BlockCtx where
  env := ⟨sevenCurve.crypto, fun _ => none, ⟨Pod32.null, Pod32.null⟩⟩
  block :=
    { minerTx := { tx := { extra :=
        (packBlob 0xA0 (Registration.codec.write ownerRegistration)).getD [] } } }
  height
  hfVersion := 18

/-- **A registration that is taken back leaves the welcome badge** active. -/
theorem registration_leaves_badge :
    ¬ ∀ (ctx : BlockCtx) (clock : BlockClock) (now : UInt64) (s : Manager ℚ),
        ctx.height % periodLength ≠ 0 → s.initialized = true → s.logAt ctx.height = [] →
        NodesRestored (nodesAfter ℚ ctx clock now s) (s.registry, s.badges) := by
  intro h
  have hrestored := h (registrationBlock 100) (stillClock 2000) 2060 {} (by decide) rfl (by decide)
  have hbadge := hrestored.badges (Pod32.single 9) .welcome
  revert hbadge
  decide +kernel

/-- The ban of an active node reverts. -/
theorem strangerBan_reverts :
    NodesRevert ℚ (banBlock (strangerBan 9 2)) (stillClock 2000) victimState where
  clear := by decide
  named := by decide +kernel
  acts := by decide +kernel

/-- A ban of an active node is undone. -/
theorem strangerBan_restored :
    (nodeActs ℚ (banBlock (strangerBan 9 2)) (stillClock 2000) victimState).length = 1 ∧
      NodesRestored (nodesAfter ℚ (banBlock (strangerBan 9 2)) (stillClock 2000) 2060 victimState)
        (victimState.registry, victimState.badges) :=
  ⟨by decide +kernel, (nodes_rolledBack ℚ (banBlock (strangerBan 9 2)) (stillClock 2000) 2060
    victimState (by decide)).1 strangerBan_reverts⟩

end Mevacoin.Trust
