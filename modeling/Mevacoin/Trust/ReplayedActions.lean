import Mevacoin.Trust.CircleRollback
import Mevacoin.Trust.Gates
import Mevacoin.Trust.NodeMoves

/-!
# Actions that are replayed

A block that is processed again meets a state that is not the one it met before.
-/

namespace Mevacoin.Trust

open Lib Std

/-! ### Operations on circles that do nothing -/

/-- The operation does nothing in the registry it is applied to. -/
def CircleAct.Idle (ctx : BlockCtx) (c : CircleRegistry) : CircleAct → Prop
  | op o _ =>
    match CircleOpType.ofUInt8 o.opType with
    | some .create => ¬ c.Accepts o.circleName
    | some .join => ∀ e ∈ c.circles[o.circleId]?, ¬ e.Admits o.targetPubkey o.signerPubkey
    | some .leave => ∀ e ∈ c.circles[o.circleId]?, ¬ e.Releases o.targetPubkey o.signerPubkey
    | some .changeAdmin => ∀ e ∈ c.circles[o.circleId]?,
        ¬ (e.adminPubkey = o.signerPubkey ∧ o.targetPubkey ∈ e.members)
    | some .disband => ∀ e ∈ c.circles[o.circleId]?, e.adminPubkey ≠ o.signerPubkey
    | none => True
  | vote v => VoteOpType.ofUInt8 v.opType = none ∨ CircleAct.Reverts ctx c (.vote v, 0)

instance (ctx : BlockCtx) (c : CircleRegistry) : ∀ a : CircleAct, Decidable (a.Idle ctx c)
  | .op o _ => by
    unfold CircleAct.Idle
    dsimp only
    exact match CircleOpType.ofUInt8 o.opType with
      | none | some .create | some .join | some .leave | some .changeAdmin | some .disband =>
        inferInstance
  | .vote v => inferInstanceAs (Decidable (VoteOpType.ofUInt8 v.opType = none ∨ _))

section

variable {D : Type} [FloatArith D] {ctx : BlockCtx} {c : CircleRegistry} {now : UInt64}

/-- No vote is undone. -/
theorem undoneCircles_vote (v : CircleVote) (time : UInt64) :
    undoneCircles D ctx time c (.vote v, now) = (CircleAct.step D ctx now c (.vote v)).1 := by
  match hop : VoteOpType.ofUInt8 v.opType with
  | some .proposeChangeAdmin =>
    rw [undoneCircles_of_step (step_propose hop), step_propose hop]
    rfl
  | some .castVote =>
    cases hc : c.castVote v.proposalId v.signerPubkey v.voteYes ctx.height with
    | none =>
      have hstep : CircleAct.step D ctx now c (.vote v) = (c, []) := by rw [step_castVote hop, hc]
      rw [undoneCircles_of_refused hstep, hstep]
    | some c' =>
      have hstep : CircleAct.step D ctx now c (.vote v) =
          (c', [.circleVote v.circleId v.targetPubkey]) := by rw [step_castVote hop, hc]
      rw [undoneCircles_of_step hstep, hstep]
      rfl
  | some .finalizeVote =>
    rw [undoneCircles_finalizeVote hop, step_finalizeVote hop]
  | none =>
    rw [undoneCircles_of_step (step_unsetVote hop), step_unsetVote hop]
    rfl

/-- Idle operations leave the circles. -/
theorem CircleAct.Idle.step {a : CircleAct} (h : a.Idle ctx c) : (a.step D ctx now c).1 = c := by
  cases a with
  | op o txHash =>
    unfold CircleAct.Idle at h
    match hop : CircleOpType.ofUInt8 o.opType with
    | some .create =>
      simp only [hop] at h
      rw [step_create_refused hop h]
    | some .join =>
      simp only [hop] at h
      rw [step_join_refused hop h]
    | some .leave =>
      simp only [hop] at h
      rw [step_leave_refused hop h]
    | some .changeAdmin =>
      simp only [hop] at h
      rw [step_changeAdmin_refused hop h]
    | some .disband =>
      simp only [hop] at h
      rw [step_disband_refused hop h]
    | none => rw [step_unset hop]
  | vote v =>
    rcases h with hop | h
    · rw [step_unsetVote hop]
    · replace h : CircleAct.Reverts ctx c (.vote v, now) := h
      match hop : VoteOpType.ofUInt8 v.opType with
      | some .proposeChangeAdmin => rw [← undoneCircles_vote v 0, undoneCircles_propose_eq hop h]
      | some .castVote => rw [← undoneCircles_vote v 0, undoneCircles_castVote_eq hop h]
      | some .finalizeVote => rw [← undoneCircles_vote v 0, undoneCircles_finalizeVote_eq hop h]
      | none => rw [step_unsetVote hop]

end

/-! ### Badges that are there already -/

/-- Whoever has a badge in the first system has it in the second. -/
def BadgeSystem.Le (b b' : BadgeSystem) : Prop :=
  ∀ n t, b.hasBadge n t = true → b'.hasBadge n t = true

theorem BadgeSystem.Le.refl (b : BadgeSystem) : b.Le b := fun _ _ h => h

theorem BadgeSystem.Le.trans {b b' b'' : BadgeSystem} (h : b.Le b') (h' : b'.Le b'') : b.Le b'' :=
  fun n t hb => h' n t (h n t hb)

/-- An award adds badges. -/
theorem BadgeSystem.le_awardBadge (b : BadgeSystem) (n : Hash) (t : BadgeType) (height : UInt64)
    (reason : Bytes) (now : UInt64) : b.Le (b.awardBadge n t height reason now) :=
  fun _ _ => hasBadge_awardBadge_of

/-- A badge is awarded once. -/
theorem awardBadge_of_le {b b' : BadgeSystem} {n : Hash} {t : BadgeType} {height now : UInt64}
    {reason : Bytes} (h : (b.awardBadge n t height reason now).Le b') :
    b'.awardBadge n t height reason now = b' :=
  if_pos (h n t (BadgeSystem.hasBadge_awardBadge_self height now reason))

section

variable {F : Type}

/-- The penalty leaves the badges alone: it is not for malicious activity, or the node is not
registered. -/
def NodeAct.Spares (r : NodeRegistry F) : NodeAct → Prop
  | penalty pen => PenOpType.ofUInt8 pen.opType = .penalty →
      OffenseType.ofName pen.offenseType = .maliciousActivity →
        (r.nodes[pen.nodeId]?).isNone = true
  | _ => True

instance (r : NodeRegistry F) : ∀ a : NodeAct, Decidable (a.Spares r)
  | .penalty _ => inferInstanceAs (Decidable (_ → _ → _))
  | .register _ | .deregister _ | .promote _ _ | .award _ | .uptime _ | .challenge _ =>
    .isTrue trivial

variable [FloatArith F] {ctx : BlockCtx} {now : UInt64} {r : NodeRegistry F} {b b' : BadgeSystem}
  {n : Hash} {offense : OffenseType}

/-- The registry after an action has nothing to do with the badges. -/
theorem NodeAct.step_registry (a : NodeAct) (r : NodeRegistry F) (b b' : BadgeSystem) :
    (a.step ctx now r b).1.1 = (a.step ctx now r b').1.1 := by
  cases a with
  | register reg =>
    dsimp only [NodeAct.step]
    split
    · rfl
    · split
      · split
        · rfl
        · rw [applyPenalty_registry, applyPenalty_registry]
      · rfl
  | promote n stake =>
    dsimp only [NodeAct.step]
    split
    · rfl
    · split
      · rfl
      · rfl
  | award a =>
    have h (b : BadgeSystem) : (NodeAct.step ctx now r b (.award a)).1.1 = r := by
      dsimp only [NodeAct.step]
      split
      · rfl
      · rfl
    rw [h, h]
  | penalty pen =>
    dsimp only [NodeAct.step]
    split
    · rfl
    · rfl
    · rw [applyPenalty_registry, applyPenalty_registry]
  | deregister dereg =>
    dsimp only [NodeAct.step]
    split
    · rfl
    · rfl
  | uptime | challenge => rfl

/-- **What an action does to the badges**: at most one award. -/
theorem NodeAct.Spares.badges (ctx : BlockCtx) (now : UInt64) {a : NodeAct} (h : a.Spares r) :
    (∀ b', (a.step ctx now r b').1.2 = b') ∨ ∃ n t height reason,
      ∀ b', (a.step ctx now r b').1.2 = BadgeSystem.awardBadge b' n t height reason now := by
  cases a with
  | register reg =>
    dsimp only [NodeAct.step]
    split
    · exact .inr ⟨_, _, _, _, fun _ => rfl⟩
    · refine .inl fun b' => ?_
      split
      · split
        · rfl
        · exact (applyPenalty_badges ..).trans (if_neg fun h => nomatch h.1)
      · rfl
  | promote n stake =>
    dsimp only [NodeAct.step]
    split
    · exact .inl fun _ => rfl
    · split
      · exact .inl fun _ => rfl
      · exact .inr ⟨_, _, _, _, fun _ => rfl⟩
  | award a =>
    refine .inr ⟨a.nodeId, BadgeType.ofUInt8 a.badgeType, a.awardedHeight,
      asciiBytes "on-chain-replay", fun b' => ?_⟩
    dsimp only [NodeAct.step]
    unfold BadgeSystem.awardBadge
    split
    · rfl
    · rfl
  | penalty pen =>
    refine .inl fun b' => ?_
    dsimp only [NodeAct.step]
    cases hop : PenOpType.ofUInt8 pen.opType with
    | ban | unban => rfl
    | penalty =>
      refine (applyPenalty_badges ..).trans (if_neg ?_)
      rintro ⟨hoffense, hreg⟩
      exact hreg (Option.isNone_iff_eq_none.1 (h hop hoffense))
  | deregister dereg =>
    refine .inl fun b' => ?_
    dsimp only [NodeAct.step]
    split
    · rfl
    · rfl
  | uptime | challenge => exact .inl fun _ => rfl

/-- No badge is lost in a step. -/
theorem NodeAct.Spares.le {a : NodeAct} (h : a.Spares r) (b : BadgeSystem) :
    b.Le (a.step ctx now r b).1.2 := by
  obtain hsame | ⟨n, t, height, reason, haward⟩ := h.badges ctx now
  · rw [hsame]
    exact .refl b
  · rw [haward]
    exact b.le_awardBadge n t height reason now

/-- An action whose badges are there already does to the nodes what it does, and no more. -/
theorem NodeAct.Spares.settled {a : NodeAct} (h : a.Spares r)
    (hle : (a.step ctx now r b).1.2.Le b') :
    (a.step ctx now r b').1 = ((a.step ctx now r b).1.1, b') := by
  refine Prod.ext (a.step_registry r b' b) ?_
  obtain hsame | ⟨n, t, height, reason, haward⟩ := h.badges ctx now
  · exact hsame b'
  · rw [haward] at hle
    rw [haward]
    exact awardBadge_of_le hle

/-- No action of the block takes a badge away. -/
def SparesBadges (ctx : BlockCtx) (x : NodeRegistry F × BadgeSystem)
    (as : List (NodeAct × UInt64)) : Prop :=
  (nodeMachine F ctx).Guarded (fun x a => a.1.Spares x.1) x as
deriving Decidable

/-- No badge is lost in a run. -/
theorem SparesBadges.le {x : NodeRegistry F × BadgeSystem} {as : List (NodeAct × UInt64)}
    (h : SparesBadges ctx x as) : x.2.Le ((nodeMachine F ctx).run x as).1.2 :=
  Machine.run_state_invariant (I := fun y : NodeRegistry F × BadgeSystem => x.2.Le y.2) _
    (.refl x.2) (fun y _ hy ha => hy.trans (ha.le y.2)) h

/-- **A run of actions whose badges are there already.** -/
theorem SparesBadges.settled {as : List (NodeAct × UInt64)} (h : SparesBadges ctx (r, b) as)
    (hle : ((nodeMachine F ctx).run (r, b) as).1.2.Le b') :
    ((nodeMachine F ctx).run (r, b') as).1 = (((nodeMachine F ctx).run (r, b) as).1.1, b') := by
  induction as generalizing r b with
  | nil => rfl
  | cons a as ih =>
    have hrest : SparesBadges ctx ((nodeMachine F ctx).step (r, b) a).1 as := h.2
    have hstep : ((nodeMachine F ctx).step (r, b') a).1 =
        (((nodeMachine F ctx).step (r, b) a).1.1, b') := h.1.settled (hrest.le.trans hle)
    rw [Machine.run_cons, hstep]
    exact ih hrest hle

end

/-! ### The same actions on nodes -/

/-- With a payload about circles the transaction carries no penalty, uptime or challenge. -/
def CirclesApart (t : LoadedTx) : Prop :=
  (parseCircle t.tx).isSome = true ∨ (parseCircleVote t.tx).isSome = true →
    (parsePenalty t.tx).isNone = true ∧ (parseUptime t.tx).isNone = true ∧
      (parseChallenge t.tx).isNone = true
deriving Decidable

section

variable {F : Type} [FloatArith F] {D : Type} [FloatArith D] {ctx : BlockCtx} {t : LoadedTx}
  {now : UInt64} {clock : BlockClock} {s s' : Manager F}

/-- The registry decides itself. -/
theorem actionMachine_registry_congr (hr : s.registry = s'.registry) (a : Action × UInt64) :
    ((actionMachine F D ctx).step s a).1.registry =
      ((actionMachine F D ctx).step s' a).1.registry := by
  obtain ⟨a, time⟩ := a
  cases a with
  | node a =>
    show (Manager.logAll _ _ _).registry = (Manager.logAll _ _ _).registry
    rw [Manager.logAll_toRewardState, Manager.logAll_toRewardState]
    rw [hr]
    exact a.step_registry _ _ _
  | circle a =>
    show (Manager.logAll _ _ _).registry = (Manager.logAll _ _ _).registry
    rw [Manager.logAll_toRewardState, Manager.logAll_toRewardState]
    exact hr
  | chainProof | store | poolDistribution => exact hr

/-- The sections from the circles on perform nothing on nodes if the transaction has no such
payload. -/
theorem trailing_onNode_eq_nil (hpen : parsePenalty t.tx = none) (hupt : parseUptime t.tx = none)
    (hch : parseChallenge t.tx = none) (s : Manager F) :
    (Flow.performed ((actingSections D ctx t now).drop 4) s).filterMap Action.onNode = [] := by
  have htag := Flow.performed_label
    (List.forall₂_drop 4 (actingSections_tag (F := F) D ctx t now)) s
  have hpassed := Flow.performed_guarded ((actingSections (F := F) D ctx t now).drop 4)
    (fun x hx => actingSections_eq_run D ctx t now x (List.mem_of_mem_drop hx))
    (fun x hx => actingSections_guarded D x (List.mem_of_mem_drop hx)) s
  rw [List.filterMap_eq_nil_iff]
  rintro ⟨a, time⟩ ha
  obtain ⟨s', hp⟩ := hpassed.of_mem ha
  cases a with
  | node a =>
    cases a with
    | penalty pen => cases hp.1.symm.trans hpen
    | uptime upt => cases hp.1.symm.trans hupt
    | challenge ch => cases hp.1.symm.trans hch
    | _ => exact absurd (htag _ ha) (by simp [Action.tag])
  | _ => rfl

/-- **Equal registries, equal actions on nodes**, whatever the circles: one transaction. -/
theorem txActions_onNode (hapart : CirclesApart t) (hr : s.registry = s'.registry) :
    (txActions D ctx t now s).filterMap Action.onNode =
      (txActions D ctx t now s').filterMap Action.onNode := by
  by_cases hcircles : (parseCircle t.tx).isSome = true ∨ (parseCircleVote t.tx).isSome = true
  · obtain ⟨hpen, hupt, hch⟩ := hapart hcircles
    rw [Option.isNone_iff_eq_none] at hpen hupt hch
    -- what comes before the circles does not depend on the state, what comes after is nothing
    have hleading : Flow.performed ((actingSections D ctx t now).take 4) s =
        Flow.performed ((actingSections D ctx t now).take 4) s' :=
      Flow.performed_congr (R := fun _ _ => True)
        (fun x hx => actingSections_eq_run D ctx t now x (List.mem_of_mem_take hx))
        (fun _ _ _ _ => trivial) (fun x hx s s' _ => leadingSections_alike D x hx s s') trivial
    unfold txActions
    rw [← List.take_append_drop 4 (actingSections D ctx t now), Flow.performed_append,
      Flow.performed_append, hleading, List.filterMap_append, List.filterMap_append]
    congr 1
    refine Eq.trans (b := []) ?_ (Eq.symm ?_)
    all_goals
      split
      · exact trailing_onNode_eq_nil hpen hupt hch _
      · rfl
  · rw [not_or, Bool.not_eq_true, Bool.not_eq_true, Option.isSome_eq_false_iff,
      Option.isSome_eq_false_iff, Option.isNone_iff_eq_none, Option.isNone_iff_eq_none] at hcircles
    rw [txActions_congr (R := fun s s' => s.registry = s'.registry)
      (fun s s' hr => ⟨fun n pk => by rw [hr], .inr hcircles⟩)
      (fun s s' a hr => actionMachine_registry_congr hr a) hr]

/-- Along a run the registry decides itself. -/
theorem registry_run_congr {as as' : List (Action × UInt64)} (hr : s.registry = s'.registry)
    (has : as.filterMap Action.onNode = as'.filterMap Action.onNode) :
    ((actionMachine F D ctx).run s as).1.registry =
      ((actionMachine F D ctx).run s' as').1.registry := by
  have hs := Machine.run_project (nodesPart (D := D) ctx 0).step s as
  have hs' := Machine.run_project (nodesPart (D := D) ctx 0).step s' as'
  have hrun := Machine.run_related (nodeMachine F ctx) (R := fun x y => x.1 = y.1)
    (fun x y a hxy => by
      show (a.1.step ctx a.2 x.1 x.2).1.1 = (a.1.step ctx a.2 y.1 y.2).1.1
      rw [hxy]
      exact a.1.step_registry _ _ _) (s := (s.registry, s.badges))
    (t := (s'.registry, s'.badges)) hr (as.filterMap Action.onNode)
  rw [hs, has, hs'] at hrun
  exact hrun

/-- The registry decides the actions. -/
theorem blockActions_onNode {txs : List LoadedTx} (hapart : ∀ t ∈ txs, CirclesApart t)
    (time : ℕ → UInt64) (hr : s.registry = s'.registry) :
    (blockActions D ctx txs time s).filterMap Action.onNode =
      (blockActions D ctx txs time s').filterMap Action.onNode := by
  induction txs generalizing time s s' with
  | nil => rfl
  | cons t ts ih =>
    have hfirst : (txActions D ctx t (time 0) s).filterMap Action.onNode =
        (txActions D ctx t (time 0) s').filterMap Action.onNode :=
      txActions_onNode (hapart t List.mem_cons_self) hr
    have hnext : (processTx D ctx t (time 0) s).registry =
        (processTx D ctx t (time 0) s').registry := by
      rw [processTx_eq_run, processTx_eq_run]
      exact registry_run_congr hr hfirst
    rw [blockActions, blockActions, List.filterMap_append, List.filterMap_append, hfirst,
      ih (fun t ht => hapart t (List.mem_cons_of_mem _ ht)) _ hnext]

end

end Mevacoin.Trust
