import Mevacoin.Trust.Manager

/-!
# A block as a list of actions

An action is what is left of a section of `process_mevatrust_txs` once its checks have passed.
-/

namespace Mevacoin.Trust

open Lib Std

/-- What a payload does to nodes and badges. -/
inductive NodeAct where
  | register (reg : Registration)
  | deregister (dereg : Deregister)
  | promote (n : Hash) (stake : UInt64)
  | award (a : BadgeAward)
  | penalty (pen : Penalty)
  | uptime (upt : Uptime)
  | challenge (ch : Challenge)

/-- What a payload does to circles. -/
inductive CircleAct where
  | op (o : CircleOp) (txHash : Hash)
  | vote (v : CircleVote)

/-- What a payload does. -/
inductive Action where
  | node (a : NodeAct)
  | circle (a : CircleAct)
  | chainProof (cp : ChainProof)
  | store (op : StoreOp) (t : LoadedTx)
  | poolDistribution (amount : UInt64)

section

variable {F : Type} [FloatArith F]

/-! ### Nodes and badges -/

/-- The node registry and the badges after an action, and what is logged. -/
def NodeAct.step (ctx : BlockCtx) (now : UInt64) (r : NodeRegistry F) (b : BadgeSystem) :
    NodeAct → (NodeRegistry F × BadgeSystem) × List PoppedOp
  | register reg =>
    match r.registerNodeOnchain reg ctx.height ctx.hfVersion now with
    | some r' =>
      ((r', b.awardBadge reg.nodeId .welcome ctx.height (asciiBytes "new-registration") now),
        [.register reg.nodeId])
    | none =>
      if r.isWalletPubkeyRegistered reg.walletPubkey then
        match r.getNodeByPubkey reg.walletPubkey with
        | none => ((r, b), [])
        | some existing =>
          (applyPenalty r b existing.nodeId .doubleRegistration now, [.penalty existing.nodeId])
      else ((r, b), [])
  | deregister dereg =>
    match r.deregisterNodeOnchain dereg with
    | none => ((r, b), [])
    | some r' => ((r', b), [.deregister dereg.nodeId])
  | promote n stake =>
    match r.getNodeById n with
    | none => ((r, b), [.badgeAward n .networkValidator])
    | some e =>
      if e.isValidator then ((r, b), [.badgeAward n .networkValidator])
      else
        (((r.updateNodeValidator n true ctx.height stake now).getD r,
            b.awardBadge n .networkValidator ctx.height (asciiBytes "validator-promotion") now),
          [.validatorPromotion n, .badgeAward n .networkValidator])
  | award a =>
    let t := BadgeType.ofUInt8 a.badgeType
    if b.hasBadge a.nodeId t then ((r, b), [])
    else
      ((r, b.awardBadge a.nodeId t a.awardedHeight (asciiBytes "on-chain-replay") now),
        [.badgeAward a.nodeId t])
  | penalty pen =>
    (match PenOpType.ofUInt8 pen.opType with
      | .ban => ((r.banNode pen.nodeId pen.reason now).getD r, b)
      | .unban => ((r.unbanNode pen.nodeId now).getD r, b)
      | .penalty => applyPenalty r b pen.nodeId (OffenseType.ofName pen.offenseType) now,
      [.penalty pen.nodeId])
  | uptime upt =>
    let r' := (r.recordUptimeEvent upt.nodeId true upt.timestamp upt.peerCount).getD r
    (((r'.updateNodeSync upt.nodeId upt.syncHeight upt.isSynced now).getD r', b),
      [.uptime upt.nodeId])
  | challenge ch => ((recordChallenge r ch now, b), [.challenge ch.challengerNodeId])

/-- The engine after an action on nodes: uptime leaves its traces there. -/
def NodeAct.engine (ctx : BlockCtx) (eng : Engine) : NodeAct → Engine
  | uptime upt =>
    let hist := eng.uptimeHistory.getD upt.nodeId []
    let ev : UptimeEvent := ⟨upt.timestamp, true, ctx.height, upt.peerCount, 0⟩
    let dup := 0 < ev.blockHeight && hist.any (·.blockHeight = ev.blockHeight)
    let hist := if dup then hist else hist ++ [ev]
    { eng with uptimeHistory := eng.uptimeHistory.insert upt.nodeId hist }.recordChainUptimeSample
      upt.nodeId ctx.height ctx.block.timestamp
  | _ => eng

/-! ### Circles -/

/-- The circles after an action, and what is logged; nothing for an operation that is refused. -/
def CircleAct.step (D : Type) [FloatArith D] (ctx : BlockCtx) (now : UInt64)
    (c : CircleRegistry) : CircleAct → CircleRegistry × List PoppedOp
  | op o txHash =>
    match applyCircleOp ctx.env.crypto c o txHash ctx.height now with
    | none => (c, [])
    | some (c', po) => (c', [po])
  | vote v =>
    match applyCircleVote D ctx.env.crypto c v ctx.height now with
    | none => (c, [])
    | some (c', po) => (c', [po])

/-! ### The manager -/

/-- Append several entries to the reorganisation log of a height. -/
def Manager.logAll (s : Manager F) (height : UInt64) (ops : List PoppedOp) : Manager F :=
  ops.foldl (fun s op => s.log height op) s

/-- The manager after an action, and what is logged. -/
def Action.step (D : Type) [FloatArith D] (ctx : BlockCtx) (now : UInt64) (s : Manager F) :
    Action → Manager F × List PoppedOp
  | node a =>
    let out := a.step ctx now s.registry s.badges
    ({ s with
        registry := out.1.1, badges := out.1.2, engine := a.engine ctx s.engine }.logAll
          ctx.height out.2, out.2)
  | circle a =>
    let out := a.step D ctx now s.circles
    ({ s with circles := out.1 }.logAll ctx.height out.2, out.2)
  | chainProof cp =>
    ({ s with
        engine := s.engine.recordChainProofSample cp.nodeId ctx.height cp.proofHeight }.log
          ctx.height (.chainProof cp.nodeId), [.chainProof cp.nodeId])
  | store op t =>
    let store := s.store.apply ctx.env.crypto ctx.env.poolAddress t.tx t.hash op ctx.height now
    ({ s with store }.log ctx.height (.store op.storeId op.name), [.store op.storeId op.name])
  | poolDistribution amount =>
    (s.log ctx.height (.poolDistribution amount), [.poolDistribution amount])

/-- The actions of a block at the values the clock reads, one after another. -/
def actionMachine (F D : Type) [FloatArith F] [FloatArith D] (ctx : BlockCtx) :
    Machine (Manager F) (Action × UInt64) PoppedOp where
  step s a := a.1.step D ctx a.2 s

/-! ### The actions of a transaction -/

/-- The tag of the payload. -/
def Action.tag : Action → UInt8
  | node (.register _) => 0xA0
  | node (.deregister _) => 0xA1
  | node (.award _) => 0xA2
  | circle (.op _ _) => 0xA3
  | node (.penalty _) => 0xA4
  | node (.uptime _) => 0xA5
  | node (.challenge _) => 0xA6
  | store _ _ => 0xA8
  | circle (.vote _) => 0xA9
  | poolDistribution _ => 0xAA
  | node (.promote _ _) => 0xAB
  | chainProof _ => 0xAC

/-- The actions of tag `0xA0`. -/
def registrationActions (ctx : BlockCtx) (t : LoadedTx) : List Action :=
  match parseRegistration t.tx with
  | none => []
  | some reg =>
    if !verifyRegistrationSignature ctx.env.crypto reg then []
    else if hfVersionMevatrustAntisybilBond ≤ ctx.hfVersion ∧
        t.governanceDeposit < nodeRegistrationBondAtomic then []
    else [.node (.register reg)]

/-- The actions of tag `0xA1`. -/
def deregisterActions (ctx : BlockCtx) (t : LoadedTx) : List Action :=
  match parseDeregister t.tx with
  | none => []
  | some dereg =>
    if !verifyDeregisterSignature ctx.env.crypto dereg then [] else [.node (.deregister dereg)]

/-- The actions of tag `0xAB`. -/
def validatorActions (ctx : BlockCtx) (t : LoadedTx) : List Action :=
  match parseValidator t.tx with
  | none => []
  | some val =>
    if !verifyValidatorSignature ctx.env.crypto val then []
    else if poolStake ctx.env.poolAddress t.tx < validatorMinStake then []
    else [.node (.promote val.nodeId (poolStake ctx.env.poolAddress t.tx))]

/-- The actions of tag `0xA2`: the awards whose signature holds. -/
def snapshotActions (ctx : BlockCtx) (t : LoadedTx) : List Action :=
  match parseSnapshot t.tx with
  | none => []
  | some snap =>
    (snap.badgeAwards.filter (verifyBadgeAward ctx.env.crypto)).map fun a => .node (.award a)

/-- The actions of tag `0xA3`: an operation other than a creation is refused if the
transaction was processed. -/
def circleActions (ctx : BlockCtx) (t : LoadedTx) (s : Manager F) : List Action :=
  match parseCircle t.tx with
  | none => []
  | some op =>
    if !verifyCircleSignature ctx.env.crypto op then []
    else if CircleOpType.ofUInt8 op.opType ≠ some .create ∧
        s.circles.isTxProcessed op.circleId t.hash then []
    else [.circle (.op op t.hash)]

/-- The actions of tag `0xA9`. -/
def circleVoteActions (ctx : BlockCtx) (t : LoadedTx) : List Action :=
  match parseCircleVote t.tx with
  | none => []
  | some v => if !verifyCircleVoteSignature ctx.env.crypto v then [] else [.circle (.vote v)]

/-- The actions of tag `0xA4`. -/
def penaltyActions (ctx : BlockCtx) (t : LoadedTx) : List Action :=
  match parsePenalty t.tx with
  | none => []
  | some pen => if !verifyPenaltySignature ctx.env.crypto pen then [] else [.node (.penalty pen)]

/-- The actions of tag `0xA5`. -/
def uptimeActions (ctx : BlockCtx) (t : LoadedTx) (s : Manager F) : List Action :=
  match parseUptime t.tx with
  | none => []
  | some upt =>
    if !verifyUptimeSignature ctx.env.crypto upt then []
    else if hfVersionMevatrustAntisybil ≤ ctx.hfVersion ∧
        s.registry.bound upt.nodeId upt.nodePubkey = false then []
    else [.node (.uptime upt)]

/-- The actions of tag `0xA6`. -/
def challengeActions (ctx : BlockCtx) (t : LoadedTx) (s : Manager F) : List Action :=
  match parseChallenge t.tx with
  | none => []
  | some ch =>
    if !verifyChallengeSignatures ctx.env.crypto ch then []
    else if hfVersionMevatrustAntisybil ≤ ctx.hfVersion ∧
        (s.registry.bound ch.challengerNodeId ch.challengerPubkey &&
          s.registry.bound ch.challengedNodeId ch.challengedPubkey) = false then []
    else [.node (.challenge ch)]

/-- The actions of tag `0xAC`. -/
def chainProofActions (ctx : BlockCtx) (t : LoadedTx) (s : Manager F) : List Action :=
  match parseChainProof t.tx with
  | none => []
  | some cp =>
    if ctx.hfVersion < hfVersionMevatrustAntisybil then []
    else if !verifyChainProofSignature ctx.env.crypto cp then []
    else if chainProofHolds ctx s.registry cp = false then []
    else [.chainProof cp]

/-- The actions of tag `0xA8`. -/
def storeActions (ctx : BlockCtx) (t : LoadedTx) : List Action :=
  match parseStore t.tx with
  | none => []
  | some op => if !verifyStoreOp ctx.env.crypto op then [] else [.store op t]

/-- The actions of tag `0xAA`. -/
def poolDistributionActions (t : LoadedTx) : List Action :=
  match parseTagged PoolDistribution.codec poolDistributionTag t.tx with
  | none => []
  | some pd => [.poolDistribution pd.totalDistributed]

/-- The sections, each with its actions. -/
def actingSections (D : Type) [FloatArith D] (ctx : BlockCtx) (t : LoadedTx) (now : UInt64) :
    List ((Manager F → Flow (Manager F)) × (Manager F → List (Action × UInt64))) :=
  let timed (acts : List Action) := acts.map (·, now)
  [(registrationSection ctx t now, fun _ => timed (registrationActions ctx t)),
    (deregisterSection ctx t, fun _ => timed (deregisterActions ctx t)),
    (validatorSection ctx t now, fun _ => timed (validatorActions ctx t)),
    (snapshotSection ctx t now, fun _ => timed (snapshotActions ctx t)),
    (circleSection ctx t now, fun s => timed (circleActions ctx t s)),
    (circleVoteSection D ctx t now, fun _ => timed (circleVoteActions ctx t)),
    (penaltySection ctx t now, fun _ => timed (penaltyActions ctx t)),
    (uptimeSection ctx t now, fun s => timed (uptimeActions ctx t s)),
    (challengeSection ctx t now, fun s => timed (challengeActions ctx t s)),
    (chainProofSection ctx t, fun s => timed (chainProofActions ctx t s)),
    (storeSection ctx t now, fun _ => timed (storeActions ctx t)),
    (poolDistributionSection ctx t, fun _ => timed (poolDistributionActions t))]

/-- The actions of a transaction, as far as its sections get. -/
def txActions (D : Type) [FloatArith D] (ctx : BlockCtx) (t : LoadedTx) (now : UInt64)
    (s : Manager F) : List (Action × UInt64) :=
  Flow.performed (actingSections D ctx t now) s

/-- The actions of a block. -/
def blockActions (D : Type) [FloatArith D] (ctx : BlockCtx) :
    List LoadedTx → (ℕ → UInt64) → Manager F → List (Action × UInt64)
  | [], _, _ => []
  | t :: ts, time, s =>
    txActions D ctx t (time 0) s ++
      blockActions D ctx ts (fun i => time (i + 1)) (processTx D ctx t (time 0) s)

/-! ### Sections are runs of their actions -/

variable (D : Type) [FloatArith D] {ctx : BlockCtx} {t : LoadedTx} {now : UInt64} {s : Manager F}

/-- What a section leaves is the run of the actions. -/
def Performs (ctx : BlockCtx) (now : UInt64) (s : Manager F) (x : Flow (Manager F))
    (acts : List Action) : Prop :=
  x.state = ((actionMachine F D ctx).run s (acts.map (·, now))).1

variable {D} in
/-- A check that leaves the section, or the transaction, with the state as it is. -/
theorem Performs.check {c : Prop} [Decidable c] {x y : Flow (Manager F)} {acts : List Action}
    (hy : y.state = s) (h : Performs D ctx now s x acts) :
    Performs D ctx now s (if c then y else x) (if c then [] else acts) := by
  split_ifs
  · exact hy
  · exact h

/-- The section of tag `0xA0`. -/
theorem registrationSection_performs :
    Performs D ctx now s (registrationSection ctx t now s) (registrationActions ctx t) := by
  unfold registrationSection registrationActions
  cases parseRegistration t.tx with
  | none => rfl
  | some reg =>
    refine .check rfl (.check rfl ?_)
    show _ = (Action.step D ctx now s (.node (.register reg))).1
    unfold Action.step NodeAct.step
    dsimp only
    cases s.registry.registerNodeOnchain reg ctx.height ctx.hfVersion now with
    | some r => rfl
    | none =>
      cases s.registry.isWalletPubkeyRegistered reg.walletPubkey with
      | false => rfl
      | true =>
        cases s.registry.getNodeByPubkey reg.walletPubkey with
        | none => rfl
        | some e => rfl

/-- The section of tag `0xA1`. -/
theorem deregisterSection_performs :
    Performs D ctx now s (deregisterSection ctx t s) (deregisterActions ctx t) := by
  unfold deregisterSection deregisterActions
  cases parseDeregister t.tx with
  | none => rfl
  | some dereg =>
    refine .check rfl ?_
    show _ = (Action.step D ctx now s (.node (.deregister dereg))).1
    unfold Action.step NodeAct.step
    dsimp only
    cases s.registry.deregisterNodeOnchain dereg with
    | none => rfl
    | some r => rfl

/-- The section of tag `0xAB`. -/
theorem validatorSection_performs :
    Performs D ctx now s (validatorSection ctx t now s) (validatorActions ctx t) := by
  unfold validatorSection validatorActions
  cases parseValidator t.tx with
  | none => rfl
  | some val =>
    refine .check rfl (.check rfl ?_)
    show _ = (Action.step D ctx now s (.node (.promote val.nodeId _))).1
    unfold Action.step NodeAct.step Manager.promoteToValidator
    dsimp only
    cases s.registry.getNodeById val.nodeId with
    | none => rfl
    | some e =>
      dsimp only
      cases e.isValidator with
      | false | true => rfl

/-- An award whose signature holds is an action, one whose signature does not is nothing. -/
theorem applyAward_eq_run (a : BadgeAward) :
    applyAward ctx now s a = ((actionMachine F D ctx).run s
      ((if verifyBadgeAward ctx.env.crypto a then [Action.node (.award a)] else []).map
        (·, now))).1 := by
  unfold applyAward
  cases verifyBadgeAward ctx.env.crypto a with
  | false => rfl
  | true =>
    show _ = (Action.step D ctx now s (.node (.award a))).1
    unfold Action.step NodeAct.step
    dsimp only
    cases s.badges.hasBadge a.nodeId (BadgeType.ofUInt8 a.badgeType) with
    | false | true => rfl

/-- The section of tag `0xA2`. -/
theorem snapshotSection_performs :
    Performs D ctx now s (snapshotSection ctx t now s) (snapshotActions ctx t) := by
  unfold snapshotSection snapshotActions
  cases parseSnapshot t.tx with
  | none => rfl
  | some snap =>
    dsimp only [Performs, Flow.state_next]
    induction snap.badgeAwards generalizing s with
    | nil => rfl
    | cons a as ih =>
      rw [List.foldl_cons, ih, applyAward_eq_run D a, List.filter_cons]
      split
      · rfl
      · rfl

/-- The section of tag `0xA3`. -/
theorem circleSection_performs :
    Performs D ctx now s (circleSection ctx t now s) (circleActions ctx t s) := by
  unfold circleSection circleActions
  cases parseCircle t.tx with
  | none => rfl
  | some op =>
    refine .check rfl (.check rfl ?_)
    show _ = (Action.step D ctx now s (.circle (.op op t.hash))).1
    unfold Action.step CircleAct.step
    dsimp only
    cases applyCircleOp ctx.env.crypto s.circles op t.hash ctx.height now with
    | none => rfl
    | some out => rfl

/-- The section of tag `0xA9`. -/
theorem circleVoteSection_performs :
    Performs D ctx now s (circleVoteSection D ctx t now s) (circleVoteActions ctx t) := by
  unfold circleVoteSection circleVoteActions
  cases parseCircleVote t.tx with
  | none => rfl
  | some v =>
    refine .check rfl ?_
    show _ = (Action.step D ctx now s (.circle (.vote v))).1
    unfold Action.step CircleAct.step
    dsimp only
    cases applyCircleVote D ctx.env.crypto s.circles v ctx.height now with
    | none => rfl
    | some out => rfl

/-- The section of tag `0xA4`. -/
theorem penaltySection_performs :
    Performs D ctx now s (penaltySection ctx t now s) (penaltyActions ctx t) := by
  unfold penaltySection penaltyActions
  cases parsePenalty t.tx with
  | none => rfl
  | some pen =>
    refine .check rfl ?_
    show _ = (Action.step D ctx now s (.node (.penalty pen))).1
    unfold Action.step NodeAct.step applyPenaltyOp
    dsimp only
    cases PenOpType.ofUInt8 pen.opType with
    | ban | unban | penalty => rfl

/-- The section of tag `0xA5`. -/
theorem uptimeSection_performs :
    Performs D ctx now s (uptimeSection ctx t now s) (uptimeActions ctx t s) := by
  unfold uptimeSection uptimeActions
  cases parseUptime t.tx with
  | none => rfl
  | some upt => exact .check rfl (.check rfl rfl)

/-- The section of tag `0xA6`. -/
theorem challengeSection_performs :
    Performs D ctx now s (challengeSection ctx t now s) (challengeActions ctx t s) := by
  unfold challengeSection challengeActions
  cases parseChallenge t.tx with
  | none => rfl
  | some ch => exact .check rfl (.check rfl rfl)

/-- The section of tag `0xAC`. -/
theorem chainProofSection_performs :
    Performs D ctx now s (chainProofSection ctx t s) (chainProofActions ctx t s) := by
  unfold chainProofSection chainProofActions
  cases parseChainProof t.tx with
  | none => rfl
  | some cp => exact .check rfl (.check rfl (.check rfl rfl))

/-- The section of tag `0xA8`. -/
theorem storeSection_performs :
    Performs D ctx now s (storeSection ctx t now s) (storeActions ctx t) := by
  unfold storeSection storeActions
  cases parseStore t.tx with
  | none => rfl
  | some op => exact .check rfl rfl

/-- The section of tag `0xAA`. -/
theorem poolDistributionSection_performs :
    Performs D ctx now s (poolDistributionSection ctx t s) (poolDistributionActions t) := by
  unfold poolDistributionSection poolDistributionActions
  cases parseTagged PoolDistribution.codec poolDistributionTag t.tx with
  | none => rfl
  | some pd => rfl

/-! ### Blocks are runs of their actions -/

/-- What a section does is of its tag. -/
theorem actingSections_tag (ctx : BlockCtx) (t : LoadedTx) (now : UInt64) :
    List.Forall₂ (fun x tag => ∀ s, ∀ a ∈ x.2 s, a.1.tag = tag)
      (actingSections (F := F) D ctx t now)
      [0xA0, 0xA1, 0xAB, 0xA2, 0xA3, 0xA9, 0xA4, 0xA5, 0xA6, 0xAC, 0xA8, 0xAA] := by
  repeat' constructor
  all_goals
    intro s a ha
    obtain ⟨b, hb, rfl⟩ := List.mem_map.1 ha
    simp only [registrationActions, deregisterActions, validatorActions, snapshotActions,
      circleActions, circleVoteActions, penaltyActions, uptimeActions, challengeActions,
      chainProofActions, storeActions, poolDistributionActions] at hb
    repeat' split at hb
    all_goals
      first
        | exact absurd hb List.not_mem_nil
        | obtain rfl := List.mem_singleton.1 hb
          rfl
        | obtain ⟨_, -, rfl⟩ := List.mem_map.1 hb
          rfl

/-- What a section does is a run of its actions. -/
theorem actingSections_eq_run (ctx : BlockCtx) (t : LoadedTx) (now : UInt64) :
    ∀ x ∈ actingSections (F := F) D ctx t now, ∀ s,
      (x.1 s).state = ((actionMachine F D ctx).run s (x.2 s)).1 := by
  intro x hx s
  simp only [actingSections, List.mem_cons, List.not_mem_nil, or_false] at hx
  rcases hx with rfl | rfl | rfl | rfl | rfl | rfl | rfl | rfl | rfl | rfl | rfl | rfl
  · exact registrationSection_performs D
  · exact deregisterSection_performs D
  · exact validatorSection_performs D
  · exact snapshotSection_performs D
  · exact circleSection_performs D
  · exact circleVoteSection_performs D
  · exact penaltySection_performs D
  · exact uptimeSection_performs D
  · exact challengeSection_performs D
  · exact chainProofSection_performs D
  · exact storeSection_performs D
  · exact poolDistributionSection_performs D

theorem processTx_eq_run (ctx : BlockCtx) (t : LoadedTx) (now : UInt64) (s : Manager F) :
    processTx D ctx t now s = ((actionMachine F D ctx).run s (txActions D ctx t now s)).1 :=
  Flow.stages_eq_run (actingSections D ctx t now) (actingSections_eq_run D ctx t now) s

/-- **The processing of a block is the run of its actions.** -/
theorem processTxs_eq_run (ctx : BlockCtx) (txs : List LoadedTx) (time : ℕ → UInt64)
    (s : Manager F) :
    processTxs D ctx txs time s =
      ((actionMachine F D ctx).run s (blockActions D ctx txs time s)).1 := by
  induction txs generalizing time s with
  | nil => rfl
  | cons t ts ih =>
    rw [processTxs, ih, blockActions, Machine.run_append, ← processTx_eq_run]

/-! ### The log -/

/-- What is logged for a height. -/
def Manager.logAt (s : Manager F) (height : UInt64) : List PoppedOp := s.reorgLog.getD height []

omit [FloatArith F] in
theorem Manager.logAt_log (s : Manager F) (height h : UInt64) (op : PoppedOp) :
    (s.log height op).logAt h = if height = h then s.logAt h ++ [op] else s.logAt h := by
  unfold Manager.log Manager.logAt
  simp only [ExtTreeMap.getD_insert, LawfulEqOrd.compare_eq_iff_eq]
  split
  case isTrue heq => rw [heq]
  case isFalse => rfl

omit [FloatArith F] in
theorem Manager.logAt_logAll (s : Manager F) (height h : UInt64) (ops : List PoppedOp) :
    (s.logAll height ops).logAt h = if height = h then s.logAt h ++ ops else s.logAt h := by
  unfold Manager.logAll
  induction ops generalizing s with
  | nil => simp
  | cons op ops ih =>
    rw [List.foldl_cons, ih, Manager.logAt_log]
    split
    · rw [List.append_assoc, List.singleton_append]
    · rfl

/-- An action logs at the height of its block what the machine says. -/
theorem logAt_actionMachine_step (a : Action × UInt64) (h : UInt64) :
    ((actionMachine F D ctx).step s a).1.logAt h =
      if ctx.height = h then s.logAt h ++ ((actionMachine F D ctx).step s a).2
      else s.logAt h := by
  obtain ⟨a, now⟩ := a
  cases a with
  | node | circle => exact Manager.logAt_logAll _ _ _ _
  | chainProof | store | poolDistribution => exact Manager.logAt_log _ _ _ _

/-- A run of actions logs, at the height of the block, its events. -/
theorem logAt_actionMachine_run (as : List (Action × UInt64)) (h : UInt64) :
    ((actionMachine F D ctx).run s as).1.logAt h =
      if ctx.height = h then s.logAt h ++ ((actionMachine F D ctx).run s as).2
      else s.logAt h := by
  induction as generalizing s with
  | nil => simp
  | cons a as ih =>
    rw [Machine.run_cons, ih, logAt_actionMachine_step]
    split
    · rw [List.append_assoc]
    · rfl

omit [FloatArith F] in
/-- What does not see the log does not see what is written to it. -/
theorem Manager.logAll_project {τ : Type*} {p : Manager F → τ}
    (hp : ∀ (s : Manager F) l, p { s with reorgLog := l } = p s) (s : Manager F) (height : UInt64)
    (ops : List PoppedOp) : p (s.logAll height ops) = p s :=
  List.foldlRecOn (motive := fun s' : Manager F => p s' = p s) _ _ rfl
    fun s' hs' _ _ => (hp s' _).trans hs'

omit [FloatArith F] in
theorem Manager.logAll_toRewardState (s : Manager F) (height : UInt64) (ops : List PoppedOp) :
    (s.logAll height ops).toRewardState = s.toRewardState :=
  Manager.logAll_project (p := (·.toRewardState)) (fun _ _ => rfl) s height ops

/-- No action touches `m_initialized`. -/
theorem initialized_actionMachine_run (as : List (Action × UInt64)) :
    ((actionMachine F D ctx).run s as).1.initialized = s.initialized := by
  induction as generalizing s with
  | nil => rfl
  | cons a as ih =>
    rw [Machine.run_cons, ih]
    obtain ⟨a, now⟩ := a
    cases a with
    | node a =>
      exact (congrArg RewardState.initialized (Manager.logAll_toRewardState _ _ _)).trans rfl
    | circle a => exact congrArg RewardState.initialized (Manager.logAll_toRewardState _ _ _)
    | chainProof | store | poolDistribution => rfl

end

end Mevacoin.Trust
