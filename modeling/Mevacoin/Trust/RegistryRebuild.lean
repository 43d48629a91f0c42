import Mevacoin.Trust.ReplayedActions
import Mevacoin.Trust.SampleRebuild

/-!
# Rebuilding the registry

`rebuild_registry_from_chain` repeats `process_mevatrust_txs` but not `on_new_block`.
-/

namespace Mevacoin.Trust

open Lib Std

/-! ### The conditions -/

section

variable {F : Type} [FloatArith F]

/-- The boundary promotes nobody and bans nobody. -/
def QuietBoundary (ctx : BlockCtx) (now : UInt64) (s : Manager F) : Prop :=
  isPeriodBoundary ctx.height = true →
    (∀ e ∈ s.registry.getNodesByStatus .active,
        autoPromotes (s.engine.processRewardPeriod ctx.height) e now = false) ∧
      ∀ e ∈ s.registry.getNodesByStatus .suspended, e.escalates ctx.height = false
deriving Decidable

/-- A block that a rebuild can repeat, in the state it is applied to. -/
structure Repeatable (D : Type) [FloatArith D] [FloatWiden F D] (s : Manager F)
    (b : BlockCtx × BlockClock) : Prop where
  boundary : QuietBoundary b.1 b.2.newBlock s
  spares : SparesBadges b.1 (s.registry, (onNewBlock D b.1 b.2.newBlock s).badges)
    (nodeActs D b.1 b.2 (onNewBlock D b.1 b.2.newBlock s))
  apart : ∀ t ∈ b.1.txs, CirclesApart t

instance (D : Type) [FloatArith D] [FloatWiden F D] (s : Manager F) (b : BlockCtx × BlockClock) :
    Decidable (Repeatable D s b) :=
  decidable_of_iff (_ ∧ _ ∧ _) ⟨fun h => ⟨h.1, h.2.1, h.2.2⟩, fun h => ⟨h.1, h.2, h.3⟩⟩

/-- The payloads of the transaction about circles have nothing to do in the registry. -/
def CirclesIdle (ctx : BlockCtx) (c : CircleRegistry) (t : LoadedTx) : Prop :=
  (∀ o ∈ parseCircle t.tx, verifyCircleSignature ctx.env.crypto o = true →
      (CircleOpType.ofUInt8 o.opType ≠ some .create → c.isTxProcessed o.circleId t.hash = false) →
        (CircleAct.op o t.hash).Idle ctx c) ∧
    ∀ v ∈ parseCircleVote t.tx, verifyCircleVoteSignature ctx.env.crypto v = true →
      (CircleAct.vote v).Idle ctx c
deriving Decidable

/-! ### The boundary -/

variable {D : Type} [FloatArith D] [FloatWiden F D] {ctx : BlockCtx} {clock : BlockClock}
  {now : UInt64} {s s' : Manager F}

theorem BadgeSystem.le_evaluateAllBadges (b : BadgeSystem) (eng : Engine) (r : NodeRegistry F)
    (height now : UInt64) : b.Le (b.evaluateAllBadges eng r height now) := by
  refine List.foldlRecOn (motive := fun b' : BadgeSystem => b.Le b') _ _ (.refl b) ?_
  intro b₁ h₁ e _
  refine List.foldlRecOn (motive := fun b' : BadgeSystem => b.Le b') _ _ h₁ ?_
  intro b₂ h₂ t _
  split
  · exact h₂.trans (b₂.le_awardBadge _ _ _ _ _)
  · exact h₂

/-- **A quiet boundary** leaves the registry as it is and takes no badge away. -/
theorem QuietBoundary.onNewBlock (h : QuietBoundary ctx now s) :
    (onNewBlock D ctx now s).registry = s.registry ∧
      s.badges.Le (onNewBlock D ctx now s).badges := by
  unfold Trust.onNewBlock
  split
  · exact ⟨rfl, .refl _⟩
  · rename_i hboundary
    obtain ⟨hpromote, hescalate⟩ := h (by simpa using (not_or.1 hboundary).2)
    dsimp only
    generalize hbadges : s.badges.evaluateAllBadges (s.engine.processRewardPeriod ctx.height)
      s.registry ctx.height now = badges
    have hle : s.badges.Le badges := hbadges ▸ s.badges.le_evaluateAllBadges _ _ _ _
    have hcheck : checkAutoValidatorPromotion ctx.height now
        { s with engine := s.engine.processRewardPeriod ctx.height, badges } =
        { s with engine := s.engine.processRewardPeriod ctx.height, badges } := by
      refine List.foldlRecOn (motive := fun s' : Manager F => s' = _) _ _ rfl ?_
      intro s' hs' e he
      rw [hpromote e he, hs']
      rfl
    rw [hcheck]
    generalize hdistributed : triggerDistribution D ctx
      { s with engine := s.engine.processRewardPeriod ctx.height, badges } = s₁
    have hregistry : s₁.registry = s.registry := by
      rw [← hdistributed, triggerDistribution_project D (p := (·.registry)) fun _ _ => rfl]
    have hbadges₁ : s₁.badges = badges := by
      rw [← hdistributed, triggerDistribution_project D (p := (·.badges)) fun _ _ => rfl]
    have hescalated : escalateSuspended ctx.height now s₁ = s₁ := by
      refine List.foldlRecOn (motive := fun s' : Manager F => s' = _) _ _ rfl ?_
      intro s' hs' e he
      rw [hescalate e (hregistry ▸ he), hs']
      rfl
    rw [hescalated]
    exact ⟨hregistry, hbadges₁ ▸ hle⟩

/-! ### One block -/

variable (D) in
omit [FloatWiden F D] in
/-- The nodes and badges after a block. -/
theorem nodes_processMevatrustTxs (ctx : BlockCtx) (clock : BlockClock)
    (hinit : s.initialized = true) :
    (processMevatrustTxs D ctx clock s).registry =
        (expirySweep ctx.height clock.sweep { s with registry :=
          ((nodeMachine F ctx).run (s.registry, s.badges)
            (nodeActs D ctx clock s)).1.1 }).registry ∧
      (processMevatrustTxs D ctx clock s).badges =
        ((nodeMachine F ctx).run (s.registry, s.badges) (nodeActs D ctx clock s)).1.2 := by
  have hproject := Machine.run_project (nodesPart (D := D) ctx 0).step s (actionsOf D ctx clock s)
  rw [processMevatrustTxs_eq_run hinit]
  unfold nodeActs
  rw [hproject]
  unfold expirySweep
  split
  · exact ⟨rfl, rfl⟩
  · exact ⟨rfl, rfl⟩

omit [FloatWiden F D] in
/-- The circles are as they were after a block whose payloads have nothing to do there. -/
theorem circles_of_idle {c : CircleRegistry} (hc : s.circles = c)
    (hidle : ∀ t ∈ ctx.txs, CirclesIdle ctx c t) :
    (processMevatrustTxs D ctx clock s).circles = c := by
  refine processMevatrustTxs_invariant (I := fun s : Manager F => s.circles = c)
    (P := fun _ _ => True) ?_ ?_ hc (Machine.guarded_of_forall _ (fun _ _ _ => trivial) s)
  · rintro s ⟨a, time⟩ hs - ⟨t, ht, hpassed⟩
    cases a with
    | circle a =>
      have hstep : a.Idle ctx c := by
        cases a with
        | op o txHash =>
          obtain ⟨hparse, hverify, rfl, hprocessed⟩ := hpassed
          rw [hs] at hprocessed
          exact (hidle t ht).1 o hparse hverify hprocessed
        | vote v => exact (hidle t ht).2 v hpassed.1 hpassed.2
      show (Manager.logAll _ _ _).circles = c
      rw [Manager.logAll_circles]
      show (a.step D ctx time s.circles).1 = c
      rw [hs]
      exact hstep.step
    | node a =>
      show (Manager.logAll _ _ _).circles = c
      rw [Manager.logAll_circles]
      exact hs
    | chainProof | store | poolDistribution => exact hs
  · intro s hs
    rw [expirySweep_circles]
    exact hs

/-- A rebuild at a point of the chain: the registry of this point, circles and badges of the end. -/
structure Tracks (c : CircleRegistry) (b : BadgeSystem) (s s' : Manager F) : Prop where
  initialized : s.initialized = true ∧ s'.initialized = true
  registry : s'.registry = s.registry
  circles : s'.circles = c
  badges : s'.badges = b

/-- **One block, live and again.**  The badges that the block leaves are among those of the end. -/
theorem Tracks.block {c : CircleRegistry} {b : BadgeSystem} (h : Tracks c b s s')
    (hblock : Repeatable D s (ctx, clock)) (hidle : ∀ t ∈ ctx.txs, CirclesIdle ctx c t)
    (hle : (applyBlock D ctx clock s).badges.Le b) :
    Tracks c b (applyBlock D ctx clock s) (processMevatrustTxs D ctx clock s') := by
  obtain ⟨hinit, hinit'⟩ := h.initialized
  have hnew : (onNewBlock D ctx clock.newBlock s).initialized = true :=
    (initialized_onNewBlock D).trans hinit
  have hregistry : (onNewBlock D ctx clock.newBlock s).registry = s.registry :=
    (QuietBoundary.onNewBlock hblock.boundary).1
  have hspares := hblock.spares
  unfold applyBlock at hle ⊢
  generalize onNewBlock D ctx clock.newBlock s = s₁ at *
  have hacts : nodeActs D ctx clock s' = nodeActs D ctx clock s₁ :=
    blockActions_onNode hblock.apart _ (h.registry.trans hregistry.symm)
  obtain ⟨hlive, hlivebadges⟩ := nodes_processMevatrustTxs D ctx clock hnew
  obtain ⟨hagain, hagainbadges⟩ := nodes_processMevatrustTxs D ctx clock hinit'
  rw [← hregistry] at hspares
  have hsettled := hspares.settled (hlivebadges ▸ hle)
  rw [hacts, h.badges, h.registry, ← hregistry, hsettled] at hagain hagainbadges
  refine ⟨⟨?_, ?_⟩, ?_, circles_of_idle h.circles hidle, hagainbadges⟩
  · rw [initialized_processMevatrustTxs, hnew]
  · rw [initialized_processMevatrustTxs, hinit']
  · rw [hlive, hagain]
    unfold expirySweep
    split
    · rfl
    · rfl

theorem Repeatable.le (hinit : s.initialized = true) (hblock : Repeatable D s (ctx, clock)) :
    s.badges.Le (applyBlock D ctx clock s).badges := by
  obtain ⟨hregistry, hle⟩ := QuietBoundary.onNewBlock (D := D) hblock.boundary
  have hnew : (onNewBlock D ctx clock.newBlock s).initialized = true :=
    (initialized_onNewBlock D).trans hinit
  have hspares := hblock.spares
  rw [← hregistry] at hspares
  refine hle.trans ?_
  unfold applyBlock
  rw [(nodes_processMevatrustTxs D ctx clock hnew).2]
  exact hspares.le

/-! ### The chain -/

/-- **The chain, live and again.** -/
theorem Tracks.chain {c : CircleRegistry} {b : BadgeSystem}
    {blocks : List (BlockCtx × BlockClock)} (h : Tracks c b s s')
    (hblocks : (growingChain F D).Guarded (Repeatable D) s blocks)
    (hidle : ∀ x ∈ blocks, ∀ t ∈ x.1.txs, CirclesIdle x.1 c t)
    (hle : ((growingChain F D).run s blocks).1.badges.Le b) :
    Tracks c b ((growingChain F D).run s blocks).1 (reprocess D blocks s') := by
  induction blocks generalizing s s' with
  | nil => exact h
  | cons x blocks ih =>
    obtain ⟨hblock, hrest⟩ := hblocks
    have hinit : (applyBlock D x.1 x.2 s).initialized = true := by
      unfold applyBlock
      rw [initialized_processMevatrustTxs,
        initialized_onNewBlock]
      exact h.initialized.1
    -- no block to come takes a badge away
    have hlater : (applyBlock D x.1 x.2 s).badges.Le
        ((growingChain F D).run (applyBlock D x.1 x.2 s) blocks).1.badges := by
      refine (Machine.run_state_invariant (I := fun s' : Manager F => s'.initialized = true ∧
        (applyBlock D x.1 x.2 s).badges.Le s'.badges) _ ⟨hinit, .refl _⟩ ?_ hrest).2
      rintro s' ⟨ctx, clock⟩ ⟨hinit', hle'⟩ hblock'
      refine ⟨?_, hle'.trans (hblock'.le hinit')⟩
      show (processMevatrustTxs D ctx clock (onNewBlock D ctx clock.newBlock s')).initialized = true
      rw [initialized_processMevatrustTxs,
        initialized_onNewBlock]
      exact hinit'
    exact ih (h.block hblock (hidle x List.mem_cons_self) (hlater.trans hle)) hrest
      (fun y hy => hidle y (List.mem_cons_of_mem _ hy)) hle

/-- What a rebuild has to bring back: the nodes with their data, the circles and the badges. -/
structure SameRegistries (s s' : Manager F) : Prop where
  nodes : ∀ n : Hash, (s.registry.nodes[n]?).map (fun e => (e.nodeId, e.status, e.walletAddress,
      e.walletPubkey, e.nodePubkey, e.isValidator)) =
    (s'.registry.nodes[n]?).map fun e => (e.nodeId, e.status, e.walletAddress, e.walletPubkey,
      e.nodePubkey, e.isValidator)
  circles : s.circles = s'.circles
  badges : s.badges = s'.badges

/-- A chain applied from nothing, with a clock that stands still. -/
def liveChain (D : Type) [FloatArith D] [FloatWiden F D] (blocks : List BlockCtx) (now : UInt64) :
    Manager F :=
  ((growingChain F D).run {} (blocks.map (·, stillClock now))).1

/-- **A rebuild brings back what the chain had made**, if every block can be repeated and the
payloads about circles have nothing to do in the circles of the end. -/
theorem rebuild_equals_live (D : Type) [FloatArith D] [FloatWiden F D] (blocks : List BlockCtx)
    (now : UInt64)
    (hblocks : (growingChain F D).Guarded (Repeatable D) {} (blocks.map (·, stillClock now)))
    (hidle : ∀ ctx ∈ blocks, ∀ t ∈ ctx.txs,
      CirclesIdle ctx (liveChain (F := F) D blocks now).circles t) :
    SameRegistries (liveChain D blocks now : Manager F)
      (rebuildRegistryFromChain D (blocks.map (·, stillClock now)) (liveChain D blocks now)) := by
  have hinit : (liveChain D blocks now : Manager F).initialized = true :=
    initialized_growingChain_run _ {}
  have hstart : Tracks (liveChain (F := F) D blocks now).circles
      (liveChain (F := F) D blocks now).badges ({} : Manager F)
      { (liveChain D blocks now : Manager F) with registry := {} } :=
    ⟨⟨rfl, hinit⟩, rfl, rfl, rfl⟩
  have htracks := hstart.chain hblocks (by
    intro x hx
    obtain ⟨ctx, hctx, rfl⟩ := List.mem_map.1 hx
    exact hidle ctx hctx) (.refl _)
  unfold rebuildRegistryFromChain
  rw [if_neg (by simp [hinit])]
  refine ⟨fun n => ?_, htracks.circles.symm, htracks.badges.symm⟩
  rw [htracks.registry]
  rfl

end

/-! ### A ban that is forgotten -/

/-- A block without a payload. -/
def emptyBlock (height : UInt64) : BlockCtx :=
  { carrierBlock 0xA0 [] height with block := { minerTx := { tx := {} } } }

/-- A node is registered and penalized for Byzantine behaviour, and the period ends. -/
def suspendedChain : List BlockCtx :=
  [registrationBlock 100, carrierBlock 0xA4 (Penalty.codec.write byzantinePenalty) 101,
    emptyBlock 240]

/-- **A rebuild forgets a ban**: the node is suspended, as before the boundary. -/
theorem rebuild_forgets_ban :
    ¬ SameRegistries (liveChain ℚ suspendedChain 2000 : Manager ℚ)
      (rebuildRegistryFromChain ℚ (suspendedChain.map (·, stillClock 2000))
        (liveChain ℚ suspendedChain 2000)) := by
  intro h
  have hnode := h.nodes (Pod32.single 9)
  revert hnode
  decide +kernel

/-- A node is registered and a circle created, and the period ends. -/
def steadyChain : List BlockCtx :=
  [registrationBlock 100, carrierBlock 0xA3 (CircleOp.codec.write freeName) 101, emptyBlock 240]

/-- A chain that a rebuild brings back. -/
theorem steadyChain_rebuilt : (liveChain (F := ℚ) ℚ steadyChain 2000).registry.nodes.size = 1 ∧
      (liveChain (F := ℚ) ℚ steadyChain 2000).circles.circles.size = 1 ∧
      SameRegistries (liveChain ℚ steadyChain 2000 : Manager ℚ)
        (rebuildRegistryFromChain ℚ (steadyChain.map (·, stillClock 2000))
          (liveChain ℚ steadyChain 2000)) :=
  ⟨by decide +kernel, by decide +kernel,
    rebuild_equals_live ℚ steadyChain 2000 (by decide +kernel) (by decide +kernel)⟩

end Mevacoin.Trust
