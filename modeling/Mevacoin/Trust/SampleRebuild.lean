import Mevacoin.Trust.NodeRollback
import Mevacoin.Trust.Rebuild
import Mevacoin.Trust.SybilCaps

/-!
# Rebuilding the samples

`rebuild_uptime_samples_from_chain` processes every payload again, onto the state that already has
its effects.
-/

namespace Mevacoin.Trust

open Lib Std

section

variable {F : Type}

/-! ### Payloads that are refused -/

/-- Nothing comes of the action: the registration is refused and no node answers for it, the node to
be removed is not there or another's, the badge is there already. -/
def NodeAct.Refused (ctx : BlockCtx) (r : NodeRegistry F) (b : BadgeSystem) : NodeAct → Prop
  | register reg => ¬ r.Accepts reg ctx.hfVersion ∧
      (r.isWalletPubkeyRegistered reg.walletPubkey = true →
        (r.getNodeByPubkey reg.walletPubkey).isNone = true)
  | deregister dereg => ∀ e ∈ r.nodes[dereg.nodeId]?, e.walletPubkey ≠ dereg.walletPubkey
  | award a => b.hasBadge a.nodeId (BadgeType.ofUInt8 a.badgeType) = true
  | promote _ _ | penalty _ | uptime _ | challenge _ => False

/-- Nothing comes of the action.  A chain proof, a store operation and a distribution are logged in
any case. -/
def Action.Refused (D : Type) [FloatArith D] (ctx : BlockCtx) (now : UInt64) (s : Manager F) :
    Action → Prop
  | node a => a.Refused ctx s.registry s.badges
  | circle (.op o txHash) =>
    (applyCircleOp ctx.env.crypto s.circles o txHash ctx.height now).isNone = true
  | circle (.vote v) =>
    (applyCircleVote D ctx.env.crypto s.circles v ctx.height now).isNone = true
  | chainProof _ | store _ _ | poolDistribution _ => False

variable [FloatArith F] {D : Type} [FloatArith D] {ctx : BlockCtx} {clock : BlockClock}
  {now : UInt64} {s : Manager F}

variable {a : NodeAct} {r : NodeRegistry F} {blocks : List (BlockCtx × BlockClock)}
  {b : BlockCtx × BlockClock} {bs : List (BlockCtx × BlockClock)}

/-- Refused acts do nothing. -/
theorem NodeAct.step_of_refused {b : BadgeSystem} (h : a.Refused ctx r b) :
    a.step ctx now r b = ((r, b), []) := by
  cases a with
  | register reg =>
    obtain ⟨hacc, hnone⟩ := h
    have hreg : r.registerNodeOnchain reg ctx.height ctx.hfVersion now = none := by
      rw [← Option.not_isSome_iff_eq_none, registerNodeOnchain_isSome_iff]
      exact hacc
    dsimp only [NodeAct.step]
    rw [hreg]
    split_ifs with hw
    · rw [Option.isNone_iff_eq_none.1 (hnone hw)]
    · rfl
  | deregister dereg =>
    dsimp only [NodeAct.step]
    unfold NodeRegistry.deregisterNodeOnchain
    cases hn : r.nodes[dereg.nodeId]? with
    | none => rfl
    | some e =>
      dsimp only
      rw [if_neg (h e hn)]
  | award a => exact if_pos h
  | promote | penalty | uptime | challenge => exact h.elim

/-- What is done is logged. -/
theorem NodeAct.refused_of_silent {b : BadgeSystem} (h : (a.step ctx now r b).2 = []) :
    a.Refused ctx r b := by
  cases a with
  | register reg =>
    dsimp only [NodeAct.step] at h
    have hsome := registerNodeOnchain_isSome_iff r reg ctx.height ctx.hfVersion now
    cases hreg : r.registerNodeOnchain reg ctx.height ctx.hfVersion now with
    | some r' =>
      rw [hreg] at h
      cases h
    | none =>
      rw [hreg] at h hsome
      refine ⟨fun hacc => Bool.false_ne_true (hsome.2 hacc), fun hw => ?_⟩
      rw [if_pos hw] at h
      cases hex : r.getNodeByPubkey reg.walletPubkey with
      | none => rfl
      | some e =>
        rw [hex] at h
        cases h
  | deregister dereg =>
    intro e he hw
    dsimp only [NodeAct.step] at h
    unfold NodeRegistry.deregisterNodeOnchain NodeRegistry.unregisterNode at h
    rw [Option.mem_def.1 he] at h
    dsimp only at h
    rw [if_pos hw] at h
    cases h
  | award a =>
    dsimp only [NodeAct.step] at h
    split_ifs at h with hb
    exact hb
  | promote n stake =>
    dsimp only [NodeAct.step] at h
    split at h
    · cases h
    · split_ifs at h
  | penalty | uptime | challenge => cases h

/-- Refused actions do nothing. -/
theorem Action.step_of_refused {a : Action} (h : a.Refused D ctx now s) :
    a.step D ctx now s = (s, []) := by
  cases a with
  | node a =>
    dsimp only [Action.step]
    rw [NodeAct.step_of_refused h]
    cases a with
    | uptime upt => exact h.elim
    | _ => rfl
  | circle a =>
    dsimp only [Action.step]
    cases a with
    | op o txHash | vote v =>
      unfold CircleAct.step
      dsimp only
      rw [Option.isNone_iff_eq_none.1 h]
      rfl
  | chainProof | store | poolDistribution => exact h.elim

/-- Silent actions are refused. -/
theorem Action.refused_of_silent {a : Action} (h : (a.step D ctx now s).2 = []) :
    a.Refused D ctx now s := by
  cases a with
  | node a => exact NodeAct.refused_of_silent h
  | circle a =>
    cases a with
    | op o txHash =>
      show Option.isNone _ = true
      dsimp only [Action.step, CircleAct.step] at h
      cases hop : applyCircleOp ctx.env.crypto s.circles o txHash ctx.height now with
      | none => rfl
      | some out =>
        rw [hop] at h
        cases h
    | vote v =>
      show Option.isNone _ = true
      dsimp only [Action.step, CircleAct.step] at h
      cases hop : applyCircleVote D ctx.env.crypto s.circles v ctx.height now with
      | none => rfl
      | some out =>
        rw [hop] at h
        cases h
  | chainProof | store | poolDistribution => cases h

/-! ### Blocks that do nothing -/

/-- The sweep at the end of the block finds nobody to expire. -/
def Unswept (height now : UInt64) (s : Manager F) : Prop :=
  isPeriodBoundary height = true → ∀ n : Hash, ∀ e ∈ s.registry.nodes[n]?,
    NodeRegistry.expires e now NodeRegistry.defaultMaxOfflineBlocks = false

variable (D) in
/-- Nothing comes of the block: every action whose section lets it pass is refused, and nobody
expires. -/
def Quiet (s : Manager F) (b : BlockCtx × BlockClock) : Prop :=
  (∀ a ∈ actionsOf D b.1 b.2 s, a.1.Refused D b.1 a.2 s) ∧ Unswept b.1.height b.2.sweep s

omit [FloatArith F] in
instance (height now : UInt64) (s : Manager F) : Decidable (Unswept height now s) :=
  decidable_of_iff (isPeriodBoundary height = true → ∀ kv ∈ s.registry.nodes.toList,
      NodeRegistry.expires kv.2 now NodeRegistry.defaultMaxOfflineBlocks = false)
    ⟨fun h hb _ _ he => h hb _ (ExtTreeMap.mem_toList_iff_getElem?_eq_some.2 he),
      fun h hb _ hkv => h hb _ _ (ExtTreeMap.mem_toList_iff_getElem?_eq_some.1 hkv)⟩

omit [FloatArith F] in
/-- Nothing is swept. -/
theorem Unswept.expirySweep {height : UInt64} (h : Unswept height now s) :
    expirySweep height now s = s := by
  unfold Trust.expirySweep
  split_ifs with hb
  · have hnodes : (s.registry.expireInactiveNodes NodeRegistry.defaultMaxOfflineBlocks now).nodes =
        s.registry.nodes := by
      refine ExtTreeMap.ext_getElem? fun n => ?_
      rw [NodeRegistry.getElem?_expireInactiveNodes]
      cases hn : s.registry.nodes[n]? with
      | none => rfl
      | some e => rw [Option.map_some, h hb n e hn, if_neg Bool.false_ne_true]
    have hregistry : s.registry.expireInactiveNodes NodeRegistry.defaultMaxOfflineBlocks now =
        { s.registry with nodes := (s.registry.expireInactiveNodes
          NodeRegistry.defaultMaxOfflineBlocks now).nodes } := rfl
    rw [hregistry, hnodes]
  · rfl

omit [FloatArith F] in
/-- The sweep makes no node active. -/
theorem active_before_sweep {height : UInt64} {n : Hash} {e : NodeRegistryEntry F}
    (he : (expirySweep height now s).registry.nodes[n]? = some e) (hactive : e.status = .active) :
    s.registry.nodes[n]? = some e := by
  unfold expirySweep at he
  split_ifs at he
  · rw [NodeRegistry.getElem?_expireInactiveNodes] at he
    obtain ⟨e₀, he₀, rfl⟩ := Option.map_eq_some_iff.1 he
    split_ifs at hactive ⊢
    exact he₀
  · exact he

/-- A quiet block does nothing. -/
theorem Quiet.processMevatrustTxs (hinit : s.initialized = true) (h : Quiet D s (ctx, clock)) :
    Trust.processMevatrustTxs D ctx clock s = s := by
  have hrun : (actionMachine F D ctx).run s (actionsOf D ctx clock s) = (s, []) :=
    Machine.run_eq_self _ fun a ha => Action.step_of_refused (h.1 a ha)
  rw [processMevatrustTxs_eq_run hinit, hrun]
  exact h.2.expirySweep

/-- Quiet blocks do nothing. -/
theorem reprocess_quiet (hinit : s.initialized = true) (h : ∀ b ∈ blocks, Quiet D s b) :
    reprocess D blocks s = s := by
  induction blocks with
  | nil => rfl
  | cons b bs ih =>
    unfold reprocess at ih ⊢
    rw [List.foldl_cons, (h b List.mem_cons_self).processMevatrustTxs hinit]
    exact ih fun c hc => h c (List.mem_cons_of_mem _ hc)

/-! ### What an unchanged log tells -/

/-- The log only grows. -/
theorem logAt_prefix_reprocess (hinit : s.initialized = true)
    (blocks : List (BlockCtx × BlockClock)) (h : UInt64) :
    s.logAt h <+: (reprocess D blocks s).logAt h := by
  induction blocks generalizing s with
  | nil => exact List.prefix_rfl
  | cons b bs ih =>
    have hrest := ih ((initialized_processMevatrustTxs (D := D) b.1 b.2 s).trans hinit)
    refine List.IsPrefix.trans ?_ hrest
    rw [logAt_processMevatrustTxs hinit]
    split_ifs
    · exact List.prefix_append _ _
    · exact List.prefix_rfl

/-- **If the log is what it was, every action of the first block was refused.** -/
theorem refused_of_log (hinit : s.initialized = true)
    (hlog : ∀ h, (reprocess D (b :: bs) s).logAt h = s.logAt h) :
    (∀ a ∈ actionsOf D b.1 b.2 s, a.1.Refused D b.1 a.2 s) ∧
      processMevatrustTxs D b.1 b.2 s = expirySweep b.1.height b.2.sweep s := by
  have hinit' := (initialized_processMevatrustTxs (D := D) b.1 b.2 s).trans hinit
  have hgrown : (processMevatrustTxs D b.1 b.2 s).logAt b.1.height <+:
      (reprocess D (b :: bs) s).logAt b.1.height := logAt_prefix_reprocess hinit' bs b.1.height
  rw [hlog, logAt_processMevatrustTxs hinit, if_pos rfl] at hgrown
  have hsilent : ((actionMachine F D b.1).run s (actionsOf D b.1 b.2 s)).2 = [] := by
    have hlength := hgrown.length_le
    rw [List.length_append] at hlength
    exact List.eq_nil_of_length_eq_zero (by omega)
  have hstep := Machine.step_eq_self_of_run (actionMachine F D b.1)
    (fun s a hs => congrArg Prod.fst (Action.step_of_refused (Action.refused_of_silent hs))) hsilent
  refine ⟨fun a ha => Action.refused_of_silent (congrArg Prod.snd (hstep a ha)), ?_⟩
  rw [processMevatrustTxs_eq_run hinit, Machine.run_eq_self _ hstep]

/-- The log after the first block, if it is in the end what it was. -/
theorem log_of_rest (hinit : s.initialized = true)
    (hlog : ∀ h, (reprocess D (b :: bs) s).logAt h = s.logAt h) (h : UInt64) :
    (reprocess D bs (processMevatrustTxs D b.1 b.2 s)).logAt h =
      (processMevatrustTxs D b.1 b.2 s).logAt h := by
  have hswept : (processMevatrustTxs D b.1 b.2 s).logAt h = s.logAt h := by
    rw [(refused_of_log hinit hlog).2, Manager.logAt, expirySweep_reorgLog, ← Manager.logAt]
  exact (hlog h).trans hswept.symm

/-- If the log is what it was, whoever is active at the end was so all along. -/
theorem active_before_reprocess (hinit : s.initialized = true)
    (hlog : ∀ h, (reprocess D blocks s).logAt h = s.logAt h) {n : Hash} {e : NodeRegistryEntry F}
    (he : (reprocess D blocks s).registry.nodes[n]? = some e) (hactive : e.status = .active) :
    s.registry.nodes[n]? = some e := by
  induction blocks generalizing s with
  | nil => exact he
  | cons b bs ih =>
    have hbefore := ih ((initialized_processMevatrustTxs (D := D) b.1 b.2 s).trans hinit)
      (log_of_rest hinit hlog) he
    rw [(refused_of_log hinit hlog).2] at hbefore
    exact active_before_sweep hbefore hactive

/-- **A log and a registry that are what they were: nothing came of any block.** -/
theorem quiet_of_unchanged (hinit : s.initialized = true)
    (hlog : ∀ h, (reprocess D blocks s).logAt h = s.logAt h)
    (hnodes : (reprocess D blocks s).registry.nodes = s.registry.nodes) :
    ∀ b ∈ blocks, Quiet D s b := by
  induction blocks with
  | nil => exact fun b hb => absurd hb List.not_mem_nil
  | cons b bs ih =>
    obtain ⟨hrefused, hprocess⟩ := refused_of_log hinit hlog
    have hinit' := (initialized_processMevatrustTxs (D := D) b.1 b.2 s).trans hinit
    have hunswept : Unswept b.1.height b.2.sweep s := by
      intro hb n e he
      by_contra hexpires
      rw [Bool.not_eq_false] at hexpires
      -- an entry that expires is active; it is so in the end, and was not after the sweep
      have hactive : e.status = .active := by
        unfold NodeRegistry.expires at hexpires
        simp only [Bool.and_eq_true, decide_eq_true_eq] at hexpires
        exact hexpires.1.1
      have hend : (reprocess D (b :: bs) s).registry.nodes[n]? = some e := hnodes ▸ he
      have hafter := active_before_reprocess hinit' (log_of_rest hinit hlog) hend hactive
      rw [hprocess, expirySweep, if_pos hb, NodeRegistry.getElem?_expireInactiveNodes,
        Option.mem_def.1 he, Option.map_some, if_pos hexpires, Option.some_inj] at hafter
      rw [← hafter] at hactive
      cases hactive
    have hsame : processMevatrustTxs D b.1 b.2 s = s := hprocess.trans hunswept.expirySweep
    have hrest : reprocess D (b :: bs) s = reprocess D bs s := by
      show reprocess D bs (processMevatrustTxs D b.1 b.2 s) = _
      rw [hsame]
    rw [hrest] at hlog hnodes
    rintro c (_ | ⟨_, hc⟩)
    · exact ⟨hrefused, hunswept⟩
    · exact ih hlog hnodes c hc

/-! ### The rebuild -/

/-- **Only samples are touched**, and they are those that the first processing had left. -/
structure SamplesOnly (before after : Manager F) : Prop where
  registry : after.registry = before.registry
  circles : after.circles = before.circles
  store : after.store = before.store
  badges : after.badges = before.badges
  reorgLog : after.reorgLog = before.reorgLog
  uptime : after.engine.chainUptimeSamples = before.engine.chainUptimeSamples
  proofs : after.engine.chainProofSamples = before.engine.chainProofSamples

omit [FloatArith F] in
theorem clearSamples_of_empty (huptime : s.engine.chainUptimeSamples = ∅)
    (hproofs : s.engine.chainProofSamples = ∅) : s.clearSamples = s := by
  unfold Manager.clearSamples
  rw [← huptime, ← hproofs]

/-- No run of blocks touches `m_initialized`. -/
theorem initialized_growingChain_run [FloatWiden F D] (blocks : List (BlockCtx × BlockClock))
    (s : Manager F) : ((growingChain F D).run s blocks).1.initialized = s.initialized := by
  induction blocks generalizing s with
  | nil => rfl
  | cons b bs ih =>
    rw [Machine.run_cons, ih]
    exact initialized_applyBlock D b.2

variable (D) in
/-- The blocks processed for the first time, each with the first of its clocks. -/
def firstPass [FloatWiden F D] (blocks : List (BlockCtx × BlockClock × BlockClock)) : Manager F :=
  ((growingChain F D).run {} (blocks.map fun b => (b.1, b.2.1))).1

variable (D) in
/-- **When the rebuild touches samples only**, for blocks processed from nothing and then again,
each with its second clock: just if there are no samples and nothing comes of any block in the state
that the first pass has left. -/
theorem rebuild_touches_samples_only_iff [FloatWiden F D]
    (blocks : List (BlockCtx × BlockClock × BlockClock)) :
    SamplesOnly (firstPass D blocks : Manager F) (rebuildUptimeSamplesFromChain D
        (blocks.map fun b => (b.1, b.2.2)) (firstPass D blocks)) ↔
      (firstPass D blocks : Manager F).engine.chainUptimeSamples = ∅ ∧
        (firstPass D blocks : Manager F).engine.chainProofSamples = ∅ ∧
        ∀ b ∈ blocks, Quiet D (firstPass D blocks : Manager F) (b.1, b.2.2) := by
  have hinit : (firstPass D blocks : Manager F).initialized = true :=
    initialized_growingChain_run _ {}
  generalize (firstPass D blocks : Manager F) = s at hinit ⊢
  generalize hagain : (blocks.map fun b => (b.1, b.2.2)) = again
  have hcleared : s.clearSamples.initialized = true := hinit
  unfold rebuildUptimeSamplesFromChain
  rw [if_neg (by simp [hinit])]
  constructor
  · intro h
    have hlog : ∀ height, (reprocess D again s.clearSamples).logAt height =
        s.clearSamples.logAt height := by
      intro height
      unfold Manager.logAt
      rw [h.reorgLog]
      rfl
    have hquiet := quiet_of_unchanged hcleared hlog (congrArg NodeRegistry.nodes h.registry)
    rw [reprocess_quiet hcleared hquiet] at h
    have hself : s.clearSamples = s := clearSamples_of_empty h.uptime.symm h.proofs.symm
    rw [hself] at hquiet
    exact ⟨h.uptime.symm, h.proofs.symm,
      fun b hb => hquiet _ (hagain ▸ List.mem_map_of_mem hb)⟩
  · rintro ⟨huptime, hproofs, hquiet⟩
    rw [clearSamples_of_empty huptime hproofs, reprocess_quiet hinit]
    · exact ⟨rfl, rfl, rfl, rfl, rfl, rfl, rfl⟩
    · intro b hb
      obtain ⟨c, hc, rfl⟩ := List.mem_map.1 (hagain ▸ hb)
      exact hquiet c hc

end

/-! ### A penalty that is applied twice -/

/-- A penalty of node 9 for Byzantine behaviour, signed by the key 4 of `sevenCurve`. -/
def byzantinePenalty : Penalty where
  opType := 0
  nodeId := Pod32.single 9
  offenseType := asciiBytes "BYZANTINE_BEHAVIOR"
  amount := 0
  reason := []
  signerPubkey := Pod32.single 4
  signature := ⟨Pod32.single 2, Pod32.single 3⟩

/-- A node is registered and then penalized; what the clock reads is given for both passes. -/
def penalizedChain : List (BlockCtx × BlockClock × BlockClock) :=
  [(registrationBlock 100, stillClock 2000, stillClock 5000),
    (carrierBlock 0xA4 (Penalty.codec.write byzantinePenalty) 101, stillClock 2060,
      stillClock 5000)]

/-- **The rebuild applies a penalty again**: it takes another quarter of the reputation. -/
theorem rebuild_penalizes_again :
    ¬ SamplesOnly (firstPass ℚ penalizedChain : Manager ℚ)
      (rebuildUptimeSamplesFromChain ℚ (penalizedChain.map fun b => (b.1, b.2.2))
        (firstPass ℚ penalizedChain)) := by
  intro h
  have hentry := congrArg (fun r : NodeRegistry ℚ =>
    (r.nodes[Pod32.single 9]?).map (·.reputationScore)) h.registry
  revert hentry
  decide +kernel

end Mevacoin.Trust
