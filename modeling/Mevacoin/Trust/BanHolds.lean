import Mevacoin.Trust.SybilCaps

/-!
# Does a ban hold?

`record_uptime_event` makes every node it hears of active, and a penalty that suspends does so
whatever the status was.
-/

namespace Mevacoin.Trust

open Lib Std

section

variable {F : Type} [FloatArith F]

/-- The node is registered and banned. -/
def NodeRegistry.Banned (r : NodeRegistry F) (n : Hash) : Prop :=
  (r.nodes[n]?).map (·.status) = some .banned
deriving Decidable

/-- The action lifts a ban of the node: an unban that names it, or a deregistration under the
wallet key of its entry. -/
def Action.Lifts (n : Hash) (s : Manager F) : Action → Prop
  | node (.penalty pen) => pen.nodeId = n ∧ PenOpType.ofUInt8 pen.opType = .unban
  | node (.deregister dereg) => dereg.nodeId = n ∧
    (s.registry.nodes[n]?).any (fun e => e.walletPubkey = dereg.walletPubkey) = true
  | _ => False

instance (n : Hash) (s : Manager F) (a : Action) : Decidable (a.Lifts n s) := by
  unfold Action.Lifts
  split <;> infer_instance

/-- The offense leads to a suspension of a node with this entry. -/
def NodeRegistryEntry.suspendedBy (e : NodeRegistryEntry F) (offense : OffenseType) : Prop :=
  offense = .byzantineBehavior ∨
    offense ≠ .maliciousActivity ∧
      FloatArith.lt (shiftReputation offense.delta e.reputationScore) (FloatArith.ofRat (2 / 10))
        = true
deriving Decidable

/-- No penalty for the offense suspends the node. -/
def SparedBy (r : NodeRegistry F) (n : Hash) (offense : OffenseType) : Prop :=
  ∀ e ∈ r.nodes[n]?, ¬ e.suspendedBy offense
deriving Decidable

/-- **What does not disturb a ban of the node**: no uptime payload of it, and no penalty that
suspends it, for an offense or for a registration with a wallet key that is the node's key. -/
def Action.RespectsBan (n : Hash) (ctx : BlockCtx) (s : Manager F) : Action → Prop
  | node (.uptime upt) => upt.nodeId ≠ n
  | node (.penalty pen) => pen.nodeId = n → PenOpType.ofUInt8 pen.opType = .penalty →
    SparedBy s.registry n (OffenseType.ofName pen.offenseType)
  | node (.register reg) => ¬ s.registry.Accepts reg ctx.hfVersion →
    s.registry.isWalletPubkeyRegistered reg.walletPubkey = true →
    ∀ existing ∈ s.registry.getNodeByPubkey reg.walletPubkey, existing.nodeId = n →
      SparedBy s.registry n .doubleRegistration
  | _ => True

instance (n : Hash) (ctx : BlockCtx) (s : Manager F) (a : Action) :
    Decidable (a.RespectsBan n ctx s) := by
  unfold Action.RespectsBan
  split <;> infer_instance

/-! ### The rules behind it -/

/-- A node that stays, and stays banned. -/
def banRules (F : Type) (n : Hash) : Rules F where
  status _ m st := m = n → st = .banned
  leave _ m := m ≠ n

/-- When a penalty suspends. -/
theorem penaltyStatus_eq_suspended_iff {e : NodeRegistryEntry F} {offense : OffenseType} :
    penaltyStatus offense (shiftReputation offense.delta e.reputationScore) = .suspended ↔
      e.suspendedBy offense := by
  unfold penaltyStatus NodeRegistryEntry.suspendedBy
  cases offense <;> simp [OffenseType.newStatus]

/-- No penalty puts offline. -/
theorem penaltyStatus_ne_offline (offense : OffenseType) (reputation : F) :
    penaltyStatus offense reputation ≠ .offline := by
  unfold penaltyStatus
  split_ifs
  · decide
  · cases offense <;> decide

/-- A penalty that does not suspend bans or leaves the status alone. -/
theorem banRules_penalty {n m : Hash} {r : NodeRegistry F} {offense : OffenseType}
    (h : m = n → SparedBy r n offense) : (banRules F n).Penalty r m offense := by
  intro e he hne hm
  subst hm
  cases hst : penaltyStatus offense (shiftReputation offense.delta e.reputationScore) with
  | active => exact absurd hst hne
  | banned => rfl
  | suspended => exact absurd (penaltyStatus_eq_suspended_iff.1 hst) (h rfl e he)
  | offline => exact absurd hst (penaltyStatus_ne_offline _ _)

theorem Action.within_banRules {n : Hash} {ctx : BlockCtx} {s : Manager F} {a : Action}
    (hlift : ¬ a.Lifts n s) (h : a.RespectsBan n ctx s) : a.Within ctx (banRules F n) s := by
  cases a with
  | node a =>
    cases a with
    | register reg =>
      show (if _ then _ else _)
      split_ifs with hacc
      · exact trivial
      · intro hw existing hex
        exact banRules_penalty fun hn => h hacc hw existing hex hn
    | deregister dereg =>
      intro e he hw hn
      refine hlift ⟨hn, ?_⟩
      rw [← hn, Option.mem_def.1 he, Option.any_some, decide_eq_true hw]
    | penalty pen =>
      dsimp only [Action.Within, NodeAct.Within]
      cases hop : PenOpType.ofUInt8 pen.opType with
      | ban => exact fun _ => rfl
      | unban => exact fun hn => absurd ⟨hn, hop⟩ hlift
      | penalty => exact banRules_penalty fun hn => h hn hop
    | uptime upt => exact fun hn => absurd hn h
    | promote | award | challenge => exact trivial
  | circle | chainProof | store | poolDistribution => exact trivial

omit [FloatArith F] in
/-- Banned is the entry's status. -/
theorem NodeRegistry.banned_iff {r : NodeRegistry F} {n : Hash} :
    r.Banned n ↔ ∃ e, r.nodes[n]? = some e ∧ e.status = .banned :=
  Option.map_eq_some_iff

/-- **The moves uphold a ban** that the rules protect. -/
theorem banned_upheld (ctx : BlockCtx) (n : Hash) :
    Upheld ctx (banRules F n) fun r => r.Banned n where
  update := by
    intro r m f hban hf
    obtain ⟨e, he, hst⟩ := NodeRegistry.banned_iff.1 hban
    refine NodeRegistry.banned_iff.2 ?_
    rw [NodeRegistry.modify_nodes]
    by_cases hm : m = n
    · subst hm
      rw [if_pos rfl, he]
      refine ⟨f e, rfl, ?_⟩
      obtain hsame | hnew := (hf e he).2
      · exact hsame.trans hst
      · exact hnew rfl
    · rw [if_neg hm]
      exact ⟨e, he, hst⟩
  enter := by
    intro r r' reg now hban _ hreg
    obtain ⟨e, he, hst⟩ := NodeRegistry.banned_iff.1 hban
    obtain ⟨hnew, hnodes⟩ := NodeRegistry.registerNodeOnchain_eq_some hreg
    have hne : reg.nodeId ≠ n := by
      rintro rfl
      rw [ExtTreeMap.getElem?_eq_none hnew] at he
      cases he
    refine NodeRegistry.banned_iff.2 ⟨e, ?_, hst⟩
    rw [hnodes, ExtTreeMap.getElem?_insert, if_neg (by simpa using hne), he]
  leave := by
    intro r m hban hm
    unfold NodeRegistry.Banned
    rwa [NodeRegistry.getElem?_unregisterNode, if_neg hm]
  expire := by
    intro r now hban
    obtain ⟨e, he, hst⟩ := NodeRegistry.banned_iff.1 hban
    refine NodeRegistry.banned_iff.2 ⟨e, ?_, hst⟩
    rw [NodeRegistry.getElem?_expireInactiveNodes, he]
    simp [NodeRegistry.expires, hst]

/-! ### Step by step -/

/-- What the daemon does with a block, cut into steps. -/
inductive Tick where
  | boundary (ctx : BlockCtx) (now : UInt64)
  | act (ctx : BlockCtx) (a : Action) (now : UInt64)
  | sweep (ctx : BlockCtx) (now : UInt64)

/-- A condition on the actions, for a step. -/
def Tick.Meets (P : BlockCtx → Manager F → Action → Prop) (s : Manager F) : Tick → Prop
  | act ctx a _ => P ctx s a
  | boundary _ _ | sweep _ _ => True

instance (P : BlockCtx → Manager F → Action → Prop) [∀ ctx s a, Decidable (P ctx s a)]
    (s : Manager F) (t : Tick) : Decidable (t.Meets P s) := by
  cases t <;> (unfold Tick.Meets; infer_instance)

variable (D : Type) [FloatArith D] [FloatWiden F D]

/-- The daemon, step by step. -/
def tickMachine (F D : Type) [FloatArith F] [FloatArith D] [FloatWiden F D] :
    Machine (Manager F) Tick Empty where
  step s
    | .boundary ctx now => (onNewBlock D ctx now s, [])
    | .act ctx a now => ((a.step D ctx now s).1, [])
    | .sweep ctx now => (expirySweep ctx.height now s, [])

/-- The steps of a block: the boundary, the actions and the sweep. -/
def blockTicks (ctx : BlockCtx) (clock : BlockClock) (s : Manager F) : List Tick :=
  .boundary ctx clock.newBlock ::
    if (onNewBlock D ctx clock.newBlock s).initialized = false then []
    else
      (actionsOf D ctx clock (onNewBlock D ctx clock.newBlock s)).map
        (fun a => .act ctx a.1 a.2) ++ [.sweep ctx clock.sweep]

/-- The steps of a chain of blocks. -/
def chainTicks : List (BlockCtx × BlockClock) → Manager F → List Tick
  | [], _ => []
  | b :: blocks, s => blockTicks D b.1 b.2 s ++ chainTicks blocks (applyBlock D b.1 b.2 s)

variable {D}

/-- Ticks of a block's actions. -/
theorem tickMachine_run_acts (ctx : BlockCtx) (as : List (Action × UInt64)) (s : Manager F) :
    ((tickMachine F D).run s (as.map fun a => .act ctx a.1 a.2)).1 =
      ((actionMachine F D ctx).run s as).1 := by
  induction as generalizing s with
  | nil => rfl
  | cons a as ih => exact ih _

/-- The steps of a block do what the daemon does with it. -/
theorem tickMachine_run_blockTicks (ctx : BlockCtx) (clock : BlockClock) (s : Manager F) :
    ((tickMachine F D).run s (blockTicks D ctx clock s)).1 = applyBlock D ctx clock s := by
  show ((tickMachine F D).run (onNewBlock D ctx clock.newBlock s) _).1 = processMevatrustTxs D ctx
    clock (onNewBlock D ctx clock.newBlock s)
  generalize onNewBlock D ctx clock.newBlock s = s'
  cases hinit : s'.initialized with
  | false =>
    rw [processMevatrustTxs, if_pos hinit]
    rfl
  | true =>
    rw [if_neg (by decide), Machine.run_append, tickMachine_run_acts,
      processMevatrustTxs_eq_run hinit]
    rfl

/-- Ticks of a chain. -/
theorem tickMachine_run_chainTicks (blocks : List (BlockCtx × BlockClock)) (s : Manager F) :
    ((tickMachine F D).run s (chainTicks D blocks s)).1 = ((growingChain F D).run s blocks).1 := by
  induction blocks generalizing s with
  | nil => rfl
  | cons b blocks ih =>
    rw [chainTicks, Machine.run_append, tickMachine_run_blockTicks]
    exact ih _

/-- **The rule for one step.** -/
theorem Upheld.tick {R : Rules F} {I : NodeRegistry F → Prop} (h : ∀ ctx, Upheld ctx R I)
    (hban : ∀ r n, R.status r n .banned) {s : Manager F} (hs : I s.registry) {t : Tick}
    (ht : t.Meets (fun ctx s a => a.Within ctx R s) s) :
    I ((tickMachine F D).step s t).1.registry := by
  cases t with
  | boundary ctx now => exact (h ctx).onNewBlock D hban hs
  | act ctx a now => exact (h ctx).action D (a := (a, now)) hs ht
  | sweep ctx now => exact (h ctx).expirySweep hs

/-! ### Runs -/

/-- **A ban holds until it is lifted**, through any steps that do not lift and do not disturb it. -/
theorem ban_holds {s : Manager F} {n : Hash} {ticks : List Tick} (hban : s.registry.Banned n)
    (hlift : (tickMachine F D).Guarded (fun s t => t.Meets (fun _ s a => ¬ a.Lifts n s) s) s ticks)
    (hrespect : (tickMachine F D).Guarded
      (fun s t => t.Meets (fun ctx s a => a.RespectsBan n ctx s) s) s ticks) :
    ((tickMachine F D).run s ticks).1.registry.Banned n := by
  refine Machine.run_state_invariant (I := fun s : Manager F => s.registry.Banned n) _ hban ?_
    (hlift.and hrespect)
  rintro s t hs ⟨hl, hr⟩
  refine Upheld.tick (R := banRules F n) (fun ctx => banned_upheld ctx n) ?_ hs ?_
  · rintro r m rfl
    rfl
  · cases t with
    | boundary ctx now => exact trivial
    | act ctx a now => exact Action.within_banRules hl hr
    | sweep ctx now => exact trivial

end

/-- A node is registered and banned. -/
def banishment : List (BlockCtx × BlockClock) := twinBlocks.take 2

/-- The banned node, in the state after that. -/
def banishedState : Manager ℚ := ((growingChain ℚ ℚ).run {} banishment).1

theorem banishedState_banned : banishedState.registry.Banned (Pod32.single 9) := by decide +kernel

/-- **A banned node sets itself free.**  One uptime payload of its own makes it active. -/
theorem uptime_ends_ban :
    ¬ ∀ (earlier later : List (BlockCtx × BlockClock)) (s : Manager ℚ) (n : Hash),
        s = ((growingChain ℚ ℚ).run {} earlier).1 → s.registry.Banned n →
        (tickMachine ℚ ℚ).Guarded (fun s t => t.Meets (fun _ s a => ¬ a.Lifts n s) s) s
          (chainTicks ℚ later s) →
        ((growingChain ℚ ℚ).run s later).1.registry.Banned n := by
  intro h
  have hban := h banishment [(uptimeBlock 102, stillClock 2180)] banishedState (Pod32.single 9) rfl
    banishedState_banned (by decide +kernel)
  revert hban
  decide +kernel

/-- A registration in the meantime leaves the ban alone. -/
theorem ban_survives_registration :
    ((growingChain ℚ ℚ).run banishedState (twinBlocks.drop 2)).1.registry.Banned
      (Pod32.single 9) := by
  rw [← tickMachine_run_chainTicks]
  exact ban_holds banishedState_banned (by decide +kernel) (by decide +kernel)

end Mevacoin.Trust
