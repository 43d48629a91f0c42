import Mevacoin.Trust.Justified
import Mevacoin.Trust.NodeUndo

/-!
# How the node registry changes

`Upheld` collects what a block can do to the registry, and `Rules` says which of these moves an
invariant can bear.
-/

namespace Mevacoin.Trust

open Lib Std

/-- What a registration fixes for good. -/
structure Identity where
  nodeId : Hash
  walletAddress : Bytes
  walletPubkey : PublicKey
  nodePubkey : PublicKey
  registeredHeight : UInt64
  registeredOnchain : Bool

/-- Who an entry is. -/
def NodeRegistryEntry.identity {F : Type} (e : NodeRegistryEntry F) : Identity :=
  ⟨e.nodeId, e.walletAddress, e.walletPubkey, e.nodePubkey, e.registeredHeight,
    e.registeredOnchain⟩

/-- Which moves are allowed in a registry: a node may be given a status, a registration may be
taken, a node may leave. -/
structure Rules (F : Type) where
  status : NodeRegistry F → Hash → NodeStatus → Prop := fun _ _ _ => True
  enter : NodeRegistry F → Registration → Prop := fun _ _ => True
  leave : NodeRegistry F → Hash → Prop := fun _ _ => True

section

variable {F : Type}

/-- An update of the entry of `n` that keeps its identity, and its status too unless the rules
allow the new one. -/
def Rules.Update (R : Rules F) (r : NodeRegistry F) (n : Hash)
    (f : NodeRegistryEntry F → NodeRegistryEntry F) : Prop :=
  ∀ e ∈ r.nodes[n]?, (f e).identity = e.identity ∧
    ((f e).status = e.status ∨ R.status r n (f e).status)

variable [FloatArith F]

/-- **A property that the moves uphold**, in a block and as far as the rules allow the moves. -/
structure Upheld (ctx : BlockCtx) (R : Rules F) (I : NodeRegistry F → Prop) : Prop where
  update : ∀ {r : NodeRegistry F} {n : Hash} {f : NodeRegistryEntry F → NodeRegistryEntry F},
    I r → R.Update r n f → I ((r.modify n f).getD r)
  enter : ∀ {r r' : NodeRegistry F} {reg : Registration} {now : UInt64}, I r → R.enter r reg →
    r.registerNodeOnchain reg ctx.height ctx.hfVersion now = some r' → I r'
  leave : ∀ {r : NodeRegistry F} {n : Hash}, I r → R.leave r n →
    I ((r.unregisterNode n).getD r)
  expire : ∀ {r : NodeRegistry F} (now : UInt64), I r →
    I (r.expireInactiveNodes NodeRegistry.defaultMaxOfflineBlocks now)

/-- Every update but that of a node that is heard of writes the clock into the entry. -/
def Stamps (now : UInt64) (f : NodeRegistryEntry F → NodeRegistryEntry F) : Prop :=
  ∀ e, (f e).updatedAt = now ∨ (f e).status = .active

/-- The same for the moves at one reading of the clock. -/
structure UpheldAt (ctx : BlockCtx) (now : UInt64) (R : Rules F) (I : NodeRegistry F → Prop) :
    Prop where
  update : ∀ {r : NodeRegistry F} {n : Hash} {f : NodeRegistryEntry F → NodeRegistryEntry F},
    I r → R.Update r n f → Stamps now f → I ((r.modify n f).getD r)
  enter : ∀ {r r' : NodeRegistry F} {reg : Registration}, I r → R.enter r reg →
    r.registerNodeOnchain reg ctx.height ctx.hfVersion now = some r' → I r'
  leave : ∀ {r : NodeRegistry F} {n : Hash}, I r → R.leave r n →
    I ((r.unregisterNode n).getD r)
  expire : ∀ {r : NodeRegistry F}, I r →
    I (r.expireInactiveNodes NodeRegistry.defaultMaxOfflineBlocks now)

/-- What is upheld is so at any time. -/
theorem Upheld.at {ctx : BlockCtx} {R : Rules F} {I : NodeRegistry F → Prop}
    (h : Upheld ctx R I) (now : UInt64) : UpheldAt ctx now R I where
  update hr hf _ := h.update hr hf
  enter := h.enter
  leave := h.leave
  expire := h.expire now

/-! ### Penalties -/

/-- The rules allow the status that a penalty leads to. -/
def Rules.Penalty (R : Rules F) (r : NodeRegistry F) (n : Hash) (offense : OffenseType) : Prop :=
  ∀ e ∈ r.nodes[n]?,
    penaltyStatus offense (shiftReputation offense.delta e.reputationScore) ≠ .active →
      R.status r n (penaltyStatus offense (shiftReputation offense.delta e.reputationScore))

/-- A penalty is an update. -/
theorem Rules.Penalty.update {R : Rules F} {r : NodeRegistry F} {n : Hash} {offense : OffenseType}
    (h : R.Penalty r n offense) (now : UInt64) :
    R.Update r n (NodeRegistryEntry.penalized offense now) := by
  intro e he
  rw [NodeRegistryEntry.penalized_eq]
  refine ⟨rfl, ?_⟩
  dsimp only
  split_ifs with hs
  · exact .inl rfl
  · exact .inr (h e he hs)

/-! ### The actions of a block -/

/-- **The action keeps to the rules**: every status it gives, the node it adds or removes is
allowed. -/
def NodeAct.Within (ctx : BlockCtx) (R : Rules F) (r : NodeRegistry F) : NodeAct → Prop
  | register reg =>
    if r.Accepts reg ctx.hfVersion then R.enter r reg
    else r.isWalletPubkeyRegistered reg.walletPubkey = true →
      ∀ existing ∈ r.getNodeByPubkey reg.walletPubkey,
        R.Penalty r existing.nodeId .doubleRegistration
  | deregister dereg =>
    ∀ e ∈ r.nodes[dereg.nodeId]?, e.walletPubkey = dereg.walletPubkey → R.leave r dereg.nodeId
  | penalty pen =>
    match PenOpType.ofUInt8 pen.opType with
    | .ban => R.status r pen.nodeId .banned
    | .unban => R.status r pen.nodeId .active
    | .penalty => R.Penalty r pen.nodeId (OffenseType.ofName pen.offenseType)
  | uptime upt => R.status r upt.nodeId .active
  | promote _ _ | award _ | challenge _ => True

/-- Only actions on nodes move anything in the registry. -/
def Action.Within (ctx : BlockCtx) (R : Rules F) (s : Manager F) : Action → Prop
  | node a => a.Within ctx R s.registry
  | _ => True

section

variable {R : Rules F} [∀ r n st, Decidable (R.status r n st)] [∀ r reg, Decidable (R.enter r reg)]
  [∀ r n, Decidable (R.leave r n)]

instance (r : NodeRegistry F) (n : Hash) (offense : OffenseType) :
    Decidable (R.Penalty r n offense) :=
  inferInstanceAs (Decidable (∀ e ∈ r.nodes[n]?, ¬ _ → _))

instance (ctx : BlockCtx) (r : NodeRegistry F) : ∀ a : NodeAct, Decidable (a.Within ctx R r)
  | .register _ => by
    unfold NodeAct.Within
    infer_instance
  | .deregister _ => by
    unfold NodeAct.Within
    infer_instance
  | .penalty pen => by
    unfold NodeAct.Within
    dsimp only
    exact match PenOpType.ofUInt8 pen.opType with
      | .ban | .unban | .penalty => inferInstance
  | .uptime upt => inferInstanceAs (Decidable (R.status r upt.nodeId .active))
  | .promote _ _ | .award _ | .challenge _ => .isTrue trivial

instance (ctx : BlockCtx) (s : Manager F) : ∀ a : Action, Decidable (a.Within ctx R s)
  | .node a => inferInstanceAs (Decidable (a.Within ctx R s.registry))
  | .circle _ | .chainProof _ | .store _ _ | .poolDistribution _ => .isTrue trivial

end

variable {ctx : BlockCtx} {R : Rules F} {I : NodeRegistry F → Prop} {r : NodeRegistry F}
  {now : UInt64}

/-- An update that the rules have no say in. -/
theorem UpheldAt.quiet (h : UpheldAt ctx now R I) (hr : I r) (n : Hash)
    {f : NodeRegistryEntry F → NodeRegistryEntry F}
    (hf : ∀ e, (f e).identity = e.identity ∧ (f e).status = e.status ∧ (f e).updatedAt = now) :
    I ((r.modify n f).getD r) :=
  h.update hr (fun e _ => ⟨(hf e).1, .inl (hf e).2.1⟩) fun e => .inl (hf e).2.2

/-- A penalty upholds it. -/
theorem UpheldAt.applyPenalty (h : UpheldAt ctx now R I) (hr : I r) {b : BadgeSystem} {n : Hash}
    {offense : OffenseType} (hp : R.Penalty r n offense) :
    I (Trust.applyPenalty r b n offense now).1 := by
  rw [applyPenalty_registry]
  refine h.update hr (hp.update now) fun e => .inl ?_
  rw [NodeRegistryEntry.penalized_eq]

/-- A challenge upholds it. -/
theorem UpheldAt.recordChallenge (h : UpheldAt ctx now R I) (hr : I r) (ch : Challenge) :
    I (Trust.recordChallenge r ch now) := by
  unfold Trust.recordChallenge
  dsimp only
  have h₁ : I ((r.updateNodeChallengeResult ch.challengerNodeId ch.success now).getD r) :=
    h.quiet hr _ fun _ => ⟨rfl, rfl, rfl⟩
  generalize (r.updateNodeChallengeResult ch.challengerNodeId ch.success now).getD r = r₁ at h₁ ⊢
  have h₂ : I ((r₁.updateNodeChallengeResult ch.challengedNodeId ch.success now).getD r₁) :=
    h.quiet h₁ _ fun _ => ⟨rfl, rfl, rfl⟩
  generalize (r₁.updateNodeChallengeResult ch.challengedNodeId ch.success now).getD r₁ = r₂ at h₂ ⊢
  split
  · have h₃ : I ((r₂.updateReputation ch.challengerNodeId (FloatArith.ofRat (2 / 100)) now).getD
        r₂) := h.quiet h₂ _ fun _ => ⟨rfl, rfl, rfl⟩
    exact h.quiet h₃ _ fun _ => ⟨rfl, rfl, rfl⟩
  · exact h₂

/-- A new status upholds it. -/
theorem UpheldAt.status (h : UpheldAt ctx now R I) (hr : I r) {n : Hash} {st : NodeStatus}
    (hst : R.status r n st) (reason : Bytes) : I ((r.updateNodeStatus n st reason now).getD r) :=
  h.update hr (fun _ _ => ⟨rfl, .inr hst⟩) fun _ => .inl rfl

/-- **One action.** -/
theorem UpheldAt.nodeAct (h : UpheldAt ctx now R I) (hr : I r) (b : BadgeSystem) {a : NodeAct}
    (ha : a.Within ctx R r) : I (a.step ctx now r b).1.1 := by
  cases a with
  | register reg =>
    dsimp only [NodeAct.Within] at ha
    dsimp only [NodeAct.step]
    have hsome := registerNodeOnchain_isSome_iff r reg ctx.height ctx.hfVersion now
    cases hreg : r.registerNodeOnchain reg ctx.height ctx.hfVersion now with
    | some r' =>
      rw [hreg] at hsome
      rw [if_pos (hsome.1 rfl)] at ha
      exact h.enter hr ha hreg
    | none =>
      rw [hreg] at hsome
      rw [if_neg fun hacc => absurd (hsome.2 hacc) Bool.false_ne_true] at ha
      split_ifs with hw
      · cases hex : r.getNodeByPubkey reg.walletPubkey with
        | none => exact hr
        | some existing => exact h.applyPenalty hr (ha hw existing hex)
      · exact hr
  | deregister dereg =>
    dsimp only [NodeAct.step]
    unfold NodeRegistry.deregisterNodeOnchain
    cases hn : r.nodes[dereg.nodeId]? with
    | none => exact hr
    | some e =>
      dsimp only
      by_cases hw : e.walletPubkey = dereg.walletPubkey
      · rw [if_pos hw]
        have hleave := h.leave hr (ha e hn hw)
        cases hu : r.unregisterNode dereg.nodeId with
        | none => exact hr
        | some r' =>
          rw [hu] at hleave
          exact hleave
      · rw [if_neg hw]
        exact hr
  | promote n stake =>
    dsimp only [NodeAct.step]
    split
    · exact hr
    · split
      · exact hr
      · exact h.quiet hr _ fun _ => ⟨rfl, rfl, rfl⟩
  | award a =>
    dsimp only [NodeAct.step]
    split
    · exact hr
    · exact hr
  | penalty pen =>
    dsimp only [NodeAct.Within] at ha
    dsimp only [NodeAct.step]
    cases hop : PenOpType.ofUInt8 pen.opType with
    | ban | unban =>
      rw [hop] at ha
      exact h.status hr ha _
    | penalty =>
      rw [hop] at ha
      exact h.applyPenalty hr ha
  | uptime upt =>
    have hup : I ((r.recordUptimeEvent upt.nodeId true upt.timestamp upt.peerCount).getD r) :=
      h.update hr (fun _ _ => ⟨rfl, .inr ha⟩) fun _ => .inr rfl
    exact h.quiet hup _ fun _ => ⟨rfl, rfl, rfl⟩
  | challenge ch => exact h.recordChallenge hr ch

/-- Every act upholds it. -/
theorem Upheld.nodeAct (h : Upheld ctx R I) (hr : I r) (b : BadgeSystem) {a : NodeAct}
    (ha : a.Within ctx R r) : I (a.step ctx now r b).1.1 :=
  (h.at now).nodeAct hr b ha

/-- Rules that look at registrations alone. -/
theorem NodeAct.within_of_enter {a : NodeAct} (hstatus : ∀ r n st, R.status r n st)
    (hleave : ∀ r n, R.leave r n)
    (henter : ∀ reg, a = .register reg → r.Accepts reg ctx.hfVersion → R.enter r reg) :
    a.Within ctx R r := by
  cases a with
  | register reg =>
    show (if _ then _ else _)
    split_ifs with hacc
    · exact henter reg rfl hacc
    · exact fun _ _ _ _ _ _ => hstatus _ _ _
  | deregister dereg => exact fun _ _ _ => hleave _ _
  | penalty pen =>
    dsimp only [NodeAct.Within]
    cases PenOpType.ofUInt8 pen.opType with
    | ban | unban => exact hstatus _ _ _
    | penalty => exact fun _ _ _ => hstatus _ _ _
  | uptime upt => exact hstatus _ _ _
  | promote | award | challenge => exact trivial

variable (D : Type) [FloatArith D] {s : Manager F}

/-- An action upholds it. -/
theorem UpheldAt.action (h : UpheldAt ctx now R I) (hs : I s.registry) {a : Action}
    (ha : a.Within ctx R s) : I ((actionMachine F D ctx).step s (a, now)).1.registry := by
  cases a with
  | node a =>
    show I (Manager.logAll _ _ _).registry
    rw [Manager.logAll_toRewardState]
    exact h.nodeAct hs _ ha
  | circle a =>
    show I (Manager.logAll _ _ _).registry
    rwa [Manager.logAll_toRewardState]
  | chainProof | store | poolDistribution => exact hs

/-- An action at any time upholds it. -/
theorem Upheld.action (h : Upheld ctx R I) (hs : I s.registry) {a : Action × UInt64}
    (ha : a.1.Within ctx R s) : I ((actionMachine F D ctx).step s a).1.registry :=
  (h.at a.2).action D hs ha

/-- The sweep upholds it. -/
theorem UpheldAt.expirySweep (h : UpheldAt ctx now R I) (hs : I s.registry) :
    I (Trust.expirySweep ctx.height now s).registry := by
  unfold Trust.expirySweep
  split
  · exact h.expire hs
  · exact hs

/-- The sweep at any time upholds it. -/
theorem Upheld.expirySweep (h : Upheld ctx R I) (hs : I s.registry) :
    I (Trust.expirySweep ctx.height now s).registry :=
  (h.at now).expirySweep hs

/-! ### The period boundary -/

/-- A promotion upholds it. -/
theorem UpheldAt.promoteToValidator (h : UpheldAt ctx now R I) (hs : I s.registry) (n : Hash)
    (height stake : UInt64) : I (s.promoteToValidator n height stake now).registry := by
  unfold Manager.promoteToValidator
  split
  · exact hs
  · split
    · exact hs
    · exact h.quiet hs _ fun _ => ⟨rfl, rfl, rfl⟩

section

variable {τ : Type*} {p : Manager F → τ}

/-- What does not see the distributor does not see a distribution. -/
theorem triggerDistribution_project [FloatWiden F D]
    (hp : ∀ (s : Manager F) d, p { s with distributor := d } = p s) :
    p (triggerDistribution D ctx s) = p s := by
  unfold triggerDistribution
  dsimp only
  split
  · rfl
  · split
    · exact hp _ _
    · exact hp _ _

/-- What sees neither the registry nor the badges nor the log does not see the promotions. -/
theorem checkAutoValidatorPromotion_project
    (hp : ∀ (s : Manager F) r b l, p { s with registry := r, badges := b, reorgLog := l } = p s)
    (height now : UInt64) (s : Manager F) : p (checkAutoValidatorPromotion height now s) = p s := by
  refine List.foldlRecOn (motive := fun s' : Manager F => p s' = p s) _ _ rfl ?_
  intro s' hs' e _
  split
  · unfold Manager.promoteToValidator
    split
    · exact hs'
    · split
      · exact hs'
      · rw [← hs']
        exact hp s' _ _ _
  · exact hs'

/-- What sees neither the registry nor the badges does not see the escalation. -/
theorem escalateSuspended_project
    (hp : ∀ (s : Manager F) r b, p { s with registry := r, badges := b } = p s)
    (height now : UInt64) (s : Manager F) : p (escalateSuspended height now s) = p s := by
  refine List.foldlRecOn (motive := fun s' : Manager F => p s' = p s) _ _ rfl ?_
  intro s' hs' e _
  split
  · rw [← hs']
    exact hp s' _ _
  · exact hs'

/-- **The boundary does not reach the circles and the store.**  What sees only those is as it
was. -/
theorem onNewBlock_project [FloatWiden F D] (hp : ∀ (s : Manager F) r e d b l, p { s with
      registry := r, engine := e, distributor := d, badges := b, reorgLog := l } = p s) :
    p (Trust.onNewBlock D ctx now s) = p s := by
  unfold Trust.onNewBlock
  split
  · rfl
  · rw [escalateSuspended_project fun s r b => hp s r s.engine s.distributor b s.reorgLog,
      triggerDistribution_project D fun s d => hp s s.registry s.engine d s.badges s.reorgLog,
      checkAutoValidatorPromotion_project fun s r b l => hp s r s.engine s.distributor b l]
    exact hp s s.registry _ s.distributor _ s.reorgLog

end

/-- No boundary touches `m_initialized`. -/
theorem initialized_onNewBlock [FloatWiden F D] :
    (Trust.onNewBlock D ctx now s).initialized = s.initialized :=
  onNewBlock_project D (p := (·.initialized)) fun _ _ _ _ _ _ => rfl

theorem initialized_applyBlock [FloatWiden F D] (clock : BlockClock) :
    (Trust.applyBlock D ctx clock s).initialized = s.initialized := by
  unfold Trust.applyBlock
  rw [initialized_processMevatrustTxs, initialized_onNewBlock]

/-- Malicious activity bans. -/
theorem Rules.penalty_maliciousActivity (hban : ∀ r n, R.status r n .banned) (r : NodeRegistry F)
    (n : Hash) : R.Penalty r n .maliciousActivity := by
  intro e _ _
  rw [(penaltyStatus_eq_banned_iff _).2 rfl]
  exact hban r n

/-- **The period boundary.**  It promotes nodes and turns suspensions into bans. -/
theorem UpheldAt.onNewBlock [FloatWiden F D] (h : UpheldAt ctx now R I)
    (hban : ∀ r n, R.status r n .banned) (hs : I s.registry) :
    I (Trust.onNewBlock D ctx now s).registry := by
  unfold Trust.onNewBlock
  split
  · exact hs
  · refine List.foldlRecOn (motive := fun s : Manager F => I s.registry) _ _ ?_ ?_
    · rw [triggerDistribution_project D (p := (·.registry)) (fun _ _ => rfl)]
      refine List.foldlRecOn (motive := fun s : Manager F => I s.registry) _ _ hs ?_
      intro s' hs' e _
      split
      · exact h.promoteToValidator hs' _ _ _
      · exact hs'
    · intro s' hs' e _
      split
      · exact h.applyPenalty hs' (Rules.penalty_maliciousActivity hban _ _)
      · exact hs'

/-- A new block upholds it. -/
theorem Upheld.onNewBlock [FloatWiden F D] (h : Upheld ctx R I)
    (hban : ∀ r n, R.status r n .banned) (hs : I s.registry) :
    I (Trust.onNewBlock D ctx now s).registry :=
  (h.at now).onNewBlock D hban hs

/-! ### A chain that only grows -/

/-- Blocks as the daemon applies them, with the actions performed as events. -/
def growingChain (F D : Type) [FloatArith F] [FloatArith D] [FloatWiden F D] :
    Machine (Manager F) (BlockCtx × BlockClock) (BlockCtx × Action) where
  step s b :=
    (applyBlock D b.1 b.2 s,
      (actionsOf D b.1 b.2 (Trust.onNewBlock D b.1 b.2.newBlock s)).map fun a => (b.1, a.1))

/-- Every action of the block meets the condition in the state that it finds. -/
def EachAction [FloatWiden F D] (P : BlockCtx → Manager F → Action → Prop) (s : Manager F)
    (b : BlockCtx × BlockClock) : Prop :=
  (actionMachine F D b.1).Guarded (fun s a => P b.1 s a.1)
    (Trust.onNewBlock D b.1 b.2.newBlock s)
    (actionsOf D b.1 b.2 (Trust.onNewBlock D b.1 b.2.newBlock s))

instance [FloatWiden F D] (P : BlockCtx → Manager F → Action → Prop)
    [∀ ctx s a, Decidable (P ctx s a)] (s : Manager F) (b : BlockCtx × BlockClock) :
    Decidable (EachAction D P s b) :=
  inferInstanceAs (Decidable (Machine.Guarded _ _ _ _))

variable {D} [FloatWiden F D] {clock : BlockClock}

/-- **One block.** -/
theorem Upheld.applyBlock (h : Upheld ctx R I) (hban : ∀ r n, R.status r n .banned)
    (hs : I s.registry)
    (hg : EachAction D (fun ctx s a => a.Within ctx R s) s (ctx, clock)) :
    I (Trust.applyBlock D ctx clock s).registry := by
  refine processMevatrustTxs_invariant (I := fun s => I s.registry)
    (fun s a hs ha _ => h.action D hs ha) (fun s hs => h.expirySweep hs) ?_ hg
  exact h.onNewBlock D hban hs

/-- **The rule for one block, with the actions so far.**  Every action of the block is among them
when it is performed. -/
theorem growingChain_step {I : List (BlockCtx × Action) → Manager F → Prop}
    {P : BlockCtx → Manager F → Action → Prop} {evs : List (BlockCtx × Action)}
    (hmono : ∀ {evs evs' s}, evs ⊆ evs' → I evs s → I evs' s)
    (hboundary : ∀ {evs s}, I evs s → I evs (Trust.onNewBlock D ctx clock.newBlock s))
    (hact : ∀ {evs s} {a : Action × UInt64}, I evs s → (ctx, a.1) ∈ evs → P ctx s a.1 →
      Action.Justified ctx s a → I evs ((actionMachine F D ctx).step s a).1)
    (hsweep : ∀ {evs s}, I evs s → I evs (expirySweep ctx.height clock.sweep s))
    (h : I evs s) (hg : EachAction D P s (ctx, clock)) :
    I (evs ++ ((growingChain F D).step s (ctx, clock)).2)
      ((growingChain F D).step s (ctx, clock)).1 := by
  have hnew : ((growingChain F D).step s (ctx, clock)).2 =
      (actionsOf D ctx clock (Trust.onNewBlock D ctx clock.newBlock s)).map
        fun a => (ctx, a.1) := rfl
  generalize hall : evs ++ ((growingChain F D).step s (ctx, clock)).2 = all
  have hmem : (actionMachine F D ctx).Guarded (fun _ a => (ctx, a.1) ∈ all)
      (Trust.onNewBlock D ctx clock.newBlock s)
      (actionsOf D ctx clock (Trust.onNewBlock D ctx clock.newBlock s)) := by
    refine Machine.guarded_of_forall _ ?_ _
    intro _ a ha
    rw [← hall]
    exact List.mem_append_right _ (List.mem_map_of_mem ha)
  have hold : I all s := hmono (hall ▸ List.subset_append_left _ _) h
  refine processMevatrustTxs_invariant (I := I all) ?_ (fun s hs => hsweep hs) (hboundary hold)
    (Machine.Guarded.and hmem hg)
  rintro s a hs ⟨hin, hp⟩ hj
  exact hact hs hin hp hj

/-- **The rule for a chain that only grows.** -/
theorem chain_upheld {blocks : List (BlockCtx × BlockClock)}
    (h : ∀ b ∈ blocks, Upheld b.1 R I) (hban : ∀ r n, R.status r n .banned) (hs : I s.registry)
    (hg : (growingChain F D).Guarded (EachAction D fun ctx s a => a.Within ctx R s) s blocks) :
    I ((growingChain F D).run s blocks).1.registry := by
  have hup : (growingChain F D).Guarded (fun _ b => Upheld b.1 R I) s blocks :=
    Machine.guarded_of_forall _ (fun _ b hb => h b hb) s
  refine Machine.run_state_invariant (I := fun s : Manager F => I s.registry) _ hs ?_ (hg.and hup)
  rintro s ⟨ctx, clock⟩ hs ⟨hb, hup⟩
  exact Upheld.applyBlock hup hban hs hb

end

end Mevacoin.Trust
