import Mevacoin.Trust.SybilCaps

/-!
# Whose uptime is it?

Samples are stored under the id of a node, and nothing clears them when it is deregistered.
-/

namespace Mevacoin.Trust

open Lib Std

section

variable {F : Type}

/-- An uptime sample comes from a performed action, signed with the key of the entry, in a block
above its registration. -/
def UptimeOrigin (evs : List (BlockCtx × Action)) (n : Hash) (e : NodeRegistryEntry F)
    (x : ChainUptimeSample) : Prop :=
  ∃ ctx upt, (ctx, Action.node (.uptime upt)) ∈ evs ∧ upt.nodeId = n ∧
    upt.nodePubkey = e.nodePubkey ∧ verifyUptimeSignature ctx.env.crypto upt = true ∧
    ctx.height = x.height ∧ e.registeredHeight < ctx.height

/-- Where a chain proof of an entry comes from. -/
def ProofOrigin (evs : List (BlockCtx × Action)) (n : Hash) (e : NodeRegistryEntry F)
    (x : ChainProofSample) : Prop :=
  ∃ ctx cp, (ctx, Action.chainProof cp) ∈ evs ∧ cp.nodeId = n ∧
    cp.nodePubkey = e.nodePubkey ∧ verifyChainProofSignature ctx.env.crypto cp = true ∧
    ctx.height = x.height ∧ e.registeredHeight < ctx.height

/-- Everything stored for the registered nodes is their own. -/
structure Owned (evs : List (BlockCtx × Action)) (eng : Engine) (r : NodeRegistry F) : Prop where
  keyed : r.Keyed
  uptime : ∀ (n : Hash) (e : NodeRegistryEntry F), r.nodes[n]? = some e →
    ∀ x ∈ eng.chainUptimeSamples.getD n [], UptimeOrigin evs n e x
  proof : ∀ (n : Hash) (e : NodeRegistryEntry F), r.nodes[n]? = some e →
    ∀ x ∈ eng.chainProofSamples.getD n [], ProofOrigin evs n e x

variable {evs evs' : List (BlockCtx × Action)} {eng eng' : Engine} {r r' : NodeRegistry F}
  {n : Hash}

/-- More events own no less. -/
theorem Owned.mono (h : Owned evs eng r) (hevs : evs ⊆ evs') : Owned evs' eng r where
  keyed := h.keyed
  uptime n e he x hx := by
    obtain ⟨ctx, upt, hmem, horigin⟩ := h.uptime n e he x hx
    exact ⟨ctx, upt, hevs hmem, horigin⟩
  proof n e he x hx := by
    obtain ⟨ctx, cp, hmem, horigin⟩ := h.proof n e he x hx
    exact ⟨ctx, cp, hevs hmem, horigin⟩

theorem Owned.congr (h : Owned evs eng r)
    (hup : eng'.chainUptimeSamples = eng.chainUptimeSamples)
    (hproof : eng'.chainProofSamples = eng.chainProofSamples) : Owned evs eng' r where
  keyed := h.keyed
  uptime := hup ▸ h.uptime
  proof := hproof ▸ h.proof

/-- Every entry was there before, with the same identity. -/
theorem Owned.of_identity (h : Owned evs eng r)
    (hid : ∀ (k : Hash) (e' : NodeRegistryEntry F), r'.nodes[k]? = some e' →
      ∃ e, r.nodes[k]? = some e ∧ e'.identity = e.identity) : Owned evs eng r' where
  keyed k e' he' := by
    obtain ⟨e, he, hsame⟩ := hid k e' he'
    exact (congrArg Identity.nodeId hsame).trans (h.keyed k e he)
  uptime k e' he' x hx := by
    obtain ⟨e, he, hsame⟩ := hid k e' he'
    have hreg : e'.registeredHeight = e.registeredHeight :=
      congrArg Identity.registeredHeight hsame
    obtain ⟨ctx, upt, hmem, hn, hpk, hv, hheight, hlt⟩ := h.uptime k e he x hx
    exact ⟨ctx, upt, hmem, hn, hpk.trans (congrArg Identity.nodePubkey hsame).symm, hv, hheight,
      hreg ▸ hlt⟩
  proof k e' he' x hx := by
    obtain ⟨e, he, hsame⟩ := hid k e' he'
    have hreg : e'.registeredHeight = e.registeredHeight :=
      congrArg Identity.registeredHeight hsame
    obtain ⟨ctx, cp, hmem, hn, hpk, hv, hheight, hlt⟩ := h.proof k e he x hx
    exact ⟨ctx, cp, hmem, hn, hpk.trans (congrArg Identity.nodePubkey hsame).symm, hv, hheight,
      hreg ▸ hlt⟩

/-! ### The moves of the registry -/

/-- No sample is stored under the id. -/
def Engine.Blank (eng : Engine) (n : Hash) : Prop :=
  eng.chainUptimeSamples.getD n [] = [] ∧ eng.chainProofSamples.getD n [] = []
deriving Decidable

/-- An id is registered only while no sample is stored under it. -/
def blankRules (F : Type) (eng : Engine) : Rules F where
  enter _ reg := eng.Blank reg.nodeId

variable [FloatArith F]

/-- **The moves of the registry uphold ownership** of what is stored, if an id that enters has
nothing stored. -/
theorem owned_upheld (ctx : BlockCtx) (evs : List (BlockCtx × Action)) (eng : Engine) :
    Upheld ctx (blankRules F eng) (Owned evs eng) where
  update := by
    intro r n f h hf
    refine h.of_identity ?_
    intro k e' he'
    rw [NodeRegistry.modify_nodes] at he'
    split_ifs at he' with hk
    · subst hk
      obtain ⟨e, he, rfl⟩ := Option.map_eq_some_iff.1 he'
      exact ⟨e, he, (hf e he).1⟩
    · exact ⟨e', he', rfl⟩
  enter := by
    intro r r' reg now h hblank hreg
    have hnodes := (NodeRegistry.registerNodeOnchain_eq_some hreg).2
    have hold : ∀ k, reg.nodeId ≠ k → r'.nodes[k]? = r.nodes[k]? := by
      intro k hk
      rw [hnodes, ExtTreeMap.getElem?_insert, if_neg (by simpa using hk)]
    refine ⟨h.keyed.registerNodeOnchain hreg, ?_, ?_⟩
    · intro k e he x hx
      by_cases hk : reg.nodeId = k
      · rw [← hk, hblank.1] at hx
        cases hx
      · exact h.uptime k e (hold k hk ▸ he) x hx
    · intro k e he x hx
      by_cases hk : reg.nodeId = k
      · rw [← hk, hblank.2] at hx
        cases hx
      · exact h.proof k e (hold k hk ▸ he) x hx
  leave := by
    intro r n h _
    refine h.of_identity ?_
    intro k e he
    rw [NodeRegistry.getElem?_unregisterNode] at he
    split_ifs at he
    exact ⟨e, he, rfl⟩
  expire := by
    intro r now h
    refine h.of_identity ?_
    intro k e' he'
    rw [NodeRegistry.getElem?_expireInactiveNodes] at he'
    obtain ⟨e, he, rfl⟩ := Option.map_eq_some_iff.1 he'
    refine ⟨e, he, ?_⟩
    split_ifs
    · rfl
    · rfl

/-! ### Recording -/

/-- An old sample or the new one. -/
theorem mem_appendSample {α : Type} {heightOf : α → UInt64} {window height : UInt64} {x y : α}
    {l : List α} (h : y ∈ Engine.appendSample heightOf window height x l) : y ∈ l ∨ y = x := by
  unfold Engine.appendSample at h
  split_ifs at h
  · exact .inl h
  · have hmem := (List.dropWhile_sublist _).subset h
    rwa [List.mem_append, List.mem_singleton] at hmem

omit [FloatArith F] in
/-- A recorded uptime has an owner. -/
theorem Owned.recordChainUptimeSample (h : Owned evs eng r) {n : Hash} {height ts : UInt64}
    (horigin : ∀ e, r.nodes[n]? = some e → UptimeOrigin evs n e ⟨height, ts⟩) :
    Owned evs (eng.recordChainUptimeSample n height ts) r where
  keyed := h.keyed
  uptime k e he x hx := by
    rw [getD_recordChainUptimeSample] at hx
    split_ifs at hx with hk
    · subst hk
      obtain hold | rfl := mem_appendSample hx
      · exact h.uptime n e he x hold
      · exact horigin e he
    · exact h.uptime k e he x hx
  proof := h.proof

omit [FloatArith F] in
/-- A recorded proof has an owner. -/
theorem Owned.recordChainProofSample (h : Owned evs eng r) {n : Hash} {height target : UInt64}
    (horigin : ∀ e, r.nodes[n]? = some e → ProofOrigin evs n e ⟨height, target⟩) :
    Owned evs (eng.recordChainProofSample n height target) r where
  keyed := h.keyed
  uptime := h.uptime
  proof k e he x hx := by
    unfold Engine.recordChainProofSample at hx
    simp only [ExtTreeMap.getD_insert, LawfulEqOrd.compare_eq_iff_eq] at hx
    split_ifs at hx with hk
    · subst hk
      obtain hold | rfl := mem_appendSample hx
      · exact h.proof n e he x hold
      · exact horigin e he
    · exact h.proof k e he x hx

omit [FloatArith F] in
/-- A key that is bound to a node is the key of its entry. -/
theorem NodeRegistry.nodePubkey_of_bound {n : Hash} {pk : PublicKey} (h : r.bound n pk = true)
    {e : NodeRegistryEntry F} (he : r.nodes[n]? = some e) : pk = e.nodePubkey := by
  unfold bound getNodeById at h
  rw [he, Option.any_some, Bool.and_eq_true, decide_eq_true_iff] at h
  exact h.2.symm

/-! ### The actions -/

/-- **The action credits nobody else's uptime**: an id is registered only while nothing is stored
under it, and what is recorded is recorded above the height of the registration. -/
def Action.CreditsOwner (ctx : BlockCtx) (s : Manager F) : Action → Prop
  | node (.register reg) => s.registry.Accepts reg ctx.hfVersion → s.engine.Blank reg.nodeId
  | node (.uptime upt) => ∀ e ∈ s.registry.nodes[upt.nodeId]?, e.registeredHeight < ctx.height
  | chainProof cp => ∀ e ∈ s.registry.nodes[cp.nodeId]?, e.registeredHeight < ctx.height
  | _ => True

instance (ctx : BlockCtx) (s : Manager F) : ∀ a : Action, Decidable (a.CreditsOwner ctx s)
  | .node (.register _) | .node (.uptime _) | .chainProof _ => by
    unfold Action.CreditsOwner
    infer_instance
  | .node (.deregister _) | .node (.promote ..) | .node (.award _) | .node (.penalty _)
  | .node (.challenge _) | .circle _ | .store .. | .poolDistribution _ => .isTrue trivial

variable {D : Type} [FloatArith D] {ctx : BlockCtx} {s : Manager F}

omit [FloatArith F] in
/-- What an action on nodes leaves in the engine is owned in the registry it finds. -/
theorem Owned.nodeActEngine (h : Owned evs s.engine s.registry) {a : NodeAct} {now : UInt64}
    (hfork : hfVersionMevatrustAntisybil ≤ ctx.hfVersion) (hmem : (ctx, Action.node a) ∈ evs)
    (hcredit : (Action.node a).CreditsOwner ctx s)
    (hjust : Action.Justified ctx s (Action.node a, now)) :
    Owned evs (a.engine ctx s.engine) s.registry := by
  cases a with
  | uptime upt =>
    obtain ⟨t, -, -, hv, hbound⟩ := hjust
    have hkept (uptimeHistory) : Owned evs { s.engine with uptimeHistory } s.registry :=
      h.congr rfl rfl
    refine (hkept _).recordChainUptimeSample ?_
    intro e he
    exact ⟨ctx, upt, hmem, rfl, NodeRegistry.nodePubkey_of_bound (hbound hfork) he, hv, rfl,
      hcredit e he⟩
  | register | deregister | promote | award | penalty | challenge => exact h

theorem NodeAct.within_blankRules {a : NodeAct} (h : (Action.node a).CreditsOwner ctx s) :
    a.Within ctx (blankRules F (a.engine ctx s.engine)) s.registry := by
  refine NodeAct.within_of_enter (fun _ _ _ => trivial) (fun _ _ => trivial) ?_
  rintro reg rfl hacc
  exact h hacc

/-- **One action.** -/
theorem Owned.action (h : Owned evs s.engine s.registry) {a : Action × UInt64}
    (hfork : hfVersionMevatrustAntisybil ≤ ctx.hfVersion) (hmem : (ctx, a.1) ∈ evs)
    (hcredit : a.1.CreditsOwner ctx s) (hjust : Action.Justified ctx s a) :
    Owned evs ((actionMachine F D ctx).step s a).1.engine
      ((actionMachine F D ctx).step s a).1.registry := by
  obtain ⟨a, now⟩ := a
  cases a with
  | node a =>
    show Owned evs (Manager.logAll _ _ _).engine (Manager.logAll _ _ _).registry
    rw [Manager.logAll_toRewardState]
    -- the engine first, then the registry
    exact (owned_upheld ctx evs _).nodeAct (h.nodeActEngine hfork hmem hcredit hjust) _
      (NodeAct.within_blankRules hcredit)
  | circle a =>
    show Owned evs (Manager.logAll _ _ _).engine (Manager.logAll _ _ _).registry
    rwa [Manager.logAll_toRewardState]
  | chainProof cp =>
    obtain ⟨t, -, -, -, hv, hholds⟩ := hjust
    refine h.recordChainProofSample ?_
    intro e he
    have hbound : s.registry.bound cp.nodeId cp.nodePubkey = true := by
      unfold chainProofHolds at hholds
      simp only [Bool.and_eq_true] at hholds
      exact hholds.1.1.1.1
    exact ⟨ctx, cp, hmem, rfl, NodeRegistry.nodePubkey_of_bound hbound he, hv, rfl, hcredit e he⟩
  | store | poolDistribution => exact h

/-! ### A chain of blocks -/

variable [FloatWiden F D]

/-- A new block keeps the owners. -/
theorem Owned.onNewBlock (h : Owned evs s.engine s.registry) (now : UInt64) :
    Owned evs (Trust.onNewBlock D ctx now s).engine (Trust.onNewBlock D ctx now s).registry := by
  have hreg : Owned evs s.engine (Trust.onNewBlock D ctx now s).registry :=
    (owned_upheld ctx evs s.engine).onNewBlock D (fun _ _ => trivial) h
  refine Owned.congr hreg ?_ ?_
  all_goals
    unfold Trust.onNewBlock
    split
    · rfl
    · rw [escalateSuspended_project (p := (·.engine)) (fun _ _ _ => rfl),
        triggerDistribution_project D (p := (·.engine)) (fun _ _ => rfl),
        checkAutoValidatorPromotion_project (p := (·.engine)) (fun _ _ _ _ => rfl)]
      unfold Engine.processRewardPeriod
      split
      · rfl
      · rfl

/-- **One block.** -/
theorem Owned.applyBlock {clock : BlockClock} (h : Owned evs s.engine s.registry)
    (hfork : hfVersionMevatrustAntisybil ≤ ctx.hfVersion)
    (hcredit : EachAction D (fun ctx s a => a.CreditsOwner ctx s) s (ctx, clock)) :
    Owned (evs ++ ((growingChain F D).step s (ctx, clock)).2)
      (Trust.applyBlock D ctx clock s).engine (Trust.applyBlock D ctx clock s).registry := by
  refine growingChain_step (I := fun evs s => Owned evs s.engine s.registry)
    (fun hsub hs => hs.mono hsub) (fun hs => hs.onNewBlock clock.newBlock)
    (fun hs hin hc hj => hs.action hfork hin hc hj) ?_ h hcredit
  intro evs s hs
  have hreg : Owned evs s.engine (expirySweep ctx.height clock.sweep s).registry :=
    (owned_upheld ctx evs s.engine).expirySweep hs
  refine hreg.congr ?_ ?_
  all_goals
    unfold expirySweep
    split
    · rfl
    · rfl

/-- **Every sample is the registrant's own**, after every chain of blocks from fork 18 on whose
actions credit nobody else's uptime. -/
theorem samples_of_registrant {blocks : List (BlockCtx × BlockClock)}
    (hfork : ∀ b ∈ blocks, hfVersionMevatrustAntisybil ≤ b.1.hfVersion)
    (hcredit : (growingChain F D).Guarded (EachAction D fun ctx s a => a.CreditsOwner ctx s) {}
      blocks) :
    ∀ e ∈ ((growingChain F D).run {} blocks).1.registry.getAllNodes,
      (∀ x ∈ ((growingChain F D).run {} blocks).1.engine.chainUptimeSamples.getD e.nodeId [],
        UptimeOrigin ((growingChain F D).run {} blocks).2 e.nodeId e x) ∧
      ∀ x ∈ ((growingChain F D).run {} blocks).1.engine.chainProofSamples.getD e.nodeId [],
        ProofOrigin ((growingChain F D).run {} blocks).2 e.nodeId e x := by
  have hinit : Owned [] ({} : Engine) ({} : NodeRegistry F) := by
    refine ⟨NodeRegistry.keyed_empty, ?_, ?_⟩
    · intro n e he
      simp at he
    · intro n e he
      simp at he
  have hforks : (growingChain F D).Guarded
      (fun _ b => hfVersionMevatrustAntisybil ≤ b.1.hfVersion) {} blocks :=
    Machine.guarded_of_forall _ (fun _ b hb => hfork b hb) _
  have howned := Machine.run_invariant (growingChain F D)
    (I := fun s evs => Owned evs s.engine s.registry) hinit
    (fun s evs b hs hb => hs.applyBlock hb.1 hb.2) (hforks.and hcredit)
  intro e he
  obtain ⟨⟨k, e'⟩, hmem, rfl⟩ := List.mem_map.1 he
  have hk := ExtTreeMap.mem_toList_iff_getElem?_eq_some.1 hmem
  have hid := howned.keyed k e' hk
  rw [hid]
  exact ⟨howned.uptime k e' hk, howned.proof k e' hk⟩

end

/-- An uptime commitment of the second node, signed with its first key. -/
def twinUptime : Uptime :=
  { ownerUptime with
    nodeId := Pod32.single 10
    signature := ⟨Pod32.single 5, Pod32.single 1⟩ }

/-- A block that carries the commitment, half a day after the one before. -/
def twinUptimeBlock (height : UInt64) : BlockCtx :=
  { carrierBlock 0xA5 (Uptime.codec.write twinUptime) height with
    block :=
      { timestamp := 43200 * height
        minerTx :=
          { tx := { extra := (packBlob 0xA5 (Uptime.codec.write twinUptime)).getD [] } } } }

/-- A node is registered and collects five samples. -/
def twinHistory : List (BlockCtx × BlockClock) :=
  (carrierBlock 0xA0 (Registration.codec.write twinRegistration) 43431, stillClock 2000) ::
    [43432, 43433, 43434, 43435, 43436].map fun height =>
      (twinUptimeBlock height, stillClock 2000)

/-- A chain proof of the next owner of the id, for a block with the hash zero. -/
def heirProof : ChainProof where
  nodeId := Pod32.single 10
  nodePubkey := Pod32.single 5
  anchorHeight := 43439
  proofHeight := 43322
  blockHash := Pod32.null
  signature := ⟨Pod32.single 5, Pod32.single 0⟩

/-- The owner gives the node up, and somebody registers the id with another key and a chain
proof. -/
def twinTakeover : List (BlockCtx × BlockClock) :=
  [(carrierBlock 0xA1 (Deregister.codec.write
      ⟨Pod32.single 10, Pod32.single 4, ⟨Pod32.single 6, Pod32.single 1⟩⟩) 43437, stillClock 2000),
    (carrierBlock 0xA0 (Registration.codec.write { twinRegistration with
        walletPubkey := Pod32.single 2
        nodePubkey := Pod32.single 5
        walletAddress := asciiBytes "heir"
        signature := ⟨Pod32.single 4, Pod32.single 1⟩ }) 43438, stillClock 2000),
    ({ carrierBlock 0xAC (ChainProof.codec.write heirProof) 43439 with
        chain := { blocks := List.replicate 43439 { minerTx := { tx := {} } } } }, stillClock 2000)]

/-- What becomes of all that. -/
def takeoverRun : Manager ℚ × List (BlockCtx × Action) :=
  (growingChain ℚ ℚ).run {} (twinHistory ++ twinTakeover)

/-- **An heir is credited with the uptime of another node**: the distribution at height 43440 weighs
the entry with the new key by two days that the old key has signed for. -/
theorem heir_takes_samples :
    ¬ ∀ (blocks : List (BlockCtx × BlockClock)) (height : UInt64),
        (∀ b ∈ blocks, hfVersionMevatrustAntisybil ≤ b.1.hfVersion) →
        blocks.IsChain (fun b b' => b'.1.height = b.1.height + 1) →
        blocks.getLast?.map (·.1.height + 1) = some height →
        Distributor.isDistributionDue height = true →
        ∀ e ∈ ((growingChain ℚ ℚ).run {} blocks).1.registry.getEligibleNodes,
          ∀ w, (e.nodeId, e.walletAddress, w) ∈
            uptimeWeights ℚ ((growingChain ℚ ℚ).run {} blocks).1.toRewardState height 18 →
          ∀ x ∈ ((growingChain ℚ ℚ).run {} blocks).1.engine.chainUptimeSamples.getD e.nodeId [],
            UptimeOrigin ((growingChain ℚ ℚ).run {} blocks).2 e.nodeId e x := by
  intro h
  have hall := h (twinHistory ++ twinTakeover) 43440 (by decide +kernel) (by decide +kernel)
    (by decide +kernel) (by decide)
  rw [← takeoverRun] at hall
  have hheir : (takeoverRun.1.registry.getEligibleNodes.any fun e =>
      decide (e.registeredHeight = 43438) &&
        decide ((e.nodeId, e.walletAddress, 2) ∈
          uptimeWeights ℚ takeoverRun.1.toRewardState 43440 18) &&
        (takeoverRun.1.engine.chainUptimeSamples.getD e.nodeId []).any fun x =>
          decide (x.height = 43432)) = true := by decide +kernel
  obtain ⟨e, he, hprops⟩ := List.any_eq_true.1 hheir
  simp only [Bool.and_eq_true, decide_eq_true_eq, List.any_eq_true] at hprops
  obtain ⟨⟨hreg, hweighed⟩, x, hx, hxh⟩ := hprops
  obtain ⟨ctx, upt, -, -, -, -, hheight, hlt⟩ := hall e he 2 hweighed x hx
  rw [hreg, hheight, hxh] at hlt
  exact absurd hlt (by decide)

/-- Before the takeover there is a sample, and every sample is the registrant's own. -/
theorem twin_owns_samples :
    ((growingChain ℚ ℚ).run {} twinHistory).1.engine.chainUptimeSamples.getD (Pod32.single 10) [] ≠
        [] ∧
      ∀ e ∈ ((growingChain ℚ ℚ).run {} twinHistory).1.registry.getAllNodes,
        (∀ x ∈ ((growingChain ℚ ℚ).run {} twinHistory).1.engine.chainUptimeSamples.getD
            e.nodeId [],
          UptimeOrigin ((growingChain ℚ ℚ).run {} twinHistory).2 e.nodeId e x) ∧
        ∀ x ∈ ((growingChain ℚ ℚ).run {} twinHistory).1.engine.chainProofSamples.getD e.nodeId [],
          ProofOrigin ((growingChain ℚ ℚ).run {} twinHistory).2 e.nodeId e x :=
  ⟨by decide +kernel, samples_of_registrant (by decide) (by decide +kernel)⟩

end Mevacoin.Trust
