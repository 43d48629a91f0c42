import Mevacoin.Trust.Rollback

/-!
# What a performed action has passed

`Action.Passed` says which checks a section makes before it acts.
-/

namespace Mevacoin.Trust

open Lib Std

section

variable {F : Type} [FloatArith F]

/-- The transaction carries the payload of the action, and its section let it through in the
state `s`. -/
def Action.Passed (ctx : BlockCtx) (t : LoadedTx) (s : Manager F) : Action → Prop
  | .node (.register reg) =>
    parseRegistration t.tx = some reg ∧ verifyRegistrationSignature ctx.env.crypto reg = true ∧
      ¬ (hfVersionMevatrustAntisybilBond ≤ ctx.hfVersion ∧
        t.governanceDeposit < nodeRegistrationBondAtomic)
  | .node (.deregister dereg) =>
    parseDeregister t.tx = some dereg ∧ verifyDeregisterSignature ctx.env.crypto dereg = true
  | .node (.promote n stake) =>
    ∃ val, parseValidator t.tx = some val ∧ verifyValidatorSignature ctx.env.crypto val = true ∧
      val.nodeId = n ∧ poolStake ctx.env.poolAddress t.tx = stake ∧ ¬ stake < validatorMinStake
  | .node (.award a) =>
    ∃ snap, parseSnapshot t.tx = some snap ∧ a ∈ snap.badgeAwards ∧
      verifyBadgeAward ctx.env.crypto a = true
  | .node (.penalty pen) =>
    parsePenalty t.tx = some pen ∧ verifyPenaltySignature ctx.env.crypto pen = true
  | .node (.uptime upt) =>
    parseUptime t.tx = some upt ∧ verifyUptimeSignature ctx.env.crypto upt = true ∧
      (hfVersionMevatrustAntisybil ≤ ctx.hfVersion →
        s.registry.bound upt.nodeId upt.nodePubkey = true)
  | .node (.challenge ch) =>
    parseChallenge t.tx = some ch ∧ verifyChallengeSignatures ctx.env.crypto ch = true ∧
      (hfVersionMevatrustAntisybil ≤ ctx.hfVersion →
        s.registry.bound ch.challengerNodeId ch.challengerPubkey = true ∧
          s.registry.bound ch.challengedNodeId ch.challengedPubkey = true)
  | .circle (.op o txHash) =>
    parseCircle t.tx = some o ∧ verifyCircleSignature ctx.env.crypto o = true ∧ txHash = t.hash ∧
      (CircleOpType.ofUInt8 o.opType ≠ some .create →
        s.circles.isTxProcessed o.circleId t.hash = false)
  | .circle (.vote v) =>
    parseCircleVote t.tx = some v ∧ verifyCircleVoteSignature ctx.env.crypto v = true
  | .chainProof cp =>
    parseChainProof t.tx = some cp ∧ hfVersionMevatrustAntisybil ≤ ctx.hfVersion ∧
      verifyChainProofSignature ctx.env.crypto cp = true ∧
      chainProofHolds ctx s.registry cp = true
  | .store op t' =>
    t' = t ∧ parseStore t.tx = some op ∧ verifyStoreOp ctx.env.crypto op = true
  | .poolDistribution amount =>
    ∃ pd, parseTagged PoolDistribution.codec poolDistributionTag t.tx = some pd ∧
      pd.totalDistributed = amount

/-! ### The sections -/

/-- The guard of the sections of one transaction. -/
def passes (ctx : BlockCtx) (t : LoadedTx) (s : Manager F) (a : Action × UInt64) : Prop :=
  a.1.Passed ctx t s

variable (D : Type) [FloatArith D] {ctx : BlockCtx} {t : LoadedTx} {now : UInt64} {s : Manager F}

/-- The section lets the actions through, one after another. -/
def LetThrough (ctx : BlockCtx) (t : LoadedTx) (now : UInt64) (s : Manager F)
    (acts : List Action) : Prop :=
  (actionMachine F D ctx).Guarded (passes ctx t) s (acts.map (·, now))

variable {D} in
/-- One action that has passed. -/
theorem LetThrough.one {a : Action} (h : a.Passed ctx t s) : LetThrough D ctx t now s [a] :=
  ⟨h, trivial⟩

variable {D} in
/-- A check that leaves the section without an action. -/
theorem LetThrough.check {c : Prop} [Decidable c] {acts : List Action}
    (h : ¬ c → LetThrough D ctx t now s acts) :
    LetThrough D ctx t now s (if c then [] else acts) := by
  split_ifs with hc
  · exact trivial
  · exact h hc

/-- What tag `0xA0` lets through. -/
theorem letThrough_registration : LetThrough D ctx t now s (registrationActions ctx t) := by
  unfold registrationActions
  cases hp : parseRegistration t.tx with
  | none => exact trivial
  | some reg =>
    exact .check fun hv => .check fun hbond => .one ⟨hp, by simpa using hv, hbond⟩

/-- What tag `0xA1` lets through. -/
theorem letThrough_deregister : LetThrough D ctx t now s (deregisterActions ctx t) := by
  unfold deregisterActions
  cases hp : parseDeregister t.tx with
  | none => exact trivial
  | some dereg => exact .check fun hv => .one ⟨hp, by simpa using hv⟩

/-- What tag `0xAB` lets through. -/
theorem letThrough_validator : LetThrough D ctx t now s (validatorActions ctx t) := by
  unfold validatorActions
  cases hp : parseValidator t.tx with
  | none => exact trivial
  | some val =>
    refine .check fun hv => .check fun hstake => .one ?_
    exact ⟨val, hp, by simpa using hv, rfl, rfl, hstake⟩

/-- What tag `0xA2` lets through. -/
theorem letThrough_snapshot : LetThrough D ctx t now s (snapshotActions ctx t) := by
  refine Machine.guarded_of_forall _ ?_ s
  rintro s ⟨a, time⟩ ha
  unfold snapshotActions at ha
  cases hp : parseSnapshot t.tx with
  | none =>
    rw [hp] at ha
    cases ha
  | some snap =>
    rw [hp] at ha
    simp only [List.map_map, List.mem_map, List.mem_filter] at ha
    obtain ⟨aw, ⟨hmem, hv⟩, rfl, -⟩ := ha
    exact ⟨snap, hp, hmem, hv⟩

/-- What tag `0xA3` lets through. -/
theorem letThrough_circle : LetThrough D ctx t now s (circleActions ctx t s) := by
  unfold circleActions
  cases hp : parseCircle t.tx with
  | none => exact trivial
  | some op =>
    refine .check fun hv => .check fun hdone => .one ⟨hp, by simpa using hv, rfl, fun hop => ?_⟩
    exact Bool.eq_false_iff.2 fun hd => hdone ⟨hop, hd⟩

/-- What tag `0xA9` lets through. -/
theorem letThrough_circleVote : LetThrough D ctx t now s (circleVoteActions ctx t) := by
  unfold circleVoteActions
  cases hp : parseCircleVote t.tx with
  | none => exact trivial
  | some v => exact .check fun hv => .one ⟨hp, by simpa using hv⟩

/-- What tag `0xA4` lets through. -/
theorem letThrough_penalty : LetThrough D ctx t now s (penaltyActions ctx t) := by
  unfold penaltyActions
  cases hp : parsePenalty t.tx with
  | none => exact trivial
  | some pen => exact .check fun hv => .one ⟨hp, by simpa using hv⟩

/-- What tag `0xA5` lets through. -/
theorem letThrough_uptime : LetThrough D ctx t now s (uptimeActions ctx t s) := by
  unfold uptimeActions
  cases hp : parseUptime t.tx with
  | none => exact trivial
  | some upt =>
    refine .check fun hv => .check fun hb => .one ⟨hp, by simpa using hv, fun hf => ?_⟩
    exact Bool.not_eq_false _ ▸ fun hbound => hb ⟨hf, hbound⟩

/-- What tag `0xA6` lets through. -/
theorem letThrough_challenge : LetThrough D ctx t now s (challengeActions ctx t s) := by
  unfold challengeActions
  cases hp : parseChallenge t.tx with
  | none => exact trivial
  | some ch =>
    refine .check fun hv => .check fun hb => .one ⟨hp, by simpa using hv, fun hf => ?_⟩
    exact Bool.and_eq_true_iff.1 (Bool.not_eq_false _ ▸ fun hbound => hb ⟨hf, hbound⟩)

/-- What tag `0xAC` lets through. -/
theorem letThrough_chainProof : LetThrough D ctx t now s (chainProofActions ctx t s) := by
  unfold chainProofActions
  cases hp : parseChainProof t.tx with
  | none => exact trivial
  | some cp =>
    refine .check fun hf => .check fun hv => .check fun hc => .one ?_
    exact ⟨hp, UInt8.not_lt.1 hf, by simpa using hv, Bool.not_eq_false _ ▸ hc⟩

/-- What tag `0xA8` lets through. -/
theorem letThrough_store : LetThrough D ctx t now s (storeActions ctx t) := by
  unfold storeActions
  cases hp : parseStore t.tx with
  | none => exact trivial
  | some op => exact .check fun hv => .one ⟨rfl, hp, by simpa using hv⟩

/-- What tag `0xAA` lets through. -/
theorem letThrough_poolDistribution :
    LetThrough D ctx t now s (poolDistributionActions t) := by
  unfold poolDistributionActions
  cases hp : parseTagged PoolDistribution.codec poolDistributionTag t.tx with
  | none => exact trivial
  | some pd => exact .one ⟨pd, hp, rfl⟩

/-! ### A block -/

/-- What every section lets through has passed. -/
theorem actingSections_guarded : ∀ x ∈ actingSections (F := F) D ctx t now, ∀ s,
    (actionMachine F D ctx).Guarded (passes ctx t) s (x.2 s) := by
  intro x hx s
  simp only [actingSections, List.mem_cons, List.not_mem_nil, or_false] at hx
  rcases hx with rfl | rfl | rfl | rfl | rfl | rfl | rfl | rfl | rfl | rfl | rfl | rfl
  · exact letThrough_registration D
  · exact letThrough_deregister D
  · exact letThrough_validator D
  · exact letThrough_snapshot D
  · exact letThrough_circle D
  · exact letThrough_circleVote D
  · exact letThrough_penalty D
  · exact letThrough_uptime D
  · exact letThrough_challenge D
  · exact letThrough_chainProof D
  · exact letThrough_store D
  · exact letThrough_poolDistribution D

/-- The actions of a transaction have passed. -/
theorem guarded_txActions (s : Manager F) :
    (actionMachine F D ctx).Guarded (passes ctx t) s (txActions D ctx t now s) :=
  Flow.performed_guarded _ (actingSections_eq_run D ctx t now) (actingSections_guarded D) s

/-- Some transaction of the block carries the payload, and its section let it through. -/
def Action.Justified (ctx : BlockCtx) (s : Manager F) (a : Action × UInt64) : Prop :=
  ∃ t ∈ ctx.txs, a.1.Passed ctx t s

/-- So have those of a list of transactions. -/
theorem guarded_blockActions {txs : List LoadedTx} (htxs : ∀ t ∈ txs, t ∈ ctx.txs)
    (time : ℕ → UInt64) (s : Manager F) :
    (actionMachine F D ctx).Guarded (Action.Justified ctx) s (blockActions D ctx txs time s) := by
  induction txs generalizing time s with
  | nil => exact trivial
  | cons t ts ih =>
    rw [blockActions, Machine.guarded_append, ← processTx_eq_run]
    constructor
    · exact (guarded_txActions D s).mono fun _ _ h => ⟨t, htxs t List.mem_cons_self, h⟩
    · exact ih (fun t ht => htxs t (List.mem_cons_of_mem _ ht)) _ _

/-- **Every action of a block has passed the checks of its section.** -/
theorem guarded_actionsOf (clock : BlockClock) (s : Manager F) :
    (actionMachine F D ctx).Guarded (Action.Justified ctx) s (actionsOf D ctx clock s) :=
  guarded_blockActions D (fun _ ht => ht) _ s

variable {D} {clock : BlockClock}

/-- **The rule for the transactions of a block.**  What every justified action and the sweep
preserve holds afterwards. -/
theorem processMevatrustTxs_invariant {I : Manager F → Prop}
    {P : Manager F → Action × UInt64 → Prop} (hact : ∀ s a, I s → P s a → Action.Justified ctx s a →
      I ((actionMachine F D ctx).step s a).1)
    (hsweep : ∀ s, I s → I (expirySweep ctx.height clock.sweep s)) (hs : I s)
    (hg : (actionMachine F D ctx).Guarded P s (actionsOf D ctx clock s)) :
    I (processMevatrustTxs D ctx clock s) := by
  cases hinit : s.initialized with
  | false =>
    unfold processMevatrustTxs
    rwa [if_pos hinit]
  | true =>
    rw [processMevatrustTxs_eq_run hinit]
    refine hsweep _ (Machine.run_state_invariant _ hs ?_ (hg.and (guarded_actionsOf D clock s)))
    rintro s a hs ⟨hp, hj⟩
    exact hact s a hs hp hj

end

end Mevacoin.Trust
