import Mevacoin.Trust.Actions

/-!
# What decides which payloads act

Beyond a payload itself, whether it acts depends on the registered keys and on the circles.
-/

namespace Mevacoin.Trust

open Lib Std

section

variable {F : Type}

/-- The same keys are registered, and the circles are the same if the transaction is about
circles. -/
structure SameGates (t : LoadedTx) (s s' : Manager F) : Prop where
  bound : ∀ n pk, s.registry.bound n pk = s'.registry.bound n pk
  circles : s.circles = s'.circles ∨ parseCircle t.tx = none ∧ parseCircleVote t.tx = none

variable (D : Type) [FloatArith D] {ctx : BlockCtx} {t : LoadedTx} {now : UInt64}
  {s s' : Manager F}

/-! ### Sections that any state passes alike -/

/-- The state stops no deregistration. -/
theorem deregisterSection_isNext :
    (deregisterSection ctx t s).isNext = (deregisterSection ctx t s').isNext := by
  unfold deregisterSection
  cases parseDeregister t.tx with
  | none => rfl
  | some dereg =>
    dsimp only
    split_ifs
    · rfl
    · refine Eq.trans (b := true) ?_ (Eq.symm ?_)
      all_goals
        split
        all_goals rfl

/-- The state stops no validator. -/
theorem validatorSection_isNext :
    (validatorSection ctx t now s).isNext = (validatorSection ctx t now s').isNext := by
  unfold validatorSection
  split
  · rfl
  · split_ifs
    · rfl
    · rfl
    · rfl

/-- The state stops no snapshot. -/
theorem snapshotSection_isNext :
    (snapshotSection ctx t now s).isNext = (snapshotSection ctx t now s').isNext := by
  unfold snapshotSection
  split
  · rfl
  · rfl

/-- The state stops no store payload. -/
theorem storeSection_isNext :
    (storeSection ctx t now s).isNext = (storeSection ctx t now s').isNext := by
  unfold storeSection
  split
  · rfl
  · split_ifs
    · rfl
    · rfl

/-- The state stops no manifest. -/
theorem poolDistributionSection_isNext :
    (poolDistributionSection ctx t s).isNext = (poolDistributionSection ctx t s').isNext := by
  unfold poolDistributionSection
  split
  · rfl
  · rfl

/-! ### Sections that look at the state -/

/-- Circles behind equal gates. -/
theorem SameGates.circleSection (h : SameGates t s s') :
    circleActions ctx t s = circleActions ctx t s' ∧
      (circleSection ctx t now s).isNext = (circleSection ctx t now s').isNext := by
  unfold circleActions Trust.circleSection
  obtain hc | ⟨hnone, -⟩ := h.circles
  · rw [hc]
    refine ⟨rfl, ?_⟩
    split
    · rfl
    · split_ifs
      · rfl
      · rfl
      · split
        · rfl
        · rfl
  · rw [hnone]
    exact ⟨rfl, rfl⟩

/-- Votes behind equal gates. -/
theorem SameGates.circleVoteSection (h : SameGates t s s') :
    (circleVoteSection D ctx t now s).isNext = (circleVoteSection D ctx t now s').isNext := by
  unfold Trust.circleVoteSection
  obtain hc | ⟨-, hnone⟩ := h.circles
  · rw [hc]
    split
    · rfl
    · split_ifs
      · rfl
      · split
        · rfl
        · rfl
  · rw [hnone]
    rfl

/-- Samples behind equal gates. -/
theorem SameGates.uptimeSection (h : SameGates t s s') :
    uptimeActions ctx t s = uptimeActions ctx t s' ∧
      (uptimeSection ctx t now s).isNext = (uptimeSection ctx t now s').isNext := by
  unfold uptimeActions Trust.uptimeSection
  cases parseUptime t.tx with
  | none => exact ⟨rfl, rfl⟩
  | some upt =>
    dsimp only
    rw [h.bound]
    refine ⟨rfl, ?_⟩
    split_ifs
    · rfl
    · rfl
    · rfl

/-- Proofs behind equal gates. -/
theorem SameGates.chainProofSection (h : SameGates t s s') :
    chainProofActions ctx t s = chainProofActions ctx t s' ∧
      (chainProofSection ctx t s).isNext = (chainProofSection ctx t s').isNext := by
  have hholds (cp : ChainProof) :
      chainProofHolds ctx s.registry cp = chainProofHolds ctx s'.registry cp := by
    unfold chainProofHolds
    rw [h.bound]
  unfold chainProofActions Trust.chainProofSection
  cases parseChainProof t.tx with
  | none => exact ⟨rfl, rfl⟩
  | some cp =>
    dsimp only
    rw [hholds]
    refine ⟨rfl, ?_⟩
    split_ifs
    · rfl
    · rfl
    · rfl
    · rfl

variable [FloatArith F]

/-- The state stops no registration. -/
theorem registrationSection_isNext :
    (registrationSection ctx t now s).isNext = (registrationSection ctx t now s').isNext := by
  unfold registrationSection
  cases parseRegistration t.tx with
  | none => rfl
  | some reg =>
    dsimp only
    by_cases hv : (!verifyRegistrationSignature ctx.env.crypto reg) = true
    · rw [if_pos hv, if_pos hv]
      rfl
    rw [if_neg hv, if_neg hv]
    by_cases hb : hfVersionMevatrustAntisybilBond ≤ ctx.hfVersion ∧
        t.governanceDeposit < nodeRegistrationBondAtomic
    · rw [if_pos hb, if_pos hb]
      rfl
    -- accepted, refused or punished, a registration falls through
    · rw [if_neg hb, if_neg hb]
      all_goals
        repeat' split
        all_goals rfl

/-- The state stops no penalty. -/
theorem penaltySection_isNext :
    (penaltySection ctx t now s).isNext = (penaltySection ctx t now s').isNext := by
  unfold penaltySection
  split
  · rfl
  · split_ifs
    · rfl
    · rfl

/-- Challenges behind equal gates. -/
theorem SameGates.challengeSection (h : SameGates t s s') :
    challengeActions ctx t s = challengeActions ctx t s' ∧
      (challengeSection ctx t now s).isNext = (challengeSection ctx t now s').isNext := by
  unfold challengeActions Trust.challengeSection
  cases parseChallenge t.tx with
  | none => exact ⟨rfl, rfl⟩
  | some ch =>
    dsimp only
    rw [h.bound, h.bound]
    refine ⟨rfl, ?_⟩
    split_ifs
    · rfl
    · rfl
    · rfl

/-! ### Transactions and blocks -/

/-- The sections before those of the circles, which look at nothing but the payload. -/
theorem leadingSections_alike : ∀ x ∈ (actingSections (F := F) D ctx t now).take 4, ∀ s s',
      x.2 s = x.2 s' ∧ (x.1 s).isNext = (x.1 s').isNext := by
  intro x hx s s'
  simp only [actingSections, List.take, List.mem_cons, List.not_mem_nil, or_false] at hx
  rcases hx with rfl | rfl | rfl | rfl
  · exact ⟨rfl, registrationSection_isNext⟩
  · exact ⟨rfl, deregisterSection_isNext⟩
  · exact ⟨rfl, validatorSection_isNext⟩
  · exact ⟨rfl, snapshotSection_isNext⟩

/-- The other sections, in states with the same gates. -/
theorem trailingSections_alike :
    ∀ x ∈ (actingSections (F := F) D ctx t now).drop 4, ∀ s s', SameGates t s s' →
      x.2 s = x.2 s' ∧ (x.1 s).isNext = (x.1 s').isNext := by
  intro x hx s s' h
  simp only [actingSections, List.drop, List.mem_cons, List.not_mem_nil, or_false] at hx
  rcases hx with rfl | rfl | rfl | rfl | rfl | rfl | rfl | rfl
  · exact h.circleSection.imp_left (congrArg (List.map (·, now)))
  · exact ⟨rfl, h.circleVoteSection D⟩
  · exact ⟨rfl, penaltySection_isNext⟩
  · exact h.uptimeSection.imp_left (congrArg (List.map (·, now)))
  · exact h.challengeSection.imp_left (congrArg (List.map (·, now)))
  · exact h.chainProofSection.imp_left (congrArg (List.map (·, now)))
  · exact ⟨rfl, storeSection_isNext⟩
  · exact ⟨rfl, poolDistributionSection_isNext⟩

variable {D}

/-- **The same gates let the same payloads act**, if `R` implies them and every action keeps it. -/
theorem txActions_congr {R : Manager F → Manager F → Prop}
    (hgates : ∀ s s', R s s' → SameGates t s s') (hstep : ∀ s s' a, R s s' →
      R ((actionMachine F D ctx).step s a).1 ((actionMachine F D ctx).step s' a).1)
    (h : R s s') : txActions D ctx t now s = txActions D ctx t now s' := by
  refine Flow.performed_congr (actingSections_eq_run D ctx t now) hstep ?_ h
  intro x hx s s' h
  rw [← List.take_append_drop 4 (actingSections D ctx t now), List.mem_append] at hx
  rcases hx with hx | hx
  · exact leadingSections_alike D x hx s s'
  · exact trailingSections_alike D x hx s s' (hgates s s' h)

/-- The same for the transactions of a block. -/
theorem blockActions_congr {R : Manager F → Manager F → Prop} {txs : List LoadedTx}
    (hgates : ∀ t ∈ txs, ∀ s s', R s s' → SameGates t s s') (hstep : ∀ s s' a, R s s' →
      R ((actionMachine F D ctx).step s a).1 ((actionMachine F D ctx).step s' a).1)
    (time : ℕ → UInt64) (h : R s s') :
    blockActions D ctx txs time s = blockActions D ctx txs time s' := by
  induction txs generalizing time s s' with
  | nil => rfl
  | cons t ts ih =>
    have hfirst : txActions D ctx t (time 0) s = txActions D ctx t (time 0) s' :=
      txActions_congr (hgates t List.mem_cons_self) hstep h
    have hnext : R (processTx D ctx t (time 0) s) (processTx D ctx t (time 0) s') := by
      rw [processTx_eq_run, processTx_eq_run, hfirst]
      exact Machine.run_related _ hstep h _
    rw [blockActions, blockActions, hfirst,
      ih (fun t ht => hgates t (List.mem_cons_of_mem _ ht)) _ hnext]

end

end Mevacoin.Trust
