import Mevacoin.Premine.Rules

/-!
# What the premine effects can do

Inversion lemmas for `processPremineActions`.
-/

namespace Mevacoin.Premine

open Lib

variable {env : Env} {s s' : PremineState} {tx : FullTransaction} {height : UInt64}

/-! ### Which effects there are -/

/-- A field that is found is one of the fields. -/
theorem FullTransaction.governanceTransfer_mem {t : GovernanceTransfer}
    (h : tx.governanceTransfer = some t) : TxExtraField.governanceTransfer t ∈ tx.fields := by
  obtain ⟨f, hf, he⟩ := List.exists_of_findSome?_eq_some h
  cases f <;> simp only [reduceCtorEq, Option.some.injEq] at he
  exact he ▸ hf

/-- A new signer that is found. -/
theorem FullTransaction.governanceAddSigner_mem {t : GovernanceAddSigner}
    (h : tx.governanceAddSigner = some t) : TxExtraField.governanceAddSigner t ∈ tx.fields := by
  obtain ⟨f, hf, he⟩ := List.exists_of_findSome?_eq_some h
  cases f <;> simp only [reduceCtorEq, Option.some.injEq] at he
  exact he ▸ hf

/-- A removal that is found. -/
theorem FullTransaction.governanceRemoveSigner_mem {t : GovernanceRemoveSigner}
    (h : tx.governanceRemoveSigner = some t) :
    TxExtraField.governanceRemoveSigner t ∈ tx.fields := by
  obtain ⟨f, hf, he⟩ := List.exists_of_findSome?_eq_some h
  cases f <;> simp only [reduceCtorEq, Option.some.injEq] at he
  exact he ▸ hf

theorem FullTransaction.hasGovernance_iff :
    tx.hasGovernance = true ↔ tx.governanceTransfer.isSome ∨ tx.governanceAddSigner.isSome ∨
      tx.governanceRemoveSigner.isSome := by
  rw [FullTransaction.hasGovernance, Bool.or_eq_true, Bool.or_eq_true, or_assoc]

/-- The effects after the deposit. -/
def fieldEffects (tx : FullTransaction) (height : UInt64) : List Effect :=
  tx.governanceTransfer.toList.map (.transfer ·.amount) ++
    (tx.governanceAddSigner.toList.map (.addSigner ·.newSignerKey) ++
    (tx.governanceRemoveSigner.toList.map (.removeSigner ·.signerIndex) ++
    tx.networkFundTransfer.toList.map (.networkSpend height ·.amount)))

/-- The deposit comes first. -/
theorem effects_eq (env : Env) (tx : FullTransaction) (height : UInt64) :
    effects env tx height =
      (if (governanceOwnedOutputs env tx).1 = [] then []
        else [.deposit tx.inputImages (governanceOwnedOutputs env tx).1
          (governanceOwnedOutputs env tx).2]) ++ fieldEffects tx height := rfl

/-- One effect for each field. -/
theorem mem_fieldEffects {e : Effect} :
    e ∈ fieldEffects tx height ↔
      (∃ t, tx.governanceTransfer = some t ∧ e = .transfer t.amount) ∨
      (∃ t, tx.governanceAddSigner = some t ∧ e = .addSigner t.newSignerKey) ∨
      (∃ t, tx.governanceRemoveSigner = some t ∧ e = .removeSigner t.signerIndex) ∨
      ∃ t, tx.networkFundTransfer = some t ∧ e = .networkSpend height t.amount := by
  simp only [fieldEffects, List.mem_append, List.mem_map, Option.mem_toList, eq_comm]

/-- A deposit comes first. -/
theorem deposit_first {pre post : List Effect} {spent images : List KeyImage} {total : UInt64}
    (h : effects env tx height = pre ++ .deposit spent images total :: post) :
    pre = [] ∧ total = (governanceOwnedOutputs env tx).2 := by
  have hfield : Effect.deposit spent images total ∉ fieldEffects tx height := by
    rw [mem_fieldEffects]
    rintro (⟨t, -, he⟩ | ⟨t, -, he⟩ | ⟨t, -, he⟩ | ⟨t, -, he⟩) <;> cases he
  rw [effects_eq] at h
  split_ifs at h with hnone
  · refine absurd ?_ hfield
    rw [List.nil_append] at h
    rw [h]
    exact List.mem_append_right _ (List.mem_cons_self ..)
  · cases pre with
    | nil =>
      rw [List.nil_append, List.singleton_append, List.cons.injEq] at h
      exact ⟨rfl, (Effect.deposit.inj h.1).2.2.symm⟩
    | cons e pre =>
      rw [List.singleton_append, List.cons_append, List.cons.injEq] at h
      refine absurd ?_ hfield
      rw [h.2]
      exact List.mem_append_right _ (List.mem_cons_self ..)

/-- An effect is a deposit or comes from a field. -/
theorem mem_effects {e : Effect} (h : e ∈ effects env tx height) :
    e = .deposit tx.inputImages (governanceOwnedOutputs env tx).1
        (governanceOwnedOutputs env tx).2 ∨
      e ∈ fieldEffects tx height := by
  rw [effects_eq] at h
  split_ifs at h with hnone
  · exact Or.inr (by simpa using h)
  · rcases List.mem_append.1 h with h | h
    · exact Or.inl (List.mem_singleton.1 h)
    · exact Or.inr h

/-- A transaction that does not act has no effects. -/
theorem effects_eq_nil_of_not_acts (h : acts env tx = false) : effects env tx height = [] := by
  simp only [acts, FullTransaction.hasGovernance, Bool.or_eq_false_iff, Bool.not_eq_false',
    List.isEmpty_iff, Option.isSome_eq_false_iff, Option.isNone_iff_eq_none] at h
  obtain ⟨⟨howned, ⟨htransfer, hadd⟩, hremove⟩, hfund⟩ := h
  rw [effects_eq, if_pos howned, fieldEffects, htransfer, hadd, hremove, hfund]
  rfl

/-- Idle transactions pass. -/
theorem processPremineActions_of_not_acts (h : acts env tx = false) :
    processPremineActions env s tx height = (s, true) := by
  rw [processPremineActions, effects_eq_nil_of_not_acts h, runEffects]

/-! ### One effect -/

/-- No effect changes the threshold or the number of genesis signers. -/
theorem Effect.apply_threshold {e : Effect} (h : e.apply env s = some s') :
    s'.governance.threshold = s.governance.threshold := by
  cases e <;> simp only [Effect.apply] at h <;> (try split_ifs at h) <;>
    obtain rfl := Option.some.inj h <;> rfl

/-- Only a removal takes signers away. -/
theorem Effect.apply_signers_subset {e : Effect} (h : e.apply env s = some s')
    (hkeep : ∀ i, e ≠ .removeSigner i) : s.governance.signers ⊆ s'.governance.signers := by
  cases e with
  | removeSigner i => exact absurd rfl (hkeep i)
  | addSigner key =>
    obtain rfl := Option.some.inj h
    exact List.subset_append_left ..
  | deposit spent images total =>
    obtain rfl := Option.some.inj h
    exact List.Subset.refl _
  | transfer amount | networkSpend height amount =>
    simp only [Effect.apply] at h
    split_ifs at h
    obtain rfl := Option.some.inj h
    exact List.Subset.refl _

/-- An effect after the deposit does not raise the balance. -/
theorem Effect.apply_balance_le {e : Effect} (h : e.apply env s = some s')
    (hfield : e ∈ fieldEffects tx height) :
    s'.governance.balance.toNat ≤ s.governance.balance.toNat := by
  obtain ⟨t, -, rfl⟩ | ⟨t, -, rfl⟩ | ⟨t, -, rfl⟩ | ⟨t, -, rfl⟩ := mem_fieldEffects.1 hfield
  · simp only [Effect.apply] at h
    split_ifs at h with hlow
    obtain rfl := Option.some.inj h
    rw [UInt64.toNat_sub_of_le _ _ (UInt64.not_lt.1 hlow)]
    exact Nat.sub_le ..
  · obtain rfl := Option.some.inj h
    exact le_rfl
  · simp only [Effect.apply] at h
    split_ifs at h
    obtain rfl := Option.some.inj h
    exact le_rfl
  · simp only [Effect.apply] at h
    split_ifs at h
    obtain rfl := Option.some.inj h
    exact le_rfl

/-! ### All effects of a transaction -/

/-- **The rule for a transaction**: what every effect keeps holds afterwards. -/
theorem runEffects_keeps {P : PremineState → Prop} {es : List Effect} (hs : P s)
    (hstep : ∀ e ∈ es, ∀ a b, P a → e.apply env a = some b → P b) : P (runEffects env es s).1 := by
  induction es generalizing s with
  | nil => exact hs
  | cons e es ih =>
    rw [runEffects]
    cases he : e.apply env s with
    | none => exact hs
    | some s₁ =>
      exact ih (hstep e (List.mem_cons_self ..) s s₁ hs he)
        fun e' he' => hstep e' (List.mem_cons_of_mem _ he')

/-- The threshold never moves. -/
theorem processPremineActions_threshold :
    (processPremineActions env s tx height).1.governance.threshold = s.governance.threshold :=
  runEffects_keeps (P := fun a => a.governance.threshold = s.governance.threshold) rfl
    fun _ _ _ _ ha h => (Effect.apply_threshold h).trans ha

/-- A transaction without a `0xB2` field keeps all signers. -/
theorem processPremineActions_signers_subset (h : tx.governanceRemoveSigner = none) :
    s.governance.signers ⊆ (processPremineActions env s tx height).1.governance.signers := by
  refine runEffects_keeps (P := fun a => s.governance.signers ⊆ a.governance.signers)
    (List.Subset.refl _) ?_
  intro e he a b ha hab
  refine List.Subset.trans ha (Effect.apply_signers_subset hab ?_)
  rintro i rfl
  rcases mem_effects he with he | he
  · cases he
  · obtain ⟨t, -, he⟩ | ⟨t, -, he⟩ | ⟨t, ht, -⟩ | ⟨t, -, he⟩ := mem_fieldEffects.1 he
    · cases he
    · cases he
    · rw [h] at ht
      cases ht
    · cases he

/-- The balance grows at most by the deposit. -/
theorem processPremineActions_balance_le (height : UInt64)
    (h : s.governance.balance.toNat + (governanceOwnedOutputs env tx).2.toNat < 2 ^ 64) :
    (processPremineActions env s tx height).1.governance.balance.toNat ≤
      s.governance.balance.toNat + (governanceOwnedOutputs env tx).2.toNat := by
  set bound := s.governance.balance.toNat + (governanceOwnedOutputs env tx).2.toNat with hbound
  have hfields : ∀ a : PremineState, a.governance.balance.toNat ≤ bound →
      (runEffects env (fieldEffects tx height) a).1.governance.balance.toNat ≤ bound := by
    intro a ha
    refine runEffects_keeps (P := fun a => a.governance.balance.toNat ≤ bound) ha ?_
    intro e he a b ha hab
    exact (Effect.apply_balance_le hab he).trans ha
  rw [processPremineActions, effects_eq]
  split_ifs with hnone
  · exact hfields s (Nat.le_add_right ..)
  · refine hfields _ ?_
    split_ifs
    · exact Nat.le_add_right ..
    · rw [UInt64.toNat_add, Nat.mod_eq_of_lt h]

end Mevacoin.Premine
