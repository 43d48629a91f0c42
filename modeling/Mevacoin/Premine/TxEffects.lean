import Mevacoin.Premine.BlockEffects

/-!
# One transaction, component by component

A transaction has at most one effect of each kind, so what it demands and leaves can be said without
the list.
-/

namespace Mevacoin.Premine

open Lib

namespace FullTransaction

/-- What a transaction adds to the treasury's balance. -/
def credit (env : Env) (g : GovernanceState) (tx : FullTransaction) : UInt64 :=
  if spendsGovernance env g tx.inputImages then 0 else (governanceOwnedOutputs env tx).2

/-- What a transaction takes from the treasury's balance. -/
def debit (tx : FullTransaction) : UInt64 := (tx.governanceTransfer.map (·.amount)).getD 0

/-- What a transaction takes from the network fund. -/
def fundDebit (tx : FullTransaction) : UInt64 := (tx.networkFundTransfer.map (·.amount)).getD 0

/-- The key that a transaction adds, if it has a `0xB1` field. -/
def addedKey (tx : FullTransaction) : List PublicKey :=
  tx.governanceAddSigner.toList.map (·.newSignerKey)

/-- The signers without the one that a transaction removes. -/
def dropSigner (tx : FullTransaction) (l : List PublicKey) : List PublicKey :=
  match tx.governanceRemoveSigner with
  | none => l
  | some t => l.eraseIdx t.signerIndex.toNat

end FullTransaction

/-- The fund after one more spend. -/
def recordSpend (f : NetworkFundState) (ev : NetworkSpendEvent) : NetworkFundState :=
  ⟨f.balance - ev.amount, spendsFrom (windowCutoff ev.height) (f.recentSpends ++ [ev])⟩

/-- The fund after a transaction. -/
def fundAfter (height : UInt64) (tx : FullTransaction) (f : NetworkFundState) : NetworkFundState :=
  match tx.networkFundTransfer with
  | none => f
  | some t => recordSpend f ⟨height, t.amount⟩

/-- What a transaction demands of the state. -/
structure TxAdmissible (env : Env) (s : PremineState) (tx : FullTransaction) : Prop where
  transfer : tx.debit ≤ s.governance.balance + tx.credit env s.governance
  removal : ∀ t, tx.governanceRemoveSigner = some t →
    s.governance.originalCount.toNat ≤ t.signerIndex.toNat
  fund : tx.fundDebit ≤ s.networkFund.balance

/-- The state after a transaction that is admissible. -/
def txResult (env : Env) (height : UInt64) (tx : FullTransaction) (s : PremineState) :
    PremineState where
  governance :=
    { signers := tx.dropSigner (s.governance.signers ++ tx.addedKey)
      originalCount := s.governance.originalCount
      balance := s.governance.balance + tx.credit env s.governance - tx.debit
      threshold := s.governance.threshold
      bondKeyImages := addImages s.governance.bondKeyImages (governanceOwnedOutputs env tx).1 }
  networkFund := fundAfter height tx s.networkFund

section

variable {env : Env} {s s' : PremineState} {tx : FullTransaction} {height : UInt64}

/-! ### The stages -/

/-- A list of effects succeeds if its parts do, one after the other. -/
theorem runEffects_append_ok_iff {es es' : List Effect} :
    runEffects env (es ++ es') s = (s', true) ↔
      ∃ s₁, runEffects env es s = (s₁, true) ∧ runEffects env es' s₁ = (s', true) := by
  rw [runEffects_append]
  cases hr : runEffects env es s with
  | mk s₁ ok =>
    cases ok with
    | true | false => simp

/-- One effect. -/
theorem runEffects_singleton_ok_iff {e : Effect} :
    runEffects env [e] s = (s', true) ↔ e.Admissible s ∧ s' = e.result env s := by
  rw [← Effect.apply_eq_some_iff, runEffects]
  cases he : e.apply env s with
  | none => simp
  | some s₁ => simp [runEffects]

/-- No effects. -/
theorem runEffects_nil_ok_iff : runEffects env [] s = (s', true) ↔ s' = s := by
  simp [runEffects, eq_comm]

/-- Without outputs to the governance nothing is deposited. -/
theorem governanceOwnedOutputs_total_of_nil (h : (governanceOwnedOutputs env tx).1 = []) :
    (governanceOwnedOutputs env tx).2 = 0 := by
  unfold governanceOwnedOutputs at h ⊢
  split_ifs at h ⊢ with hkey
  · rfl
  · rw [List.map_eq_nil_iff.1 h]
    rfl

/-- The deposit. -/
theorem runEffects_deposit_ok_iff :
    runEffects env (if (governanceOwnedOutputs env tx).1 = [] then []
      else [.deposit tx.inputImages (governanceOwnedOutputs env tx).1
        (governanceOwnedOutputs env tx).2]) s = (s', true) ↔
      s' = { s with governance := { s.governance with
        balance := s.governance.balance + tx.credit env s.governance
        bondKeyImages :=
          addImages s.governance.bondKeyImages (governanceOwnedOutputs env tx).1 } } := by
  split_ifs with hnone
  · have hcredit : tx.credit env s.governance = 0 := by
      rw [FullTransaction.credit, governanceOwnedOutputs_total_of_nil hnone, ite_self]
    rw [runEffects_nil_ok_iff, hcredit, hnone, UInt64.add_zero]
    rfl
  · rw [runEffects_singleton_ok_iff]
    simp only [Effect.Admissible, true_and, Effect.result, Effect.editSigners, Effect.newImages,
      Effect.credit, Effect.debit, Effect.editSpends, Effect.fundSpend, Option.map_none,
      Option.getD_none, UInt64.sub_zero, FullTransaction.credit]

/-- The transfer. -/
theorem runEffects_transfer_ok_iff :
    runEffects env (tx.governanceTransfer.toList.map (.transfer ·.amount)) s = (s', true) ↔
      tx.debit ≤ s.governance.balance ∧
        s' = { s with governance := { s.governance with
          balance := s.governance.balance - tx.debit } } := by
  unfold FullTransaction.debit
  cases tx.governanceTransfer with
  | none =>
    have hzero : (0 : UInt64) ≤ s.governance.balance := UInt64.zero_le
    simp [runEffects_nil_ok_iff]
  | some t =>
    rw [Option.toList_some, List.map_singleton, runEffects_singleton_ok_iff]
    simp only [Effect.result, Effect.credit, Effect.fundSpend, Option.map_none,
      Option.getD_none, UInt64.sub_zero, UInt64.add_zero]
    rfl

/-- The new signer. -/
theorem runEffects_addSigner_ok_iff :
    runEffects env (tx.governanceAddSigner.toList.map (.addSigner ·.newSignerKey)) s =
        (s', true) ↔
      s' = { s with governance := { s.governance with
        signers := s.governance.signers ++ tx.addedKey } } := by
  unfold FullTransaction.addedKey
  cases tx.governanceAddSigner with
  | none => simp [runEffects_nil_ok_iff]
  | some t =>
    rw [Option.toList_some, List.map_singleton, runEffects_singleton_ok_iff]
    simp only [Effect.Admissible, true_and, Effect.result, Effect.credit, Effect.debit,
      Effect.fundSpend, Option.map_none, Option.getD_none, UInt64.sub_zero, UInt64.add_zero]
    rfl

/-- The removal. -/
theorem runEffects_removeSigner_ok_iff :
    runEffects env (tx.governanceRemoveSigner.toList.map (.removeSigner ·.signerIndex)) s =
        (s', true) ↔
      (∀ t, tx.governanceRemoveSigner = some t →
        s.governance.originalCount.toNat ≤ t.signerIndex.toNat) ∧
        s' = { s with governance := { s.governance with
          signers := tx.dropSigner s.governance.signers } } := by
  unfold FullTransaction.dropSigner
  cases tx.governanceRemoveSigner with
  | none => simp [runEffects_nil_ok_iff]
  | some t =>
    rw [Option.toList_some, List.map_singleton, runEffects_singleton_ok_iff]
    simp only [Effect.result, Effect.credit, Effect.debit, Effect.fundSpend, Option.map_none,
      Option.getD_none, UInt64.sub_zero, UInt64.add_zero, Option.some.injEq, forall_eq']
    rfl

/-- The spend of the fund. -/
theorem runEffects_networkSpend_ok_iff :
    runEffects env (tx.networkFundTransfer.toList.map (.networkSpend height ·.amount)) s =
        (s', true) ↔
      tx.fundDebit ≤ s.networkFund.balance ∧
        s' = { s with networkFund := fundAfter height tx s.networkFund } := by
  unfold FullTransaction.fundDebit fundAfter
  cases tx.networkFundTransfer with
  | none =>
    have hzero : (0 : UInt64) ≤ s.networkFund.balance := UInt64.zero_le
    simp [runEffects_nil_ok_iff]
  | some t =>
    rw [Option.toList_some, List.map_singleton, runEffects_singleton_ok_iff]
    simp only [Effect.result, Effect.credit, Effect.debit, UInt64.sub_zero, UInt64.add_zero]
    rfl

/-- **What a transaction does**: it is admissible and leaves `txResult`, or it fails. -/
theorem processPremineActions_ok_iff :
    processPremineActions env s tx height = (s', true) ↔
      TxAdmissible env s tx ∧ s' = txResult env height tx s := by
  rw [processPremineActions, effects_eq, fieldEffects]
  simp only [runEffects_append_ok_iff, runEffects_deposit_ok_iff, runEffects_transfer_ok_iff,
    runEffects_addSigner_ok_iff, runEffects_removeSigner_ok_iff, runEffects_networkSpend_ok_iff]
  constructor
  · rintro ⟨s₁, rfl, s₂, ⟨htransfer, rfl⟩, s₃, rfl, s₄, ⟨hremoval, rfl⟩, hfund, rfl⟩
    exact ⟨⟨htransfer, hremoval, hfund⟩, rfl⟩
  · rintro ⟨h, rfl⟩
    exact ⟨_, rfl, _, ⟨h.transfer, rfl⟩, _, rfl, _, ⟨h.removal, rfl⟩, h.fund, rfl⟩

/-- Whether a transaction succeeds. -/
theorem processPremineActions_snd_iff :
    (processPremineActions env s tx height).2 = true ↔ TxAdmissible env s tx := by
  constructor
  · intro h
    exact (processPremineActions_ok_iff.1 (Prod.ext rfl h)).1
  · intro h
    rw [processPremineActions_ok_iff.2 ⟨h, rfl⟩]

/-- The state after a transaction that succeeds. -/
theorem processPremineActions_fst (h : TxAdmissible env s tx) :
    (processPremineActions env s tx height).1 = txResult env height tx s := by
  rw [processPremineActions_ok_iff.2 ⟨h, rfl⟩]

/-- A key that was checked is new. -/
theorem addedKey_new_of_checked {env : Env} {s : PremineState} {tx : FullTransaction}
    {height : UInt64} (h : checkPremineSpend env s tx height = .ok ()) {key : PublicKey}
    (hkey : key ∈ tx.addedKey) : key ∉ s.governance.signers := by
  obtain ⟨t, ht, rfl⟩ := List.mem_map.1 hkey
  have hadd := (checkPremineSpend_ok_iff.1 h).2.2.1 t (Option.mem_toList.1 ht)
  unfold validateGovernanceAddSigner at hadd
  split_ifs at hadd with hmem
  exact hmem

end

end Mevacoin.Premine
