import Mevacoin.Premine.Custody
import Mevacoin.Premine.Processable
import Mevacoin.Premine.TxEffects

/-!
# What a rejected block leaves behind

A block whose premine actions fail is taken off the chain again, but what
`process_premine_actions` did before the failure stays.
-/

namespace Mevacoin.Premine

open Lib

/-- The edits of the signers come to nothing: none is added and the index is beyond the list, or one
is added and the removal moves nothing but copies of it. -/
def SignersUnmoved (signers : List PublicKey) (tx : FullTransaction) : Prop :=
  match tx.governanceAddSigner, tx.governanceRemoveSigner with
  | none, none => True
  | none, some t => signers.length ≤ t.signerIndex.toNat
  | some _, none => False
  | some a, some t => t.signerIndex.toNat ≤ signers.length ∧
      ∀ k ∈ signers.drop t.signerIndex.toNat, k = a.newSignerKey

/-- A genesis signer is to be removed. -/
def FullTransaction.removesOriginal (s : PremineState) (tx : FullTransaction) : Prop :=
  ∃ t ∈ tx.governanceRemoveSigner, t.signerIndex.toNat < s.governance.originalCount.toNat

/-- **Fails clean**: one of the three checks refuses the transaction, and what it has done by then
shows nowhere.  Its outputs to the governance are known already and deposit nothing, or what is
transferred; no signer is added before a refused removal, and before a refused spend of the fund the
edits of the signers come to nothing. -/
structure FailsClean (env : Env) (s : PremineState) (tx : FullTransaction) : Prop where
  known : ∀ image ∈ (governanceOwnedOutputs env tx).1, image ∈ s.governance.bondKeyImages
  transfer : s.governance.balance + tx.credit env s.governance < tx.debit →
    tx.credit env s.governance = 0
  balance : tx.debit ≤ s.governance.balance + tx.credit env s.governance →
    tx.credit env s.governance = tx.debit
  removal : tx.debit ≤ s.governance.balance + tx.credit env s.governance →
    tx.removesOriginal s → tx.governanceAddSigner = none
  fund : tx.debit ≤ s.governance.balance + tx.credit env s.governance → ¬ tx.removesOriginal s →
    s.networkFund.balance < tx.fundDebit ∧ SignersUnmoved s.governance.signers tx

section

variable {env : Env} {height : UInt64} {s : PremineState} {tx : FullTransaction}

/-! ### A transaction that fails -/

/-- What is left when a transaction fails: the deposit, a part of the balance gone, and signers. -/
def leftState (env : Env) (s : PremineState) (tx : FullTransaction) (debit : UInt64)
    (signers : List PublicKey) : PremineState :=
  { s with governance := { s.governance with
      signers
      balance := s.governance.balance + tx.credit env s.governance - debit
      bondKeyImages := addImages s.governance.bondKeyImages (governanceOwnedOutputs env tx).1 } }

theorem addImages_eq_iff {known new : List KeyImage} :
    addImages known new = known ↔ ∀ k ∈ new, k ∈ known := by
  constructor
  · intro h k hk
    rw [← h]
    exact mem_addImages.2 (.inr hk)
  · intro h
    induction new with
    | nil => rfl
    | cons k new ih =>
      show addImages (if known.contains k then known else known ++ [k]) new = known
      rw [if_pos (List.contains_iff_mem.2 (h k (List.mem_cons_self ..)))]
      exact ih fun k' hk' => h k' (List.mem_cons_of_mem _ hk')

/-- Nothing of it shows. -/
theorem leftState_eq_iff {debit : UInt64} {signers : List PublicKey} :
    leftState env s tx debit signers = s ↔
      (∀ image ∈ (governanceOwnedOutputs env tx).1, image ∈ s.governance.bondKeyImages) ∧
        tx.credit env s.governance = debit ∧ signers = s.governance.signers := by
  have hbalance : s.governance.balance + tx.credit env s.governance - debit =
      s.governance.balance ↔ tx.credit env s.governance = debit := by grind
  obtain ⟨⟨signers', count, balance, threshold, bonds⟩, fund⟩ := s
  rw [← addImages_eq_iff, ← hbalance]
  simp only [leftState, PremineState.mk.injEq, GovernanceState.mk.injEq, and_true, true_and]
  tauto

/-- At most one effect: if it fails, nothing is done. -/
theorem runEffects_toList_of_ne {α : Type} {o : Option α} {f : α → Effect}
    (h : ∀ s', runEffects env (o.toList.map f) s ≠ (s', true)) :
    runEffects env (o.toList.map f) s = (s, false) := by
  cases o with
  | none => exact absurd rfl (h s)
  | some a =>
    rw [Option.toList_some, List.map_singleton, runEffects] at h ⊢
    cases ha : (f a).apply env s with
    | none => rfl
    | some s₁ => simp [ha, runEffects] at h

/-- The transfer is refused. -/
theorem processPremineActions_transfer
    (h : s.governance.balance + tx.credit env s.governance < tx.debit) :
    (processPremineActions env s tx height).1 = leftState env s tx 0 s.governance.signers := by
  rw [processPremineActions, effects_eq, fieldEffects, runEffects_append,
    runEffects_deposit_ok_iff.2 rfl]
  dsimp only
  rw [runEffects_append, runEffects_toList_of_ne]
  · simp [leftState]
  · intro s' hs'
    exact UInt64.not_le.2 h (runEffects_transfer_ok_iff.1 hs').1

/-- The removal is refused. -/
theorem processPremineActions_removal
    (hok : tx.debit ≤ s.governance.balance + tx.credit env s.governance)
    (h : tx.removesOriginal s) :
    (processPremineActions env s tx height).1 =
      leftState env s tx tx.debit (s.governance.signers ++ tx.addedKey) := by
  rw [processPremineActions, effects_eq, fieldEffects, runEffects_append,
    runEffects_deposit_ok_iff.2 rfl]
  dsimp only
  rw [runEffects_append, runEffects_transfer_ok_iff.2 ⟨hok, rfl⟩]
  dsimp only
  rw [runEffects_append, runEffects_addSigner_ok_iff.2 rfl]
  dsimp only
  rw [runEffects_append, runEffects_toList_of_ne]
  · rfl
  · intro s' hs'
    obtain ⟨t, ht, hlt⟩ := h
    exact absurd ((runEffects_removeSigner_ok_iff.1 hs').1 t ht) (Nat.not_le.2 hlt)

/-- The spend of the fund is refused. -/
theorem processPremineActions_fund
    (hok : tx.debit ≤ s.governance.balance + tx.credit env s.governance)
    (hremoval : ¬ tx.removesOriginal s) (h : s.networkFund.balance < tx.fundDebit) :
    (processPremineActions env s tx height).1 =
      leftState env s tx tx.debit (tx.dropSigner (s.governance.signers ++ tx.addedKey)) := by
  rw [processPremineActions, effects_eq, fieldEffects, runEffects_append,
    runEffects_deposit_ok_iff.2 rfl]
  dsimp only
  rw [runEffects_append, runEffects_transfer_ok_iff.2 ⟨hok, rfl⟩]
  dsimp only
  rw [runEffects_append, runEffects_addSigner_ok_iff.2 rfl]
  dsimp only
  rw [runEffects_append, runEffects_removeSigner_ok_iff.2 ⟨fun t ht => ?_, rfl⟩]
  · dsimp only
    rw [runEffects_toList_of_ne]
    · rfl
    · intro s' hs'
      exact UInt64.not_le.2 h (runEffects_networkSpend_ok_iff.1 hs').1
  · exact Nat.not_lt.1 fun hlt => hremoval ⟨t, ht, hlt⟩

theorem append_singleton_eq_cons_iff {α : Type} {l : List α} {a b : α} :
    l ++ [a] = b :: l ↔ b = a ∧ ∀ x ∈ l, x = a := by
  induction l generalizing b with
  | nil => simp [eq_comm]
  | cons c l ih =>
    rw [List.cons_append, List.cons.injEq, ih, List.forall_mem_cons]
    constructor
    · rintro ⟨rfl, rfl, hl⟩
      exact ⟨rfl, rfl, hl⟩
    · rintro ⟨rfl, rfl, hl⟩
      exact ⟨rfl, rfl, hl⟩

theorem eraseIdx_append_singleton_eq_iff {α : Type} {l : List α} {a : α} {i : ℕ} :
    (l ++ [a]).eraseIdx i = l ↔ i ≤ l.length ∧ ∀ x ∈ l.drop i, x = a := by
  induction l generalizing i with
  | nil => cases i <;> simp
  | cons b l ih =>
    cases i with
    | zero => simp [append_singleton_eq_cons_iff]
    | succ i => simp [ih]

theorem dropSigner_eq_iff (signers : List PublicKey) :
    tx.dropSigner (signers ++ tx.addedKey) = signers ↔ SignersUnmoved signers tx := by
  unfold FullTransaction.dropSigner FullTransaction.addedKey SignersUnmoved
  cases tx.governanceAddSigner <;> cases tx.governanceRemoveSigner
  · simp
  · simp [List.eraseIdx_eq_self]
  · simp
  · simp [eraseIdx_append_singleton_eq_iff]

/-- **When a transaction that fails leaves the memory as it was.** -/
theorem processPremineActions_eq_iff (hfails : ¬ TxAdmissible env s tx) :
    (processPremineActions env s tx height).1 = s ↔ FailsClean env s tx := by
  by_cases hok : tx.debit ≤ s.governance.balance + tx.credit env s.governance
  · have hnot := UInt64.not_lt.2 hok
    by_cases hremoval : tx.removesOriginal s
    · rw [processPremineActions_removal hok hremoval, leftState_eq_iff, List.append_right_eq_self,
        FullTransaction.addedKey, List.map_eq_nil_iff, Option.toList_eq_nil_iff]
      exact ⟨fun ⟨hknown, hbalance, hadd⟩ => ⟨hknown, fun h => absurd h hnot, fun _ => hbalance,
        fun _ _ => hadd, fun _ h => absurd hremoval h⟩,
        fun h => ⟨h.known, h.balance hok, h.removal hok hremoval⟩⟩
    · have hfund : s.networkFund.balance < tx.fundDebit := by
        refine UInt64.not_le.1 fun hfund => hfails ⟨hok, fun t ht => ?_, hfund⟩
        exact Nat.not_lt.1 fun hlt => hremoval ⟨t, ht, hlt⟩
      rw [processPremineActions_fund hok hremoval hfund, leftState_eq_iff, dropSigner_eq_iff]
      exact ⟨fun ⟨hknown, hbalance, hkept⟩ => ⟨hknown, fun h => absurd h hnot, fun _ => hbalance,
        fun _ h => absurd h hremoval, fun _ _ => ⟨hfund, hkept⟩⟩,
        fun h => ⟨h.known, h.balance hok, (h.fund hok hremoval).2⟩⟩
  · have hlt := UInt64.not_le.1 hok
    rw [processPremineActions_transfer hlt, leftState_eq_iff]
    exact ⟨fun ⟨hknown, hzero, _⟩ => ⟨hknown, fun _ => hzero, fun h => absurd h hok,
      fun h => absurd h hok, fun h => absurd h hok⟩, fun h => ⟨h.known, h.transfer hlt, rfl⟩⟩

theorem FailsClean.not_admissible (h : FailsClean env s tx) : ¬ TxAdmissible env s tx := by
  rintro ⟨htransfer, hremoval, hfund⟩
  refine UInt64.not_le.2 (h.fund htransfer ?_).1 hfund
  rintro ⟨t, ht, hlt⟩
  exact Nat.not_le.2 hlt (hremoval t ht)

/-! ### A block that fails -/

/-- Without enforcement nothing is done. -/
theorem processTxs_uninitialized {txs : List FullTransaction} {n : Node}
    (hinit : n.initialized = false) : processTxs env height txs n = (n, true) := by
  induction txs with
  | nil => rfl
  | cons tx txs ih =>
    rw [processTxs, processTx, if_pos hinit]
    exact ih

/-- What is stored at a height is stored over at that height alone. -/
theorem premineHeight_processTxs {txs : List FullTransaction} {n : Node}
    (h : n.properties.premineHeight = some height) :
    (processTxs env height txs n).1.properties.premineHeight = some height := by
  induction txs generalizing n with
  | nil => exact h
  | cons tx txs ih =>
    have hone : (processTx env n tx height).1.properties.premineHeight = some height := by
      rw [processTx]
      split_ifs
      · exact h
      · dsimp only
        split_ifs
        · rfl
        · exact h
    rw [processTxs]
    split
    · rename_i n' heq
      rw [heq] at hone
      exact ih hone
    · rename_i n' heq
      rw [heq] at hone
      exact hone

/-- Transactions that fail: the first that acts is the one that fails, or it has stored the
state. -/
theorem processTxs_of_fails {txs : List FullTransaction} {n : Node} (hinit : n.initialized = true)
    (hfails : (processTxs env height txs n).2 = false) :
    ∃ tx, txs.find? (acts env) = some tx ∧
      (TxAdmissible env n.premine tx →
        (processTxs env height txs n).1.properties.premineHeight = some height) ∧
      (¬ TxAdmissible env n.premine tx →
        (processTxs env height txs n).1.premine =
            (processPremineActions env n.premine tx height).1 ∧
          (processTxs env height txs n).1.properties = n.properties) := by
  induction txs with
  | nil => cases hfails
  | cons tx txs ih =>
    have hstep : processTx env n tx height =
        ({ n with
            premine := (processPremineActions env n.premine tx height).1
            properties :=
              if (processPremineActions env n.premine tx height).2 && acts env tx then
                savedProperties (processPremineActions env n.premine tx height).1 height
              else n.properties }, (processPremineActions env n.premine tx height).2) := by
      rw [processTx, if_neg (by simp [hinit])]
    cases hacts : acts env tx with
    | false =>
      rw [List.find?_cons_of_neg (by simp [hacts])]
      rw [processPremineActions_of_not_acts hacts] at hstep
      have hrest : processTxs env height (tx :: txs) n = processTxs env height txs n := by
        rw [processTxs, hstep]
        simp [hacts]
      rw [hrest] at hfails ⊢
      exact ih hfails
    | true =>
      refine ⟨tx, List.find?_cons_of_pos hacts, fun hadm => ?_, fun hnot => ?_⟩
      · rw [processTxs, hstep, processPremineActions_ok_iff.2 ⟨hadm, rfl⟩]
        refine premineHeight_processTxs ?_
        simp [hacts, savedProperties]
      · have hfalse : (processPremineActions env n.premine tx height).2 = false :=
          Bool.eq_false_of_not_eq_true fun h => hnot (processPremineActions_snd_iff.1 h)
        rw [processTxs, hstep, hfalse]
        exact ⟨rfl, rfl⟩

end

/-- **Traceless**: the premine state and what is stored are as they were. -/
def Traceless (env : Env) (n : Node) (d : Delivery) : Prop :=
  (handleBlock env n d).1.premine = n.premine ∧ (handleBlock env n d).1.properties = n.properties

/-- The block is refused before the premine actions, or its first transaction that acts fails
clean. -/
def FailsFirst (env : Env) (n : Node) (d : Delivery) : Prop :=
  reachesPremine env n d = true →
    ∀ tx, d.block.processedTxs.find? (acts env) = some tx → FailsClean env n.premine tx

/-- A rejected block that gets as far as the premine actions fails in them. -/
theorem handleBlock_of_rejected {env : Env} {n : Node} {d : Delivery}
    (hreach : reachesPremine env n d = true) (hrej : (handleBlock env n d).2 = false) :
    ∃ n', processTxs env n.dbHeight d.block.processedTxs
        { n with blocks := n.blocks ++ [d.block] } = (n', false) ∧
      (handleBlock env n d).1 = { n' with blocks := n.blocks } := by
  rw [handleBlock, if_pos hreach] at hrej ⊢
  unfold ChainBlock.processedTxs
  dsimp only at hrej ⊢
  generalize processTxs env n.dbHeight _ _ = r at hrej ⊢
  obtain ⟨n', ok⟩ := r
  cases ok with
  | true => cases hrej
  | false => exact ⟨n', rfl, rfl⟩

/-- **When a rejected block leaves no trace**: if it is refused early or fails first, and, where
nothing is stored for its height yet, only then. -/
theorem rejected_block_traceless_iff (env : Env) (n : Node) (d : Delivery)
    (hrej : (handleBlock env n d).2 = false) :
    (FailsFirst env n d → Traceless env n d) ∧
      (n.properties.premineHeight ≠ some n.dbHeight → Traceless env n d → FailsFirst env n d) := by
  cases hreach : reachesPremine env n d with
  | false => simp [FailsFirst, Traceless, handleBlock, hreach]
  | true =>
    obtain ⟨n', hrun, hleft⟩ := handleBlock_of_rejected hreach hrej
    have hinit : n.initialized = true := by
      by_contra hinit
      cases hrun.symm.trans (processTxs_uninitialized (Bool.eq_false_of_not_eq_true hinit))
    obtain ⟨tx, hfind, hstores, hfails⟩ := processTxs_of_fails
      (n := { n with blocks := n.blocks ++ [d.block] }) hinit (congrArg Prod.snd hrun)
    rw [hrun] at hstores hfails
    rw [Traceless, hleft]
    constructor
    · intro h
      have hclean := h hreach tx hfind
      obtain ⟨hpremine, hprops⟩ := hfails hclean.not_admissible
      exact ⟨hpremine.trans ((processPremineActions_eq_iff hclean.not_admissible).2 hclean), hprops⟩
    · rintro hnew ⟨hpremine, hprops⟩ - tx' hfind'
      obtain rfl := Option.some.inj (hfind.symm.trans hfind')
      have hnot : ¬ TxAdmissible env n.premine tx := fun hadm =>
        hnew ((congrArg Properties.premineHeight hprops).symm.trans (hstores hadm))
      exact (processPremineActions_eq_iff hnot).1 ((hfails hnot).1.symm.trans hpremine)

/-- A block whose first transaction adds a signer and whose second one takes more than the
treasury has. -/
def halfDoneBlock : Delivery where
  block :=
    { addSignerBlock.block with txs := addSignerBlock.block.txs ++ [{ tx := looseTransfer }] }

/-- **A rejected block leaves a signer.** -/
theorem halfDoneBlock_leaves_trace :
    ¬ ∀ (env : Env) (n : Node) (d : Delivery), (handleBlock env n d).2 = false →
        Traceless env n d := by
  intro h
  have hpremine := (h openEnv (connect openEnv quietChain freshNode).1 halfDoneBlock
    (by decide +kernel)).1
  revert hpremine
  decide +kernel

/-- A block that fails at its first transaction. -/
def deadBlock : Delivery where
  block := { minerTx := {}, txs := [{ tx := looseTransfer }] }

/-- Nothing is left of it. -/
theorem deadBlock_leaves_no_trace : Traceless openEnv freshNode deadBlock := by
  have hrej : (handleBlock openEnv freshNode deadBlock).2 = false := by decide +kernel
  refine (rejected_block_traceless_iff openEnv freshNode deadBlock hrej).1 fun _ tx htx => ?_
  have hfirst : deadBlock.block.processedTxs.find? (acts openEnv) = some looseTransfer := by
    decide +kernel
  obtain rfl := Option.some.inj (htx.symm.trans hfirst)
  -- the transfer is refused, and there is no deposit
  have hrefused : ¬ looseTransfer.debit ≤ freshNode.premine.governance.balance +
      looseTransfer.credit openEnv freshNode.premine.governance := by decide +kernel
  exact ⟨by decide +kernel, fun _ => by decide +kernel, fun h => absurd h hrefused,
    fun h => absurd h hrefused, fun h => absurd h hrefused⟩

end Mevacoin.Premine
