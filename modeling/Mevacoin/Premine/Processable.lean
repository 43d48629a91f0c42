import Mevacoin.Lib.ListEdits
import Mevacoin.Premine.Authorization
import Mevacoin.Premine.TxEffects

/-!
# Are checked blocks processable?

`check_premine_spend` looks at every transaction in the state before the block;
`process_premine_actions` applies them one after another, the unchecked coinbase first.
-/

namespace Mevacoin.Premine

open Lib

/-! ### What should hold -/

/-- Processing a transaction, from `s` to `s'`, erases the key that stands at an index in `S`. -/
def ErasesKeyOf (S s s' : PremineState) (tx : FullTransaction) (index : UInt64) : Prop :=
  ∃ key, S.governance.signers[index.toNat]? = some key ∧
    (s.governance.signers ++ tx.addedKey)[index.toNat]? = some key ∧
    s'.governance.signers = (s.governance.signers ++ tx.addedKey).eraseIdx index.toNat

/-- From the state `s`, every transaction is processed, and every `0xB2` field erases the key
that it names in `S`. -/
def Processable (env : Env) (height : UInt64) (S : PremineState) :
    PremineState → List FullTransaction → Prop
  | _, [] => True
  | s, tx :: txs =>
    (processPremineActions env s tx height).2 = true ∧
      (∀ t, TxExtraField.governanceRemoveSigner t ∈ tx.fields →
        ErasesKeyOf S s (processPremineActions env s tx height).1 tx t.signerIndex) ∧
      Processable env height S (processPremineActions env s tx height).1 txs

/-! ### When it does -/

/-- Every transfer is covered by the balance that is left; `known` are the governance's key
images. -/
def TransfersCovered (env : Env) : UInt64 → List KeyImage → List FullTransaction → Prop
  | _, _, [] => True
  | balance, known, tx :: txs =>
    let owned := governanceOwnedOutputs env tx
    let spends := tx.inputImages.any fun k => k = env.treasuryKImage || known.contains k
    let credit := if spends then 0 else owned.2
    tx.debit ≤ balance + credit ∧
      TransfersCovered env (balance + credit - tx.debit) (addImages known owned.1) txs

instance decidableTransfersCovered (env : Env) :
    ∀ balance known txs, Decidable (TransfersCovered env balance known txs)
  | _, _, [] => inferInstanceAs (Decidable True)
  | balance, known, tx :: txs =>
    let owned := governanceOwnedOutputs env tx
    let spends := tx.inputImages.any fun k => k = env.treasuryKImage || known.contains k
    let credit := if spends then 0 else owned.2
    have := decidableTransfersCovered env (balance + credit - tx.debit)
      (addImages known owned.1) txs
    inferInstanceAs (Decidable (_ ∧ _))

/-- All `0xB2` fields of a transaction name one index. -/
def OneIndex (tx : FullTransaction) : Prop :=
  ∀ t, TxExtraField.governanceRemoveSigner t ∈ tx.fields →
    tx.governanceRemoveSigner.map (·.signerIndex) = some t.signerIndex

/-- A field names the index that is erased, if it is a `0xB2` field. -/
def FullTransaction.namesIndex (tx : FullTransaction) : TxExtraField → Bool
  | .governanceRemoveSigner t =>
    tx.governanceRemoveSigner.map (·.signerIndex) = some t.signerIndex
  | _ => true

theorem oneIndex_iff {tx : FullTransaction} : tx.fields.all tx.namesIndex = true ↔ OneIndex tx := by
  rw [List.all_eq_true]
  constructor
  · intro h t ht
    exact of_decide_eq_true (h _ ht)
  · intro h f hf
    cases f with
    | governanceRemoveSigner t => exact decide_eq_true (h t hf)
    | _ => rfl

instance (tx : FullTransaction) : Decidable (OneIndex tx) := decidable_of_iff _ oneIndex_iff

/-- The index that a transaction erases. -/
def FullTransaction.removedIndex (tx : FullTransaction) : Option ℕ :=
  tx.governanceRemoveSigner.map (·.signerIndex.toNat)

/-- What has to hold of a block and the state before it. -/
structure BlockFits (env : Env) (S : PremineState) (minerTx : FullTransaction)
    (txs : List FullTransaction) : Prop where
  transfers : TransfersCovered env S.governance.balance S.governance.bondKeyImages (minerTx :: txs)
  fund : ((minerTx :: txs).map (·.fundDebit.toNat)).sum ≤ S.networkFund.balance.toNat
  coinbase : ∀ i, minerTx.removedIndex = some i →
    S.governance.originalCount.toNat ≤ i ∧ i < S.governance.signers.length
  oneIndex : ∀ tx ∈ minerTx :: txs, OneIndex tx
  decreasing : ((minerTx :: txs).filterMap FullTransaction.removedIndex).Pairwise (· > ·)

section

variable {env : Env} {height : UInt64} {S s : PremineState} {tx : FullTransaction}
  {txs : List FullTransaction}

/-! ### One transaction -/

/-- What a transaction does to the signers, as an edit. -/
def signerEdit (tx : FullTransaction) : ListEdit PublicKey := ⟨tx.addedKey, tx.removedIndex⟩

theorem txResult_signers :
    (txResult env height tx s).governance.signers =
      (signerEdit tx).apply s.governance.signers := by
  unfold txResult FullTransaction.dropSigner signerEdit ListEdit.apply
    FullTransaction.removedIndex
  cases tx.governanceRemoveSigner <;> rfl

theorem fundAfter_balance (f : NetworkFundState) :
    (fundAfter height tx f).balance = f.balance - tx.fundDebit := by
  unfold fundAfter FullTransaction.fundDebit
  cases tx.networkFundTransfer with
  | none => exact (UInt64.sub_zero _).symm
  | some t => rfl

/-- What a spend leaves in the fund. -/
theorem fundAfter_balance_toNat (height : UInt64) (h : TxAdmissible env s tx) :
    (txResult env height tx s).networkFund.balance.toNat + tx.fundDebit.toNat =
      s.networkFund.balance.toNat := by
  have hle := UInt64.le_iff_toNat_le.1 h.fund
  show (fundAfter height tx s.networkFund).balance.toNat + _ = _
  rw [fundAfter_balance, UInt64.toNat_sub_of_le _ _ h.fund]
  omega

theorem processable_cons :
    Processable env height S s (tx :: txs) ↔
      TxAdmissible env s tx ∧
        (∀ t, TxExtraField.governanceRemoveSigner t ∈ tx.fields →
          ErasesKeyOf S s (txResult env height tx s) tx t.signerIndex) ∧
        Processable env height S (txResult env height tx s) txs := by
  rw [Processable, processPremineActions_snd_iff]
  refine and_congr_right fun h => ?_
  rw [processPremineActions_fst h]

/-- Without a `0xB2` field that is found there is none. -/
theorem removedIndex_of_mem {t : GovernanceRemoveSigner}
    (h : TxExtraField.governanceRemoveSigner t ∈ tx.fields) :
    ∃ t', tx.governanceRemoveSigner = some t' := by
  rw [← Option.isSome_iff_exists, FullTransaction.governanceRemoveSigner, List.findSome?_isSome_iff]
  exact ⟨_, h, rfl⟩

/-- An edit that is in place erases what each `0xB2` field names. -/
theorem erasesKeyOf_of_inPlace {t : GovernanceRemoveSigner} (hone : OneIndex tx)
    (hin : ∀ i, tx.removedIndex = some i → i < S.governance.signers.length ∧
      (s.governance.signers ++ tx.addedKey)[i]? = S.governance.signers[i]?)
    (ht : TxExtraField.governanceRemoveSigner t ∈ tx.fields) :
    ErasesKeyOf S s (txResult env height tx s) tx t.signerIndex := by
  obtain ⟨t', ht'⟩ := removedIndex_of_mem ht
  have hindex : t'.signerIndex = t.signerIndex := by
    have h := hone t ht
    rw [ht'] at h
    exact Option.some.inj h
  have hremoved : tx.removedIndex = some t.signerIndex.toNat := by
    rw [FullTransaction.removedIndex, ht', ← hindex]
    rfl
  obtain ⟨hlt, hsame⟩ := hin _ hremoved
  refine ⟨_, List.getElem?_eq_getElem hlt, hsame.trans (List.getElem?_eq_getElem hlt), ?_⟩
  rw [txResult_signers, signerEdit, ListEdit.apply, hremoved]

/-- A `0xB2` field that erases what it names is in place. -/
theorem inPlace_of_erasesKeyOf (h : ∀ t, TxExtraField.governanceRemoveSigner t ∈ tx.fields →
      ErasesKeyOf S s (txResult env height tx s) tx t.signerIndex)
    {i : ℕ} (hi : tx.removedIndex = some i) :
    i < S.governance.signers.length ∧
      (s.governance.signers ++ tx.addedKey)[i]? = S.governance.signers[i]? := by
  obtain ⟨t, ht, rfl⟩ := Option.map_eq_some_iff.1 hi
  obtain ⟨key, hS, hs, -⟩ := h t (FullTransaction.governanceRemoveSigner_mem ht)
  exact ⟨(List.getElem?_eq_some_iff.1 hS).1, hs.trans hS.symm⟩

/-- If every `0xB2` field erases what it names, they name one index. -/
theorem oneIndex_of_erasesKeyOf (hnodup : S.governance.signers.Nodup)
    (h : ∀ t, TxExtraField.governanceRemoveSigner t ∈ tx.fields →
      ErasesKeyOf S s (txResult env height tx s) tx t.signerIndex) : OneIndex tx := by
  intro t ht
  obtain ⟨t', ht'⟩ := removedIndex_of_mem ht
  obtain ⟨key, hS, hs, hdrop⟩ := h t ht
  obtain ⟨key', hS', hs', hdrop'⟩ := h t' (FullTransaction.governanceRemoveSigner_mem ht')
  obtain rfl := getElem?_eq_of_eraseIdx_eq hs hs' (hdrop.symm.trans hdrop')
  obtain ⟨hlt, hget⟩ := List.getElem?_eq_some_iff.1 hS
  obtain ⟨hlt', hget'⟩ := List.getElem?_eq_some_iff.1 hS'
  have hindex := hnodup.getElem_inj_iff.1 (hget.trans hget'.symm)
  rw [ht', Option.map_some, UInt64.toNat_inj.1 hindex]

/-! ### A list of transactions -/

/-- **Enough for processing**, from any state on the way. -/
theorem processable_of_covered
    (htransfers : TransfersCovered env s.governance.balance s.governance.bondKeyImages txs)
    (hfund : (txs.map (·.fundDebit.toNat)).sum ≤ s.networkFund.balance.toNat)
    (hcount : ∀ tx ∈ txs, ∀ i, tx.removedIndex = some i → s.governance.originalCount.toNat ≤ i)
    (hone : ∀ tx ∈ txs, OneIndex tx)
    (hin : InPlace S.governance.signers s.governance.signers (txs.map signerEdit)) :
    Processable env height S s txs := by
  induction txs generalizing s with
  | nil => trivial
  | cons tx txs ih =>
    rw [List.map_cons, List.sum_cons] at hfund
    have hadm : TxAdmissible env s tx := by
      refine ⟨htransfers.1, fun t ht => ?_, UInt64.le_iff_toNat_le.2 (by omega)⟩
      exact hcount tx (List.mem_cons_self ..) _ (by rw [FullTransaction.removedIndex, ht]; rfl)
    have hleft := fundAfter_balance_toNat height hadm
    rw [processable_cons]
    refine ⟨hadm, fun t ht => ?_, ih htransfers.2 (by omega) ?_ ?_ ?_⟩
    · exact erasesKeyOf_of_inPlace (hone tx (List.mem_cons_self ..)) hin.1 ht
    · exact fun tx' htx' => hcount tx' (List.mem_cons_of_mem _ htx')
    · exact fun tx' htx' => hone tx' (List.mem_cons_of_mem _ htx')
    · rw [txResult_signers]
      exact hin.2

/-- **And needed.** -/
theorem Processable.covered (h : Processable env height S s txs) :
    TransfersCovered env s.governance.balance s.governance.bondKeyImages txs ∧
      (txs.map (·.fundDebit.toNat)).sum ≤ s.networkFund.balance.toNat ∧
      (∀ tx ∈ txs, ∀ i, tx.removedIndex = some i → s.governance.originalCount.toNat ≤ i) ∧
      InPlace S.governance.signers s.governance.signers (txs.map signerEdit) := by
  induction txs generalizing s with
  | nil => exact ⟨trivial, Nat.zero_le _, by simp, trivial⟩
  | cons tx txs ih =>
    obtain ⟨hadm, herase, hrest⟩ := processable_cons.1 h
    obtain ⟨htransfers, hfund, hcount, hin⟩ := ih hrest
    have hleft := fundAfter_balance_toNat height hadm
    rw [txResult_signers] at hin
    refine ⟨⟨hadm.transfer, htransfers⟩, ?_, ?_, fun i hi => inPlace_of_erasesKeyOf herase hi, hin⟩
    · rw [List.map_cons, List.sum_cons]
      omega
    · rintro tx' (_ | ⟨_, htx'⟩) i hi
      · obtain ⟨t, ht, rfl⟩ := Option.map_eq_some_iff.1 hi
        exact hadm.removal t ht
      · exact hcount tx' htx' i hi

theorem Processable.oneIndex (hnodup : S.governance.signers.Nodup)
    (h : Processable env height S s txs) : ∀ tx ∈ txs, OneIndex tx := by
  induction txs generalizing s with
  | nil => simp
  | cons tx txs ih =>
    obtain ⟨-, herase, hrest⟩ := processable_cons.1 h
    rintro tx' (_ | ⟨_, htx'⟩)
    · exact oneIndex_of_erasesKeyOf hnodup herase
    · exact ih hrest tx' htx'

/-! ### The block -/

/-- A removal that was checked names a signer that may be removed. -/
theorem removedIndex_of_checked {checkHeight : UInt64}
    (h : checkPremineSpend env S tx checkHeight = .ok ()) {i : ℕ} (hi : tx.removedIndex = some i) :
    S.governance.originalCount.toNat ≤ i ∧ i < S.governance.signers.length := by
  obtain ⟨t, ht, rfl⟩ := Option.map_eq_some_iff.1 hi
  have hval := (checkPremineSpend_ok_iff.1 h).2.2.2 t ht
  unfold validateGovernanceRemoveSigner at hval
  split_ifs at hval with hrange horiginal
  exact ⟨not_lt.1 horiginal, not_le.1 hrange⟩

end

/-- **When a checked block is processable**: the condition is enough in every state, and needed
where no key stands twice and the coinbase adds none that is there. -/
theorem checked_block_processable_iff (env : Env) (S : PremineState) (minerTx : FullTransaction)
    (txs : List FullTransaction) (checkHeight height : UInt64)
    (hchecked : ∀ tx ∈ txs, checkPremineSpend env S tx checkHeight = .ok ()) :
    (BlockFits env S minerTx txs → Processable env height S S (minerTx :: txs)) ∧
      (S.governance.signers.Nodup → (∀ key ∈ minerTx.addedKey, key ∉ S.governance.signers) →
        Processable env height S S (minerTx :: txs) → BlockFits env S minerTx txs) := by
  have hmap : ((minerTx :: txs).map signerEdit).filterMap (·.removed) =
      (minerTx :: txs).filterMap FullTransaction.removedIndex := List.filterMap_map ..
  constructor
  · intro h
    have hbounds : ∀ tx ∈ minerTx :: txs, ∀ i, tx.removedIndex = some i →
        S.governance.originalCount.toNat ≤ i ∧ i < S.governance.signers.length := by
      rintro tx (_ | ⟨_, htx⟩) i hi
      · exact h.coinbase i hi
      · exact removedIndex_of_checked (hchecked tx htx) hi
    refine processable_of_covered h.transfers h.fund (fun tx htx i hi => (hbounds tx htx i hi).1)
      h.oneIndex (inPlace_of_decreasing (by rw [hmap]; exact h.decreasing) fun i hi => ?_)
    rw [hmap] at hi
    obtain ⟨tx, htx, hi⟩ := List.mem_filterMap.1 hi
    exact ⟨(hbounds tx htx i hi).2, rfl⟩
  · intro hnodup hfresh h
    obtain ⟨htransfers, hfund, hcount, hin⟩ := h.covered
    have hnew : ∀ e ∈ (minerTx :: txs).map signerEdit, ∀ x ∈ e.added,
        x ∉ S.governance.signers := by
      intro e he
      obtain ⟨tx, htx, rfl⟩ := List.mem_map.1 he
      rcases List.mem_cons.1 htx with rfl | htx
      · exact hfresh
      · exact fun key => addedKey_new_of_checked (hchecked tx htx)
    refine ⟨htransfers, hfund, fun i hi => ?_, h.oneIndex hnodup, ?_⟩
    · exact ⟨hcount minerTx (List.mem_cons_self ..) i hi, (hin.1 i hi).1⟩
    · rw [← hmap]
      exact decreasing_of_inPlace hnodup ⟨_, [], (List.append_nil _).symm, List.Sublist.refl _,
        by simp⟩ hin hnew

/-- A transaction with a `0xB0` field that spends nothing of the governance. -/
def looseTransfer : FullTransaction :=
  { vin := [.toKey 0 [] (Pod32.single 5)]
    extra := (TxExtraField.governanceTransfer
      ⟨treasuryAllocation + 1, Pod32.null, Pod32.null, []⟩).write }

/-- **A checked transaction that fails when it is processed**: the amount of its field is not looked
at, and more than the treasury has. -/
theorem looseTransfer_not_processable :
    ¬ ∀ (env : Env) (S : PremineState) (minerTx : FullTransaction) (txs : List FullTransaction)
        (checkHeight height : UInt64),
        (∀ tx ∈ txs, checkPremineSpend env S tx checkHeight = .ok ()) →
          Processable env height S S (minerTx :: txs) := by
  intro h
  have hproc := h openEnv genesisState {} [looseTransfer] 0 1 (by decide +kernel)
  have hfails := hproc.2.2.1
  revert hfails
  decide +kernel

/-- A block that adds a signer fits. -/
theorem addSigner_fits :
    BlockFits openEnv genesisState {} (addSignerBlock.block.txs.map (·.tx)) where
  transfers := by decide +kernel
  fund := by decide +kernel
  coinbase := by decide +kernel
  oneIndex := by decide +kernel
  decreasing := by decide +kernel

/-- So it is processable. -/
theorem addSigner_processable :
    Processable openEnv 1 genesisState genesisState
      ({} :: addSignerBlock.block.txs.map (·.tx)) := by
  have hchecked : ∀ tx ∈ addSignerBlock.block.txs.map (·.tx),
      checkPremineSpend openEnv genesisState tx 0 = .ok () := by decide +kernel
  exact (checked_block_processable_iff openEnv genesisState {} _ 0 1 hchecked).1 addSigner_fits

end Mevacoin.Premine
