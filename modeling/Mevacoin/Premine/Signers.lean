import Mevacoin.Premine.Authorization
import Mevacoin.Premine.TxEffects

/-!
# The set of signers

A new key is compared with the signers before the block and appended without looking.
-/

namespace Mevacoin.Premine

open Lib

/-- The shape of the signer list: the genesis signers first, no key twice, and enough of them
for a quorum. -/
structure SignerShape (g : GovernanceState) : Prop where
  genesis : g.signers.take g.originalCount.toNat = genesisGovernanceSigners
  distinct : g.signers.Nodup
  quorum : g.threshold.toNat ≤ g.signers.toFinset.card

/-- What holds whatever the blocks are. -/
structure GenesisFirst (g : GovernanceState) : Prop where
  count : g.originalCount = governanceOriginalSigners
  threshold : g.threshold = governanceThreshold
  first : genesisGovernanceSigners <+: g.signers

theorem genesisFirst_genesisState : GenesisFirst genesisState.governance :=
  ⟨rfl, rfl, List.prefix_rfl⟩

/-- The first signers differ. -/
theorem genesisGovernanceSigners_nodup : genesisGovernanceSigners.Nodup := by decide +kernel

variable {l : List PublicKey} {env : Env} {s : PremineState} {e : Effect} {n : Node} {d : Delivery}

/-- A removal that is admissible leaves the genesis signers alone. -/
theorem prefix_eraseIdx {i : ℕ} (h : genesisGovernanceSigners <+: l)
    (hi : genesisGovernanceSigners.length ≤ i) : genesisGovernanceSigners <+: l.eraseIdx i := by
  rw [List.prefix_iff_eq_take] at h ⊢
  rw [List.take_eraseIdx_eq_take_of_le _ _ _ hi]
  exact h

/-- An effect keeps the first signers. -/
theorem GenesisFirst.result (h : GenesisFirst s.governance) (hadm : e.Admissible s) :
    GenesisFirst (e.result env s).governance := by
  refine ⟨h.count, h.threshold, ?_⟩
  cases e with
  | addSigner key => exact h.first.trans (List.prefix_append ..)
  | removeSigner index =>
    have hindex : s.governance.originalCount.toNat ≤ index.toNat := hadm
    rw [h.count] at hindex
    exact prefix_eraseIdx h.first hindex
  | deposit | transfer | networkSpend => exact h.first

/-- **The genesis signers stay first**, for any list of effects. -/
theorem GenesisFirst.runEffects (h : GenesisFirst s.governance) (es : List Effect) :
    GenesisFirst (runEffects env es s).1.governance := by
  refine runEffects_keeps (P := fun a => GenesisFirst a.governance) h ?_
  intro e _ a b ha hab
  obtain ⟨hadm, rfl⟩ := Effect.apply_eq_some_iff.1 hab
  exact ha.result hadm

/-- There are always keys enough. -/
theorem GenesisFirst.quorum {g : GovernanceState} (h : GenesisFirst g) :
    g.threshold.toNat ≤ g.signers.toFinset.card := by
  have hsub : genesisGovernanceSigners.toFinset ⊆ g.signers.toFinset := by
    intro k hk
    rw [List.mem_toFinset] at hk ⊢
    exact h.first.subset hk
  have hcard : genesisGovernanceSigners.toFinset.card = 3 :=
    List.toFinset_card_of_nodup genesisGovernanceSigners_nodup
  have hle := Finset.card_le_card hsub
  rw [h.threshold]
  show 2 ≤ _
  omega

/-! ### No key twice -/

/-- The keys that effects add. -/
def addedKeys (es : List Effect) : List PublicKey :=
  es.filterMap fun | .addSigner key => some key | _ => none

theorem addedKeys_append (es es' : List Effect) :
    addedKeys (es ++ es') = addedKeys es ++ addedKeys es' := List.filterMap_append ..

/-- The key of a transaction. -/
theorem addedKeys_effects (env : Env) (tx : FullTransaction) (height : UInt64) :
    addedKeys (effects env tx height) = tx.addedKey := by
  have hdeposit : addedKeys (if (governanceOwnedOutputs env tx).1 = [] then []
      else [.deposit tx.inputImages (governanceOwnedOutputs env tx).1
        (governanceOwnedOutputs env tx).2]) = [] := by
    split_ifs <;> rfl
  rw [effects_eq, addedKeys_append, hdeposit, fieldEffects, FullTransaction.addedKey]
  cases tx.governanceTransfer <;> cases tx.governanceAddSigner <;>
    cases tx.governanceRemoveSigner <;> cases tx.networkFundTransfer <;> rfl

/-- The keys of a block. -/
theorem addedKeys_blockEffects (env : Env) (height : UInt64) (txs : List FullTransaction) :
    addedKeys (blockEffects env height txs) = txs.flatMap FullTransaction.addedKey := by
  induction txs with
  | nil => rfl
  | cons tx txs ih =>
    rw [blockEffects_cons, addedKeys_append, addedKeys_effects, ih, List.flatMap_cons]

/-- One effect, with the keys that are still to come. -/
theorem nodup_editSigners {es : List Effect} (h : (l ++ addedKeys (e :: es)).Nodup) :
    (e.editSigners l ++ addedKeys es).Nodup := by
  cases e with
  | addSigner key =>
    show ((l ++ [key]) ++ addedKeys es).Nodup
    rw [List.append_assoc]
    exact h
  | removeSigner index =>
    exact h.sublist ((List.eraseIdx_sublist l index.toNat).append_right _)
  | deposit | transfer | networkSpend => exact h

/-- **No key stands twice** if the keys that are added are new and distinct. -/
theorem nodup_runEffects {es : List Effect} (h : (s.governance.signers ++ addedKeys es).Nodup) :
    (runEffects env es s).1.governance.signers.Nodup := by
  induction es generalizing s with
  | nil => exact (List.nodup_append.1 h).1
  | cons e es ih =>
    rw [runEffects]
    cases he : e.apply env s with
    | none => exact (List.nodup_append.1 h).1
    | some s₁ =>
      obtain ⟨-, rfl⟩ := Effect.apply_eq_some_iff.1 he
      exact ih (nodup_editSigners h)

/-! ### Runs -/

/-- What has to hold of a block: the keys that its transactions add are pairwise distinct, and none
that is added without a check is a signer already. -/
structure KeysApart (n : Node) (d : Delivery) : Prop where
  distinct : (d.block.processedTxs.flatMap FullTransaction.addedKey).Nodup
  coinbase : ∀ key ∈ d.block.minerTx.addedKey, key ∉ n.premine.governance.signers
  unchecked : ∀ t ∈ d.block.txs, (d.fastCheck || d.inputsVerified t.tx) = true →
    ∀ key ∈ t.tx.addedKey, key ∉ n.premine.governance.signers

/-- The keys that a stored block adds are new and distinct. -/
theorem KeysApart.nodup (h : KeysApart n d) (hinit : n.initialized = true)
    (hreach : reachesPremine env n d = true) (hn : n.premine.governance.signers.Nodup) :
    (n.premine.governance.signers ++
      d.block.processedTxs.flatMap FullTransaction.addedKey).Nodup := by
  refine List.nodup_append.2 ⟨hn, h.distinct, ?_⟩
  rintro key hkey key' hkey' rfl
  obtain ⟨tx, htx, hadd⟩ := List.mem_flatMap.1 hkey'
  rcases List.mem_cons.1 htx with rfl | htx
  · exact h.coinbase key hadd hkey
  · obtain ⟨t, ht, rfl⟩ := List.mem_map.1 htx
    have ht := (List.mem_filter.1 ht).1
    cases hskip : d.fastCheck || d.inputsVerified t.tx with
    | true => exact h.unchecked t ht hskip key hadd hkey
    | false =>
      obtain ⟨hfast, hver⟩ := Bool.or_eq_false_iff.1 hskip
      exact addedKey_new_of_checked
        (checked_of_reachesPremine hreach hinit hfast ht hver) hadd hkey

/-- The genesis signers stay first in every run, and there are keys enough for a quorum. -/
theorem genesisFirst_run (env : Env) (ds : List Delivery) (hinit : n.initialized = true)
    (h : GenesisFirst n.premine.governance) :
    GenesisFirst ((blockMachine env).run n ds).1.premine.governance := by
  induction ds generalizing n with
  | nil => exact h
  | cons d ds ih =>
    refine ih (handleBlock_initialized d hinit) ?_
    show GenesisFirst (handleBlock env n d).1.premine.governance
    rw [handleBlock_premine d hinit]
    split_ifs
    · exact h.runEffects _
    · exact h

/-- What a run keeps. -/
structure SignersKept (n : Node) : Prop where
  initialized : n.initialized = true
  genesis : GenesisFirst n.premine.governance
  distinct : n.premine.governance.signers.Nodup

/-- **One block.** -/
theorem SignersKept.handleBlock (h : SignersKept n) (hd : KeysApart n d) :
    SignersKept (handleBlock env n d).1 := by
  refine ⟨handleBlock_initialized d h.initialized,
    genesisFirst_run env [d] h.initialized h.genesis, ?_⟩
  rw [handleBlock_premine d h.initialized]
  split_ifs with hreach
  · refine nodup_runEffects ?_
    rw [addedKeys_blockEffects]
    exact hd.nodup h.initialized hreach h.distinct
  · exact h.distinct

theorem signersKept_freshNode : SignersKept freshNode :=
  ⟨rfl, genesisFirst_genesisState, genesisGovernanceSigners_nodup⟩

/-- The signers as the node keeps them. -/
theorem SignersKept.shape (h : SignersKept n) : SignerShape n.premine.governance where
  genesis := by
    rw [h.genesis.count]
    exact (List.prefix_iff_eq_take.1 h.genesis.first).symm
  distinct := h.distinct
  quorum := h.genesis.quorum

/-- **The signers keep their shape** in every run of blocks whose added keys are apart. -/
theorem signers_keep_shape (env : Env) (ds : List Delivery)
    (h : (blockMachine env).Guarded KeysApart freshNode ds) :
    SignerShape ((blockMachine env).run freshNode ds).1.premine.governance :=
  SignersKept.shape <|
    (blockMachine env).run_state_invariant signersKept_freshNode
      (fun _ _ hn hd => hn.handleBlock hd) h

/-- Two transactions that add one key, each signed by two genesis signers. -/
def doubleAddition : Delivery where
  block := { addSignerBlock.block with
    txs := [6, 7].flatMap fun image => addSignerBlock.block.txs.map fun t =>
      { t with tx := { t.tx with vin := [.toKey 0 [] (Pod32.single image)] } } }

/-- **A key is added twice**, by two transactions that pass the check against the state before. -/
theorem doubleAddition_repeats_key :
    ¬ ∀ (env : Env) (ds : List Delivery), (connect env ds freshNode).2 = true →
        SignerShape (connect env ds freshNode).1.premine.governance := by
  intro h
  have hdistinct := (h openEnv (quietChain ++ [doubleAddition]) (by decide +kernel)).distinct
  revert hdistinct
  decide +kernel

/-- One addition keeps the shape. -/
theorem addSignerBlock_keeps_shape :
    SignerShape ((blockMachine openEnv).run freshNode [addSignerBlock]).1.premine.governance :=
  signers_keep_shape openEnv [addSignerBlock]
    ⟨⟨by decide +kernel, by decide +kernel, by decide +kernel⟩, trivial⟩

end Mevacoin.Premine
