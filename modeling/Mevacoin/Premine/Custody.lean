import Mevacoin.Premine.Authorization
import Mevacoin.Premine.BlockEffects

/-!
# Custody of the network fund

The keys of the fund's address can be derived from the source, and `check_premine_spend` knows only
the key image of the genesis output.
-/

namespace Mevacoin.Premine

open Lib

/-- The keys of the fund, which share no key image with those of the governance. -/
structure FundEnv extends Env where
  /-- `derive_owned_output` of an output for the address of the fund, with the key image that is
  then derived. -/
  fundOutput : FullTransaction → ℕ → Option KeyImage
  apart_treasury : ∀ tx i, fundOutput tx i ≠ some treasuryKImage
  apart_owned : ∀ tx i tx' j owned, ownedOutput tx' j = some owned →
    fundOutput tx i ≠ some owned.1

/-- `scan_address_outputs` for the address of the fund: the key images. -/
def fundImages (env : FundEnv) (tx : FullTransaction) : List KeyImage :=
  if tx.txPubKey = Pod32.null then []
  else (List.range tx.vout.length).filterMap (env.fundOutput tx)

/-- The key images of the outputs that the chain paid to the fund: the genesis output, and
those of the blocks above it. -/
def ownedByFund (env : FundEnv) (blocks : List ChainBlock) : List KeyImage :=
  env.networkKImage :: (blocks.flatMap ChainBlock.allTxs).flatMap (fundImages env)

/-- A transaction that spends an output of the fund is let through only with a `0xC0` field
whose amount is allowed. -/
def FundCustody (env : FundEnv) (n : Node) : Prop :=
  ∀ (t : FullTransaction) (height : UInt64),
    (∃ image ∈ ownedByFund env n.blocks, image ∈ t.inputImages) →
    checkPremineSpend env.toEnv n.premine t height = .ok () →
    ∃ f, t.networkFundTransfer = some f ∧
      validateNetworkFundSpend n.premine.networkFund f.amount height = .ok ()

variable {env : Env} {s : PremineState} {image : KeyImage}

/-- The genesis output is in custody in every state. -/
theorem genesisOutput_custody {t : FullTransaction} {height : UInt64}
    (hspend : env.networkKImage ∈ t.inputImages) (hok : checkPremineSpend env s t height = .ok ()) :
    ∃ f, t.networkFundTransfer = some f ∧
      validateNetworkFundSpend s.networkFund f.amount height = .ok () :=
  (checkPremineSpend_ok_iff.1 hok).2.1 (List.contains_iff_mem.2 hspend)

/-! ### A transaction with one input and nothing else -/

/-- A transaction that spends one output and carries no field. -/
def bareSpend (image : KeyImage) : FullTransaction := { vin := [.toKey 0 [] image] }

theorem bareSpend_inputImages (image : KeyImage) : (bareSpend image).inputImages = [image] := rfl

/-- The check lets it through if the image is none of those it knows. -/
theorem checkPremineSpend_bareSpend (htreasury : image ≠ env.treasuryKImage)
    (hbond : image ∉ s.governance.bondKeyImages) (hfund : image ≠ env.networkKImage)
    (height : UInt64) : checkPremineSpend env s (bareSpend image) height = .ok () := by
  rw [checkPremineSpend_ok_iff, bareSpend_inputImages]
  refine ⟨fun h => ?_, fun h => ?_, fun t ht => ?_, fun t ht => ?_⟩
  · simp [spendsGovernance, htreasury, hbond] at h
  · simp [hfund.symm] at h
  · cases ht
  · cases ht

/-! ### The images that are recorded -/

/-- Every recorded image is that of an output to the governance address. -/
def BondsOwned (env : Env) (s : PremineState) : Prop :=
  ∀ image ∈ s.governance.bondKeyImages, ∃ tx i amount, env.ownedOutput tx i = some (image, amount)

theorem mem_addImages {known new : List KeyImage} :
    image ∈ addImages known new ↔ image ∈ known ∨ image ∈ new := by
  induction new generalizing known with
  | nil => simp [addImages]
  | cons k new ih =>
    show image ∈ addImages (if known.contains k then known else known ++ [k]) new ↔ _
    rw [ih]
    split_ifs with hk
    · have hk := List.contains_iff_mem.1 hk
      rw [List.mem_cons]
      constructor
      · rintro (h | h)
        · exact Or.inl h
        · exact Or.inr (Or.inr h)
      · rintro (h | rfl | h)
        · exact Or.inl h
        · exact Or.inl hk
        · exact Or.inr h
    · rw [List.mem_append, List.mem_singleton, List.mem_cons, or_assoc]

/-- The images of a transaction's deposit are those of owned outputs. -/
theorem mem_governanceOwnedOutputs {tx : FullTransaction}
    (h : image ∈ (governanceOwnedOutputs env tx).1) :
    ∃ i amount, env.ownedOutput tx i = some (image, amount) := by
  unfold governanceOwnedOutputs at h
  split_ifs at h
  · cases h
  · obtain ⟨⟨k, amount⟩, hmem, rfl⟩ := List.mem_map.1 h
    obtain ⟨i, -, hi⟩ := List.mem_filterMap.1 hmem
    exact ⟨i, amount, hi⟩

theorem BondsOwned.runEffects {height : UInt64} {txs : List FullTransaction}
    (h : BondsOwned env s) : BondsOwned env (runEffects env (blockEffects env height txs) s).1 := by
  refine runEffects_trace (P := fun a _ => BondsOwned env a) [] h ?_
  intro e he a _ ha _ image himage
  obtain ⟨tx, -, he⟩ := List.mem_flatMap.1 he
  rcases mem_addImages.1 himage with hold | hnew
  · exact ha image hold
  · rcases mem_effects he with rfl | hfield
    · obtain ⟨i, amount, hi⟩ := mem_governanceOwnedOutputs hnew
      exact ⟨tx, i, amount, hi⟩
    · obtain ⟨t, -, rfl⟩ | ⟨t, -, rfl⟩ | ⟨t, -, rfl⟩ | ⟨t, -, rfl⟩ := mem_fieldEffects.1 hfield <;>
        cases hnew

/-- In every run the recorded images are those of owned outputs. -/
theorem bondsOwned_run (env : Env) (ds : List Delivery) {n : Node} (hinit : n.initialized = true)
    (h : BondsOwned env n.premine) : BondsOwned env ((blockMachine env).run n ds).1.premine := by
  induction ds generalizing n with
  | nil => exact h
  | cons d ds ih =>
    refine ih (handleBlock_initialized d hinit) ?_
    show BondsOwned env (handleBlock env n d).1.premine
    rw [handleBlock_premine d hinit]
    split_ifs
    · exact h.runEffects
    · exact h

/-! ### Custody -/

/-- Nothing but the genesis output was ever paid to the fund. -/
def OnlyGenesisOutput (env : FundEnv) (blocks : List ChainBlock) : Prop :=
  ∀ image ∈ ownedByFund env blocks, image = env.networkKImage

/-- An image of the fund is none of the governance. -/
theorem ownedByFund_apart {env : FundEnv} {blocks : List ChainBlock} (hs : BondsOwned env.toEnv s)
    (h : image ∈ ownedByFund env blocks) (hne : image ≠ env.networkKImage) :
    image ≠ env.treasuryKImage ∧ image ∉ s.governance.bondKeyImages := by
  rcases List.mem_cons.1 h with rfl | h
  · exact absurd rfl hne
  obtain ⟨tx, -, himage⟩ := List.mem_flatMap.1 h
  unfold fundImages at himage
  split_ifs at himage
  · cases himage
  obtain ⟨i, -, hi⟩ := List.mem_filterMap.1 himage
  refine ⟨?_, fun hbond => ?_⟩
  · rintro rfl
    exact env.apart_treasury tx i hi
  · obtain ⟨tx', j, amount, hj⟩ := hs image hbond
    exact env.apart_owned tx i tx' j _ hj hi

/-- **Custody of the fund** holds, after every run of blocks, exactly as long as no transaction of
the chain pays the fund. -/
theorem fund_custody_iff (env : FundEnv) (ds : List Delivery) :
    FundCustody env ((blockMachine env.toEnv).run freshNode ds).1 ↔
      OnlyGenesisOutput env ((blockMachine env.toEnv).run freshNode ds).1.blocks := by
  have hbonds : BondsOwned env.toEnv ((blockMachine env.toEnv).run freshNode ds).1.premine :=
    bondsOwned_run env.toEnv ds rfl (by rintro image ⟨⟩)
  constructor
  · intro h image himage
    by_contra hne
    obtain ⟨htreasury, hbond⟩ := ownedByFund_apart hbonds himage hne
    have hok := checkPremineSpend_bareSpend htreasury hbond hne 0
    obtain ⟨f, hf, -⟩ := h (bareSpend image) 0
      ⟨image, himage, by exact .head _⟩ hok
    cases hf
  · rintro h t height ⟨image, himage, hspend⟩ hok
    rw [h image himage] at hspend
    exact genesisOutput_custody hspend hok

/-- Keys under which every output of a transaction belongs to the fund. -/
def fundKeys : FundEnv where
  toEnv := openEnv
  fundOutput _ _ := some (Pod32.single 6)
  apart_treasury _ _ := by decide
  apart_owned _ _ _ _ _ h := by cases h

/-- A block with a transaction that pays the fund. -/
def changeBlock : Delivery where
  block :=
    { minerTx := {}
      txs := [{ tx :=
        { vout := [⟨0, .toKey (Pod32.single 4)⟩]
          extra := (TxExtraField.pubKey (Pod32.single 3)).write } }] }

/-- **Change of the fund is free to take** by a transaction without any field. -/
theorem changeBlock_breaks_custody :
    ¬ ∀ (env : FundEnv) (ds : List Delivery), (connect env.toEnv ds freshNode).2 = true →
        FundCustody env (connect env.toEnv ds freshNode).1 := by
  intro h
  have hcustody := h fundKeys [changeBlock] (by decide +kernel)
  obtain ⟨f, hf, -⟩ := hcustody (bareSpend (Pod32.single 6)) 1
    ⟨Pod32.single 6, by decide +kernel, by decide +kernel⟩ (by decide +kernel)
  cases hf

end Mevacoin.Premine
