import Mevacoin.Premine.Custody
import Mevacoin.Premine.RateLimit

/-!
# Is the treasury solvent?

A transaction that spends an output of the treasury may declare any amount up to the balance.
-/

namespace Mevacoin.Premine

open Lib

/-! ### The ledger -/

/-- The outputs of a transaction to the governance address, with their key images. -/
def ownedOutputs (env : Env) (tx : FullTransaction) : List (KeyImage × UInt64) :=
  if tx.txPubKey = Pod32.null then []
  else (List.range tx.vout.length).filterMap (env.ownedOutput tx)

/-- What outputs are worth. -/
def worth (l : List (KeyImage × UInt64)) : ℕ := (l.map (·.2.toNat)).sum

/-- The outputs that the governance ever owned: the genesis output and those of transactions. -/
def treasuryOutputs (env : Env) (txs : List FullTransaction) : List (KeyImage × UInt64) :=
  (env.treasuryKImage, treasuryAllocation) :: txs.flatMap (ownedOutputs env)

/-- The key images that transactions spend. -/
def spentImages (txs : List FullTransaction) : List KeyImage :=
  txs.flatMap FullTransaction.inputImages

/-- The outputs of the governance that are not spent. -/
def unspentOutputs (env : Env) (txs : List FullTransaction) : List (KeyImage × UInt64) :=
  (treasuryOutputs env txs).filter fun o => !(spentImages txs).contains o.1

/-- The transactions of a chain. -/
def chainTxs (blocks : List ChainBlock) : List FullTransaction := blocks.flatMap ChainBlock.allTxs

/-- What has to hold of a transaction after others: its outputs to the governance are not spent, it
declares what it takes out and does not pay back, and the outputs are worth less than a word
holds. -/
structure Backed (env : Env) (txs : List FullTransaction) (tx : FullTransaction) : Prop where
  fresh : ∀ o ∈ ownedOutputs env tx, o.1 ∉ spentImages (txs ++ [tx])
  declared : worth ((unspentOutputs env txs).filter fun o => tx.inputImages.contains o.1) ≤
    tx.debit.toNat + worth (ownedOutputs env tx)
  fits : worth (unspentOutputs env txs) + worth (ownedOutputs env tx) < 2 ^ 64

/-- The transactions of a block are backed one after another. -/
def AllBacked (env : Env) : List FullTransaction → List FullTransaction → Prop
  | _, [] => True
  | txs, tx :: rest => Backed env txs tx ∧ AllBacked env (txs ++ [tx]) rest

/-! ### Deposits -/

/-- A sum that is added to the balance. -/
structure Deposit where
  balance : UInt64
  amounts : List UInt64

/-- It does not wrap. -/
def Deposit.Fits (e : Deposit) : Prop := e.balance.toNat + (e.amounts.map UInt64.toNat).sum < 2 ^ 64

/-- The deposit that a transaction makes, if it does not spend from the treasury. -/
def creditedDeposit (env : Env) (s : PremineState) (tx : FullTransaction) : List Deposit :=
  if spendsGovernance env s.governance tx.inputImages then []
  else [⟨s.governance.balance, (ownedOutputs env tx).map Prod.snd⟩]

/-- The deposits of transactions, until one fails. -/
def depositsOf (env : Env) (height : UInt64) : List FullTransaction → PremineState → List Deposit
  | [], _ => []
  | tx :: txs, s =>
    let r := processPremineActions env s tx height
    creditedDeposit env s tx ++ if r.2 then depositsOf env height txs r.1 else []

/-- A node that is handed blocks, with the deposits it adds up. -/
def treasuryMachine (env : Env) : Machine Node Delivery Deposit where
  step n d := ((handleBlock env n d).1,
    if reachesPremine env n d && n.initialized then
      depositsOf env n.dbHeight d.block.processedTxs n.premine
    else [])

/-- The balance is covered by unspent outputs, and no deposit wrapped. -/
structure TreasurySolvent (env : Env) (n : Node) (deposits : List Deposit) : Prop where
  balance : n.premine.governance.balance.toNat ≤ worth (unspentOutputs env (chainTxs n.blocks))
  fits : ∀ e ∈ deposits, e.Fits

/-- What has to hold of a block: it is accepted, its transactions can be read back, and are
backed. -/
structure BlockBacked (env : Env) (n : Node) (d : Delivery) : Prop where
  accepted : (handleBlock env n d).2 = true
  full : ∀ t ∈ d.block.txs, t.full = true
  backed : AllBacked env (chainTxs n.blocks) d.block.allTxs

section

variable {env : Env} {height : UInt64} {s : PremineState} {tx : FullTransaction}
  {txs : List FullTransaction}

/-! ### One transaction -/

theorem worth_append (l l' : List (KeyImage × UInt64)) : worth (l ++ l') = worth l + worth l' := by
  rw [worth, List.map_append, List.sum_append, worth, worth]

theorem governanceOwnedOutputs_eq (env : Env) (tx : FullTransaction) :
    governanceOwnedOutputs env tx =
      ((ownedOutputs env tx).map Prod.fst, ((ownedOutputs env tx).map Prod.snd).sum) := by
  unfold governanceOwnedOutputs ownedOutputs
  split_ifs <;> rfl

theorem spentImages_snoc (txs : List FullTransaction) (tx : FullTransaction) :
    spentImages (txs ++ [tx]) = spentImages txs ++ tx.inputImages := by
  simp [spentImages]

/-- **The ledger after one more transaction.** -/
theorem worth_unspentOutputs_snoc (h : Backed env txs tx) :
    worth (unspentOutputs env (txs ++ [tx])) +
        worth ((unspentOutputs env txs).filter fun o => tx.inputImages.contains o.1) =
      worth (unspentOutputs env txs) + worth (ownedOutputs env tx) := by
  have houts : treasuryOutputs env (txs ++ [tx]) =
      treasuryOutputs env txs ++ ownedOutputs env tx := by
    simp [treasuryOutputs]
  have hnew : (ownedOutputs env tx).filter (fun o => !(spentImages (txs ++ [tx])).contains o.1) =
      ownedOutputs env tx := by
    refine List.filter_eq_self.2 fun o ho => ?_
    simpa using h.fresh o ho
  have hold : (treasuryOutputs env txs).filter
      (fun o => !(spentImages (txs ++ [tx])).contains o.1) =
      (unspentOutputs env txs).filter fun o => !tx.inputImages.contains o.1 := by
    unfold unspentOutputs
    rw [List.filter_filter, spentImages_snoc]
    refine List.filter_congr fun o _ => ?_
    rw [List.contains_append, Bool.not_or, Bool.and_comm]
  have hsplit := sum_filter_add_sum_filter_not (fun o : KeyImage × UInt64 => o.2.toNat)
    (fun o => tx.inputImages.contains o.1) (unspentOutputs env txs)
  rw [unspentOutputs, houts, List.filter_append, hnew, hold, worth_append]
  unfold worth at hsplit ⊢
  omega

/-- The balance is covered after the transactions so far, and the images of their outputs are
recorded. -/
structure Covered (env : Env) (txs : List FullTransaction) (s : PremineState) : Prop where
  balance : s.governance.balance.toNat ≤ worth (unspentOutputs env txs)
  recorded : ∀ o ∈ txs.flatMap (ownedOutputs env), o.1 ∈ s.governance.bondKeyImages

/-- A transaction that spends nothing recorded spends nothing of the ledger. -/
theorem Covered.spends_nothing (h : Covered env txs s)
    (hspends : spendsGovernance env s.governance tx.inputImages = false) :
    worth ((unspentOutputs env txs).filter fun o => tx.inputImages.contains o.1) = 0 := by
  have hnone : (unspentOutputs env txs).filter (fun o => tx.inputImages.contains o.1) = [] := by
    refine List.filter_eq_nil_iff.2 fun o ho hspent => ?_
    have hmem := List.contains_iff_mem.1 hspent
    have hnot := List.any_eq_false.1 hspends o.1 hmem
    rcases List.mem_cons.1 (List.mem_filter.1 ho).1 with rfl | howned
    · simp at hnot
    · simp [h.recorded o howned] at hnot
  rw [hnone]
  rfl

/-- What a deposit adds, in the naturals. -/
theorem toNat_ownedOutputs_sum (env : Env) (tx : FullTransaction)
    (h : worth (ownedOutputs env tx) < 2 ^ 64) :
    ((ownedOutputs env tx).map Prod.snd).sum.toNat = worth (ownedOutputs env tx) :=
  toNat_sum_of_lt h

/-- **One transaction.** -/
theorem Covered.step (h : Covered env txs s) (hadm : TxAdmissible env s tx)
    (hb : Backed env txs tx) : Covered env (txs ++ [tx]) (txResult env height tx s) := by
  have hledger := worth_unspentOutputs_snoc hb
  have hdeclared := hb.declared
  have hfits := hb.fits
  have hbalance := h.balance
  refine ⟨?_, ?_⟩
  · show (s.governance.balance + tx.credit env s.governance - tx.debit).toNat ≤ _
    rw [UInt64.toNat_sub_of_le _ _ hadm.transfer, FullTransaction.credit]
    cases hspends : spendsGovernance env s.governance tx.inputImages with
    | true =>
      rw [if_pos rfl, UInt64.add_zero]
      omega
    | false =>
      have hnothing := h.spends_nothing hspends
      have hsum := toNat_ownedOutputs_sum env tx (by omega)
      rw [if_neg Bool.false_ne_true, governanceOwnedOutputs_eq, UInt64.toNat_add, hsum]
      omega
  · intro o ho
    show o.1 ∈ addImages s.governance.bondKeyImages (governanceOwnedOutputs env tx).1
    rw [mem_addImages, governanceOwnedOutputs_eq]
    rw [List.flatMap_append] at ho
    rcases List.mem_append.1 ho with hold | hnew
    · exact Or.inl (h.recorded o hold)
    · refine Or.inr (List.mem_map_of_mem ?_)
      simpa using hnew

theorem Covered.creditedDeposit_fits (h : Covered env txs s) (hb : Backed env txs tx) :
    ∀ e ∈ creditedDeposit env s tx, e.Fits := by
  have hfits := hb.fits
  have hbalance := h.balance
  intro e he
  unfold creditedDeposit at he
  split_ifs at he
  · cases he
  · rw [List.mem_singleton.1 he]
    show _ + (((ownedOutputs env tx).map Prod.snd).map UInt64.toNat).sum < 2 ^ 64
    rw [List.map_map]
    exact lt_of_le_of_lt (Nat.add_le_add_right hbalance _) hfits

/-- **A block's transactions**, one after another. -/
theorem Covered.foldTxs {rest : List FullTransaction} (h : Covered env txs s)
    (hok : txsOk env height rest s = true) (hb : AllBacked env txs rest) :
    Covered env (txs ++ rest) (foldTxs env height rest s) ∧
      ∀ e ∈ depositsOf env height rest s, e.Fits := by
  induction rest generalizing txs s with
  | nil =>
    rw [List.append_nil]
    exact ⟨h, by simp [depositsOf]⟩
  | cons tx rest ih =>
    obtain ⟨htx, hok⟩ := Bool.and_eq_true_iff.1 hok
    have hadm := processPremineActions_snd_iff.1 htx
    have hstep : Covered env (txs ++ [tx]) (processPremineActions env s tx height).1 := by
      rw [processPremineActions_fst hadm]
      exact h.step hadm hb.1
    obtain ⟨hrest, hdeps⟩ := ih hstep hok hb.2
    refine ⟨?_, ?_⟩
    · rw [List.append_cons]
      exact hrest
    · intro e he
      rw [depositsOf, htx] at he
      rcases List.mem_append.1 he with he | he
      · exact h.creditedDeposit_fits hb.1 e he
      · exact hdeps e he

end

/-! ### Runs -/

/-- What an accepted block does. -/
theorem handleBlock_accepted {env : Env} {n : Node} {d : Delivery} (hinit : n.initialized = true)
    (hacc : (handleBlock env n d).2 = true) :
    reachesPremine env n d = true ∧
      txsOk env n.dbHeight d.block.processedTxs n.premine = true ∧
      (handleBlock env n d).1.blocks = n.blocks ++ [d.block] ∧
      (handleBlock env n d).1.premine =
        foldTxs env n.dbHeight d.block.processedTxs n.premine := by
  have hreach : reachesPremine env n d = true := by
    by_contra h
    rw [handleBlock, if_neg h] at hacc
    cases hacc
  have hprocessed : (processTxs env n.dbHeight d.block.processedTxs
      { n with blocks := n.blocks ++ [d.block] }).2 = true := by
    rw [handleBlock, if_pos hreach] at hacc
    unfold ChainBlock.processedTxs
    dsimp only at hacc
    generalize processTxs env n.dbHeight _ _ = r at hacc ⊢
    obtain ⟨n', ok⟩ := r
    cases ok with
    | true => rfl
    | false => cases hacc
  have hok : txsOk env n.dbHeight d.block.processedTxs n.premine = true :=
    txsOk_of_processTxs (n := { n with blocks := n.blocks ++ [d.block] }) hinit hprocessed
  have hrun := processTxs_eq (n := { n with blocks := n.blocks ++ [d.block] }) hinit hok
  rw [handleBlock, if_pos hreach]
  unfold ChainBlock.processedTxs at hrun hok ⊢
  dsimp only
  rw [hrun]
  exact ⟨hreach, hok, rfl, rfl⟩

/-- What a run keeps. -/
structure TreasuryTracked (env : Env) (n : Node) (deposits : List Deposit) : Prop where
  initialized : n.initialized = true
  covered : Covered env (chainTxs n.blocks) n.premine
  fits : ∀ e ∈ deposits, e.Fits

theorem treasuryTracked_freshNode (env : Env) : TreasuryTracked env freshNode [] where
  initialized := rfl
  covered := ⟨Nat.le_of_eq (by simp [worth, unspentOutputs, treasuryOutputs, spentImages, chainTxs,
    freshNode, genesisState]), by simp [chainTxs, freshNode]⟩
  fits := by simp

theorem chainTxs_snoc (blocks : List ChainBlock) (b : ChainBlock) :
    chainTxs (blocks ++ [b]) = chainTxs blocks ++ b.allTxs := by
  simp [chainTxs]

/-- **One block.** -/
theorem TreasuryTracked.step {env : Env} {n : Node} {d : Delivery} {deposits : List Deposit}
    (h : TreasuryTracked env n deposits) (hd : BlockBacked env n d) :
    TreasuryTracked env ((treasuryMachine env).step n d).1
      (deposits ++ ((treasuryMachine env).step n d).2) := by
  obtain ⟨hreach, hok, hblocks, hpremine⟩ := handleBlock_accepted h.initialized hd.accepted
  have hall : d.block.processedTxs = d.block.allTxs := by
    rw [ChainBlock.processedTxs, List.filter_eq_self.2 hd.full, ChainBlock.allTxs]
  rw [hall] at hok hpremine
  obtain ⟨hcovered, hfits⟩ := h.covered.foldTxs hok hd.backed
  refine ⟨handleBlock_initialized d h.initialized, ?_, fun e he => ?_⟩
  · show Covered env (chainTxs (handleBlock env n d).1.blocks) (handleBlock env n d).1.premine
    rw [hblocks, hpremine, chainTxs_snoc]
    exact hcovered
  · rcases List.mem_append.1 he with he | he
    · exact h.fits e he
    · change e ∈ if reachesPremine env n d && n.initialized then _ else _ at he
      rw [hreach, h.initialized, Bool.and_true, hall] at he
      exact hfits e he

/-- **The treasury is solvent** in every run of accepted blocks whose transactions are backed. -/
theorem treasury_solvent (env : Env) (ds : List Delivery)
    (h : (treasuryMachine env).Guarded (BlockBacked env) freshNode ds) :
    TreasurySolvent env ((treasuryMachine env).run freshNode ds).1
      ((treasuryMachine env).run freshNode ds).2 :=
  have hrun : TreasuryTracked env _ _ :=
    (treasuryMachine env).run_invariant (treasuryTracked_freshNode env)
      (fun _ _ _ hn hd => hn.step hd) h
  ⟨hrun.covered.balance, hrun.fits⟩

/-- A block whose one transaction spends the genesis output of the treasury and declares an
amount. -/
def treasuryBlock (amount : UInt64) : Delivery where
  block :=
    { minerTx := {}
      txs := [{ tx :=
        { vin := [.toKey 0 [] openEnv.treasuryKImage]
          extra := (TxExtraField.governanceTransfer ⟨amount, Pod32.single 7, Pod32.single 8,
            (genesisGovernanceSigners.take 2).map fun k =>
              ⟨k, Pod32.null, Pod32.null⟩⟩).write } }] }

/-- **The treasury is emptied but for its balance.**  The transaction spends all there is and
declares an amount of one. -/
theorem treasuryBlock_insolvent :
    ¬ ∀ (env : Env) (ds : List Delivery), (connect env ds freshNode).2 = true →
        TreasurySolvent env ((treasuryMachine env).run freshNode ds).1
          ((treasuryMachine env).run freshNode ds).2 := by
  intro h
  have hbalance := (h openEnv (quietChain ++ [treasuryBlock 1]) (by decide +kernel)).balance
  revert hbalance
  decide +kernel

/-- A spend that declares all it takes. -/
theorem treasuryBlock_solvent :
    TreasurySolvent openEnv
      ((treasuryMachine openEnv).run freshNode [treasuryBlock treasuryAllocation]).1
      ((treasuryMachine openEnv).run freshNode [treasuryBlock treasuryAllocation]).2 :=
  treasury_solvent openEnv [treasuryBlock treasuryAllocation]
    ⟨⟨by decide +kernel, by decide +kernel,
      ⟨by decide +kernel, by decide +kernel, by decide +kernel⟩,
      ⟨by decide +kernel, by decide +kernel, by decide +kernel⟩, trivial⟩, trivial⟩

end Mevacoin.Premine
