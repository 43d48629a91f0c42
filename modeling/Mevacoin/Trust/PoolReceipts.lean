import Mevacoin.Trust.CoinbaseSafety
import Mevacoin.Trust.Manager

/-!
# The pool balance and what the pool received

`compute_pool_balance_from_chain` adds 3% of every coinbase and subtracts the declared total; it
never looks at an output key.
-/

namespace Mevacoin.Trust

open Lib

/-! ### One coinbase -/

/-- The reward of a block as `compute_pool_balance_from_chain` reads it off the coinbase. -/
def coinbaseReward (tx : Transaction) : UInt64 := (tx.vout.map (·.amount)).sum

/-- The total that the manifest of a coinbase declares, zero without one. -/
def declaredTotal (tx : Transaction) : UInt64 :=
  ((parsePoolDistribution tx).map (·.totalDistributed)).getD 0

/-- The coinbase gives the pool what the balance counts for it.  Where the check asks for no output,
the miner has paid in the 3% all the same; elsewhere that output is the only one with an amount. -/
def PoolSettled (env : Env) (hf : UInt8) (tx : Transaction) : Prop :=
  if 17 ≤ hf ∧ declaredTotal tx = 0 then
    (poolAmounts env tx).sum = (nodeBudget (coinbaseReward tx)).toNat
  else
    ((poolAmounts env tx).filter (0 < ·)).length =
      if declaredTotal tx < nodeBudget (coinbaseReward tx) then 1 else 0
deriving Decidable

/-- **A coinbase that passed the check is settled exactly when the pool gets the budget less
the declared total.** -/
theorem poolPaid_eq_iff_settled {env : Env} {tx : Transaction} {height R : UInt64} {hf : UInt8}
    (h14 : 14 ≤ hf) (hok : checkMevatrustCoinbase env tx height R hf = .ok ()) :
    poolPaid env tx = (nodeBudget (coinbaseReward tx)).toNat - (declaredTotal tx).toNat ↔
      PoolSettled env hf tx := by
  obtain ⟨hsum, hpool⟩ := (checkMevatrustCoinbase_ok_iff h14).1 hok
  have hR : R = coinbaseReward tx := hsum.symm
  subst hR
  change (poolAmounts env tx).sum = _ ↔ _
  unfold PoolSettled
  split_ifs with hnone hlt
  · rw [hnone.2, UInt64.toNat_zero, Nat.sub_zero]
  · -- the check asks for the rest of the budget, which is positive
    have hpaid : hf ≤ 16 ∨ declaredTotal tx ≠ 0 := by
      by_contra hcon
      rw [not_or, not_not, UInt8.not_le] at hcon
      exact hnone ⟨UInt8.lt_iff_toNat_lt.1 hcon.1, hcon.2⟩
    have hdue : (poolAmount hf (nodeBudget (coinbaseReward tx)) (declaredTotal tx)).toNat = _ :=
      poolAmount_toNat h14 hpaid
    have hrest : 0 < (poolAmount hf (nodeBudget (coinbaseReward tx)) (declaredTotal tx)).toNat := by
      have := UInt64.lt_iff_toNat_lt.1 hlt
      omega
    rw [← hdue]
    exact sum_eq_iff_filter (mem_poolAmounts (hpool (UInt64.lt_iff_toNat_lt.2 hrest))) hrest
  · -- all of the budget is distributed
    have hge := UInt64.le_iff_toNat_le.1 (UInt64.not_lt.1 hlt)
    rw [Nat.sub_eq_zero_of_le hge]
    exact sum_eq_zero_iff_filter _

/-! ### A chain -/

/-- The blocks that `compute_pool_balance_from_chain` scans. -/
def scannedBlocks (chain : ChainAccess) (upTo : UInt64) : List Block :=
  (chain.blocks.take (if upTo = 0 then chain.blocks.length else upTo.toNat)).drop 14

/-- What the pool received in the scanned blocks. -/
def poolReceived (env : Env) (chain : ChainAccess) (upTo : UInt64) : ℕ :=
  ((scannedBlocks chain upTo).map fun b => poolPaid env b.minerTx.tx).sum

/-- What a block adds to the balance, if its manifest declares no more than the budget. -/
def Block.poolShare (b : Block) : ℕ :=
  (nodeBudget (coinbaseReward b.minerTx.tx)).toNat - (declaredTotal b.minerTx.tx).toNat

/-- No scanned manifest declares more than the budget of its block. -/
def DeclaresWithin (chain : ChainAccess) : Prop :=
  ∀ b ∈ chain.blocks.drop 14,
    declaredTotal b.minerTx.tx ≤ nodeBudget (coinbaseReward b.minerTx.tx)

/-- The 3% of all scanned blocks fit into the 64-bit account. -/
def ContributionsFit (chain : ChainAccess) : Prop :=
  ((chain.blocks.drop 14).map fun b => (nodeBudget (coinbaseReward b.minerTx.tx)).toNat).sum <
    2 ^ 64

/-- The scanned blocks are the first ones above height 13. -/
theorem scannedBlocks_eq_take (chain : ChainAccess) (upTo : UInt64) :
    scannedBlocks chain upTo = (chain.blocks.drop 14).take
      ((if upTo = 0 then chain.blocks.length else upTo.toNat) - 14) :=
  List.drop_take

/-- Every number of blocks above height 13 is scanned for some bound. -/
theorem exists_scannedBlocks {chain : ChainAccess} (hlen : chain.blocks.length < 2 ^ 64) (n : ℕ) :
    ∃ upTo, scannedBlocks chain upTo = (chain.blocks.drop 14).take n := by
  rcases Nat.lt_or_ge (n + 14) chain.blocks.length with hlt | hge
  · have hnat : (UInt64.ofNat (n + 14)).toNat = n + 14 :=
      UInt64.toNat_ofNat_of_lt (show n + 14 < 2 ^ 64 by omega)
    have hne : UInt64.ofNat (n + 14) ≠ 0 := by
      intro h0
      rw [h0, UInt64.toNat_zero] at hnat
      omega
    refine ⟨UInt64.ofNat (n + 14), ?_⟩
    rw [scannedBlocks_eq_take, if_neg hne, hnat, Nat.add_sub_cancel]
  · -- the bound 0 stands for the whole chain
    refine ⟨0, ?_⟩
    rw [scannedBlocks_eq_take, List.take_of_length_le (by simp),
      List.take_of_length_le (by simp; omega)]

theorem computePoolBalanceFromChain_eq (chain : ChainAccess) (upTo : UInt64) :
    computePoolBalanceFromChain chain upTo =
      let contributions := ((scannedBlocks chain upTo).map fun b =>
        nodeBudget (coinbaseReward b.minerTx.tx)).sum
      let distributions := ((scannedBlocks chain upTo).map fun b => declaredTotal b.minerTx.tx).sum
      if distributions ≤ contributions then contributions - distributions else 0 :=
  rfl

/-- The balance is the total of the shares of the scanned blocks. -/
theorem computePoolBalanceFromChain_toNat {chain : ChainAccess} (hdecl : DeclaresWithin chain)
    (hfit : ContributionsFit chain) (upTo : UInt64) :
    (computePoolBalanceFromChain chain upTo).toNat =
      ((scannedBlocks chain upTo).map Block.poolShare).sum := by
  have hsub : ∀ b ∈ scannedBlocks chain upTo,
      (declaredTotal b.minerTx.tx).toNat ≤ (nodeBudget (coinbaseReward b.minerTx.tx)).toNat := by
    intro b hb
    rw [scannedBlocks_eq_take] at hb
    exact UInt64.le_iff_toNat_le.1 (hdecl b (List.mem_of_mem_take hb))
  have hin : ((scannedBlocks chain upTo).map
      fun b => (nodeBudget (coinbaseReward b.minerTx.tx)).toNat).sum < 2 ^ 64 := by
    rw [scannedBlocks_eq_take]
    exact lt_of_le_of_lt (sum_take_le _ _ _) hfit
  have hle := List.sum_le_sum hsub
  have hcontrib := toNat_sum_of_lt hin
  have hdist := toNat_sum_of_lt (lt_of_le_of_lt hle hin)
  have hword := UInt64.le_iff_toNat_le.2 (hdist.trans_le (hle.trans hcontrib.ge))
  simp only [computePoolBalanceFromChain_eq, if_pos hword]
  rw [UInt64.toNat_sub_of_le _ _ hword, hcontrib, hdist]
  exact (sum_map_tsub hsub).symm

section

variable {F : Type} [FloatArith F] (D : Type) [FloatArith D] [FloatWiden F D]

/-- Every block above height 13 is of fork 14 or later, and its coinbase passed both checks. -/
def CoinbasesAccepted (env : Env) (chain : ChainAccess) (fork : ℕ → UInt8) (reward : ℕ → UInt64)
    (state : ℕ → RewardState F) : Prop :=
  ∀ h b, 14 ≤ h → chain.blocks[h]? = some b →
    14 ≤ fork h ∧
    checkMevatrustCoinbase env b.minerTx.tx (UInt64.ofNat h) (reward h) (fork h) = .ok () ∧
    checkMevatrustCoinbasePureConsensus D env (state h) b.minerTx.tx (UInt64.ofNat h) (reward h)
      (fork h) = .ok ()

/-- **The balance is what the pool received**, at every height of an accepted chain whose manifests
declare no more than the budgets, exactly when every scanned coinbase is settled. -/
theorem poolBalance_eq_received_iff (env : Env) (chain : ChainAccess) (fork : ℕ → UInt8)
    (reward : ℕ → UInt64) (state : ℕ → RewardState F) (hlen : chain.blocks.length < 2 ^ 64)
    (haccepted : CoinbasesAccepted D env chain fork reward state)
    (hdecl : DeclaresWithin chain) (hfit : ContributionsFit chain) :
    (∀ upTo, (computePoolBalanceFromChain chain upTo).toNat = poolReceived env chain upTo) ↔
      ∀ h b, 14 ≤ h → chain.blocks[h]? = some b → PoolSettled env (fork h) b.minerTx.tx := by
  have hrunning : (∀ upTo, (computePoolBalanceFromChain chain upTo).toNat =
      poolReceived env chain upTo) ↔
      ∀ n, (((chain.blocks.drop 14).take n).map fun b => poolPaid env b.minerTx.tx).sum =
        (((chain.blocks.drop 14).take n).map Block.poolShare).sum := by
    constructor
    · intro hall n
      obtain ⟨upTo, hscan⟩ := exists_scannedBlocks hlen n
      have hn := hall upTo
      rw [computePoolBalanceFromChain_toNat hdecl hfit, poolReceived, hscan] at hn
      exact hn.symm
    · intro hall upTo
      rw [computePoolBalanceFromChain_toNat hdecl hfit, poolReceived, scannedBlocks_eq_take]
      exact (hall _).symm
  rw [hrunning, prefixSums_eq_iff]
  constructor
  · intro hall h b hh hb
    obtain ⟨h14, hok, -⟩ := haccepted h b hh hb
    have hmem : b ∈ chain.blocks.drop 14 := by
      refine List.mem_of_getElem? (i := h - 14) ?_
      rw [List.getElem?_drop, Nat.add_sub_cancel' hh, hb]
    exact (poolPaid_eq_iff_settled h14 hok).1 (hall b hmem)
  · intro hall b hmem
    obtain ⟨i, hi⟩ := List.getElem?_of_mem hmem
    rw [List.getElem?_drop] at hi
    obtain ⟨h14, hok, -⟩ := haccepted _ b (Nat.le_add_right 14 i) hi
    exact (poolPaid_eq_iff_settled h14 hok).2 (hall _ b (Nat.le_add_right 14 i) hi)

end

/-! ### A block that pays nobody -/

/-- A chain of fifteen blocks with one coinbase. -/
def chainOf (tx : Transaction) : ChainAccess :=
  { blocks := List.replicate 15 { minerTx := { tx := tx } } }

theorem eq_of_chainOf {tx : Transaction} {h : ℕ} {b : Block}
    (hb : (chainOf tx).blocks[h]? = some b) : b = { minerTx := { tx := tx } } :=
  List.eq_of_mem_replicate (List.mem_of_getElem? hb)

theorem chainOf_accepted {tx : Transaction} {hf : UInt8} (h14 : 14 ≤ hf)
    (hok : checkMevatrustCoinbase sampleEnv tx 14 10000 hf = .ok ())
    (hpure : checkMevatrustCoinbasePureConsensus ℚ sampleEnv (uptimeState []) tx 14 10000 hf =
      .ok ()) :
    CoinbasesAccepted ℚ sampleEnv (chainOf tx) (fun _ => hf) (fun _ => 10000)
      (fun _ => uptimeState []) := by
  intro h b hh hb
  obtain rfl := eq_of_chainOf hb
  obtain ⟨hlt, -⟩ := List.getElem?_eq_some_iff.1 hb
  obtain rfl : h = 14 := by
    simp only [chainOf, List.length_replicate] at hlt
    omega
  exact ⟨h14, hok, hpure⟩

/-- A coinbase that gives everything to the miner. -/
def idleTx : Transaction := { vout := [⟨10000, .toKey (Pod32.single 5)⟩] }

/-- **The balance counts 3% of a block from fork 17 that pays nobody**, though the pool gets
nothing. -/
theorem idleBlock_counted :
    ¬ ∀ (chain : ChainAccess) (fork : ℕ → UInt8) (reward : ℕ → UInt64) (state : ℕ → RewardState ℚ),
        CoinbasesAccepted ℚ sampleEnv chain fork reward state →
        ∀ upTo, (computePoolBalanceFromChain chain upTo).toNat =
          poolReceived sampleEnv chain upTo := by
  intro h
  have heq := h (chainOf idleTx) _ _ _
    (chainOf_accepted (show 14 ≤ (17 : UInt8) by decide) (by decide +kernel) (by decide +kernel)) 15
  have hbalance : (computePoolBalanceFromChain (chainOf idleTx) 15).toNat = 300 := by
    decide +kernel
  have hreceived : poolReceived sampleEnv (chainOf idleTx) 15 = 0 := by decide +kernel
  omega

/-- A coinbase that gives the pool its 3%. -/
def contributingTx : Transaction :=
  { vout := [⟨9700, .toKey (Pod32.single 5)⟩,
      ⟨300, .toKey sampleEnv.poolAddress.spendPublicKey⟩] }

/-- At fork 14 the 3% of a block that pays nobody is both counted and received. -/
theorem contributingBlock_received :
    CoinbasesAccepted ℚ sampleEnv (chainOf contributingTx) (fun _ => 14) (fun _ => 10000)
        (fun _ => uptimeState []) ∧
      (computePoolBalanceFromChain (chainOf contributingTx) 15).toNat = 300 ∧
      (computePoolBalanceFromChain (chainOf contributingTx) 15).toNat =
        poolReceived sampleEnv (chainOf contributingTx) 15 := by
  have haccepted : CoinbasesAccepted ℚ sampleEnv (chainOf contributingTx) (fun _ => 14)
      (fun _ => 10000) (fun _ => uptimeState []) :=
    chainOf_accepted (by decide) (by decide +kernel) (by decide +kernel)
  refine ⟨haccepted, by decide +kernel, ?_⟩
  refine (poolBalance_eq_received_iff ℚ sampleEnv (chainOf contributingTx) _ _ _ (by decide)
    haccepted ?_ ?_).2 ?_ 15
  · unfold DeclaresWithin
    decide +kernel
  · unfold ContributionsFit
    decide +kernel
  · intro h b hh hb
    obtain rfl := eq_of_chainOf hb
    decide +kernel

end Mevacoin.Trust
