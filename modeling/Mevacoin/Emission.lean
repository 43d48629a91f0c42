import Mevacoin.Lib.Machine
import Mevacoin.Template

/-!
# Emission along a chain

`handle_block_to_main_chain` (`src/cryptonote_core/blockchain.cpp`) stores with every block the
coins generated so far, from which the next reward is computed.
-/

namespace Mevacoin

open Lib Trust

/-- The counter after a block; the cap is `MONEY_SUPPLY`. -/
def addGeneratedCoins (alreadyGeneratedCoins baseReward : UInt64) : UInt64 :=
  if baseReward < 0xFFFFFFFFFFFFFFFF - alreadyGeneratedCoins then
    alreadyGeneratedCoins + baseReward
  else 0xFFFFFFFFFFFFFFFF

/-- A block on top of the main chain, with its cumulative weight and its fees. -/
structure MinedBlock where
  tip : ChainTip
  block : Block
  weight : UInt64
  fee : UInt64

/-- The outputs of the coinbase, in whole numbers. -/
def MinedBlock.paid (x : MinedBlock) : ℕ := (x.block.minerTx.vout.map (·.amount.toNat)).sum

/-- The counter, block by block, with the reward that each block is counted with. -/
def emission (blockHash : Block → Hash) : Machine UInt64 MinedBlock (UInt64 × MinedBlock) where
  step coins x :=
    let reward := (recomputedReward blockHash x.tip x.block x.weight x.fee).getD 0
    (addGeneratedCoins coins reward, [(reward, x)])

/-- The block is accepted where the counter stands at `coins`: the median has 31 bits, the outputs
do not overflow and the miner transaction is valid. -/
def MinedBlock.Accepted {F : Type} [FloatArith F] (D : Type) [FloatArith D] [FloatWiden F D]
    (env : Env) (st : Block → RewardState F) (blockHash : Block → Hash) (coins : UInt64)
    (x : MinedBlock) : Prop :=
  x.tip.alreadyGeneratedCoins = coins ∧
    (softMedian x.tip.cumulWeightMedian x.tip.hfVersion).toNat < 2 ^ 31 ∧ x.paid < 2 ^ 64 ∧
    validateMinerTransaction D env (st x.block) blockHash x.tip x.block x.weight x.fee = true
deriving Decidable

section

variable {coins reward : UInt64} {version : UInt8}

theorem toNat_supply_sub (coins : UInt64) :
    (0xFFFFFFFFFFFFFFFF - coins).toNat = 2 ^ 64 - 1 - coins.toNat := by
  have := coins.toNat_lt
  exact UInt64.toNat_sub_of_le _ _ (UInt64.le_iff_toNat_le.2 (Nat.le_sub_one_of_lt this))

theorem toNat_addGeneratedCoins (coins reward : UInt64) :
    (addGeneratedCoins coins reward).toNat = min (2 ^ 64 - 1) (coins.toNat + reward.toNat) := by
  unfold addGeneratedCoins
  split_ifs with h
  all_goals rw [UInt64.lt_iff_toNat_lt, toNat_supply_sub] at h
  · rw [UInt64.toNat_add, Nat.mod_eq_of_lt (by omega)]
    omega
  · simp
    omega

/-- From hard fork 2 on the target is two minutes. -/
theorem toNat_baseReward (hv : 2 ≤ version) :
    (baseReward coins version).toNat = max ((2 ^ 64 - 1 - coins.toNat) / 2 ^ 19) 600000000000 := by
  have ht : targetMinutes version = 2 := if_neg (UInt8.not_lt.2 hv)
  unfold baseReward
  simp only [ht]
  split_ifs with h
  all_goals
    rw [UInt64.lt_iff_toNat_lt] at h
    simp [toNat_supply_sub, Nat.shiftRight_eq_div_pow, finalSubsidyPerMinute] at h ⊢
    omega

/-- No weight raises a reward. -/
theorem getBlockReward_le {median weight : UInt64} (hm : (softMedian median version).toNat < 2 ^ 31)
    (h : getBlockReward median weight coins version = some reward) :
    reward.toNat ≤ (baseReward coins version).toNat := by
  have hw : weight.toNat ≤ 2 * (softMedian median version).toNat := by
    by_contra hlt
    have hheavy : 2 * softMedian median version < weight := by
      rw [UInt64.lt_iff_toNat_lt, toNat_two_mul hm]
      omega
    have hover : ¬ weight ≤ softMedian median version := by
      rw [UInt64.le_iff_toNat_le]
      omega
    have hnone : getBlockReward median weight coins version = none :=
      (if_neg hover).trans (if_pos hheavy)
    cases hnone.symm.trans h
  obtain ⟨r, hr, heq⟩ := getBlockReward_eq coins hm hw
  obtain rfl := Option.some.inj (hr.symm.trans h)
  rw [heq]
  exact penalizedReward_le (baseReward_pos coins version) hw

/-- The memorial day adds a tenth at most. -/
theorem recomputedReward_le {blockHash : Block → Hash} {tip : ChainTip} {b : Block}
    {weight fee : UInt64} (hpos : tip.alreadyGeneratedCoins ≠ 0)
    (hm : (softMedian tip.cumulWeightMedian tip.hfVersion).toNat < 2 ^ 31)
    (h : recomputedReward blockHash tip b weight fee = some reward) :
    10 * reward.toNat ≤ 11 * (baseReward tip.alreadyGeneratedCoins 13).toNat := by
  obtain ⟨base, hbase, rfl⟩ := Option.map_eq_some_iff.1 h
  have hle := getBlockReward_le hm hbase
  rw [toNat_baseReward (UInt8.le_trans (by decide) tip.mevatrust)] at hle
  rw [toNat_baseReward (by decide)]
  dsimp only
  rw [if_neg hpos]
  split_ifs
  · have hten : base.toNat * 10 % 2 ^ 64 = base.toNat * 10 := Nat.mod_eq_of_lt (by omega)
    have hbonus : (desyBonus base).toNat = base.toNat * 10 / 100 := by
      rw [desyBonus, UInt64.toNat_div, UInt64.toNat_mul]
      exact congrArg (· / 100) hten
    rw [UInt64.toNat_add, hbonus, Nat.mod_eq_of_lt (by omega)]
    omega
  · omega

end

/-- **The counter accounts for every coin** that accepted blocks bring. -/
theorem emission_accounted {F : Type} [FloatArith F] {D : Type} [FloatArith D] [FloatWiden F D]
    {env : Env} {st : Block → RewardState F} {blockHash : Block → Hash} {coins : UInt64}
    {blocks : List MinedBlock} (hpos : coins ≠ 0)
    (h : (emission blockHash).Guarded (fun c x => x.Accepted D env st blockHash c) coins blocks) :
    let out := (emission blockHash).run coins blocks
    out.1.toNat = min (2 ^ 64 - 1) (coins.toNat + (out.2.map (·.1.toNat)).sum) ∧
      (out.2.map (·.2.paid)).sum ≤ (out.2.map fun p => p.1.toNat + p.2.fee.toNat).sum ∧
      ∀ p ∈ out.2, 10 * p.1.toNat ≤ 11 * (baseReward coins 13).toNat := by
  have hstart : 0 < coins.toNat := Nat.pos_of_ne_zero fun h0 => hpos (UInt64.toNat_inj.1 h0)
  refine Machine.run_invariant (emission blockHash) (I := fun c ps =>
    c.toNat = min (2 ^ 64 - 1) (coins.toNat + (ps.map (·.1.toNat)).sum) ∧
      (ps.map (·.2.paid)).sum ≤ (ps.map fun p => p.1.toNat + p.2.fee.toNat).sum ∧
      ∀ p ∈ ps, 10 * p.1.toNat ≤ 11 * (baseReward coins 13).toNat)
    ⟨?_, Nat.le_refl _, fun p hp => absurd hp List.not_mem_nil⟩ ?_ h
  · have := coins.toNat_lt
    simp
    omega
  · rintro c ps x ⟨hcount, hpaid, hle⟩ ⟨rfl, hmedian, hfits, hvalid⟩
    have hne : x.tip.alreadyGeneratedCoins ≠ 0 := by
      intro h0
      simp [h0] at hcount
      omega
    unfold validateMinerTransaction at hvalid
    split at hvalid
    · cases hvalid
    · rename_i reward hreward
      rw [if_neg hne] at hvalid
      split_ifs at hvalid with hsum
      have hnat : x.paid = (reward + x.fee).toNat := by
        rw [MinedBlock.paid, ← toNat_sum_of_lt hfits, not_not.1 hsum]
      rw [UInt64.toNat_add] at hnat
      simp only [emission, hreward, Option.getD_some, List.map_append, List.sum_append,
        List.map_singleton, List.sum_singleton, toNat_addGeneratedCoins, List.mem_append,
        List.mem_singleton]
      refine ⟨by omega, by omega, ?_⟩
      rintro p (hp | rfl)
      · exact hle p hp
      -- the counter has only grown, so the base reward has not
      · have hbound := recomputedReward_le hne hmedian hreward
        rw [toNat_baseReward (by decide)] at hbound ⊢
        dsimp only
        omega

/-- Two templates, one on top of the other, as mined blocks: the tip of the second counts the coins
of the first. -/
def templateBlocks : List MinedBlock :=
  [(100, 1000000), (101, 35184373088830)].flatMap fun (height, alreadyGeneratedCoins) =>
    let request := sampleRequest 0 1000
    let tip := { request.tip with height, alreadyGeneratedCoins }
    (createBlockTemplate sampleEnv none { request with tip }).toList.map fun t =>
      ⟨t.request.tip, t.block, t.cumulativeWeight, t.request.fee⟩

/-- The blocks of both templates are counted. -/
theorem templateBlocks_accounted :
    let out := (emission fun _ => Pod32.single 50).run 1000000 templateBlocks
    out.2.length = 2 ∧ out.1.toNat = min (2 ^ 64 - 1) (1000000 + (out.2.map (·.1.toNat)).sum) :=
  ⟨by decide +kernel, (@emission_accounted ℚ _ ℚ _ _ sampleEnv (fun _ => uptimeState []) _ _ _
    (by decide) (by decide +kernel)).1⟩

end Mevacoin
