import Mevacoin.Keys

/-!
# The block reward

`get_block_reward` (`src/cryptonote_basic/cryptonote_basic_impl.cpp`) and the memorial bonus of
`src/cryptonote_core/desy.h`.
-/

namespace Mevacoin

open Lib

/-- `get_min_block_weight`. -/
def getMinBlockWeight (version : UInt8) : UInt64 :=
  if version < 2 then 20000 else if version < 5 then 60000 else 300000

/-- `DIFFICULTY_TARGET_V1`, `DIFFICULTY_TARGET_V2` in minutes. -/
def targetMinutes (version : UInt8) : UInt64 := if version < 2 then 1 else 2

/-- `FINAL_SUBSIDY_PER_MINUTE`. -/
def finalSubsidyPerMinute : UInt64 := 300000000000

/-- The reward before the weight is looked at: the emission speed is 20 bits for a one-minute
target. -/
def baseReward (alreadyGeneratedCoins : UInt64) (version : UInt8) : UInt64 :=
  let base := (0xFFFFFFFFFFFFFFFF - alreadyGeneratedCoins) >>> (20 - (targetMinutes version - 1))
  let floor := finalSubsidyPerMinute * targetMinutes version
  if base < floor then floor else base

/-- `get_block_reward`; `none` is its `false`.  The product is 128 bits wide, the
multiplicand is not. -/
def getBlockReward (medianWeight currentBlockWeight alreadyGeneratedCoins : UInt64)
    (version : UInt8) : Option UInt64 :=
  let base := baseReward alreadyGeneratedCoins version
  let zone := getMinBlockWeight version
  let median := if medianWeight < zone then zone else medianWeight
  if currentBlockWeight ≤ median then some base
  else if 2 * median < currentBlockWeight then none
  else
    let multiplicand := (2 * median - currentBlockWeight) * currentBlockWeight
    let product := base.toNat * multiplicand.toNat
    some (UInt64.ofNat (product / median.toNat / median.toNat))

/-- Within the median there is no penalty. -/
theorem getBlockReward_of_le {median weight coins : UInt64} {version : UInt8}
    (h : weight ≤ median ∨ weight ≤ getMinBlockWeight version) :
    getBlockReward median weight coins version = some (baseReward coins version) := by
  unfold getBlockReward
  rw [if_pos]
  split_ifs with hz
  · rcases h with h | h
    · exact UInt64.le_trans h (UInt64.le_of_lt hz)
    · exact h
  · rcases h with h | h
    · exact h
    · exact UInt64.le_trans h (UInt64.not_lt.1 hz)

/-! ### The penalty -/

/-- The median `get_block_reward` works with: raised to the full reward zone. -/
def softMedian (medianWeight : UInt64) (version : UInt8) : UInt64 :=
  if medianWeight < getMinBlockWeight version then getMinBlockWeight version else medianWeight

/-- What is left of a base reward at median `m` and weight `w`, in whole numbers. -/
def penalizedReward (base m w : ℕ) : ℕ :=
  if w ≤ m then base else base * (w * (2 * m - w)) / m / m

section

variable {base m w w' : ℕ}

/-- `w (2m - w)` falls from the median on. -/
theorem multiplicand_le (hmw : m ≤ w) (hww : w ≤ w') (hw' : w' ≤ 2 * m) :
    w' * (2 * m - w') ≤ w * (2 * m - w) := by
  obtain ⟨i, rfl⟩ := Nat.exists_eq_add_of_le hmw
  obtain ⟨j, rfl⟩ := Nat.exists_eq_add_of_le hww
  have hle : i + j ≤ m := by omega
  obtain ⟨k, rfl⟩ := Nat.exists_eq_add_of_le hle
  rw [show 2 * (i + j + k) - (i + j + k + i + j) = k by omega,
    show 2 * (i + j + k) - (i + j + k + i) = j + k by omega]
  exact Nat.le.intro (k := 2 * i * j + j * j) (by ring)

/-- The penalty bites. -/
theorem multiplicand_lt (hmw : m < w) (hw : w ≤ 2 * m) : w * (2 * m - w) < m * m := by
  obtain ⟨i, rfl⟩ := Nat.exists_eq_add_of_lt hmw
  obtain ⟨k, rfl⟩ := Nat.exists_eq_add_of_le (show i + 1 ≤ m by omega)
  have hsquare : (i + 1 + k) * (i + 1 + k) = (i + 1 + k + i + 1) * k + (i + 1) * (i + 1) := by ring
  rw [show 2 * (i + 1 + k) - (i + 1 + k + i + 1) = k by omega, hsquare]
  exact Nat.lt_add_of_pos_right (Nat.mul_pos i.succ_pos i.succ_pos)

/-- A penalized reward is smaller. -/
theorem penalizedReward_lt (hbase : 0 < base) (hmw : m < w) (hw : w ≤ 2 * m) :
    penalizedReward base m w < base := by
  rw [penalizedReward, if_neg (Nat.not_le.mpr hmw), Nat.div_div_eq_div_mul]
  refine Nat.div_lt_of_lt_mul ?_
  rw [Nat.mul_comm (m * m)]
  exact Nat.mul_lt_mul_of_pos_left (multiplicand_lt hmw hw) hbase

/-- No penalty raises the reward. -/
theorem penalizedReward_le (hbase : 0 < base) (hw : w ≤ 2 * m) :
    penalizedReward base m w ≤ base := by
  by_cases hmw : w ≤ m
  · rw [penalizedReward, if_pos hmw]
  · exact (penalizedReward_lt hbase (Nat.not_le.mp hmw) hw).le

/-- The heavier the block, the smaller the reward. -/
theorem penalizedReward_antitone (hbase : 0 < base) (hww : w ≤ w') (hw' : w' ≤ 2 * m) :
    penalizedReward base m w' ≤ penalizedReward base m w := by
  by_cases hmw : w ≤ m
  · rw [penalizedReward.eq_1 base m w, if_pos hmw]
    exact penalizedReward_le hbase hw'
  · rw [penalizedReward, penalizedReward, if_neg hmw, if_neg (by omega)]
    have hle := multiplicand_le (Nat.le_of_not_le hmw) hww hw'
    exact Nat.div_le_div_right (Nat.div_le_div_right (Nat.mul_le_mul_left base hle))

end

/-- There is always a reward. -/
theorem baseReward_pos (coins : UInt64) (version : UInt8) :
    0 < (baseReward coins version).toNat := by
  have hfloor : 0 < (finalSubsidyPerMinute * targetMinutes version).toNat := by
    unfold targetMinutes
    split_ifs <;> decide
  unfold baseReward
  dsimp only
  split_ifs with h
  · exact hfloor
  · exact Nat.lt_of_lt_of_le hfloor (UInt64.le_iff_toNat_le.mp (UInt64.not_lt.mp h))

section

variable {m median weight : UInt64} (coins : UInt64) {version : UInt8}

theorem toNat_two_mul (hm : m.toNat < 2 ^ 31) : (2 * m).toNat = 2 * m.toNat := by
  exact Nat.mod_eq_of_lt (by change 2 * m.toNat < 2 ^ 64; omega)

/-- Up to a median of 31 bits the multiplicand is not reduced. -/
theorem toNat_multiplicand (hm : m.toNat < 2 ^ 31) (hw : weight.toNat ≤ 2 * m.toNat) :
    ((2 * m - weight) * weight).toNat = weight.toNat * (2 * m.toNat - weight.toNat) := by
  have htwice := toNat_two_mul hm
  have hdiff : (2 * m - weight).toNat = 2 * m.toNat - weight.toNat := by
    rw [UInt64.toNat_sub_of_le, htwice]
    rw [UInt64.le_iff_toNat_le, htwice]
    exact hw
  have hprod : weight.toNat * (2 * m.toNat - weight.toNat) < 2 ^ 32 * 2 ^ 32 :=
    Nat.mul_lt_mul'' (by omega) (by omega)
  rw [UInt64.toNat_mul, hdiff, Nat.mul_comm]
  exact Nat.mod_eq_of_lt hprod

/-- `get_block_reward` in whole numbers. -/
theorem getBlockReward_eq (hm : (softMedian median version).toNat < 2 ^ 31)
    (hw : weight.toNat ≤ 2 * (softMedian median version).toNat) :
    ∃ r, getBlockReward median weight coins version = some r ∧
      r.toNat = penalizedReward (baseReward coins version).toNat
        (softMedian median version).toNat weight.toNat := by
  have hpos := baseReward_pos coins version
  have hlt := (baseReward coins version).toNat_lt
  have hle := penalizedReward_le hpos hw
  have hcases : getBlockReward median weight coins version =
      if weight ≤ softMedian median version then some (baseReward coins version)
      else if 2 * softMedian median version < weight then none
      else some (UInt64.ofNat ((baseReward coins version).toNat *
        ((2 * softMedian median version - weight) * weight).toNat /
          (softMedian median version).toNat / (softMedian median version).toNat)) := rfl
  rw [hcases, toNat_multiplicand hm hw]
  unfold penalizedReward at hle ⊢
  by_cases hwm : weight ≤ softMedian median version
  · rw [if_pos hwm, if_pos (UInt64.le_iff_toNat_le.mp hwm)]
    exact ⟨_, rfl, rfl⟩
  · have hwm' : ¬ weight.toNat ≤ (softMedian median version).toNat :=
      fun h => hwm (UInt64.le_iff_toNat_le.mpr h)
    rw [if_neg hwm'] at hle ⊢
    rw [if_neg hwm, if_neg]
    · exact ⟨_, rfl, UInt64.toNat_ofNat_of_lt' (Nat.lt_of_le_of_lt hle hlt)⟩
    · rw [UInt64.not_lt, UInt64.le_iff_toNat_le, toNat_two_mul hm]
      exact hw

end

/-- **The penalty of a heavy block**, up to twice a median of 31 bits: the reward is the base,
lowered above the median, and a heavier block never earns more. -/
theorem blockReward_penalty (median weight coins : UInt64) (version : UInt8)
    (hm : (softMedian median version).toNat < 2 ^ 31)
    (hw : weight.toNat ≤ 2 * (softMedian median version).toNat) :
    ((2 * softMedian median version - weight) * weight).toNat =
        weight.toNat * (2 * (softMedian median version).toNat - weight.toNat) ∧
      ∃ r, getBlockReward median weight coins version = some r ∧
        r.toNat = penalizedReward (baseReward coins version).toNat
          (softMedian median version).toNat weight.toNat ∧
        r ≤ baseReward coins version ∧
        (softMedian median version < weight → r < baseReward coins version) ∧
        ∀ weight' r', weight ≤ weight' → weight'.toNat ≤ 2 * (softMedian median version).toNat →
          getBlockReward median weight' coins version = some r' → r' ≤ r := by
  have hpos := baseReward_pos coins version
  obtain ⟨r, hr, heq⟩ := getBlockReward_eq coins hm hw
  refine ⟨toNat_multiplicand hm hw, r, hr, heq, ?_, ?_, ?_⟩
  · rw [UInt64.le_iff_toNat_le, heq]
    exact penalizedReward_le hpos hw
  · intro hlt
    rw [UInt64.lt_iff_toNat_lt] at hlt ⊢
    rw [heq]
    exact penalizedReward_lt hpos hlt hw
  · intro weight' r' hww hw' hr'
    obtain ⟨r'', hr'', heq'⟩ := getBlockReward_eq coins hm hw'
    obtain rfl : r'' = r' := Option.some.inj (hr''.symm.trans hr')
    rw [UInt64.le_iff_toNat_le, heq, heq']
    exact penalizedReward_antitone hpos (UInt64.le_iff_toNat_le.mp hww) hw'

/-- One and a half times the full reward zone: three quarters of the base. -/
theorem half_over_median :
    ((2 * softMedian 0 17 - 450000) * 450000).toNat = 67500000000 ∧
      ∃ r, getBlockReward 0 450000 0 17 = some r ∧ r.toNat = 26388279066623 := by
  obtain ⟨hmul, r, hr, heq, -⟩ := blockReward_penalty 0 450000 0 17 (by decide) (by decide)
  exact ⟨hmul, r, hr, heq.trans (by decide +kernel)⟩

/-! ### The memorial day -/

/-- Month and day of a number of days since 1970-01-01, as `gmtime_r` gives them. -/
def civilMonthDay (days : ℕ) : ℕ × ℕ :=
  let z := days + 719468
  let doe := z % 146097
  let yoe := (doe - doe / 1460 + doe / 36524 - doe / 146096) / 365
  let doy := doe - (365 * yoe + yoe / 4 - yoe / 100)
  let mp := (5 * doy + 2) / 153
  (if mp < 10 then mp + 3 else mp - 9, doy - (153 * mp + 2) / 5 + 1)

/-- `is_desy_memorial_day`: 18 December, UTC. -/
def isDesyMemorialDay (ts : UInt64) : Bool := civilMonthDay (ts.toNat / 86400) = (12, 18)

example : isDesyMemorialDay 1734480000 = true := by decide

/-- `DESY_BONUS_PERCENT`. -/
def desyBonusPercent : UInt64 := 10

/-- The bonus on a reward. -/
def desyBonus (reward : UInt64) : UInt64 := reward * desyBonusPercent / 100

/-- `desy_qualifies_for_bonus`: the first eight octets of the hash, modulo 100. -/
def desyQualifiesForBonus (blockHash : Hash) : Bool := ofLeBytes (blockHash.data.take 8) % 100 < 10

end Mevacoin
