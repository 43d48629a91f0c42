import Mevacoin.Frost.ManifestQueue
import Mevacoin.Trust.CoinbaseSafety

/-!
# Splitting the pool in proportion

`build_distribution_outputs` (`pool_distribution.cpp`) multiplies the balance by a reward in 64 bits
before it divides by the total.
-/

namespace Mevacoin.Frost

open Lib

open Trust (ExpectedPayout payoutTotal)

/-! ### The loop in one equation -/

/-- The rewards that the split looks at. -/
def qualifying (rewards : List ExpectedPayout) : List ExpectedPayout :=
  rewards.filter (·.amount ≠ 0)

/-- `total_score`. -/
def totalScore (rewards : List ExpectedPayout) : UInt64 :=
  ((qualifying rewards).map (·.amount)).sum

/-- The share of a reward that is not the last. -/
def wordShare (totalPoolBalance score : UInt64) (r : ExpectedPayout) : UInt64 :=
  totalPoolBalance * r.amount / score

/-- What is left for the last reward. -/
def lastShare (totalPoolBalance allocated : UInt64) : UInt64 :=
  if allocated < totalPoolBalance then totalPoolBalance - allocated else 0

/-- The shares of all rewards, `r` being the last one. -/
def wordShares (totalPoolBalance score : UInt64) (init : List ExpectedPayout) (r : ExpectedPayout)
    (allocated : UInt64) : List (AccountAddress × UInt64) :=
  init.map (fun r => (r.address, wordShare totalPoolBalance score r)) ++
    [(r.address, lastShare totalPoolBalance
      (allocated + (init.map (wordShare totalPoolBalance score)).sum))]

variable (B score : UInt64) (r : ExpectedPayout) {rewards : List ExpectedPayout}

/-- The loop at the last reward. -/
theorem splitPool_last (outputs : List (AccountAddress × UInt64)) (allocated : UInt64) :
    splitPool B score [r] outputs allocated =
      if 0 < lastShare B allocated ∨ outputs = [] then
        outputs ++ [(r.address, lastShare B allocated)]
      else outputs := rfl

/-- The loop at a reward before the last. -/
theorem splitPool_cons {rest : List ExpectedPayout} (hrest : rest ≠ [])
    (outputs : List (AccountAddress × UInt64)) (allocated : UInt64) :
    splitPool B score (r :: rest) outputs allocated =
      if 0 < wordShare B score r ∨ outputs = [] then
        splitPool B score rest (outputs ++ [(r.address, wordShare B score r)])
          (allocated + wordShare B score r)
      else splitPool B score rest outputs allocated := by
  simp only [splitPool, if_neg hrest]
  rfl

theorem wordShares_cons (a : ExpectedPayout) (init : List ExpectedPayout) (r : ExpectedPayout)
    (allocated : UInt64) :
    wordShares B score (a :: init) r allocated = (a.address, wordShare B score a) ::
      wordShares B score init r (allocated + wordShare B score a) := by
  simp only [wordShares, List.map_cons, List.sum_cons, List.cons_append, UInt64.add_assoc]

/-- Behind a first output, the loop appends the shares that are not zero. -/
theorem splitPool_append (init : List ExpectedPayout) (r : ExpectedPayout)
    {outputs : List (AccountAddress × UInt64)} (hne : outputs ≠ []) (allocated : UInt64) :
    splitPool B score (init ++ [r]) outputs allocated =
      outputs ++ (wordShares B score init r allocated).filter (0 < ·.2) := by
  induction init generalizing outputs allocated with
  | nil =>
    have hshares : wordShares B score [] r allocated = [(r.address, lastShare B allocated)] := by
      simp [wordShares]
    rw [List.nil_append, splitPool_last, hshares]
    by_cases hshare : 0 < lastShare B allocated <;> simp [hne, hshare]
  | cons a init ih =>
    rw [List.cons_append, splitPool_cons B score a (by simp), wordShares_cons]
    by_cases hshare : 0 < wordShare B score a
    · rw [if_pos (Or.inl hshare), ih (by simp), List.filter_cons_of_pos (by simpa using hshare),
        List.append_assoc, List.singleton_append]
    · have hzero : wordShare B score a = 0 := by
        simpa [UInt64.pos_iff_ne_zero] using hshare
      rw [if_neg (by simp [hshare, hne]), ih hne,
        List.filter_cons_of_neg (by simpa using hshare), hzero, UInt64.add_zero]

/-- Leave out the zero shares after the first one. -/
def keepShares : List (AccountAddress × UInt64) → List (AccountAddress × UInt64)
  | [] => []
  | s :: rest => s :: rest.filter (0 < ·.2)

/-- **What the split returns.** -/
theorem buildDistributionOutputs_eq {init : List ExpectedPayout} {r : ExpectedPayout} {B : UInt64}
    (hB : 0 < B) (hq : qualifying rewards = init ++ [r]) :
    buildDistributionOutputs rewards B =
      keepShares (wordShares B (totalScore rewards) init r 0) := by
  have hrewards : rewards ≠ [] := by
    rintro rfl
    simp [qualifying] at hq
  have hB0 : B ≠ 0 := UInt64.pos_iff_ne_zero.mp hB
  unfold buildDistributionOutputs
  rw [if_neg (by simp [hrewards, hB0])]
  change splitPool B (totalScore rewards) (qualifying rewards) [] 0 = _
  rw [hq]
  cases init with
  | nil =>
    rw [List.nil_append, splitPool_last]
    simp [wordShares, keepShares]
  | cons a init =>
    rw [List.cons_append, splitPool_cons B _ a (by simp), if_pos (Or.inr rfl), List.nil_append,
      splitPool_append B _ init r (by simp), wordShares_cons, keepShares, List.singleton_append]

/-! ### The sum -/

/-- Qualifying rewards, split at the last one. -/
theorem exists_qualifying (h : ∃ r ∈ rewards, 0 < r.amount) :
    ∃ init r, qualifying rewards = init ++ [r] := by
  obtain ⟨r, hr, hpos⟩ := h
  have hmem : r ∈ qualifying rewards :=
    List.mem_filter.mpr ⟨hr, decide_eq_true (UInt64.pos_iff_ne_zero.mp hpos)⟩
  have hne := List.ne_nil_of_mem hmem
  exact ⟨_, _, (List.dropLast_append_getLast hne).symm⟩

/-- Rewards of nothing add nothing. -/
theorem payoutTotal_qualifying (rewards : List ExpectedPayout) :
    payoutTotal (qualifying rewards) = payoutTotal rewards := by
  refine sum_filter_of_zero fun r _ hr => ?_
  have hzero : r.amount = 0 := by simpa using hr
  rw [hzero]
  rfl

/-- Qualifying rewards are positive. -/
theorem amount_pos_of_qualifying {r : ExpectedPayout} (h : r ∈ qualifying rewards) :
    0 < r.amount.toNat := by
  have hne : r.amount ≠ 0 := of_decide_eq_true (List.mem_filter.mp h).2
  exact UInt64.lt_iff_toNat_lt.mp (UInt64.pos_iff_ne_zero.mpr hne)

/-- The total does not wrap if it fits. -/
theorem toNat_totalScore (h : payoutTotal rewards < 2 ^ 64) :
    (totalScore rewards).toNat = payoutTotal rewards := by
  rw [← payoutTotal_qualifying] at h ⊢
  exact toNat_sum_of_lt h

/-- Outputs with their amounts in the naturals. -/
def inNat (outputs : List (AccountAddress × UInt64)) : List (AccountAddress × ℕ) :=
  outputs.map fun o => (o.1, o.2.toNat)

theorem toNat_wordShare (h : payoutTotal rewards < 2 ^ 64) (B : UInt64) (r : ExpectedPayout) :
    (wordShare B (totalScore rewards) r).toNat =
      B.toNat * r.amount.toNat % 2 ^ 64 / payoutTotal rewards := by
  rw [wordShare, UInt64.toNat_div, UInt64.toNat_mul, toNat_totalScore h]

section Split

variable {rewards init : List ExpectedPayout} {r : ExpectedPayout} {B : UInt64} (hB : 0 < B)
  (hq : qualifying rewards = init ++ [r]) (hsum : payoutTotal rewards < 2 ^ 64)

include hq in
/-- The total of the rewards before the last one, and of the last one. -/
theorem payoutTotal_split : payoutTotal rewards = payoutTotal init + r.amount.toNat := by
  rw [← payoutTotal_qualifying, hq]
  simp [payoutTotal]

include hB hq in
/-- The shares rounded down leave something for the last reward. -/
theorem floors_lt :
    (init.map fun a => B.toNat * a.amount.toNat / payoutTotal rewards).sum < B.toNat := by
  have hmem : r ∈ qualifying rewards := by simp [hq]
  rw [payoutTotal_split hq]
  exact sum_floor_lt (UInt64.lt_iff_toNat_lt.mp hB) (amount_pos_of_qualifying hmem)
    (·.amount.toNat) init

include hsum in
/-- Products that wrap only make shares smaller. -/
theorem wordShare_le_floor (a : ExpectedPayout) :
    (wordShare B (totalScore rewards) a).toNat ≤
      B.toNat * a.amount.toNat / payoutTotal rewards := by
  rw [toNat_wordShare hsum]
  exact Nat.div_le_div_right (Nat.mod_le _ _)

include hB hq hsum

/-- Whatever wraps, the shares before the last one stay below the balance. -/
theorem sum_wordShare_lt :
    (init.map fun a => (wordShare B (totalScore rewards) a).toNat).sum < B.toNat :=
  Nat.lt_of_le_of_lt (List.sum_le_sum fun a _ => wordShare_le_floor hsum a) (floors_lt hB hq)

/-- The last reward gets what is left. -/
theorem toNat_lastShare :
    (lastShare B (0 + (init.map (wordShare B (totalScore rewards))).sum)).toNat =
      B.toNat - (init.map fun a => (wordShare B (totalScore rewards) a).toNat).sum := by
  have hlt := sum_wordShare_lt hB hq hsum
  have hwords := toNat_sum_of_lt (Nat.lt_trans hlt B.toNat_lt)
  have hbelow : (init.map (wordShare B (totalScore rewards))).sum < B := by
    rw [UInt64.lt_iff_toNat_lt, hwords]
    exact hlt
  rw [UInt64.zero_add, lastShare, if_pos hbelow,
    UInt64.toNat_sub_of_le _ _ (UInt64.le_of_lt hbelow), hwords]

/-- The shares the loop computes, in the naturals. -/
theorem inNat_wordShares :
    inNat (wordShares B (totalScore rewards) init r 0) =
      init.map (fun a => (a.address, (wordShare B (totalScore rewards) a).toNat)) ++
        [(r.address,
          B.toNat - (init.map fun a => (wordShare B (totalScore rewards) a).toNat).sum)] := by
  rw [inNat, wordShares, List.map_append, List.map_singleton, toNat_lastShare hB hq hsum,
    List.map_map]
  rfl

end Split

/-- Only zero shares are left out. -/
theorem keepShares_zerosOmitted (l : List (AccountAddress × UInt64)) :
    ZerosOmitted (inNat l) (inNat (keepShares l)) := by
  cases l with
  | nil => exact ⟨List.Sublist.refl _, rfl⟩
  | cons s rest =>
    have hfilter : (inNat rest).filter (0 < ·.2) = inNat (rest.filter (0 < ·.2)) := by
      rw [inNat, List.filter_map]
      rfl
    refine ⟨(List.filter_sublist.cons_cons s).map _, ?_⟩
    change ((s.1, s.2.toNat) :: inNat (rest.filter (0 < ·.2))).filter (0 < ·.2) =
      ((s.1, s.2.toNat) :: inNat rest).filter (0 < ·.2)
    rw [List.filter_cons, List.filter_cons, ← hfilter, List.filter_filter]
    simp only [Bool.and_self]

/-- **The split is exact**, whatever wraps on the way. -/
theorem buildDistributionOutputs_sum {rewards : List ExpectedPayout} {B : UInt64} (hB : 0 < B)
    (hpos : ∃ r ∈ rewards, 0 < r.amount) (hsum : payoutTotal rewards < 2 ^ 64) :
    ((inNat (buildDistributionOutputs rewards B)).map (·.2)).sum = B.toNat := by
  obtain ⟨init, r, hq⟩ := exists_qualifying hpos
  have hlt := sum_wordShare_lt hB hq hsum
  rw [buildDistributionOutputs_eq hB hq, (keepShares_zerosOmitted _).sum_eq,
    inNat_wordShares hB hq hsum, List.map_append, List.sum_append, List.map_map]
  simp only [Function.comp_def, List.map_singleton, List.sum_singleton]
  omega

/-! ### The proportion -/

/-- The parts in proportion: every reward before the last one rounded down, what is left for
the last. -/
def proportionalShares (rewards : List ExpectedPayout) (pool : ℕ) : List (AccountAddress × ℕ) :=
  let floors := (qualifying rewards).dropLast.map fun r =>
    (r.address, pool * r.amount.toNat / payoutTotal rewards)
  floors ++ (qualifying rewards).getLast?.toList.map fun r =>
    (r.address, pool - (floors.map (·.2)).sum)

/-- What the comment of `build_distribution_outputs` promises. -/
structure SplitsPool (rewards : List ExpectedPayout) (B : UInt64) : Prop where
  /-- The outputs add up to the balance. -/
  exact : ((inNat (buildDistributionOutputs rewards B)).map (·.2)).sum = B.toNat
  /-- They are the shares in proportion, some zero ones left out. -/
  proportional : ZerosOmitted (proportionalShares rewards B.toNat)
    (inNat (buildDistributionOutputs rewards B))
  /-- The divisor is not zero. -/
  divisor : totalScore rewards ≠ 0

/-- No product of the balance with a reward before the last one wraps. -/
def ProductsFit (rewards : List ExpectedPayout) (B : UInt64) : Prop :=
  ∀ r ∈ (qualifying rewards).dropLast, B.toNat * r.amount.toNat < 2 ^ 64

section Split

variable {rewards init : List ExpectedPayout} {r : ExpectedPayout} {B : UInt64} (hB : 0 < B)
  (hq : qualifying rewards = init ++ [r]) (hsum : payoutTotal rewards < 2 ^ 64)

include hq in
/-- The proportional shares, and the rest for the last reward. -/
theorem proportionalShares_eq (pool : ℕ) : proportionalShares rewards pool =
      init.map (fun a => (a.address, pool * a.amount.toNat / payoutTotal rewards)) ++
        [(r.address,
          pool - (init.map fun a => pool * a.amount.toNat / payoutTotal rewards).sum)] := by
  simp [proportionalShares, hq, Function.comp_def]

include hq in
/-- The rewards are not all zero. -/
theorem payoutTotal_pos : 0 < payoutTotal rewards := by
  have hmem : r ∈ qualifying rewards := by simp [hq]
  have hr := amount_pos_of_qualifying hmem
  rw [payoutTotal_split hq]
  omega

include hq hsum in
/-- A share is the proportional one exactly if its product does not wrap. -/
theorem wordShare_eq_floor_iff (a : ExpectedPayout) :
    (wordShare B (totalScore rewards) a).toNat =
        B.toNat * a.amount.toNat / payoutTotal rewards ↔
      B.toNat * a.amount.toNat < 2 ^ 64 := by
  rw [toNat_wordShare hsum]
  exact mod_div_eq_iff (payoutTotal_pos hq) (Nat.le_of_lt hsum)

include hB hq hsum

/-- What the split returns, as shares with zeros left out. -/
theorem outputs_zerosOmitted :
    ZerosOmitted
      (init.map (fun a => (a.address, (wordShare B (totalScore rewards) a).toNat)) ++
        [(r.address,
          B.toNat - (init.map fun a => (wordShare B (totalScore rewards) a).toNat).sum)])
      (inNat (buildDistributionOutputs rewards B)) := by
  rw [← inNat_wordShares hB hq hsum, buildDistributionOutputs_eq hB hq]
  exact keepShares_zerosOmitted _

/-- Outputs that are the proportional ones leave as much for the last reward. -/
theorem sum_wordShare_eq
    (hprop : ZerosOmitted (proportionalShares rewards B.toNat)
      (inNat (buildDistributionOutputs rewards B))) :
    (init.map fun a => (wordShare B (totalScore rewards) a).toNat).sum =
      (init.map fun a => B.toNat * a.amount.toNat / payoutTotal rewards).sum := by
  have hwords := sum_wordShare_lt hB hq hsum
  have hfloors := floors_lt hB hq
  have hsame := (outputs_zerosOmitted hB hq hsum).2.symm.trans hprop.2
  rw [proportionalShares_eq hq, List.filter_append, List.filter_append,
    List.filter_cons_of_pos (by simpa using hwords),
    List.filter_cons_of_pos (by simpa using hfloors)] at hsame
  have hlast := (Prod.mk.inj (List.cons.inj (List.append_inj' hsame rfl).2).1).2
  omega

end Split

/-- **The split is exact and proportional exactly when no product wraps** for a reward before
the last one. -/
theorem split_proportional_iff {rewards : List ExpectedPayout} {B : UInt64} (hB : 0 < B)
    (hpos : ∃ r ∈ rewards, 0 < r.amount) (hsum : (rewards.map (·.amount.toNat)).sum < 2 ^ 64) :
    SplitsPool rewards B ↔ ProductsFit rewards B := by
  obtain ⟨init, r, hq⟩ := exists_qualifying hpos
  have hfit : ProductsFit rewards B ↔ ∀ a ∈ init, B.toNat * a.amount.toNat < 2 ^ 64 := by
    rw [ProductsFit, hq, List.dropLast_concat]
  rw [hfit]
  constructor
  · -- a product that wraps would make one share smaller and none larger
    rintro ⟨-, hprop, -⟩ a ha
    by_contra hwrap
    have heq := sum_wordShare_eq hB hq hsum hprop
    have hless := List.sum_lt_sum (fun a => (wordShare B (totalScore rewards) a).toNat)
      (fun a => B.toNat * a.amount.toNat / payoutTotal rewards)
      (fun a _ => wordShare_le_floor hsum a)
      ⟨a, ha, Nat.lt_of_le_of_ne (wordShare_le_floor hsum a)
        (mt (wordShare_eq_floor_iff hq hsum a).mp hwrap)⟩
    omega
  · intro h
    have hshare : ∀ a ∈ init, (wordShare B (totalScore rewards) a).toNat =
        B.toNat * a.amount.toNat / payoutTotal rewards := fun a ha =>
      (wordShare_eq_floor_iff hq hsum a).mpr (h a ha)
    have hlist : init.map (fun a => (a.address, (wordShare B (totalScore rewards) a).toNat)) =
        init.map fun a => (a.address, B.toNat * a.amount.toNat / payoutTotal rewards) :=
      List.map_congr_left fun a ha => by rw [hshare a ha]
    refine ⟨buildDistributionOutputs_sum hB hpos hsum, ?_, ?_⟩
    · rw [proportionalShares_eq hq, ← List.map_congr_left hshare, ← hlist]
      exact outputs_zerosOmitted hB hq hsum
    · intro hzero
      have htotal := payoutTotal_pos hq
      rw [← toNat_totalScore hsum, hzero] at htotal
      exact Nat.lt_irrefl 0 htotal

/-- Three equal rewards of `10¹²`. -/
def evenRewards : List ExpectedPayout :=
  [rewardTo 1 1000000000000, rewardTo 2 1000000000000, rewardTo 3 1000000000000]

/-- Of a balance of `3·10¹²` the first two get 2003764 each, and the last one the rest. -/
theorem evenRewards_misshared :
    0 < (3000000000000 : UInt64) ∧ (∃ r ∈ evenRewards, 0 < r.amount) ∧
      (evenRewards.map (·.amount.toNat)).sum < 2 ^ 64 ∧
      ¬ SplitsPool evenRewards 3000000000000 := by
  have hsum : (evenRewards.map (·.amount.toNat)).sum < 2 ^ 64 := by decide +kernel
  refine ⟨by decide, by decide +kernel, hsum, fun h => ?_⟩
  have hprop := h.proportional.2
  revert hprop
  decide +kernel

/-- The split of the repository's own round trip test fits. -/
theorem testRewards_shared : SplitsPool [rewardTo 1 1000000000, rewardTo 2 2500000000] 3500000000 :=
  (split_proportional_iff (by decide) (by decide +kernel) (by decide +kernel)).mpr
    (by unfold ProductsFit; decide +kernel)

end Mevacoin.Frost
