import Mevacoin.Lib.Records
import Mevacoin.Lib.Rounding
import Mevacoin.Trust.CoinbaseSafety

/-!
# The payout rule from fork 17

`compute_uptime_payouts_v3` (`mevatrust_manager.cpp`) sorts by keys alone, so a wallet with several
nodes is tied with itself, and leaves a welcome bonus without the address that it is paid to.
-/

namespace Mevacoin.Trust

open Lib Std

/-! ### The order on payouts -/

/-- Tied payouts have the same address. -/
theorem address_eq_of_payoutLe {a b : ExpectedPayout} (hab : payoutLe a b) (hba : payoutLe b a) :
    a.address = b.address := by
  obtain hlt | ⟨hspend, hview⟩ := hab
  · obtain hgt | ⟨heq, -⟩ := hba
    · rw [OrientedCmp.gt_of_lt hlt] at hgt
      cases hgt
    · rw [heq, compare_self] at hlt
      cases hlt
  · obtain hlt | ⟨-, hview'⟩ := hba
    · rw [hspend, compare_self] at hlt
      cases hlt
    · have hviews : a.address.viewPublicKey = b.address.viewPublicKey :=
        LawfulEqCmp.eq_of_compare (OrientedCmp.isLE_antisymm hview hview')
      cases ha : a.address
      cases hb : b.address
      rw [ha, hb] at hspend hviews
      exact congrArg₂ AccountAddress.mk hspend hviews

/-- Payouts to one address are tied. -/
theorem payoutLe_of_address_eq {a b : ExpectedPayout} (h : a.address = b.address) :
    payoutLe a b := by
  refine Or.inr ⟨by rw [h], ?_⟩
  rw [h, compare_self]
  rfl

instance : Std.Total payoutLe :=
  ⟨fun a b => by
    cases hc : compare a.address.spendPublicKey b.address.spendPublicKey with
    | lt => exact Or.inl (Or.inl hc)
    | gt => exact Or.inr (Or.inl (OrientedCmp.lt_of_gt hc))
    | eq =>
      have hspend := LawfulEqCmp.eq_of_compare hc
      cases hv : compare a.address.viewPublicKey b.address.viewPublicKey with
      | gt => exact Or.inr (Or.inr ⟨hspend.symm, by rw [OrientedCmp.lt_of_gt hv]; rfl⟩)
      | lt => exact Or.inl (Or.inr ⟨hspend, by rw [hv]; rfl⟩)
      | eq => exact Or.inl (Or.inr ⟨hspend, by rw [hv]; rfl⟩)⟩

instance : IsTrans ExpectedPayout payoutLe :=
  ⟨fun a b c hab hbc => by
    obtain hab | ⟨hab, hab'⟩ := hab
    · obtain hbc | ⟨hbc, -⟩ := hbc
      · exact Or.inl (TransCmp.lt_trans hab hbc)
      · exact Or.inl (hbc ▸ hab)
    · obtain hbc | ⟨hbc, hbc'⟩ := hbc
      · exact Or.inl (hab ▸ hbc)
      · exact Or.inr ⟨hab.trans hbc, TransCmp.isLE_trans hab' hbc'⟩⟩

/-! ### The rule over an enumeration -/

section

variable {F : Type}

variable {D : Type} [FloatArith D] (env : Env) {p : PendingCoinbaseOutput}
  {l : List (NodeRegistryEntry F)} {budget : UInt64} {total : D} {e : ExpectedPayout}

/-- `uptimeWeights` over an enumeration of the eligible entries. -/
def uptimeWeightsOf (D : Type) [FloatArith D] (eng : Engine)
    (entries : List (NodeRegistryEntry F)) (height : UInt64) (hfVersion : UInt8) :
    List (Hash × Bytes × D) :=
  entries.filterMap fun entry =>
    let standing := eng.computeUptimeStanding D entry.nodeId height
    if !standing.eligible || FloatArith.le standing.weight (FloatArith.ofRat 0) then none
    else if hfVersionMevatrustAntisybil ≤ hfVersion ∧
        eng.hasRecentChainProof entry.nodeId height = false then none
    else some (entry.nodeId, entry.walletAddress, standing.weight)

/-- The division of the budget by weight. -/
def sharesOf {D : Type} [FloatArith D] (budget : UInt64) (weights : List (Hash × Bytes × D)) :
    List PendingCoinbaseOutput :=
  let total : D := fsum (weights.map (·.2.2))
  if FloatArith.lt (FloatArith.ofRat 0) total then divide budget total weights else []

/-- `compute_expected_payouts` from fork 17 on, over an enumeration of the eligible entries. -/
def expectedPayoutsOf (D : Type) [FloatArith D] (env : Env) (st : RewardState F)
    (entries : List (NodeRegistryEntry F)) (height totalBlockReward : UInt64) (hfVersion : UInt8) :
    Except String (List ExpectedPayout) :=
  if st.initialized = false then .error "MevaTrust not initialized"
  else
    let welcome := st.distributor.peekWelcomeBonuses height
    if Distributor.isDistributionDue height = false ∧ welcome = [] then .ok []
    else if nodeBudget totalBlockReward = 0 then .ok []
    else resolvePayouts env
      (sharesOf (nodeBudget totalBlockReward)
        (uptimeWeightsOf D st.engine entries height hfVersion) ++ welcome)

/-- The source walks over the registry. -/
theorem computeExpectedPayouts_eq_of [FloatArith F] [FloatWiden F D] (st : RewardState F)
    (height R : UInt64) {hf : UInt8} (h17 : 17 ≤ hf) :
    computeExpectedPayouts D env st height R hf =
      expectedPayoutsOf D env st st.registry.getEligibleNodes height R hf := by
  have hv3 : hfVersionMevatrustUptimeV3 ≤ hf := h17
  unfold computeExpectedPayouts expectedPayoutsOf
  simp only [if_pos hv3]
  rfl

/-! ### Resolving -/

/-- The output has an address that can be paid to. -/
def payable (env : Env) (p : PendingCoinbaseOutput) : Bool :=
  decide (p.walletAddress ≠ []) && (env.parseWalletAddress p.walletAddress).isSome

/-- When an address is resolved. -/
theorem toOption_resolvePayout (p : PendingCoinbaseOutput) :
    (resolvePayout env p).toOption =
      if p.walletAddress = [] then none
      else (env.parseWalletAddress p.walletAddress).map fun a => ⟨a, p.amount⟩ := by
  unfold resolvePayout
  split_ifs with hw
  · rfl
  · cases env.parseWalletAddress p.walletAddress with
    | none => rfl
    | some a => rfl

/-- Payable is resolved. -/
theorem isSome_resolvePayout (p : PendingCoinbaseOutput) :
    (resolvePayout env p).toOption.isSome = payable env p := by
  rw [toOption_resolvePayout, payable]
  split_ifs with hw
  · simp [hw]
  · simp [hw]

/-- A welcome bonus has no address. -/
theorem not_payable_of_bonus {env : Env} {d : Distributor} {height : UInt64}
    (hp : p ∈ d.peekWelcomeBonuses height) : payable env p = false := by
  obtain ⟨kv, -, rfl⟩ := List.mem_map.mp hp
  rfl

/-- The payouts of those outputs that have an address. -/
def resolvedOf (env : Env) (pending : List PendingCoinbaseOutput) : List ExpectedPayout :=
  pending.filterMap fun p => (resolvePayout env p).toOption

/-- **Resolving succeeds if every output has an address**, and sorts what it finds. -/
theorem toOption_resolvePayouts (pending : List PendingCoinbaseOutput) :
    (resolvePayouts env pending).toOption =
      if ∀ p ∈ pending, payable env p = true
      then some ((resolvedOf env pending).insertionSort payoutLe) else none := by
  have hmap : (pending.mapM (resolvePayout env)).toOption =
      if ∀ p ∈ pending, payable env p = true then some (resolvedOf env pending) else none := by
    rw [toOption_mapM, mapM_eq_ite]
    simp only [isSome_resolvePayout]
    rfl
  unfold resolvePayouts
  cases hm : pending.mapM (resolvePayout env) with
  | error e =>
    rw [hm] at hmap
    split_ifs at hmap ⊢
    · cases hmap
    · rfl
  | ok resolved =>
    rw [hm] at hmap
    split_ifs at hmap ⊢
    · rw [← Option.some.inj hmap]
      rfl
    · cases hmap

/-! ### Enumerations -/

/-- In exact arithmetic the fold is the sum. -/
theorem fsum_rat (l : List ℚ) : fsum l = l.sum := by
  rw [List.sum_eq_foldl]
  rfl

/-- In exact arithmetic the total does not depend on the order. -/
theorem fsum_perm {l l' : List ℚ} (h : l.Perm l') : fsum l = fsum l' := by
  rw [fsum_rat, fsum_rat, h.sum_eq]

/-- The weights follow the enumeration. -/
theorem uptimeWeightsOf_perm {l' : List (NodeRegistryEntry F)} (h : l.Perm l') (eng : Engine)
    (height : UInt64) (hf : UInt8) :
    (uptimeWeightsOf D eng l height hf).Perm (uptimeWeightsOf D eng l' height hf) :=
  h.filterMap _

/-- The shares follow the weights. -/
theorem sharesOf_perm {weights weights' : List (Hash × Bytes × ℚ)} (h : weights.Perm weights')
    (budget : UInt64) : (sharesOf budget weights).Perm (sharesOf budget weights') := by
  unfold sharesOf
  rw [fsum_perm (h.map _)]
  dsimp only
  split_ifs
  · exact h.filterMap _
  · exact List.Perm.refl _

/-- What is divided. -/
theorem mem_divide {weights : List (Hash × Bytes × D)} :
    p ∈ divide budget total weights ↔ ∃ w ∈ weights, share budget w.2.2 total ≠ 0 ∧
      p = ⟨w.1, w.2.1, share budget w.2.2 total⟩ := by
  unfold divide
  rw [List.mem_filterMap]
  refine exists_congr fun w => and_congr_right fun _ => ?_
  by_cases hs : share budget w.2.2 total = 0
  · simp [hs]
  · simp [eq_comm]

/-- The share of a weight that comes first comes first. -/
theorem divide_cons {w : Hash × Bytes × D} (hs : share budget w.2.2 total ≠ 0)
    (rest : List (Hash × Bytes × D)) :
    divide budget total (w :: rest) =
      ⟨w.1, w.2.1, share budget w.2.2 total⟩ :: divide budget total rest := by
  simp [divide, hs]

variable (env : Env) (st : RewardState F) (entries : List (NodeRegistryEntry F))
  (height R : UInt64) (hf : UInt8)

/-- What the rule divides among the eligible nodes, with the nodes' addresses. -/
def paidShares : List PendingCoinbaseOutput :=
  sharesOf (nodeBudget R) (uptimeWeightsOf ℚ st.engine entries height hf)

/-- The list is the same for all enumerations of the entries. -/
def OrderFree : Prop :=
  ∀ l₁ l₂ : List (NodeRegistryEntry F), l₁.Perm entries → l₂.Perm entries →
    (expectedPayoutsOf ℚ env st l₁ height R hf).toOption =
      (expectedPayoutsOf ℚ env st l₂ height R hf).toOption

/-- A boundary at which there is something to divide, no bonus is in the way and every node that
is paid has an address. -/
structure Divides : Prop where
  initialized : st.initialized = true
  due : Distributor.isDistributionDue height = true
  noBonus : st.distributor.peekWelcomeBonuses height = []
  budget : nodeBudget R ≠ 0
  addresses : ∀ p ∈ paidShares st entries height R hf, payable env p = true

/-- Nodes of one wallet have the same share. -/
def WalletsAlike : Prop :=
  ∀ p ∈ paidShares st entries height R hf, ∀ q ∈ paidShares st entries height R hf,
    env.parseWalletAddress p.walletAddress = env.parseWalletAddress q.walletAddress →
      p.amount = q.amount

variable {env st entries height R hf}

/-- The paid shares follow the enumeration. -/
theorem paidShares_perm (h : l.Perm entries) :
    (paidShares st l height R hf).Perm (paidShares st entries height R hf) :=
  sharesOf_perm (uptimeWeightsOf_perm h _ _ _) _

/-- Every paid node can come first. -/
theorem exists_enumeration_first (hp : p ∈ paidShares st entries height R hf) :
    ∃ l : List (NodeRegistryEntry F), l.Perm entries ∧
      ∃ r, paidShares st l height R hf = p :: r := by
  unfold paidShares sharesOf at hp
  dsimp only at hp
  split_ifs at hp with hpos
  · obtain ⟨w, hw, hshare, rfl⟩ := mem_divide.mp hp
    obtain ⟨e, he, hweight⟩ := List.mem_filterMap.mp hw
    obtain ⟨front, back, rfl⟩ := List.append_of_mem he
    have hperm : (e :: (front ++ back)).Perm (front ++ e :: back) := List.perm_middle.symm
    have hcons : uptimeWeightsOf ℚ st.engine (e :: (front ++ back)) height hf =
        w :: uptimeWeightsOf ℚ st.engine (front ++ back) height hf :=
      List.filterMap_cons_some hweight
    have htotal := fsum_perm ((uptimeWeightsOf_perm (D := ℚ) hperm st.engine height hf).map (·.2.2))
    refine ⟨e :: (front ++ back), hperm, ?_⟩
    unfold paidShares sharesOf
    rw [htotal]
    rw [if_pos hpos, hcons]
    exact ⟨_, divide_cons hshare _⟩
  · cases hp

/-- Where the rule divides, the outcome is the sorted list of the shares. -/
theorem expectedPayoutsOf_divides (h : Divides env st entries height R hf) (hl : l.Perm entries) :
    (expectedPayoutsOf ℚ env st l height R hf).toOption =
      some ((resolvedOf env (paidShares st l height R hf)).insertionSort payoutLe) := by
  have hall : ∀ p ∈ paidShares st l height R hf, payable env p = true := fun p hp =>
    h.addresses p ((paidShares_perm hl).mem_iff.mp hp)
  unfold expectedPayoutsOf
  simp only [h.initialized, h.noBonus, h.due, Bool.true_eq_false, false_and, if_false,
    if_neg h.budget, List.append_nil]
  rw [toOption_resolvePayouts]
  exact if_pos hall

/-- Outside of that the outcome is the same for all enumerations: nothing, or a failure. -/
theorem expectedPayoutsOf_not_divides (h : ¬ Divides env st entries height R hf)
    {l₁ l₂ : List (NodeRegistryEntry F)} (h₁ : l₁.Perm entries) (h₂ : l₂.Perm entries) :
    (expectedPayoutsOf ℚ env st l₁ height R hf).toOption =
      (expectedPayoutsOf ℚ env st l₂ height R hf).toOption := by
  have hfails : ∀ l : List (NodeRegistryEntry F), l.Perm entries → st.initialized = true →
      ¬ (Distributor.isDistributionDue height = false ∧
        st.distributor.peekWelcomeBonuses height = []) → nodeBudget R ≠ 0 →
      ¬ ∀ p ∈ paidShares st l height R hf ++ st.distributor.peekWelcomeBonuses height,
        payable env p = true := by
    intro l hl hinit hdue hbudget hall
    have hnone : st.distributor.peekWelcomeBonuses height = [] := by
      refine List.eq_nil_iff_forall_not_mem.mpr fun p hp => ?_
      have hpay := hall p (List.mem_append_right _ hp)
      rw [not_payable_of_bonus hp] at hpay
      cases hpay
    refine h ⟨hinit, ?_, hnone, hbudget, fun p hp => ?_⟩
    · cases hd : Distributor.isDistributionDue height with
      | true => rfl
      | false => exact absurd ⟨hd, hnone⟩ hdue
    · exact hall p (List.mem_append_left _ ((paidShares_perm hl).mem_iff.mpr hp))
  unfold expectedPayoutsOf
  dsimp only
  split_ifs with hinit hdue hbudget
  · rfl
  · rfl
  · rfl
  · have hinit' : st.initialized = true := by simpa using hinit
    rw [toOption_resolvePayouts, toOption_resolvePayouts]
    exact (if_neg (hfails l₁ h₁ hinit' hdue hbudget)).trans
      (if_neg (hfails l₂ h₂ hinit' hdue hbudget)).symm

/-- Where a payout comes from. -/
theorem mem_resolvedOf {pending : List PendingCoinbaseOutput} (h : e ∈ resolvedOf env pending) :
    ∃ p ∈ pending,
      env.parseWalletAddress p.walletAddress = some e.address ∧ p.amount = e.amount := by
  obtain ⟨p, hp, he⟩ := List.mem_filterMap.mp h
  rw [toOption_resolvePayout] at he
  split_ifs at he
  obtain ⟨a, ha, rfl⟩ := Option.map_eq_some_iff.mp he
  exact ⟨p, hp, ha, rfl⟩

/-- A payable share has an address. -/
theorem exists_resolved_of_payable (h : payable env p = true) :
    ∃ a, env.parseWalletAddress p.walletAddress = some a ∧
      (resolvePayout env p).toOption = some ⟨a, p.amount⟩ := by
  rw [payable, Bool.and_eq_true, decide_eq_true_iff] at h
  obtain ⟨a, ha⟩ := Option.isSome_iff_exists.mp h.2
  refine ⟨a, ha, ?_⟩
  rw [toOption_resolvePayout, if_neg h.1, ha]
  rfl

/-- Resolving one by one. -/
theorem resolvedOf_cons (h : (resolvePayout env p).toOption = some e)
    (rest : List PendingCoinbaseOutput) : resolvedOf env (p :: rest) = e :: resolvedOf env rest :=
  List.filterMap_cons_some h

/-- Payouts to one address are tied. -/
theorem tied_of_address {a : AccountAddress} (x y : ExpectedPayout)
    (hx : decide (x.address = a) = true) (hy : decide (y.address = a) = true) : payoutLe x y :=
  payoutLe_of_address_eq ((of_decide_eq_true hx).trans (of_decide_eq_true hy).symm)

/-- **The payout list does not depend on the enumeration** of the entries exactly if, where the rule
divides at all, the nodes of one wallet have the same share. -/
theorem payouts_canonical_iff :
    OrderFree env st entries height R hf ↔
      (Divides env st entries height R hf → WalletsAlike env st entries height R hf) := by
  constructor
  · intro hfree hdiv p hp q hq hwallet
    -- list the two nodes first in turn: sorting leaves them first among the nodes of their wallet
    obtain ⟨l₁, h₁, r₁, hr₁⟩ := exists_enumeration_first hp
    obtain ⟨l₂, h₂, r₂, hr₂⟩ := exists_enumeration_first hq
    obtain ⟨a, ha, hpa⟩ := exists_resolved_of_payable (hdiv.addresses p hp)
    obtain ⟨b, hb, hqb⟩ := exists_resolved_of_payable (hdiv.addresses q hq)
    obtain rfl : a = b := Option.some.inj (ha.symm.trans (hwallet.trans hb))
    have hsorted := hfree l₁ l₂ h₁ h₂
    rw [expectedPayoutsOf_divides hdiv h₁, expectedPayoutsOf_divides hdiv h₂, hr₁, hr₂] at hsorted
    have hfilter := congrArg (List.filter fun e => decide (e.address = a))
      (Option.some.inj hsorted)
    rw [filter_insertionSort tied_of_address, filter_insertionSort tied_of_address,
      resolvedOf_cons hpa, resolvedOf_cons hqb, List.filter_cons_of_pos (by simp),
      List.filter_cons_of_pos (by simp)] at hfilter
    exact congrArg ExpectedPayout.amount (List.cons.inj hfilter).1
  · intro h l₁ l₂ h₁ h₂
    by_cases hdiv : Divides env st entries height R hf
    · rw [expectedPayoutsOf_divides hdiv h₁, expectedPayoutsOf_divides hdiv h₂]
      have hshares : (paidShares st l₁ height R hf).Perm (paidShares st l₂ height R hf) :=
        (paidShares_perm h₁).trans (paidShares_perm h₂).symm
      refine congrArg some (insertionSort_eq_of_perm (hshares.filterMap _) ?_)
      intro a ha b hb hab hba
      have haddress := address_eq_of_payoutLe hab hba
      obtain ⟨p, hp, hpa, hpamount⟩ := mem_resolvedOf ha
      obtain ⟨q, hq, hqa, hqamount⟩ := mem_resolvedOf hb
      have hamount := h hdiv p ((paidShares_perm h₁).mem_iff.mp hp) q
        ((paidShares_perm h₁).mem_iff.mp hq) (by rw [hpa, hqa, haddress])
      cases a
      simp_all
    · exact expectedPayoutsOf_not_divides hdiv h₁ h₂

/-- Two nodes of one wallet, the second with four days of uptime. -/
def unequalState : RewardState ℚ :=
  { uptimeState [1, 2] with
    engine := [5, 6, 7, 8].foldl
      (fun eng k => eng.recordChainUptimeSample (Pod32.single 2) (100 + 360 * k) (43200 * k))
      (uptimeState [1, 2]).engine }

/-- Their shares come in the order in which the nodes are listed. -/
theorem unequalState_ordered :
    expectedPayoutsOf ℚ sampleEnv unequalState unequalState.registry.getEligibleNodes 43200 10000
        17 = .ok [samplePayout 100, samplePayout 200] ∧
      expectedPayoutsOf ℚ sampleEnv unequalState unequalState.registry.getEligibleNodes.reverse
        43200 10000 17 = .ok [samplePayout 200, samplePayout 100] := by
  decide +kernel

end

/-! ### Bonuses -/

section

variable {F : Type} [FloatArith F] (D : Type) [FloatArith D] [FloatWiden F D] (env : Env)
  (st : RewardState F) (height R : UInt64) (hf : UInt8)

/-- The call succeeds, pays every matured bonus to the wallet of its node, and stays within 3%. -/
def BonusesPaid : Prop :=
  ∃ L, computeExpectedPayouts D env st height R hf = .ok L ∧
    (∀ b ∈ st.distributor.peekWelcomeBonuses height, ∃ e a,
      st.registry.getNodeById b.nodeId = some e ∧
        env.parseWalletAddress e.walletAddress = some a ∧ ⟨a, b.amount⟩ ∈ L) ∧
    (L.map (·.amount.toNat)).sum ≤ 3 * R.toNat / 100

/-- Every node that gets a share has an address that can be paid to. -/
def SharesAddressed : Prop :=
  ∀ p ∈ sharesOf (nodeBudget R) (uptimeWeights D st height hf), payable env p = true
deriving Decidable

variable {env}

/-- Resolving keeps the amounts. -/
theorem amounts_resolvedOf {pending : List PendingCoinbaseOutput}
    (h : ∀ p ∈ pending, payable env p = true) :
    (resolvedOf env pending).map (·.amount) = pending.map (·.amount) := by
  induction pending with
  | nil => rfl
  | cons p rest ih =>
    obtain ⟨a, -, hp⟩ := exists_resolved_of_payable (h p List.mem_cons_self)
    rw [resolvedOf_cons hp, List.map_cons, List.map_cons,
      ih fun q hq => h q (List.mem_cons_of_mem p hq)]

/-- The payouts add up to what was pending. -/
theorem sum_resolved {pending : List PendingCoinbaseOutput}
    (h : ∀ p ∈ pending, payable env p = true) :
    (((resolvedOf env pending).insertionSort payoutLe).map (·.amount.toNat)).sum =
      (pending.map (·.amount.toNat)).sum := by
  rw [((List.perm_insertionSort payoutLe _).map _).sum_eq]
  have hamounts := congrArg (List.map UInt64.toNat) (amounts_resolvedOf h)
  rw [List.map_map, List.map_map] at hamounts
  exact congrArg List.sum hamounts

/-- A result is a success. -/
theorem toOption_eq_some {ε α : Type} {x : Except ε α} {a : α} :
    x.toOption = some a ↔ x = .ok a := by
  cases x with
  | error | ok => simp [Except.toOption]

variable {D st height R hf}

omit [FloatArith F] [FloatWiden F D] in
/-- The call, where something is divided. -/
theorem expectedPayoutsOf_divided (hinit : st.initialized = true)
    (hempty : ¬ (Distributor.isDistributionDue height = false ∧
      st.distributor.peekWelcomeBonuses height = [])) (hbudget : ¬ nodeBudget R = 0) :
    expectedPayoutsOf D env st st.registry.getEligibleNodes height R hf =
      resolvePayouts env (sharesOf (nodeBudget R) (uptimeWeights D st height hf) ++
        st.distributor.peekWelcomeBonuses height) := by
  simp only [expectedPayoutsOf, hinit, if_neg hempty, if_neg hbudget]
  rfl

/-- Shares that come out zero do not count. -/
theorem sum_divide {budget : UInt64} {total : D} (weights : List (Hash × Bytes × D)) :
    ((divide budget total weights).map (·.amount.toNat)).sum =
      ((weights.map (·.2.2)).map fun w => (share budget w total).toNat).sum := by
  induction weights with
  | nil => rfl
  | cons w rest ih =>
    by_cases hs : share budget w.2.2 total = 0
    · simpa [divide, hs] using ih
    · rw [divide_cons hs]
      simpa using ih

section

variable {u : ℚ} {val : D → ℚ} (hD : FloatArith.Rounds u val)

include hD

/-- A node with two days of uptime has an ordinary weight. -/
theorem weight_of_eligible (hu : u ≤ 1 / 8) {eng : Engine} {n : Hash}
    (h : (eng.computeUptimeStanding D n height).eligible = true) :
    FloatArith.Rounds.Weight val (eng.computeUptimeStanding D n height).weight := by
  have hu0 := hD.error_nonneg
  unfold Engine.computeUptimeStanding at h ⊢
  dsimp only at h ⊢
  split_ifs at h ⊢ with hearly hshort hcap
  · obtain ⟨hlow, hhigh⟩ := hD.ofNat uptimeWeightCapDays (by decide) (by decide)
    have hdays : ((uptimeWeightCapDays : ℕ) : ℚ) = 90 := by norm_num [uptimeWeightCapDays]
    rw [hdays] at hlow hhigh
    exact ⟨by nlinarith, by nlinarith⟩
  · generalize (Engine.creditPairs (height - uptimeWindowBlocks) height _).1 = credit at *
    have hmin : 172800 ≤ credit.toNat := UInt64.le_iff_toNat_le.1 (UInt64.not_lt.1 hshort)
    have hmax := credit.toNat_lt
    obtain ⟨hlow, hhigh⟩ := hD.ofNat credit.toNat (by omega) hmax
    obtain ⟨hday, hday'⟩ := hD.ofRat 86400 ⟨by norm_num, by norm_num⟩
    have hmin' : (172800 : ℚ) ≤ credit.toNat := by exact_mod_cast hmin
    have hmax' : (credit.toNat : ℚ) ≤ 2 ^ 64 := by exact_mod_cast hmax.le
    generalize (FloatArith.ofNat credit.toNat : D) = c at *
    generalize (FloatArith.ofRat 86400 : D) = day at *
    have hc : 151200 ≤ val c := by nlinarith
    have hc' : val c ≤ 2 * 2 ^ 64 := by nlinarith
    have hpos : 75600 ≤ val day := by nlinarith
    have hle : val day ≤ 97200 := by nlinarith
    have hq : 3 / 2 ≤ val c / val day := (le_div_iff₀ (by linarith)).2 (by linarith)
    have hq' : val c / val day ≤ 2 ^ 64 := (div_le_iff₀ (by linarith)).2 (by nlinarith)
    obtain ⟨hge, hle'⟩ := hD.div c day (by linarith) (by linarith)
      ⟨by linarith, by norm_num at hq' ⊢; linarith⟩
    exact ⟨by nlinarith, by nlinarith⟩

omit [FloatArith F] [FloatWiden F D] in
/-- **The shares stay within the budget**, if the roundings together stay below one unit. -/
theorem sum_sharesOf_le (hbudget : nodeBudget R ≠ 0)
    (hn : st.registry.getEligibleNodes.length < 2 ^ 64)
    (hu : u * (st.registry.getEligibleNodes.length + 4) * ((nodeBudget R).toNat + 1) < 1) :
    ((sharesOf (nodeBudget R) (uptimeWeights D st height hf)).map (·.amount.toNat)).sum ≤
      (nodeBudget R).toNat := by
  have hu0 := hD.error_nonneg
  have hb : 0 < (nodeBudget R).toNat :=
    Nat.pos_of_ne_zero fun h0 => hbudget (UInt64.toNat_inj.1 h0)
  have hb' : (1 : ℚ) ≤ (nodeBudget R).toNat := by exact_mod_cast hb
  have hlen : (uptimeWeights D st height hf).length ≤ st.registry.getEligibleNodes.length :=
    List.length_filterMap_le ..
  have hlen' : ((uptimeWeights D st height hf).length : ℚ) ≤
      st.registry.getEligibleNodes.length := by exact_mod_cast hlen
  have hcount : (0 : ℚ) ≤ (uptimeWeights D st height hf).length := Nat.cast_nonneg _
  have hfour : u * 4 ≤ u * (st.registry.getEligibleNodes.length + 4) := by nlinarith
  have heighth : u ≤ 1 / 8 := by nlinarith
  have hweights : ∀ w ∈ (uptimeWeights D st height hf).map (·.2.2),
      FloatArith.Rounds.Weight val w := by
    intro w hw
    obtain ⟨row, hrow, rfl⟩ := List.mem_map.1 hw
    obtain ⟨e, -, he⟩ := List.mem_filterMap.1 hrow
    dsimp only at he
    split_ifs at he with hineligible
    obtain rfl := Option.some.inj he
    simp only [Bool.or_eq_true, Bool.not_eq_true', not_or, Bool.not_eq_false] at hineligible
    exact weight_of_eligible hD heighth hineligible.1
  unfold sharesOf
  dsimp only
  split_ifs
  · rw [sum_divide]
    refine hD.sum_shares_le hweights ?_ hb (nodeBudget R).toNat_lt ?_
    · rw [List.length_map]
      omega
    · rw [List.length_map]
      refine LE.le.trans_lt ?_ hu
      gcongr
  · exact Nat.zero_le _

omit [FloatArith F] [FloatWiden F D] in
/-- Without bonuses the call succeeds within 3% exactly if the nodes have addresses. -/
theorem sharesAddressed_iff (hbudget : nodeBudget R ≠ 0)
    (hn : st.registry.getEligibleNodes.length < 2 ^ 64)
    (hu : u * (st.registry.getEligibleNodes.length + 4) * ((nodeBudget R).toNat + 1) < 1) :
    SharesAddressed D env st height R hf ↔
      ∃ L, resolvePayouts env (sharesOf (nodeBudget R) (uptimeWeights D st height hf)) = .ok L ∧
        (L.map (·.amount.toNat)).sum ≤ 3 * R.toNat / 100 := by
  have hoption := toOption_resolvePayouts env
    (sharesOf (nodeBudget R) (uptimeWeights D st height hf))
  constructor
  · intro hall
    unfold SharesAddressed at hall
    rw [if_pos hall] at hoption
    refine ⟨_, toOption_eq_some.mp hoption, ?_⟩
    rw [sum_resolved hall]
    exact (sum_sharesOf_le hD hbudget hn hu).trans (toNat_nodeBudget_le R)
  · rintro ⟨L, hL, -⟩
    rw [toOption_eq_some.mpr hL] at hoption
    split_ifs at hoption with hall
    exact hall

end

omit [FloatArith F] in
/-- With a bonus in the list the call fails. -/
theorem resolvePayouts_bonus_ne_ok (pending : List PendingCoinbaseOutput)
    (hbonus : st.distributor.peekWelcomeBonuses height ≠ []) (L : List ExpectedPayout) :
    resolvePayouts env (pending ++ st.distributor.peekWelcomeBonuses height) ≠ .ok L := by
  intro hL
  obtain ⟨b, hb⟩ := List.exists_mem_of_ne_nil _ hbonus
  rw [← toOption_eq_some, toOption_resolvePayouts] at hL
  split_ifs at hL with hall
  have hpay := hall b (List.mem_append_right _ hb)
  rw [not_payable_of_bonus hb] at hpay
  cases hpay

end

/-- A node with uptime and a bonus that has matured. -/
def bonusState : RewardState ℚ :=
  { uptimeState [1] with
    distributor := ({} : Distributor).scheduleWelcomeBonus (Pod32.single 1) 43000 25 }

end Mevacoin.Trust
