import Mevacoin.Lib.Collect
import Mevacoin.Transaction
import Mevacoin.Trust.Engine

/-!
# Who is paid: the 3% rule

`compute_expected_payouts` and `compute_uptime_payouts_v3` (`mevatrust_manager.cpp`), with the parts
of `reward_distributor.cpp` they read.
-/

namespace Mevacoin.Trust

open Lib Std

/-- What the MevaTrust code takes from the rest of the daemon: the hash and signature check, the
base58 codec of wallet addresses, and the pool address. -/
structure Env where
  crypto : Crypto
  /-- `parse_wallet_address`. -/
  parseWalletAddress : Bytes → Option AccountAddress
  /-- `get_pool_address`. -/
  poolAddress : AccountAddress

/-- `PendingCoinbaseOutput`; the node id as a hash, not as its hexadecimal form. -/
structure PendingCoinbaseOutput where
  nodeId : Hash
  walletAddress : Bytes
  amount : UInt64
deriving DecidableEq

/-- `MevaTrustManager::expected_payout`. -/
structure ExpectedPayout where
  address : AccountAddress
  amount : UInt64
deriving DecidableEq

/-- One row of the welcome table. -/
structure WelcomeBonus where
  amount : UInt64
  maturityHeight : UInt64
deriving DecidableEq

/-- `PoolState`: the pool account as it is written to LMDB. -/
structure PoolState where
  poolBalance : UInt64
  totalDistributed : UInt64
  lastDistributionHeight : UInt64
  distributionCount : UInt32
deriving DecidableEq

/-- `RewardDistributor`: the pool account and the welcome table. -/
structure Distributor where
  poolBalance : UInt64 := 0
  totalDistributed : UInt64 := 0
  lastDistributionHeight : UInt64 := 0
  distributionCount : UInt32 := 0
  /-- The row of `DB_MT_POOL`. -/
  saved : Option PoolState := none
  /-- `DB_MT_WELCOME`, in key order. -/
  welcome : ExtTreeMap Hash WelcomeBonus := ∅
  /-- `m_pending_outputs`. -/
  pendingOutputs : List PendingCoinbaseOutput := []

namespace Distributor

/-- Whether a bonus has matured at a height; height 0 means every bonus. -/
def matured (currentHeight : UInt64) (w : WelcomeBonus) : Bool :=
  !(0 < currentHeight && currentHeight < w.maturityHeight)

/-- `peek_welcome_bonuses`. -/
def peekWelcomeBonuses (d : Distributor) (currentHeight : UInt64) : List PendingCoinbaseOutput :=
  (d.welcome.toList.filter fun kv => matured currentHeight kv.2).map
    fun kv => ⟨kv.1, [], kv.2.amount⟩

/-- `is_distribution_due`. -/
def isDistributionDue (currentHeight : UInt64) : Bool :=
  0 < currentHeight && currentHeight % distributionPeriodBlocks = 0

/-- `schedule_welcome_bonus`. -/
def scheduleWelcomeBonus (d : Distributor) (n : Hash) (maturityHeight amount : UInt64) :
    Distributor :=
  { d with welcome := d.welcome.insert n ⟨amount, maturityHeight⟩ }

/-- Take the matured bonuses out of the written account and out of the one in memory. -/
def deductWelcome (d : Distributor) (total currentHeight : UInt64) : Distributor :=
  match d.saved with
  | none => d
  | some ps =>
    let deduct := min total ps.poolBalance
    let ps : PoolState := ⟨ps.poolBalance - deduct, ps.totalDistributed + deduct, currentHeight,
      ps.distributionCount + 1⟩
    let actual := min deduct d.poolBalance
    { d with
      poolBalance := d.poolBalance - actual
      totalDistributed := d.totalDistributed + actual
      lastDistributionHeight := ps.lastDistributionHeight
      distributionCount := ps.distributionCount
      saved := some ps }

/-- `process_welcome_bonuses`: what `peek_welcome_bonuses` lists, removed from the table. -/
def processWelcomeBonuses (d : Distributor) (currentHeight : UInt64) :
    List PendingCoinbaseOutput × Distributor :=
  let outputs := d.peekWelcomeBonuses currentHeight
  let total : UInt64 := (outputs.map (·.amount)).sum
  let d := { d with welcome := d.welcome.filter fun _ w => !matured currentHeight w }
  (outputs, if 0 < total then d.deductWelcome total currentHeight else d)

end Distributor

/-- The parts of the manager that the payouts are computed from. -/
structure RewardState (F : Type) where
  /-- `m_initialized`. -/
  initialized : Bool := true
  registry : NodeRegistry F := {}
  engine : Engine := {}
  distributor : Distributor := {}

/-- `MIN_SCORE_FOR_REWARD`. -/
def minScoreForReward {F : Type} [FloatArith F] : F := FloatArith.ofRat (1 / 2)

/-- `HF_VERSION_MEVATRUST_UPTIME_V3`. -/
def hfVersionMevatrustUptimeV3 : UInt8 := 17

/-- The canonical order of payouts: spend key, then view key. -/
def payoutLe (a b : ExpectedPayout) : Prop :=
  compare a.address.spendPublicKey b.address.spendPublicKey = .lt ∨
    a.address.spendPublicKey = b.address.spendPublicKey ∧
      (compare a.address.viewPublicKey b.address.viewPublicKey).isLE = true
deriving Decidable

/-- The payout of a pending output whose address is known. -/
def resolvePayout (env : Env) (pco : PendingCoinbaseOutput) : Except String ExpectedPayout :=
  if pco.walletAddress = [] then .error "no wallet address on chain for a node due a payout"
  else
    match env.parseWalletAddress pco.walletAddress with
    | none => .error "unparseable wallet address on chain"
    | some a => .ok ⟨a, pco.amount⟩

/-- Resolve every pending output and put the result into canonical order. -/
def resolvePayouts (env : Env) (pending : List PendingCoinbaseOutput) :
    Except String (List ExpectedPayout) := do
  let resolved ← pending.mapM (resolvePayout env)
  return resolved.insertionSort payoutLe

/-- Every payout is a pending output with a known address. -/
theorem mem_resolvePayouts {env : Env} {pending : List PendingCoinbaseOutput}
    {L : List ExpectedPayout} (h : resolvePayouts env pending = .ok L) {e : ExpectedPayout}
    (he : e ∈ L) : ∃ p ∈ pending, p.walletAddress ≠ [] ∧ p.amount = e.amount := by
  unfold resolvePayouts at h
  cases hr : pending.mapM (resolvePayout env) with
  | error err => simp [hr] at h
  | ok resolved =>
    obtain rfl : resolved.insertionSort payoutLe = L := by
      simpa [hr, bind, Except.bind, pure, Except.pure] using h
    obtain ⟨p, hp, hok⟩ := mem_of_mapM_ok hr ((List.mem_insertionSort _).1 he)
    unfold resolvePayout at hok
    split_ifs at hok with hw
    split at hok
    · simp at hok
    · obtain rfl := Except.ok.inj hok
      exact ⟨p, hp, hw, rfl⟩

/-- The share of a weight in the budget, truncated. -/
def share {D : Type} [FloatArith D] (budget : UInt64) (weight total : D) : UInt64 :=
  FloatArith.trunc (FloatArith.div (FloatArith.mul (FloatArith.ofNat budget.toNat) weight) total)

/-- The pending outputs of a division: truncated shares, those that come out zero left
out. -/
def divide {D : Type} [FloatArith D] (budget : UInt64) (total : D)
    (weights : List (Hash × Bytes × D)) : List PendingCoinbaseOutput :=
  weights.filterMap fun w =>
    let s := share budget w.2.2 total
    if s = 0 then none else some ⟨w.1, w.2.1, s⟩

theorem amount_ne_zero_of_mem_divide {D : Type} [FloatArith D] {budget : UInt64} {total : D}
    {weights : List (Hash × Bytes × D)} {p : PendingCoinbaseOutput}
    (h : p ∈ divide budget total weights) : p.amount ≠ 0 := by
  obtain ⟨w, -, hw⟩ := List.mem_filterMap.1 h
  simp only at hw
  split_ifs at hw with hs
  obtain rfl := Option.some.inj hw
  exact hs

section

variable {F : Type} [FloatArith F]

/-- The nodes paid from fork 17, with their weights: eligible, and from 18 with a recent chain
proof. -/
def uptimeWeights (D : Type) [FloatArith D] (st : RewardState F) (height : UInt64)
    (hfVersion : UInt8) : List (Hash × Bytes × D) :=
  st.registry.getEligibleNodes.filterMap fun entry =>
    let standing := st.engine.computeUptimeStanding D entry.nodeId height
    if !standing.eligible || FloatArith.le standing.weight (FloatArith.ofRat 0) then none
    else if hfVersionMevatrustAntisybil ≤ hfVersion ∧
        st.engine.hasRecentChainProof entry.nodeId height = false then none
    else some (entry.nodeId, entry.walletAddress, standing.weight)

/-- `compute_uptime_payouts_v3`. -/
def computeUptimePayoutsV3 (D : Type) [FloatArith D] (env : Env) (st : RewardState F)
    (height budget : UInt64) (hfVersion : UInt8) (welcome : List PendingCoinbaseOutput) :
    Except String (List ExpectedPayout) :=
  let weights := uptimeWeights D st height hfVersion
  let total : D := fsum (weights.map (·.2.2))
  let shares :=
    if FloatArith.lt (FloatArith.ofRat 0) total then divide budget total weights else []
  -- a welcome bonus still has no address here
  resolvePayouts env (shares ++ welcome)

/-- A pending output with the address its node has in the registry. -/
def withRegistryAddress (r : NodeRegistry F) (pco : PendingCoinbaseOutput) :
    PendingCoinbaseOutput :=
  if pco.walletAddress = [] then
    match r.getNodeById pco.nodeId with
    | some e => { pco with walletAddress := e.walletAddress }
    | none => pco
  else pco

/-- The part of `compute_expected_payouts` for forks up to 16. -/
def computeScorePayouts (D : Type) [FloatArith D] [FloatWiden F D] (env : Env)
    (st : RewardState F) (budget : UInt64) (welcome : List PendingCoinbaseOutput) :
    Except String (List ExpectedPayout) :=
  let scores := st.engine.calculateAllScores st.registry
  let total : F := fsum ((scores.filter fun kv => FloatArith.le minScoreForReward kv.2).map (·.2))
  if FloatArith.le total (FloatArith.ofRat 0) then .ok []
  else
    let weights : List (Hash × Bytes × D) :=
      (scores.filter fun kv => !FloatArith.lt kv.2 minScoreForReward).map fun kv =>
        (kv.1, [], FloatWiden.widen kv.2)
    let pending := divide budget (FloatWiden.widen total : D) weights ++ welcome
    resolvePayouts env (pending.map (withRegistryAddress st.registry))

/-- `distribute_rewards`: the pool divided by score; the account is written to LMDB. -/
def Distributor.distributeRewards (D : Type) [FloatArith D] [FloatWiden F D] (d : Distributor)
    (eng : Engine) (r : NodeRegistry F) : Distributor :=
  let scores := eng.calculateAllScores r
  let total : F := fsum ((scores.filter fun kv => FloatArith.le minScoreForReward kv.2).map (·.2))
  if d.poolBalance = 0 ∨ scores = [] ∨ FloatArith.le total (FloatArith.ofRat 0) then d
  else
    let weights : List (Hash × Bytes × D) :=
      (scores.filter fun kv => !FloatArith.lt kv.2 minScoreForReward).map fun kv =>
        (kv.1, [], FloatWiden.widen kv.2)
    let pending := divide d.poolBalance (FloatWiden.widen total : D) weights
    let allocated := (pending.map (·.amount)).sum
    let ps : PoolState := ⟨d.poolBalance - allocated, d.totalDistributed + allocated, 0,
      d.distributionCount + 1⟩
    { d with
      poolBalance := ps.poolBalance
      totalDistributed := ps.totalDistributed
      lastDistributionHeight := ps.lastDistributionHeight
      distributionCount := ps.distributionCount
      saved := some ps
      pendingOutputs := pending }

/-- The 3% of a block reward, in 64-bit arithmetic. -/
def nodeBudget (totalReward : UInt64) : UInt64 := totalReward * nodeRewardPercent / 100

/-- `compute_expected_payouts`. -/
def computeExpectedPayouts (D : Type) [FloatArith D] [FloatWiden F D] (env : Env)
    (st : RewardState F) (height totalBlockReward : UInt64) (hfVersion : UInt8) :
    Except String (List ExpectedPayout) :=
  if st.initialized = false then .error "MevaTrust not initialized"
  else
    let welcome := st.distributor.peekWelcomeBonuses height
    if Distributor.isDistributionDue height = false ∧ welcome = [] then .ok []
    else if nodeBudget totalBlockReward = 0 then .ok []
    else if hfVersionMevatrustUptimeV3 ≤ hfVersion then
      computeUptimePayoutsV3 D env st height (nodeBudget totalBlockReward) hfVersion welcome
    else computeScorePayouts D env st (nodeBudget totalBlockReward) welcome

variable {D : Type} [FloatArith D] [FloatWiden F D] {env : Env} {st : RewardState F}
  {height R : UInt64} {hf : UInt8} {L : List ExpectedPayout}

/-- **From fork 17 nobody is due a zero amount**: zero shares are dropped, a bonus without address
fails. -/
theorem computeExpectedPayouts_amount_ne_zero (h17 : 17 ≤ hf)
    (hL : computeExpectedPayouts D env st height R hf = .ok L) {e : ExpectedPayout} (he : e ∈ L) :
    e.amount ≠ 0 := by
  have hv3 : hfVersionMevatrustUptimeV3 ≤ hf := h17
  unfold computeExpectedPayouts at hL
  simp only [if_pos hv3] at hL
  split_ifs at hL with h1 h2 h3
  · obtain rfl := Except.ok.inj hL
    simp at he
  · obtain rfl := Except.ok.inj hL
    simp at he
  · obtain ⟨p, hp, hw, hamt⟩ := mem_resolvePayouts hL he
    rw [← hamt]
    rcases List.mem_append.1 hp with hp | hp
    · split_ifs at hp
      · exact amount_ne_zero_of_mem_divide hp
      · simp at hp
    · obtain ⟨kv, -, rfl⟩ := List.mem_map.1 hp
      exact absurd rfl hw

/-- Without a budget nobody is due anything. -/
theorem computeExpectedPayouts_eq_nil_of_budget (hb : nodeBudget R = 0)
    (hL : computeExpectedPayouts D env st height R hf = .ok L) : L = [] := by
  unfold computeExpectedPayouts at hL
  simp only [if_pos hb] at hL
  split_ifs at hL with h1 h2
  · exact (Except.ok.inj hL).symm
  · exact (Except.ok.inj hL).symm

end

end Mevacoin.Trust
