import Mevacoin.Reward
import Mevacoin.Trust.HonestMiner

/-!
# Block templates and the reward they claim

`create_block_template` and `validate_miner_transaction` (`src/cryptonote_core/blockchain.cpp`),
from hard fork 13 on.  The template takes the reward for the weight of the transactions alone.
-/

namespace Mevacoin

open Lib Trust

/-! ### Weights -/

/-- The octets of a target with its tag. -/
def TxOutTarget.size : TxOutTarget → ℕ
  | .toTaggedKey _ _ => 34
  | _ => 33

/-- The octets of an input of a coinbase with its tag. -/
def TxIn.size : TxIn → ℕ
  | .gen height => 1 + varintSize height.toNat
  | _ => 0

/-- `get_transaction_weight` of a coinbase: the size of its archive. -/
def coinbaseWeight (tx : Transaction) : UInt64 :=
  UInt64.ofNat (varintSize tx.version.toNat + varintSize tx.unlockTime.toNat +
    varintSize tx.vin.length + (tx.vin.map TxIn.size).sum +
    varintSize tx.vout.length +
    (tx.vout.map fun o => varintSize o.amount.toNat + o.target.size).sum +
    varintSize tx.extra.length + tx.extra.length + if tx.version = 1 then 0 else 1)

/-! ### Making a template -/

/-- What a block is built on: the tip of the chain, at a fork where the coinbase is the
MevaTrust one. -/
structure ChainTip where
  prevId : Hash
  height : UInt64
  /-- `m_current_block_cumul_weight_median`. -/
  cumulWeightMedian : UInt64
  alreadyGeneratedCoins : UInt64
  hfVersion : UInt8
  mevatrust : hfVersionMevatrustValidation ≤ hfVersion
deriving DecidableEq

/-- `m_current_block_cumul_weight_limit`. -/
def ChainTip.cumulWeightLimit (t : ChainTip) : UInt64 := t.cumulWeightMedian * 2

/-- The parts of `block` that are read here. -/
structure Block where
  majorVersion : UInt8
  timestamp : UInt64
  prevId : Hash
  nonce : UInt32 := 0
  minerTx : Transaction
deriving DecidableEq

/-- What a template is made from. -/
structure TemplateRequest where
  tip : ChainTip
  minerAddress : AccountAddress
  exNonce : Bytes
  /-- `time(NULL)`. -/
  now : UInt64
  /-- The median of the last timestamps. -/
  medianTimestamp : UInt64
  /-- The pool's cookie, its selection's weight and fees. -/
  poolCookie : UInt64
  txsWeight : UInt64
  fee : UInt64
  /-- What `get_coinbase_rewards` returns for a reward. -/
  nodeRewards : UInt64 → List ExpectedPayout
  /-- The pending snapshot and manifest octets after that call. -/
  combinedExtra : UInt64 → Bytes
  customUnlockWindow : UInt64
  stateRootExtra : Bytes
  /-- The random transaction key of each attempt. -/
  keys : ℕ → TxKey

/-- The timestamp of a new template. -/
def TemplateRequest.timestamp (r : TemplateRequest) : UInt64 :=
  if r.now < r.medianTimestamp then r.medianTimestamp else r.now

/-- A template: the block, its cumulative weight, and the request it was made for. -/
structure Template where
  request : TemplateRequest
  block : Block
  cumulativeWeight : UInt64

/-- Append octets to the extra field. -/
def appendExtra (tx : Transaction) (b : Bytes) : Transaction := { tx with extra := tx.extra ++ b }

/-- The loop that looks for a coinbase of the promised weight: grow the promise, or pad with
zeros. -/
def fitCoinbase (build : ℕ → Option Transaction) (txsWeight : UInt64) :
    ℕ → ℕ → UInt64 → Option (Transaction × UInt64)
  | 0, _, _ => none
  | n + 1, attempt, cumulative =>
    match build attempt with
    | none => none
    | some tx =>
      let weight := coinbaseWeight tx
      let delta := cumulative - txsWeight - weight
      let padded := appendExtra tx (List.replicate delta.toNat 0)
      let shorter := { padded with extra := padded.extra.dropLast }
      if cumulative - txsWeight < weight then
        fitCoinbase build txsWeight n (attempt + 1) (txsWeight + weight)
      else if weight = cumulative - txsWeight then some (tx, cumulative)
      else if cumulative = txsWeight + coinbaseWeight padded then some (padded, cumulative)
      -- the padding made the counter of the extra field one octet longer
      else if cumulative + 1 ≠ txsWeight + coinbaseWeight padded then none
      else if cumulative = txsWeight + coinbaseWeight shorter then some (shorter, cumulative)
      else fitCoinbase build txsWeight n (attempt + 1) (cumulative + (delta - 1))

/-- One attempt at the coinbase. -/
def buildCoinbase (env : Env) (r : TemplateRequest) (reward bonus : UInt64) (attempt : ℕ) :
    Option Transaction :=
  (constructMinerTxWithMevatrust env (r.keys attempt) r.tip.height reward r.minerAddress
    (r.nodeRewards reward) r.exNonce (if 4 ≤ r.tip.hfVersion then 1 else 11) r.tip.hfVersion
    (r.combinedExtra reward) r.customUnlockWindow bonus).map fun tx =>
      appendExtra tx r.stateRootExtra

/-- The bonus a template claims for a reward on its day. -/
def claimedBonus (timestamp reward : UInt64) : UInt64 :=
  if isDesyMemorialDay timestamp then desyBonus reward else 0

/-- `create_block_template` without a usable cached template. -/
def freshTemplate (env : Env) (r : TemplateRequest) : Option Template := do
  let base ← getBlockReward (r.tip.cumulWeightLimit / 2) r.txsWeight r.tip.alreadyGeneratedCoins
    r.tip.hfVersion
  let reward := base + r.fee
  let build := buildCoinbase env r reward (claimedBonus r.timestamp (reward - r.fee))
  let first ← build 0
  let (minerTx, cumulative) ←
    fitCoinbase build r.txsWeight 10 1 (r.txsWeight + coinbaseWeight first)
  return {
    request := r
    block :=
      { majorVersion := r.tip.hfVersion, timestamp := r.timestamp, prevId := r.tip.prevId,
        minerTx := minerTx }
    cumulativeWeight := cumulative }

/-- A template in the cache: one that was made. -/
structure CachedTemplate (env : Env) where
  template : Template
  made : freshTemplate env template.request = some template

/-- `create_block_template`.  A cached template for the same address, nonce, pool content and tip is
returned with its timestamp moved up to now. -/
def createBlockTemplate (env : Env) (cache : Option (CachedTemplate env)) (r : TemplateRequest) :
    Option Template :=
  match cache with
  | none => freshTemplate env r
  | some c =>
    let t := c.template
    if t.request.minerAddress = r.minerAddress ∧ t.request.exNonce = r.exNonce ∧
        t.request.poolCookie = r.poolCookie ∧ t.request.tip = r.tip then
      some { t with block := { t.block with
        timestamp := if t.block.timestamp < r.now then r.now else t.block.timestamp } }
    else freshTemplate env r

/-! ### Validating the reward -/

/-- The `base_reward` that `validate_miner_transaction` recomputes; `none` for a block too heavy. -/
def recomputedReward (blockHash : Block → Hash) (tip : ChainTip) (b : Block)
    (cumulativeWeight fee : UInt64) : Option UInt64 :=
  (getBlockReward tip.cumulWeightMedian cumulativeWeight tip.alreadyGeneratedCoins
    tip.hfVersion).map fun base =>
      let base :=
        if isDesyMemorialDay b.timestamp ∧ desyQualifiesForBonus (blockHash b) then
          base + desyBonus base
        else base
      if tip.alreadyGeneratedCoins = 0 then (b.minerTx.vout.map (·.amount)).sum - fee else base

section

variable {F : Type} [FloatArith F]

/-- `validate_miner_transaction` from hard fork 13: the exact reward, then the two MevaTrust
checks. -/
def validateMinerTransaction (D : Type) [FloatArith D] [FloatWiden F D] (env : Env)
    (st : RewardState F) (blockHash : Block → Hash) (tip : ChainTip) (b : Block)
    (cumulativeWeight fee : UInt64) : Bool :=
  match recomputedReward blockHash tip b cumulativeWeight fee with
  | none => false
  | some base =>
    if tip.alreadyGeneratedCoins = 0 then true
    else if (b.minerTx.vout.map (·.amount)).sum ≠ base + fee then false
    else
      (checkMevatrustCoinbase env b.minerTx tip.height (base + fee) tip.hfVersion).isOk &&
      (checkMevatrustCoinbasePureConsensus D env st b.minerTx tip.height (base + fee)
        tip.hfVersion).isOk

end

/-! ### What a template claims -/

/-- The loop returns one of the attempts, padded, with the weight it promises. -/
theorem fitCoinbase_spec {build : ℕ → Option Transaction} {txsWeight : UInt64} {n attempt : ℕ}
    {cumulative w : UInt64} {tx : Transaction}
    (h : fitCoinbase build txsWeight n attempt cumulative = some (tx, w)) :
    w = txsWeight + coinbaseWeight tx ∧
      ∃ i tx₀ zeros, build i = some tx₀ ∧ tx = appendExtra tx₀ (List.replicate zeros 0) := by
  induction n generalizing attempt cumulative with
  | zero => simp [fitCoinbase] at h
  | succ n ih =>
    unfold fitCoinbase at h
    cases hb : build attempt with
    | none => simp [hb] at h
    | some tx₀ =>
      simp only [hb] at h
      split_ifs at h with h1 h2 h3 h4 h5
      · exact ih h
      · obtain ⟨rfl, rfl⟩ : tx₀ = tx ∧ cumulative = w := by simpa using h
        refine ⟨?_, attempt, tx₀, 0, hb, by simp [appendExtra]⟩
        rw [h2, UInt64.add_comm, UInt64.sub_add_cancel]
      · obtain ⟨rfl, rfl⟩ := Prod.mk.inj (Option.some.inj h)
        exact ⟨h3, attempt, tx₀, _, hb, rfl⟩
      · obtain ⟨rfl, rfl⟩ := Prod.mk.inj (Option.some.inj h)
        refine ⟨h5, attempt, tx₀, (cumulative - txsWeight - coinbaseWeight tx₀).toNat - 1, hb, ?_⟩
        -- only a zero is taken away, since there was something to pad
        have hdelta : (cumulative - txsWeight - coinbaseWeight tx₀).toNat ≠ 0 := by
          intro h0
          have hzero : cumulative - txsWeight - coinbaseWeight tx₀ = 0 := UInt64.toNat_inj.mp h0
          have hsub := UInt64.sub_add_cancel (cumulative - txsWeight) (coinbaseWeight tx₀)
          rw [hzero, UInt64.zero_add] at hsub
          exact h2 hsub
        have hne : List.replicate (cumulative - txsWeight - coinbaseWeight tx₀).toNat
            (0 : UInt8) ≠ [] := by
          simpa using hdelta
        simp only [appendExtra]
        rw [List.dropLast_append_of_ne_nil hne, List.dropLast_replicate]
      · exact ih h

/-- **What a fresh template claims**: the reward for the weight of its transactions, the
fees, and the bonus of its day. -/
theorem freshTemplate_spec {env : Env} {r : TemplateRequest} {t : Template}
    (h : freshTemplate env r = some t) :
    t.request = r ∧ t.block.timestamp = r.timestamp ∧
      t.cumulativeWeight = r.txsWeight + coinbaseWeight t.block.minerTx ∧
      ∃ base, getBlockReward (r.tip.cumulWeightLimit / 2) r.txsWeight
          r.tip.alreadyGeneratedCoins r.tip.hfVersion = some base ∧
        (t.block.minerTx.vout.map (·.amount)).sum =
          base + r.fee + claimedBonus r.timestamp base := by
  simp only [freshTemplate, Option.bind_eq_bind, Option.bind_eq_some_iff, Prod.exists] at h
  obtain ⟨base, hbase, first, -, tx, w, hfit, h⟩ := h
  obtain rfl := Option.some.inj h
  obtain ⟨hw, i, tx₀, zeros, hbuild, rfl⟩ := fitCoinbase_spec hfit
  obtain ⟨tx₁, htx₁, rfl⟩ := Option.map_eq_some_iff.1 hbuild
  obtain ⟨-, -, -, -, -, -, -, hsum, -⟩ := constructMinerTx_some htx₁
  have hbase' : base + r.fee - r.fee = base := UInt64.add_sub_cancel _ _
  refine ⟨rfl, rfl, hw, base, hbase, ?_⟩
  rw [hbase'] at hsum
  exact hsum

/-- A returned template is a fresh one, its timestamp possibly moved up. -/
theorem createBlockTemplate_spec {env : Env} {cache : Option (CachedTemplate env)}
    {r : TemplateRequest} {t : Template} (h : createBlockTemplate env cache r = some t) :
    ∃ t₀, freshTemplate env t.request = some t₀ ∧ t₀.block.minerTx = t.block.minerTx ∧
      t₀.cumulativeWeight = t.cumulativeWeight := by
  have hfresh : ∀ {r'}, freshTemplate env r' = some t →
      ∃ t₀, freshTemplate env t.request = some t₀ ∧ t₀.block.minerTx = t.block.minerTx ∧
        t₀.cumulativeWeight = t.cumulativeWeight := by
    intro r' h'
    refine ⟨t, ?_, rfl, rfl⟩
    rw [(freshTemplate_spec h').1]
    exact h'
  unfold createBlockTemplate at h
  cases cache with
  | none => exact hfresh h
  | some c =>
    simp only at h
    by_cases hhit : c.template.request.minerAddress = r.minerAddress ∧
        c.template.request.exNonce = r.exNonce ∧
        c.template.request.poolCookie = r.poolCookie ∧ c.template.request.tip = r.tip
    · rw [if_pos hhit] at h
      obtain rfl := Option.some.inj h
      exact ⟨c.template, c.made, rfl, rfl⟩
    · rw [if_neg hhit] at h
      exact hfresh h

/-! ### When the validator agrees -/

/-- How the reward `claimed` for the transactions' weight and `allowed` for the block's must
compare, by the day of the template, the day of the block and the nonces that qualify. -/
def RewardsAgree (madeOnDay standsOnDay : Bool) (qualifies : UInt32 → Bool)
    (claimed allowed : UInt64) : Prop :=
  match madeOnDay, standsOnDay with
  | false, false => claimed = allowed
  | true, false => claimed + desyBonus claimed = allowed
  | false, true =>
    ((∀ n, qualifies n = false) ∨ claimed = allowed + desyBonus allowed) ∧
      ((∀ n, qualifies n = true) ∨ claimed = allowed)
  | true, true =>
    ((∀ n, qualifies n = false) ∨
        claimed + desyBonus claimed = allowed + desyBonus allowed) ∧
      ((∀ n, qualifies n = true) ∨ claimed + desyBonus claimed = allowed)

/-- An equation that holds at every nonce holds for both verdicts on the hash that occur. -/
theorem forall_nonce_iff {q : UInt32 → Bool} {x y z : UInt64} :
    (∀ n, z = if q n = true then x else y) ↔
      ((∀ n, q n = false) ∨ z = x) ∧ ((∀ n, q n = true) ∨ z = y) := by
  constructor
  · intro h
    refine ⟨?_, ?_⟩
    · by_cases hq : ∀ n, q n = false
      · exact Or.inl hq
      · obtain ⟨n, hn⟩ := not_forall.1 hq
        have := h n
        rw [if_pos (by simpa using hn)] at this
        exact Or.inr this
    · by_cases hq : ∀ n, q n = true
      · exact Or.inl hq
      · obtain ⟨n, hn⟩ := not_forall.1 hq
        have := h n
        rw [if_neg hn] at this
        exact Or.inr this
  · rintro ⟨h1, h2⟩ n
    by_cases hq : q n = true
    · rw [if_pos hq]
      rcases h1 with h1 | h1
      · simp [h1 n] at hq
      · exact h1
    · rw [if_neg hq]
      rcases h2 with h2 | h2
      · exact absurd (h2 n) hq
      · exact h2

/-- The table says that what is claimed is allowed at every nonce. -/
theorem rewardsAgree_iff (madeOnDay standsOnDay : Bool) (q : UInt32 → Bool)
    (claimed allowed : UInt64) :
    RewardsAgree madeOnDay standsOnDay q claimed allowed ↔
      ∀ n, claimed + (if madeOnDay then desyBonus claimed else 0) =
        if standsOnDay = true ∧ q n = true then allowed + desyBonus allowed else allowed := by
  cases madeOnDay <;> cases standsOnDay <;>
    simp [RewardsAgree, forall_nonce_iff]

/-- The block of a template with a nonce. -/
def Template.withNonce (t : Template) (n : UInt32) : Block := { t.block with nonce := n }

@[simp] theorem Template.withNonce_timestamp (t : Template) (n : UInt32) :
    (t.withNonce n).timestamp = t.block.timestamp := rfl

@[simp] theorem Template.withNonce_minerTx (t : Template) (n : UInt32) :
    (t.withNonce n).minerTx = t.block.minerTx := rfl

/-- A tip at fork 17 and a request for it at a time with transactions of some weight. -/
def sampleRequest (now txsWeight : UInt64) : TemplateRequest where
  tip := ⟨Pod32.single 1, 100, 300000, 1000000, 17, by decide⟩
  minerAddress := ⟨Pod32.single 8, Pod32.single 9⟩
  exNonce := []
  now := now
  medianTimestamp := 0
  poolCookie := 0
  txsWeight := txsWeight
  fee := 0
  nodeRewards _ := []
  combinedExtra _ := []
  customUnlockWindow := 0
  stateRootExtra := []
  keys _ := sampleKey

end Mevacoin
