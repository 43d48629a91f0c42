import Mevacoin.Trust.CoinbaseRules

/-!
# How a miner builds the coinbase

`construct_miner_tx_with_mevatrust` (`src/cryptonote_core/cryptonote_tx_utils.cpp`) and
`get_coinbase_rewards` (`mevatrust_manager.cpp`).  Arguments the source does not read are left out.
-/

namespace Mevacoin.Trust

open Lib

/-! ### Splitting the miner's amount -/

/-- The loop of `decompose_amount_into_digits`: small digits are gathered as dust up to a
threshold. -/
def decomposeDigits (dustThreshold : UInt64) :
    ℕ → (amount order dust : UInt64) → (dustHandled : Bool) → List UInt64
  | 0, _, _, _, _ => []
  | n + 1, amount, order, dust, dustHandled =>
    if amount = 0 then if !dustHandled && dust ≠ 0 then [dust] else []
    else
      let chunk := amount % 10 * order
      if dust + chunk ≤ dustThreshold then
        decomposeDigits dustThreshold n (amount / 10) (order * 10) (dust + chunk) dustHandled
      else
        (if !dustHandled && dust ≠ 0 then [dust] else []) ++ (if chunk ≠ 0 then [chunk] else []) ++
          decomposeDigits dustThreshold n (amount / 10) (order * 10) dust
            (dustHandled || dust ≠ 0)

/-- `decompose_amount_into_digits`, both handlers appending to one list.  A 64-bit amount
has at most twenty digits. -/
def decomposeAmountIntoDigits (amount dustThreshold : UInt64) : List UInt64 :=
  if amount = 0 then [] else decomposeDigits dustThreshold 21 amount 1 0 false

/-- Add the first amount to the second until at most `maxOuts` are left. -/
def mergeFrom (maxOuts : ℕ) : UInt64 → List UInt64 → List UInt64
  | a, [] => [a]
  | a, b :: rest =>
    if maxOuts < rest.length + 2 then mergeFrom maxOuts (b + a) rest else a :: b :: rest

/-- The merging loop.  With one amount left and `maxOuts = 0` the source writes past the
end. -/
def mergeOuts (maxOuts : ℕ) : List UInt64 → List UInt64
  | [] => []
  | a :: rest => mergeFrom maxOuts a rest

/-- Without a dust threshold a round splits off one digit. -/
theorem decomposeDigits_succ (n : ℕ) {amount : UInt64} (h : amount ≠ 0) (order : UInt64)
    (handled : Bool) :
    decomposeDigits 0 (n + 1) amount order 0 handled =
      (if amount % 10 * order = 0 then [] else [amount % 10 * order]) ++
        decomposeDigits 0 n (amount / 10) (order * 10) 0 handled := by
  have hle : ∀ x : UInt64, x ≤ 0 ↔ x = 0 := fun x => by
    simp
  rw [decomposeDigits, if_neg h]
  by_cases hz : amount % 10 * order = 0 <;> simp [hz]

/-- Without dust the parts add up to the amount. -/
theorem decomposeDigits_sum {n : ℕ} {amount order : UInt64} {handled : Bool}
    (h : amount.toNat < 10 ^ n) :
    (decomposeDigits 0 (n + 1) amount order 0 handled).sum = amount * order := by
  induction n generalizing amount order with
  | zero =>
    obtain rfl : amount = 0 := UInt64.toNat_inj.mp (by simpa using h)
    simp [decomposeDigits]
  | succ n ih =>
    by_cases h0 : amount = 0
    · simp [decomposeDigits, h0]
    · have hq : (amount / 10).toNat < 10 ^ n := by
        rw [UInt64.toNat_div, show (10 : UInt64).toNat = 10 from rfl]
        omega
      have hdigit : (if amount % 10 * order = 0 then [] else [amount % 10 * order]).sum =
          amount % 10 * order := by
        split_ifs with hz <;> simp [hz]
      have hamount : amount % 10 + amount / 10 * 10 = amount := by
        apply UInt64.toNat_inj.mp
        have := amount.toNat_lt
        simp only [UInt64.toNat_add, UInt64.toNat_mul, UInt64.toNat_div, UInt64.toNat_mod,
          show (10 : UInt64).toNat = 10 from rfl]
        omega
      rw [decomposeDigits_succ _ h0, List.sum_append, hdigit, ih hq, UInt64.mul_comm order 10,
        ← UInt64.mul_assoc, ← UInt64.add_mul, hamount]

theorem decomposeAmountIntoDigits_sum (amount : UInt64) :
    (decomposeAmountIntoDigits amount 0).sum = amount := by
  unfold decomposeAmountIntoDigits
  split_ifs with h
  · simp [h]
  · rw [decomposeDigits_sum (amount.toNat_lt.trans_le (by decide)), UInt64.mul_one]

theorem mergeFrom_one (a : UInt64) (l : List UInt64) : mergeFrom 1 a l = [a + l.sum] := by
  induction l generalizing a with
  | nil => simp [mergeFrom]
  | cons b l ih =>
    rw [mergeFrom, if_pos (by omega), ih, List.sum_cons, UInt64.add_comm b a, UInt64.add_assoc]

/-- With one output allowed, the miner's amount comes out whole. -/
theorem mergeOuts_decompose (amount : UInt64) :
    mergeOuts 1 (decomposeAmountIntoDigits amount 0) = if amount = 0 then [] else [amount] := by
  have hsum := decomposeAmountIntoDigits_sum amount
  split_ifs with h
  · simp [decomposeAmountIntoDigits, mergeOuts, h]
  · cases hd : decomposeAmountIntoDigits amount 0 with
    | nil =>
      rw [hd] at hsum
      exact absurd hsum.symm h
    | cons a l =>
      rw [hd, List.sum_cons] at hsum
      rw [mergeOuts, mergeFrom_one, hsum]

/-! ### The builder -/

/-- A transaction key pair as the builder uses it. -/
structure TxKey where
  /-- The public key. -/
  pub : PublicKey
  /-- `generate_key_derivation`, `derive_public_key` and `derive_view_tag` for a recipient
  and an output index; `none` when one of them fails. -/
  derive : AccountAddress → ℕ → Option (PublicKey × UInt8)

/-- `BASE_REWARD_CLAMP_THRESHOLD`. -/
def baseRewardClampThreshold : UInt64 := 100000000

/-- `DEFAULT_DUST_THRESHOLD`. -/
def defaultDustThreshold : UInt64 := 2000000000

/-- `MAX_TX_EXTRA_SIZE`. -/
def maxTxExtraSize : ℕ := 1060

/-- `CRYPTONOTE_MINED_MONEY_UNLOCK_WINDOW`. -/
def minedMoneyUnlockWindow : UInt64 := 60

/-- The extra field before the snapshot bytes: key, nonce, sorted. -/
def coinbaseExtra (key : PublicKey) (extraNonce : Bytes) : Option Bytes := do
  let extra := addTxPubKeyToExtra [] key
  let extra ← if extraNonce = [] then some extra else addExtraNonceToTxExtra extra extraNonce
  sortTxExtra extra

/-- The miner's part of the reward. -/
def minerReward (hfVersion : UInt8) (total budget nodeTotal : UInt64) : UInt64 :=
  let reward :=
    if hfVersionMevatrustUptimeV3 ≤ hfVersion ∧ nodeTotal = 0 then total
    else if hfVersionMevatrustRuleV2 ≤ hfVersion then total - budget
    else total - budget - nodeTotal
  if 2 ≤ hfVersion ∧ hfVersion < 4 then reward - reward % baseRewardClampThreshold else reward

/-- An output to a one-time key. -/
def stealthOut (key : TxKey) (hfVersion : UInt8) (recipient : AccountAddress) (outIndex : ℕ)
    (amount : UInt64) : Option TxOut :=
  (key.derive recipient outIndex).map fun k =>
    setTxOut amount k.1 (hfVersionViewTags ≤ hfVersion) k.2

/-- An output to a node or to the pool: plain from fork 14, one-time before. -/
def boundOut (key : TxKey) (hfVersion : UInt8) (recipient : AccountAddress) (outIndex : ℕ)
    (amount : UInt64) : Option TxOut :=
  if hfVersionMevatrustRuleV2 ≤ hfVersion then
    some (setTxOut amount recipient.spendPublicKey false 0)
  else stealthOut key hfVersion recipient outIndex amount

/-- Append the outputs of a list of payments, each at the next index. -/
def addOuts {α : Type} (out : α → ℕ → Option TxOut) (payments : List α) (vout : List TxOut) :
    Option (List TxOut) :=
  payments.foldlM (fun vout p => (out p vout.length).map fun o => vout ++ [o]) vout

/-- Payments whose outputs never fail are appended in order. -/
theorem addOuts_eq_some {α : Type} {out : α → ℕ → Option TxOut} {g : α → TxOut}
    (h : ∀ p i, out p i = some (g p)) (ps : List α) (vout : List TxOut) :
    addOuts out ps vout = some (vout ++ ps.map g) := by
  induction ps generalizing vout with
  | nil => simp [addOuts]
  | cons p ps ih =>
    have := ih (vout ++ [g p])
    simp only [addOuts] at this ⊢
    rw [List.foldlM_cons, h]
    simp [this]

/-- `construct_miner_tx_with_mevatrust`. -/
def constructMinerTxWithMevatrust (env : Env) (key : TxKey) (height totalBlockReward : UInt64)
    (minerAddress : AccountAddress) (nodeRewards : List ExpectedPayout) (extraNonce : Bytes)
    (maxOuts : ℕ) (hfVersion : UInt8) (snapshotExtraBytes : Bytes)
    (customUnlockWindow desyAdditionalReward : UInt64) : Option Transaction := do
  let extra ← coinbaseExtra key.pub extraNonce
  let desyTotal := totalBlockReward + desyAdditionalReward
  let nodeTotal := (nodeRewards.map (·.amount)).sum
  let budget := nodeBudget desyTotal
  let pool := poolAmount hfVersion budget nodeTotal
  let dust := if 2 ≤ hfVersion then 0 else defaultDustThreshold
  let minerAmounts := mergeOuts maxOuts
    (decomposeAmountIntoDigits (minerReward hfVersion desyTotal budget nodeTotal) dust)
  let vout ← addOuts (fun a i => stealthOut key hfVersion minerAddress i a) minerAmounts []
  let vout ← addOuts (fun (r : ExpectedPayout) i => boundOut key hfVersion r.address i r.amount)
    (nodeRewards.filter (·.amount ≠ 0)) vout
  let vout ← addOuts (fun a i => boundOut key hfVersion env.poolAddress i a)
    (if 0 < pool then [pool] else []) vout
  if (vout.map (·.amount)).sum ≠ desyTotal then none
  else
    let window := if 0 < customUnlockWindow then customUnlockWindow else minedMoneyUnlockWindow
    return {
      version := if 4 ≤ hfVersion then 2 else 1
      unlockTime := height + window
      vin := [.gen height]
      vout := vout
      -- a snapshot that does not fit is logged and left out
      extra :=
        if maxTxExtraSize < extra.length + snapshotExtraBytes.length then extra
        else extra ++ snapshotExtraBytes }

/-- The steps of a builder that returns a transaction. -/
theorem constructMinerTx_some {env : Env} {key : TxKey} {height R bonus : UInt64}
    {miner : AccountAddress} {L : List ExpectedPayout} {nonce : Bytes} {maxOuts : ℕ} {hf : UInt8}
    {snapshot : Bytes} {window : UInt64} {tx : Transaction}
    (h : constructMinerTxWithMevatrust env key height R miner L nonce maxOuts hf snapshot window
      bonus = some tx) :
    ∃ extra minerVout nodeVout, coinbaseExtra key.pub nonce = some extra ∧
      addOuts (fun a i => stealthOut key hf miner i a) (mergeOuts maxOuts
        (decomposeAmountIntoDigits (minerReward hf (R + bonus) (nodeBudget (R + bonus))
          (L.map (·.amount)).sum) (if 2 ≤ hf then 0 else defaultDustThreshold))) [] =
        some minerVout ∧
      addOuts (fun (r : ExpectedPayout) i => boundOut key hf r.address i r.amount)
        (L.filter (·.amount ≠ 0)) minerVout = some nodeVout ∧
      addOuts (fun a i => boundOut key hf env.poolAddress i a)
        (if 0 < poolAmount hf (nodeBudget (R + bonus)) (L.map (·.amount)).sum then
          [poolAmount hf (nodeBudget (R + bonus)) (L.map (·.amount)).sum] else []) nodeVout =
        some tx.vout ∧
      (tx.vout.map (·.amount)).sum = R + bonus ∧
      tx.extra = if maxTxExtraSize < extra.length + snapshot.length then extra
        else extra ++ snapshot := by
  simp only [constructMinerTxWithMevatrust, Option.bind_eq_bind, Option.bind_eq_some_iff] at h
  obtain ⟨extra, hextra, minerVout, hminer, nodeVout, hnode, vout, hpool, h⟩ := h
  by_cases hsum : (vout.map (·.amount)).sum ≠ R + bonus
  · rw [if_pos hsum] at h
    cases h
  · rw [if_neg hsum] at h
    obtain rfl := Option.some.inj h
    exact ⟨extra, minerVout, nodeVout, hextra, hminer, hnode, hpool, not_not.mp hsum, rfl⟩

/-- The nonce field, if there is a nonce. -/
def nonceField (nonce : Bytes) : Bytes :=
  if nonce = [] then [] else 0x02 :: UInt8.ofNat nonce.length :: nonce

/-- The extra field is built exactly for nonces of less than 128 octets. -/
theorem coinbaseExtra_eq (key : PublicKey) (nonce : Bytes) :
    coinbaseExtra key nonce =
      if nonce.length < 128 then some (addTxPubKeyToExtra [] key ++ nonceField nonce)
      else none := by
  unfold coinbaseExtra nonceField
  by_cases hnil : nonce = []
  · simp [hnil, sortTxExtra_pubKey]
  · have hmax : txExtraNonceMaxCount = 255 := rfl
    simp only [if_neg hnil, addExtraNonceToTxExtra]
    by_cases hlong : txExtraNonceMaxCount < nonce.length
    · rw [if_pos hlong, if_neg (by omega)]
      rfl
    · split_ifs with hshort
      · exact sortTxExtra_pubKey_nonce key hshort
      · exact sortTxExtra_long_nonce key (by omega) (by omega)

/-- The miner's outputs when one is allowed. -/
def minerOuts (key : TxKey) (hfVersion : UInt8) (minerAddress : AccountAddress)
    (amount : UInt64) : Option (List TxOut) :=
  if amount = 0 then some []
  else (stealthOut key hfVersion minerAddress 0 amount).map fun o => [o]

/-- The outputs to the nodes from fork 14. -/
def nodeOuts (L : List ExpectedPayout) : List TxOut :=
  (L.filter (·.amount ≠ 0)).map fun r => ⟨r.amount, .toKey r.address.spendPublicKey⟩

/-- The output to the pool from fork 14. -/
def poolOuts (env : Env) (pool : UInt64) : List TxOut :=
  if 0 < pool then [⟨pool, .toKey env.poolAddress.spendPublicKey⟩] else []

/-- **What the builder builds from fork 14**, one miner output allowed and no bonus. -/
theorem constructMinerTx_eq (env : Env) (key : TxKey) (height R : UInt64)
    (miner : AccountAddress) (L : List ExpectedPayout) (nonce : Bytes) {hf : UInt8}
    (snapshot : Bytes) (window : UInt64) (h14 : 14 ≤ hf) :
    constructMinerTxWithMevatrust env key height R miner L nonce 1 hf snapshot window 0 =
      if nonce.length < 128 then
        let nodeTotal := (L.map (·.amount)).sum
        (minerOuts key hf miner (minerReward hf R (nodeBudget R) nodeTotal)).bind fun outs =>
          let vout := outs ++ nodeOuts L ++
            poolOuts env (poolAmount hf (nodeBudget R) nodeTotal)
          let extra := addTxPubKeyToExtra [] key.pub ++ nonceField nonce
          if (vout.map (·.amount)).sum = R then
            some {
              version := 2
              unlockTime := height + if 0 < window then window else minedMoneyUnlockWindow
              vin := [.gen height]
              vout := vout
              extra := if maxTxExtraSize < extra.length + snapshot.length then extra
                else extra ++ snapshot }
          else none
      else none := by
  have h2 : (2 : UInt8) ≤ hf := UInt8.le_trans (by decide) h14
  have h4 : (4 : UInt8) ≤ hf := UInt8.le_trans (by decide) h14
  have hv2 : hfVersionMevatrustRuleV2 ≤ hf := h14
  have hbound : ∀ (r : AccountAddress) (i : ℕ) (a : UInt64),
      boundOut key hf r i a = some ⟨a, .toKey r.spendPublicKey⟩ := by
    simp [boundOut, hv2, setTxOut]
  have hminer : ∀ a, addOuts (fun a i => stealthOut key hf miner i a)
      (mergeOuts 1 (decomposeAmountIntoDigits a 0)) [] = minerOuts key hf miner a := by
    intro a
    rw [mergeOuts_decompose, minerOuts]
    split_ifs with h0
    · rfl
    · cases hs : stealthOut key hf miner 0 a <;> simp [addOuts, hs]
  have hnodes : ∀ vout, addOuts (fun (r : ExpectedPayout) i => boundOut key hf r.address i r.amount)
      (L.filter (·.amount ≠ 0)) vout = some (vout ++ nodeOuts L) := fun vout =>
    addOuts_eq_some (fun r i => hbound r.address i r.amount) _ _
  have hpool : ∀ (pool : UInt64) vout, addOuts (fun a i => boundOut key hf env.poolAddress i a)
      (if 0 < pool then [pool] else []) vout = some (vout ++ poolOuts env pool) := by
    intro pool vout
    rw [addOuts_eq_some (fun a i => hbound env.poolAddress i a), poolOuts]
    split_ifs <;> rfl
  unfold constructMinerTxWithMevatrust
  rw [coinbaseExtra_eq]
  by_cases hn : nonce.length < 128
  · simp only [if_pos hn, if_pos h2, if_pos h4, UInt64.add_zero, Option.bind_eq_bind,
      Option.bind_some, hminer, hnodes, hpool, ite_not]
    rfl
  · simp [hn]

/-! ### The manifest a miner queues -/

/-- The manifest `get_coinbase_rewards` writes for a list of payouts. -/
def manifestFor (height poolBalance : UInt64) (L : List ExpectedPayout) : PoolDistribution where
  height := height
  period := (height / distributionPeriodBlocks).toUInt32
  totalPoolBalance := poolBalance
  totalDistributed := (L.map (·.amount)).sum
  outputs := L.map ExpectedPayout.entry

section

variable {F : Type} [FloatArith F]

/-- `get_coinbase_rewards`: the rewards, and the pending manifest afterwards. -/
def getCoinbaseRewards (D : Type) [FloatArith D] [FloatWiden F D] (env : Env) (st : RewardState F)
    (height totalReward : UInt64) (hfVersion : UInt8) (poolBalance : UInt64)
    (pending : Option Bytes) : List ExpectedPayout × Option Bytes :=
  match computeExpectedPayouts D env st height totalReward hfVersion with
  | .error _ => ([], pending)
  | .ok [] => ([], none)
  | .ok expected =>
    if totalReward ≤ (expected.map (·.amount)).sum then ([], pending)
    else
      match packBlob poolDistributionTag
          (PoolDistribution.codec.write (manifestFor height poolBalance expected)) with
      | none => ([], pending)
      | some extra => (expected, some extra)

end

end Mevacoin.Trust
