import Mevacoin.Trust.CoinbaseSafety
import Mevacoin.Trust.MinerTx

/-!
# Is the honest miner's coinbase accepted?

The builder, the manifest and the three checks of a coinbase agree at fork 14.  From fork 15 the
miner's output is tagged while the others are plain.
-/

namespace Mevacoin.Trust

open Lib

/-! ### Mixed output types -/

variable {tx : Transaction} {hf : UInt8} {R T : UInt64}

/-- At fork 14 plain outputs pass. -/
theorem checkOutputTypes_plain (h : ∀ o ∈ tx.vout, o.target.isToKey = true) :
    checkOutputTypes tx 14 = true := by
  simp only [checkOutputTypes, List.all_eq_true]
  intro o ho
  exact h o ho

/-- A tagged output is not plain. -/
theorem not_isToKey_of_isToTaggedKey {t : TxOutTarget} (h : t.isToTaggedKey = true) :
    t.isToKey = false := by
  cases t <;> simp_all [TxOutTarget.isToTaggedKey, TxOutTarget.isToKey]

/-- From fork 15 tagged outputs pass. -/
theorem checkOutputTypes_tagged (h15 : 15 ≤ hf) (h : ∀ o ∈ tx.vout, o.target.isToTaggedKey = true) :
    checkOutputTypes tx hf = true := by
  have hge : ¬ hf < hfVersionViewTags := UInt8.not_lt.2 h15
  simp only [checkOutputTypes, List.all_eq_true]
  intro o ho
  have hto := h o ho
  split_ifs
  · exact hto
  · cases hh : tx.vout.head? with
    | none => simp [hto]
    | some first =>
      have hfirst := h first (List.mem_of_head? hh)
      simp [hto, hfirst, not_isToKey_of_isToTaggedKey hto, not_isToKey_of_isToTaggedKey hfirst]

/-- From fork 15 a tagged and a plain output do not go together. -/
theorem checkOutputTypes_mixed (h15 : 15 ≤ hf) {o o' : TxOut} (ho : o ∈ tx.vout)
    (ho' : o' ∈ tx.vout) (htagged : o.target.isToTaggedKey = true)
    (hplain : o'.target.isToKey = true) : checkOutputTypes tx hf = false := by
  have hge : ¬ hf < hfVersionViewTags := UInt8.not_lt.2 h15
  have hnot : o'.target.isToTaggedKey = false := by
    by_contra hcon
    rw [Bool.not_eq_false] at hcon
    simp [not_isToKey_of_isToTaggedKey hcon] at hplain
  rw [← Bool.not_eq_true, checkOutputTypes, List.all_eq_true]
  intro hall
  have h1 := hall o ho
  have h2 := hall o' ho'
  by_cases hgt : hfVersionViewTags < hf
  · simp [hgt, hnot] at h2
  · obtain ⟨first, hfirst⟩ : ∃ first, tx.vout.head? = some first := by
      cases hv : tx.vout with
      | nil => simp [hv] at ho
      | cons a l => exact ⟨a, rfl⟩
    simp only [hgt, hge, if_false, hfirst, Option.all_some, Bool.and_eq_true,
      decide_eq_true_eq] at h1 h2
    rw [htagged] at h1
    rw [hnot] at h2
    exact absurd (h1.2.2.trans h2.2.2.symm) (by decide)

/-! ### The shares add up -/

/-- The miner's part from fork 14. -/
theorem minerReward_of_le (h14 : 14 ≤ hf) (R B T : UInt64) :
    minerReward hf R B T = if hfVersionMevatrustUptimeV3 ≤ hf ∧ T = 0 then R else R - B := by
  have h4 : ¬ hf < 4 := UInt8.not_lt.2 (UInt8.le_trans (by decide) h14)
  have hv2 : hfVersionMevatrustRuleV2 ≤ hf := h14
  simp [minerReward, h4, hv2]

/-- Miner, nodes and pool share the reward. -/
theorem shares_add_up (h14 : 14 ≤ hf) {B : UInt64} (hT : T ≤ B) :
    minerReward hf R B T + T + poolAmount hf B T = R := by
  have hv2 : hfVersionMevatrustRuleV2 ≤ hf := h14
  rw [minerReward_of_le h14, poolAmount]
  by_cases hv3 : hfVersionMevatrustUptimeV3 ≤ hf ∧ T = 0
  · rw [if_pos hv3, if_pos hv3, hv3.2, UInt64.add_zero, UInt64.add_zero]
  · split_ifs with hlt
    · rw [UInt64.add_assoc, UInt64.add_comm T, UInt64.sub_add_cancel, UInt64.sub_add_cancel]
    · obtain rfl : T = B := UInt64.le_antisymm hT (UInt64.not_lt.1 hlt)
      rw [UInt64.add_zero, UInt64.sub_add_cancel]

/-- The miner is left with something unless there is nothing to share. -/
theorem minerReward_eq_zero_iff (h14 : 14 ≤ hf) (hR : 3 * R.toNat < 2 ^ 64) :
    minerReward hf R (nodeBudget R) T = 0 ↔ R = 0 := by
  have hB := nodeBudget_toNat hR
  have hle : nodeBudget R ≤ R := by
    rw [UInt64.le_iff_toNat_le]
    omega
  rw [minerReward_of_le h14]
  split_ifs
  · rfl
  · rw [← UInt64.toNat_inj, ← UInt64.toNat_inj, UInt64.toNat_sub_of_le _ _ hle]
    simp
    omega

/-- The nodes' outputs add up to the payouts. -/
theorem nodeOuts_sum (L : List ExpectedPayout) :
    ((nodeOuts L).map (·.amount)).sum = (L.map (·.amount)).sum := by
  induction L with
  | nil => rfl
  | cons e L ih =>
    by_cases h0 : e.amount = 0
    · simpa [nodeOuts, h0] using ih
    · simpa [nodeOuts, h0] using ih

/-- The pool's output is its amount. -/
theorem poolOuts_sum (env : Env) (pool : UInt64) :
    ((poolOuts env pool).map (·.amount)).sum = pool := by
  unfold poolOuts
  split_ifs with h
  · simp
  · have : pool = 0 := by
      rw [UInt64.not_lt, UInt64.le_iff_toNat_le] at h
      exact UInt64.toNat_inj.mp (by simpa using h)
    simp [this]

/-- The miner's outputs add up to its part. -/
theorem minerOuts_sum {key : TxKey} {miner : AccountAddress} {a : UInt64} {outs : List TxOut}
    (h : minerOuts key hf miner a = some outs) : (outs.map (·.amount)).sum = a := by
  unfold minerOuts at h
  split_ifs at h with h0
  · obtain rfl := Option.some.inj h
    simp [h0]
  · obtain ⟨o, ho, rfl⟩ := Option.map_eq_some_iff.1 h
    obtain ⟨k, -, rfl⟩ := Option.map_eq_some_iff.1 ho
    simp [setTxOut]

/-! ### The honest coinbase -/

section

variable {F : Type} [FloatArith F] (D : Type) [FloatArith D] [FloatWiden F D]

/-- The manifest that `get_coinbase_rewards` queues, with its tag; empty when it queues
none. -/
def queuedManifest (env : Env) (st : RewardState F) (height R : UInt64) (hf : UInt8)
    (poolBalance : UInt64) : Bytes :=
  (getCoinbaseRewards D env st height R hf poolBalance none).2.getD []

/-- The coinbase an honest miner builds for the payouts `L`: one miner output, no bonus, the
queued manifest. -/
def honestMinerTx (env : Env) (st : RewardState F) (key : TxKey) (height R : UInt64)
    (miner : AccountAddress) (L : List ExpectedPayout) (nonce : Bytes) (hf : UInt8)
    (poolBalance window : UInt64) : Option Transaction :=
  constructMinerTxWithMevatrust env key height R miner L nonce 1 hf
    (queuedManifest D env st height R hf poolBalance) window 0

/-- The three checks on a coinbase. -/
structure Accepted (env : Env) (st : RewardState F) (tx : Transaction) (height R : UInt64)
    (hf : UInt8) : Prop where
  types : checkOutputTypes tx hf = true
  coinbase : checkMevatrustCoinbase env tx height R hf = .ok ()
  pureConsensus : checkMevatrustCoinbasePureConsensus D env st tx height R hf = .ok ()

end

variable {R : UInt64} {L : List ExpectedPayout} {key : TxKey} {miner : AccountAddress}
  {outs : List TxOut} {env : Env} {nonce : Bytes} {tx : Transaction} {a : UInt64} {o : TxOut}

/-- The outputs of the honest coinbase, given those of the miner. -/
def honestVout (env : Env) (hf : UInt8) (R : UInt64) (L : List ExpectedPayout)
    (outs : List TxOut) : List TxOut :=
  outs ++ nodeOuts L ++ poolOuts env (poolAmount hf (nodeBudget R) (L.map (·.amount)).sum)

/-- The extra field of the honest coinbase. -/
def honestExtra (key : TxKey) (nonce snapshot : Bytes) : Bytes :=
  let extra := addTxPubKeyToExtra [] key.pub ++ nonceField nonce
  if maxTxExtraSize < extra.length + snapshot.length then extra else extra ++ snapshot

/-- The payouts' wrapping sum is at most the budget when their sum is. -/
theorem amountSum_le_budget (hR : 3 * R.toNat < 2 ^ 64) (hsum : payoutTotal L ≤ 3 * R.toNat / 100) :
    (L.map ExpectedPayout.amount).sum ≤ nodeBudget R := by
  have hT := amountSum_toNat L
  rw [UInt64.le_iff_toNat_le, nodeBudget_toNat hR, hT]
  exact (Nat.mod_le _ _).trans hsum

/-- The honest outputs add up to the reward. -/
theorem honestVout_sum (env : Env) {hf : UInt8} (h14 : 14 ≤ hf) (hR : 3 * R.toNat < 2 ^ 64)
    (hsum : payoutTotal L ≤ 3 * R.toNat / 100) (houts : minerOuts key hf miner
      (minerReward hf R (nodeBudget R) (L.map (·.amount)).sum) = some outs) :
    ((honestVout env hf R L outs).map (·.amount)).sum = R := by
  simp only [honestVout, List.map_append, List.sum_append, minerOuts_sum houts, nodeOuts_sum,
    poolOuts_sum]
  exact shares_add_up h14 (amountSum_le_budget hR hsum)

/-- The honest coinbase is built exactly for short nonces and a miner address that keys can
be derived for. -/
theorem constructMinerTx_honest {height window : UInt64} {snapshot : Bytes} {hf : UInt8}
    (h14 : 14 ≤ hf) (hR : 3 * R.toNat < 2 ^ 64) (hsum : payoutTotal L ≤ 3 * R.toNat / 100) :
    constructMinerTxWithMevatrust env key height R miner L nonce 1 hf snapshot window 0 = some tx ↔
      nonce.length < 128 ∧ ∃ outs, minerOuts key hf miner
          (minerReward hf R (nodeBudget R) (L.map (·.amount)).sum) = some outs ∧
        tx = { version := 2
               unlockTime := height + if 0 < window then window else minedMoneyUnlockWindow
               vin := [.gen height]
               vout := honestVout env hf R L outs
               extra := honestExtra key nonce snapshot } := by
  rw [constructMinerTx_eq _ _ _ _ _ _ _ _ _ h14]
  by_cases hn : nonce.length < 128
  · rw [if_pos hn]
    simp only [hn, true_and, Option.bind_eq_some_iff]
    refine exists_congr fun outs => and_congr_right fun houts => ?_
    have hv := honestVout_sum env h14 hR hsum houts
    unfold honestVout at hv
    rw [if_pos hv, Option.some.injEq, eq_comm]
    rfl
  · simp [hn]

/-- When the miner can be paid. -/
theorem minerOuts_isSome_iff {hf : UInt8} :
    (∃ outs, minerOuts key hf miner a = some outs) ↔
      a = 0 ∨ (key.derive miner 0).isSome = true := by
  unfold minerOuts stealthOut
  split_ifs with h0
  · simp [h0]
  · cases key.derive miner 0 <;> simp [h0]

/-- The walk over the honest extra field reaches the snapshot bytes. -/
theorem findMevatrustTag_honest (t : UInt8) (key : PublicKey) (hn : nonce.length < 128)
    (rest : Bytes) :
    findMevatrustTag t (addTxPubKeyToExtra [] key ++ nonceField nonce ++ rest) =
      findMevatrustTag t rest := by
  rw [List.append_assoc, findMevatrustTag_pubKey]
  unfold nonceField
  split_ifs
  · rfl
  · exact findMevatrustTag_nonce t hn rest

/-- Without snapshot bytes there is no manifest. -/
theorem parsePoolDistribution_bare (hn : nonce.length < 128)
    (h : tx.extra = addTxPubKeyToExtra [] key.pub ++ nonceField nonce) :
    parsePoolDistribution tx = none := by
  have hfind := findMevatrustTag_honest poolDistributionTag key.pub hn []
  rw [List.append_nil, findMevatrustTag_nil] at hfind
  rw [parsePoolDistribution, parseTagged, h, hfind, Option.bind_none]

/-- A packed manifest that fits is found and reads back. -/
theorem parsePoolDistribution_packed (hn : nonce.length < 128) {d : PoolDistribution}
    (hsize : d.size ≤ 0xFFFF) (h : tx.extra = addTxPubKeyToExtra [] key.pub ++ nonceField nonce ++
      (poolDistributionTag :: leBytes 2 (PoolDistribution.codec.write d).length ++
        PoolDistribution.codec.write d)) : parsePoolDistribution tx = some d := by
  have hlen : d.outputs.length < 2 ^ 64 := by
    have := outputs_length_le_size d
    omega
  refine parseTagged_packed PoolDistribution.codec_roundTrips hlen (by decide) ?_ [] ?_
  · rw [PoolDistribution.codec_write_length hlen]
    exact hsize
  · rw [h, findMevatrustTag_honest _ _ hn, List.append_nil]

/-- The octets of the extra field in front of the manifest. -/
def extraSize (nonce : Bytes) : ℕ := 33 + if nonce = [] then 0 else 2 + nonce.length

/-- The length of the extra field before the manifest. -/
theorem honestExtra_length (key : PublicKey) (nonce : Bytes) :
    (addTxPubKeyToExtra [] key ++ nonceField nonce).length = extraSize nonce := by
  unfold nonceField extraSize
  split_ifs
  · simp [addTxPubKeyToExtra, key.size_eq]
  · simp [addTxPubKeyToExtra, key.size_eq]
    omega

/-- What the miner's outputs are. -/
theorem mem_minerOuts {hf : UInt8} (h : minerOuts key hf miner a = some outs) (ho : o ∈ outs) :
    o.amount = a ∧ a ≠ 0 ∧
      if hfVersionViewTags ≤ hf then o.target.isToTaggedKey = true
      else o.target.isToKey = true := by
  unfold minerOuts at h
  split_ifs at h with h0
  · obtain rfl := Option.some.inj h
    simp at ho
  · obtain ⟨o', ho', rfl⟩ := Option.map_eq_some_iff.1 h
    obtain rfl : o = o' := by simpa using ho
    obtain ⟨k, -, rfl⟩ := Option.map_eq_some_iff.1 ho'
    refine ⟨rfl, h0, ?_⟩
    by_cases h15 : hfVersionViewTags ≤ hf
    · simp [setTxOut, h15, TxOutTarget.isToTaggedKey]
    · simp [setTxOut, h15, TxOutTarget.isToKey]

/-- A positive part has an output. -/
theorem minerOuts_ne_nil {hf : UInt8} (h : minerOuts key hf miner a = some outs) (ha : a ≠ 0) :
    ∃ o, o ∈ outs := by
  unfold minerOuts at h
  rw [if_neg ha] at h
  obtain ⟨o, -, rfl⟩ := Option.map_eq_some_iff.1 h
  exact ⟨o, by simp⟩

/-- Outputs to nodes are nonzero payouts. -/
theorem mem_nodeOuts : o ∈ nodeOuts L ↔ ∃ e ∈ L, e.amount ≠ 0 ∧ e.output = o := by
  simp [nodeOuts, ExpectedPayout.output, and_assoc]

/-- The output to the pool, if anything is left. -/
theorem mem_poolOuts {pool : UInt64} :
    o ∈ poolOuts env pool ↔ 0 < pool ∧ o = ⟨pool, .toKey env.poolAddress.spendPublicKey⟩ := by
  unfold poolOuts
  split_ifs with h <;> simp [h]

/-- From fork 15, next to a miner's output there is room for no output to nodes or pool. -/
theorem checkOutputTypes_honest_iff {hf : UInt8} (h14 : 14 ≤ hf)
    (houts : minerOuts key hf miner a = some outs) (ha : a ≠ 0)
    (htx : tx.vout = honestVout env hf R L outs) :
    checkOutputTypes tx hf = true ↔ hf = 14 ∨
      nodeOuts L ++ poolOuts env (poolAmount hf (nodeBudget R) (L.map (·.amount)).sum) = [] := by
  have hplain : ∀ o ∈ nodeOuts L ++
      poolOuts env (poolAmount hf (nodeBudget R) (L.map (·.amount)).sum),
      o.target.isToKey = true := by
    intro o ho
    rcases List.mem_append.1 ho with ho | ho
    · obtain ⟨e, -, -, rfl⟩ := mem_nodeOuts.1 ho
      rfl
    · obtain ⟨-, rfl⟩ := mem_poolOuts.1 ho
      rfl
  rw [honestVout, List.append_assoc] at htx
  rcases eq_or_ne hf 14 with rfl | hne
  · simp only [true_or, iff_true]
    refine checkOutputTypes_plain fun o ho => ?_
    rcases List.mem_append.1 (htx ▸ ho) with ho | ho
    · exact (mem_minerOuts houts ho).2.2
    · exact hplain o ho
  · have h15 : 15 ≤ hf := by
      have hne' : hf.toNat ≠ 14 := fun h => hne (UInt8.toNat_inj.mp h)
      rw [UInt8.le_iff_toNat_le] at h14 ⊢
      simp at h14 ⊢
      omega
    obtain ⟨m, hm⟩ := minerOuts_ne_nil houts ha
    have htagged : m.target.isToTaggedKey = true := by
      have := (mem_minerOuts houts hm).2.2
      rwa [if_pos (show hfVersionViewTags ≤ hf from h15)] at this
    simp only [hne, false_or]
    constructor
    · intro hok
      by_contra hcon
      obtain ⟨o, ho⟩ := List.exists_mem_of_ne_nil _ hcon
      rw [checkOutputTypes_mixed h15 (htx ▸ List.mem_append_left _ hm)
        (htx ▸ List.mem_append_right _ ho) htagged (hplain o ho)] at hok
      exact absurd hok (by simp)
    · intro hnil
      rw [hnil, List.append_nil] at htx
      refine checkOutputTypes_tagged h15 fun o ho => ?_
      have := (mem_minerOuts houts (htx ▸ ho)).2.2
      rwa [if_pos (show hfVersionViewTags ≤ hf from h15)] at this

section

variable {F : Type} [FloatArith F] {D : Type} [FloatArith D] [FloatWiden F D]

variable {env : Env} {st : RewardState F} {R poolBalance : UInt64} {L : List ExpectedPayout}
  {key : TxKey} {miner : AccountAddress} {tx : Transaction} {outs : List TxOut} {nonce : Bytes}

variable {height : UInt64} {hf : UInt8} (h14 : 14 ≤ hf) (hR : 3 * R.toNat < 2 ^ 64)
  (hL : computeExpectedPayouts D env st height R hf = .ok L) (hn : nonce.length < 128)
  (houts : minerOuts key hf miner
    (minerReward hf R (nodeBudget R) (L.map (·.amount)).sum) = some outs)
  (htx : tx.vout = honestVout env hf R L outs)

/-- Nobody to pay, no manifest. -/
theorem queuedManifest_nil (hL : computeExpectedPayouts D env st height R hf = .ok []) :
    queuedManifest D env st height R hf poolBalance = [] := by
  simp [queuedManifest, getCoinbaseRewards, hL]

include hL in
/-- What is queued for a list of payouts below the reward. -/
theorem queuedManifest_eq (hne : L ≠ []) (hlt : (L.map ExpectedPayout.amount).sum < R) :
    queuedManifest D env st height R hf poolBalance =
      (packBlob poolDistributionTag
        (PoolDistribution.codec.write (manifestFor height poolBalance L))).getD [] := by
  unfold queuedManifest getCoinbaseRewards
  rw [hL]
  cases L with
  | nil => exact absurd rfl hne
  | cons e L =>
    simp only [if_neg (UInt64.not_le.2 hlt)]
    cases packBlob poolDistributionTag
      (PoolDistribution.codec.write (manifestFor height poolBalance (e :: L))) <;> rfl

include h14 hR houts htx in
/-- The first check on the honest coinbase, once its manifest declares what was
distributed. -/
theorem checkMevatrustCoinbase_honest (hsum : payoutTotal L ≤ 3 * R.toNat / 100)
    (hdecl : ((parsePoolDistribution tx).map (·.totalDistributed)).getD 0 =
      (L.map (·.amount)).sum) : checkMevatrustCoinbase env tx height R hf = .ok () := by
  rw [checkMevatrustCoinbase_ok_iff h14, hdecl, htx]
  refine ⟨honestVout_sum env h14 hR hsum houts, fun hpos => ?_⟩
  exact List.mem_append_right _ (mem_poolOuts.2 ⟨hpos, rfl⟩)

include h14 hR in
/-- The pool has an output unless the rule from fork 17 leaves it nothing or there is no
budget. -/
theorem poolOuts_nobody_paid :
    poolOuts env (poolAmount hf (nodeBudget R) 0) = [] ↔ 17 ≤ hf ∨ 3 * R.toNat / 100 = 0 := by
  have hout : ∀ a, poolOuts env a = [] ↔ a.toNat = 0 := by
    intro a
    unfold poolOuts
    split_ifs with h
    · rw [UInt64.lt_iff_toNat_lt] at h
      simp at h ⊢
      omega
    · rw [UInt64.not_lt, UInt64.le_iff_toNat_le] at h
      simpa using h
  rw [hout]
  by_cases h17 : 17 ≤ hf
  · rw [poolAmount, if_pos ⟨h17, rfl⟩]
    simp [h17]
  · have h16 : hf ≤ 16 := by
      rw [UInt8.le_iff_toNat_le] at h17 ⊢
      simp at h17 ⊢
      omega
    rw [poolAmount_toNat h14 (Or.inl h16), nodeBudget_toNat hR]
    simp [h17]

include h14 hR hL hn houts htx in
/-- With nobody to pay, the honest coinbase passes unless a pool output stands next to a
tagged miner output. -/
theorem accepted_honest_nil (hnil : L = [])
    (hextra : tx.extra = addTxPubKeyToExtra [] key.pub ++ nonceField nonce) :
    Accepted D env st tx height R hf ↔ hf = 14 ∨ 17 ≤ hf ∨ 3 * R.toNat / 100 = 0 := by
  have hparse := parsePoolDistribution_bare hn hextra
  have hcoin : checkMevatrustCoinbase env tx height R hf = .ok () :=
    checkMevatrustCoinbase_honest h14 hR houts htx (by simp [hnil, payoutTotal])
      (by simp [hparse, hnil])
  have hpure : checkMevatrustCoinbasePureConsensus D env st tx height R hf = .ok () :=
    (pureConsensus_nil_iff (hnil ▸ hL)).2 (by simp [hparse])
  have htypes : Accepted D env st tx height R hf ↔ checkOutputTypes tx hf = true :=
    ⟨fun h => h.types, fun h => ⟨h, hcoin, hpure⟩⟩
  rw [htypes]
  by_cases ha : minerReward hf R (nodeBudget R) (L.map (·.amount)).sum = 0
  · -- nothing to share, so no outputs at all
    have hR0 := (minerReward_eq_zero_iff h14 hR).1 ha
    have hvout : tx.vout = [] := by
      rw [minerOuts, if_pos ha] at houts
      obtain rfl := Option.some.inj houts
      have hb : 3 * R.toNat / 100 = 0 := by simp [hR0]
      rw [htx, honestVout, hnil, List.map_nil, List.sum_nil,
        (poolOuts_nobody_paid h14 hR).2 (Or.inr hb)]
      rfl
    simp [checkOutputTypes, hvout, hR0]
  · rw [checkOutputTypes_honest_iff h14 houts ha htx, hnil, List.map_nil, List.sum_nil,
      show nodeOuts [] = [] from rfl, List.nil_append, poolOuts_nobody_paid h14 hR]

include hn in
/-- The manifest is in the honest coinbase exactly when it fits the extra field. -/
theorem parsePoolDistribution_honest {snapshot : Bytes} {d : PoolDistribution}
    (hsnap : snapshot = (packBlob poolDistributionTag (PoolDistribution.codec.write d)).getD [])
    (hextra : tx.extra = honestExtra key nonce snapshot) :
    parsePoolDistribution tx =
      if extraSize nonce + 3 + d.size ≤ maxTxExtraSize then some d else none := by
  have hmax : maxTxExtraSize = 1060 := rfl
  have hout := PoolDistribution.outputs_length_le_write d
  have hout' := outputs_length_le_size d
  simp only [honestExtra, honestExtra_length] at hextra
  by_cases hbig : 0xFFFF < (PoolDistribution.codec.write d).length
  · -- too long even for its own length field: nothing is queued
    have hnofit : ¬ extraSize nonce + 3 + d.size ≤ maxTxExtraSize := by
      intro hfit
      rw [PoolDistribution.codec_write_length (by omega)] at hbig
      omega
    rw [packBlob, if_pos hbig] at hsnap
    rw [if_neg hnofit]
    exact parsePoolDistribution_bare hn (by simpa [hsnap] using hextra)
  · have hsize := PoolDistribution.codec_write_length (d := d) (by omega)
    rw [packBlob, if_neg hbig] at hsnap
    have hlen : snapshot.length = 3 + d.size := by
      rw [hsnap]
      simp
      omega
    split_ifs with hfit
    · rw [if_neg (by omega), hsnap] at hextra
      exact parsePoolDistribution_packed hn (by omega) hextra
    · rw [if_pos (by omega)] at hextra
      exact parsePoolDistribution_bare hn hextra

/-- An entry is paid by the honest coinbase exactly when its amount is not zero. -/
theorem output_mem_honestVout {a : UInt64} (houts : minerOuts key hf miner a = some outs)
    {e : ExpectedPayout} (he : e ∈ L) : e.output ∈ honestVout env hf R L outs ↔ e.amount ≠ 0 := by
  constructor
  · intro hmem h0
    have hz : e.output.amount = 0 := h0
    rcases List.mem_append.1 hmem with hmem | hmem
    · rcases List.mem_append.1 hmem with hmem | hmem
      · obtain ⟨ha, hne, -⟩ := mem_minerOuts houts hmem
        exact hne (ha ▸ hz)
      · obtain ⟨e', -, hne, heq⟩ := mem_nodeOuts.1 hmem
        exact hne ((congrArg TxOut.amount heq).trans hz)
    · obtain ⟨hpos, heq⟩ := mem_poolOuts.1 hmem
      have hpool := (congrArg TxOut.amount heq).symm.trans hz
      simp only at hpool
      rw [hpool] at hpos
      exact absurd hpos (by decide)
  · intro hne
    exact List.mem_append_left _ (List.mem_append_right _ (mem_nodeOuts.2 ⟨e, he, hne, rfl⟩))

include h14 hR hL in
/-- With someone to pay there is an output to a node or to the pool. -/
theorem bound_outputs_ne_nil (hne : L ≠ []) :
    nodeOuts L ++ poolOuts env (poolAmount hf (nodeBudget R) (L.map (·.amount)).sum) ≠ [] := by
  intro hnil
  obtain ⟨hnode, hpool⟩ := List.append_eq_nil_iff.1 hnil
  have hzero : ∀ e ∈ L, e.amount = 0 := by
    intro e he
    by_contra hcon
    have := mem_nodeOuts.2 ⟨e, he, hcon, rfl⟩
    rw [hnode] at this
    simp at this
  have hT : (L.map (·.amount)).sum = 0 := by
    rw [← nodeOuts_sum, hnode]
    rfl
  rw [hT, poolOuts_nobody_paid h14 hR] at hpool
  rcases hpool with h17 | hb
  · obtain ⟨e, he⟩ := List.exists_mem_of_ne_nil L hne
    exact computeExpectedPayouts_amount_ne_zero h17 hL he (hzero e he)
  · refine hne (computeExpectedPayouts_eq_nil_of_budget ?_ hL)
    exact UInt64.toNat_inj.mp (by rw [nodeBudget_toNat hR, hb]; rfl)

include h14 hR hL hn houts htx in
/-- With someone to pay, the honest coinbase passes at fork 14 only, if no payout is zero
and the manifest fits. -/
theorem accepted_honest_cons (hne : L ≠ []) (hsum : payoutTotal L ≤ 3 * R.toNat / 100)
    (hextra : tx.extra =
      honestExtra key nonce (queuedManifest D env st height R hf poolBalance)) :
    Accepted D env st tx height R hf ↔ hf = 14 ∧ (∀ e ∈ L, e.amount ≠ 0) ∧
      extraSize nonce + 3 + (manifestFor height poolBalance L).size ≤ maxTxExtraSize := by
  have hR0 : R ≠ 0 := by
    rintro rfl
    exact hne (computeExpectedPayouts_eq_nil_of_budget (by decide) hL)
  have ha : minerReward hf R (nodeBudget R) (L.map (·.amount)).sum ≠ 0 :=
    fun h0 => hR0 ((minerReward_eq_zero_iff h14 hR).1 h0)
  have hlt : (L.map ExpectedPayout.amount).sum < R := by
    have hle := amountSum_le_budget hR hsum
    have hpos : 0 < R.toNat := Nat.pos_of_ne_zero fun h0 => hR0 (UInt64.toNat_inj.mp h0)
    rw [UInt64.le_iff_toNat_le, nodeBudget_toNat hR] at hle
    rw [UInt64.lt_iff_toNat_lt]
    omega
  have hparse := parsePoolDistribution_honest hn (queuedManifest_eq hL hne hlt) hextra
  have hmanifest : checkMevatrustCoinbasePureConsensus D env st tx height R hf = .ok () ↔
      (∀ e ∈ L, e.amount ≠ 0) ∧
        extraSize nonce + 3 + (manifestFor height poolBalance L).size ≤ maxTxExtraSize := by
    rw [pureConsensus_eq_checkManifest hL hne, checkManifest_ok_iff h14, hparse, htx]
    split_ifs with hfit
    · have hpaid : (∀ e ∈ L, e.output ∈ honestVout env hf R L outs) ↔ ∀ e ∈ L, e.amount ≠ 0 :=
        forall₂_congr fun e he => output_mem_honestVout houts he
      constructor
      · rintro ⟨d, -, -, -, hall⟩
        exact ⟨hpaid.1 hall, hfit⟩
      · rintro ⟨hall, -⟩
        exact ⟨_, rfl, rfl, rfl, hpaid.2 hall⟩
    · simp [hfit]
  constructor
  · intro hacc
    obtain ⟨hall, hfit⟩ := hmanifest.1 hacc.pureConsensus
    rcases (checkOutputTypes_honest_iff h14 houts ha htx).1 hacc.types with h | h
    · exact ⟨h, hall, hfit⟩
    · exact absurd h (bound_outputs_ne_nil h14 hR hL hne)
  · rintro ⟨h, hall, hfit⟩
    refine ⟨(checkOutputTypes_honest_iff h14 houts ha htx).2 (Or.inl h), ?_,
      hmanifest.2 ⟨hall, hfit⟩⟩
    refine checkMevatrustCoinbase_honest h14 hR houts htx hsum ?_
    rw [hparse, if_pos hfit]
    rfl

/-- **When the honest coinbase is accepted**, for payouts within the budget: the nonce has less than
128 octets, a key can be derived for the miner (unless there is nothing to pay), and either nobody
is due a payout and the fork is 14, or from 17, or there is no budget, or somebody is due one, the
fork is 14, no payout is zero and the manifest fits. -/
theorem honestMinerTx_accepted_iff (env : Env) (st : RewardState F) (key : TxKey)
    (height R : UInt64) (miner : AccountAddress) (L : List ExpectedPayout) (nonce : Bytes)
    (hf : UInt8) (poolBalance window : UInt64) (h14 : 14 ≤ hf) (hR : 3 * R.toNat < 2 ^ 64)
    (hL : computeExpectedPayouts D env st height R hf = .ok L)
    (hsum : payoutTotal L ≤ 3 * R.toNat / 100) :
    (∃ tx, honestMinerTx D env st key height R miner L nonce hf poolBalance window = some tx ∧
        Accepted D env st tx height R hf) ↔
      nonce.length < 128 ∧ (R = 0 ∨ (key.derive miner 0).isSome = true) ∧
        (L = [] ∧ (hf = 14 ∨ 17 ≤ hf ∨ 3 * R.toNat / 100 = 0) ∨
          L ≠ [] ∧ hf = 14 ∧ (∀ e ∈ L, e.amount ≠ 0) ∧
            extraSize nonce + 3 + (manifestFor height poolBalance L).size ≤ maxTxExtraSize) := by
  have hbuilt : (R = 0 ∨ (key.derive miner 0).isSome = true) ↔
      ∃ outs, minerOuts key hf miner
        (minerReward hf R (nodeBudget R) (L.map (·.amount)).sum) = some outs := by
    rw [minerOuts_isSome_iff, minerReward_eq_zero_iff h14 hR]
  -- the verdict on a coinbase that was built
  have hverdict : ∀ tx outs, nonce.length < 128 →
      minerOuts key hf miner (minerReward hf R (nodeBudget R) (L.map (·.amount)).sum) = some outs →
      tx.vout = honestVout env hf R L outs →
      tx.extra = honestExtra key nonce (queuedManifest D env st height R hf poolBalance) →
      (Accepted D env st tx height R hf ↔
        (L = [] ∧ (hf = 14 ∨ 17 ≤ hf ∨ 3 * R.toNat / 100 = 0) ∨
          L ≠ [] ∧ hf = 14 ∧ (∀ e ∈ L, e.amount ≠ 0) ∧
            extraSize nonce + 3 + (manifestFor height poolBalance L).size ≤ maxTxExtraSize)) := by
    intro tx outs hn houts htx hextra
    rcases eq_or_ne L [] with hnil | hne
    · have hbare : tx.extra = addTxPubKeyToExtra [] key.pub ++ nonceField nonce := by
        rw [hextra, queuedManifest_nil (hnil ▸ hL)]
        simp [honestExtra]
      rw [accepted_honest_nil h14 hR hL hn houts htx hnil hbare]
      simp [hnil]
    · rw [accepted_honest_cons h14 hR hL hn houts htx hne hsum hextra]
      simp [hne]
  constructor
  · rintro ⟨tx, htx, hacc⟩
    obtain ⟨hn, outs, houts, rfl⟩ := (constructMinerTx_honest h14 hR hsum).1 htx
    exact ⟨hn, hbuilt.2 ⟨outs, houts⟩, (hverdict _ outs hn houts rfl rfl).1 hacc⟩
  · rintro ⟨hn, hkey, hcond⟩
    obtain ⟨outs, houts⟩ := hbuilt.1 hkey
    exact ⟨_, (constructMinerTx_honest h14 hR hsum).2 ⟨hn, outs, houts, rfl⟩,
      (hverdict _ outs hn houts rfl rfl).2 hcond⟩

end

/-- A transaction key that derives one fixed key. -/
def sampleKey : TxKey := ⟨Pod32.single 3, fun _ _ => some (Pod32.single 7, 1)⟩

/-- **From fork 17 the honest coinbase that pays a node is rejected.** -/
theorem honestMinerTx_rejected :
    ¬ ∀ (st : RewardState ℚ) (key : TxKey) (height R : UInt64) (miner : AccountAddress)
        (L : List ExpectedPayout) (nonce : Bytes) (hf : UInt8) (poolBalance window : UInt64)
        (tx : Transaction), 14 ≤ hf → 3 * R.toNat < 2 ^ 64 →
        computeExpectedPayouts ℚ sampleEnv st height R hf = .ok L →
        payoutTotal L ≤ 3 * R.toNat / 100 →
        honestMinerTx ℚ sampleEnv st key height R miner L nonce hf poolBalance window = some tx →
        Accepted ℚ sampleEnv st tx height R hf := by
  intro h
  have hbuilt : ((honestMinerTx ℚ sampleEnv (uptimeState [1]) sampleKey 43200 10000
      ⟨Pod32.single 8, Pod32.single 9⟩ [samplePayout 300] [] 17 0 0).any
        fun tx => !checkOutputTypes tx 17) = true := by decide +kernel
  obtain ⟨tx, htx, hbad⟩ := (Option.any_eq_true _ _).1 hbuilt
  have hacc := h _ _ _ _ _ _ _ _ _ _ tx (by decide) (by decide) lonePayout (by decide) htx
  rw [hacc.types] at hbad
  exact absurd hbad (by decide)

/-- A registered node that was seen online. -/
def scoredState : RewardState ℚ :=
  let st := uptimeState [1]
  let r := st.engine.recordUptimeEvent st.registry (Pod32.single 1) ⟨2000, true, 60, 8, 0⟩
  { st with engine := r.1, registry := r.2 }

/-- The scored node is due the whole budget. -/
theorem scoredPayout :
    computeExpectedPayouts ℚ sampleEnv scoredState 240 10000 14 = .ok [samplePayout 300] := by
  decide +kernel

/-- At fork 14 an honest coinbase that pays one node is built and accepted. -/
theorem honestMinerTx_accepted_fork14 :
    ∃ tx, honestMinerTx ℚ sampleEnv scoredState sampleKey 240 10000
        ⟨Pod32.single 8, Pod32.single 9⟩ [samplePayout 300] [] 14 0 0 = some tx ∧
      Accepted ℚ sampleEnv scoredState tx 240 10000 14 :=
  (honestMinerTx_accepted_iff _ _ _ _ _ _ _ _ _ _ _ (by decide) (by decide) scoredPayout
    (by decide)).2 ⟨by decide, Or.inr rfl, Or.inr ⟨by simp, rfl, by decide, by decide +kernel⟩⟩

end Mevacoin.Trust
