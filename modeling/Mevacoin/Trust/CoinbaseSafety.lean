import Mathlib.Data.List.Dedup
import Mathlib.Data.Fintype.Card
import Mevacoin.Lib.Accounts
import Mevacoin.Trust.CoinbaseRules

/-!
# What an accepted coinbase pays

The second check looks for each payout separately, so equal payouts may share an output; the first
reads the total from the manifest, which with nobody to pay nothing compares.
-/

namespace Mevacoin.Trust

open Lib

/-! ### Every payout has an output of its own -/

/-- An assignment of the payouts to distinct outputs with their amounts and keys. -/
def PaidDistinctly (tx : Transaction) (L : List ExpectedPayout) : Prop :=
  ∃ f : Fin L.length → Fin tx.vout.length, Function.Injective f ∧
    ∀ i, (tx.vout.get (f i)).amount = (L.get i).amount ∧
      (tx.vout.get (f i)).target = .toKey (L.get i).address.spendPublicKey

/-- The output that pays a payout. -/
def ExpectedPayout.output (e : ExpectedPayout) : TxOut :=
  ⟨e.amount, .toKey e.address.spendPublicKey⟩

/-- Equal outputs are equal entries. -/
theorem output_eq_iff {e e' : ExpectedPayout} : e.output = e'.output ↔ e.entry = e'.entry := by
  simp [ExpectedPayout.output, ExpectedPayout.entry, and_comm]

variable {tx : Transaction} {L : List ExpectedPayout}

/-- Different payouts that are all paid are paid by different outputs. -/
theorem paidDistinctly_of_nodup (hnd : (L.map ExpectedPayout.entry).Nodup)
    (hpaid : ∀ e ∈ L, e.output ∈ tx.vout) : PaidDistinctly tx L := by
  have hex : ∀ i : Fin L.length, ∃ j : Fin tx.vout.length, tx.vout.get j = (L.get i).output :=
    fun i => List.mem_iff_get.1 (hpaid _ (List.get_mem L i))
  choose f hf using hex
  refine ⟨f, fun i j hij => ?_, fun i => ?_⟩
  · have hout : (L.get i).output = (L.get j).output := by rw [← hf i, ← hf j, hij]
    have hent := output_eq_iff.1 hout
    have hi : i.val < (L.map ExpectedPayout.entry).length := by simp
    have hj : j.val < (L.map ExpectedPayout.entry).length := by simp
    have hij' : (⟨i.val, hi⟩ : Fin (L.map ExpectedPayout.entry).length) = ⟨j.val, hj⟩ :=
      List.nodup_iff_injective_get.1 hnd (by simpa using hent)
    exact Fin.ext (Fin.mk.inj hij')
  · rw [hf i]
    exact ⟨rfl, rfl⟩

/-- Fewer outputs than payouts leave some payout without its own. -/
theorem not_paidDistinctly_of_length_lt (hlt : tx.vout.length < L.length) :
    ¬ PaidDistinctly tx L := by
  rintro ⟨f, hf, -⟩
  have := Fintype.card_le_of_injective f hf
  simp only [Fintype.card_fin] at this
  omega

/-- The manifest with nothing in it but the payouts. -/
def bareManifest (L : List ExpectedPayout) : PoolDistribution :=
  { totalDistributed := (L.map (·.amount)).sum, outputs := L.map ExpectedPayout.entry }

/-- A coinbase that pays each different payout once and declares the bare manifest. -/
def sharingTx (L : List ExpectedPayout) : Transaction :=
  { vout := (L.map ExpectedPayout.output).dedup
    extra := poolDistributionTag :: leBytes 2 (PoolDistribution.codec.write (bareManifest L)).length
      ++ PoolDistribution.codec.write (bareManifest L) }

/-- A varint has an octet. -/
theorem one_le_varintSize (n : ℕ) : 1 ≤ varintSize n := Nat.le_add_left 1 _

/-- No manifest for these payouts is shorter than the bare one. -/
theorem bareManifest_size_le {d : PoolDistribution} (ho : d.outputs = L.map ExpectedPayout.entry)
    (ht : d.totalDistributed = (L.map (·.amount)).sum) : (bareManifest L).size ≤ d.size := by
  have h1 := one_le_varintSize d.height.toNat
  have h2 := one_le_varintSize d.period.toNat
  have h3 := one_le_varintSize d.totalPoolBalance.toNat
  have hz : varintSize 0 = 1 := rfl
  simp only [PoolDistribution.size, bareManifest, ho, ht, UInt64.toNat_zero, UInt32.toNat_zero]
  omega

/-- A manifest has at most one entry per octet. -/
theorem outputs_length_le_size (d : PoolDistribution) : d.outputs.length ≤ d.size := by
  have hsum : d.outputs.length ≤ (d.outputs.map PoolDistribution.entrySize).sum := by
    induction d.outputs with
    | nil => simp
    | cons o l ih =>
      simp only [List.length_cons, List.map_cons, List.sum_cons, PoolDistribution.entrySize] at ih ⊢
      omega
  unfold PoolDistribution.size
  omega

/-- The manifest of the shared outputs parses. -/
theorem parsePoolDistribution_sharingTx (hsize : (bareManifest L).size ≤ 0xFFFF) :
    parsePoolDistribution (sharingTx L) = some (bareManifest L) := by
  have hlen : (bareManifest L).outputs.length < 2 ^ 64 := by
    have := outputs_length_le_size (bareManifest L)
    omega
  refine parseTagged_packed PoolDistribution.codec_roundTrips hlen (by decide) ?_ [] ?_
  · rw [PoolDistribution.codec_write_length hlen]
    exact hsize
  · rw [List.append_nil]
    rfl

/-- Equal payouts share an output. -/
theorem sharingTx_vout_length_lt (hdup : ¬ (L.map ExpectedPayout.entry).Nodup) :
    (sharingTx L).vout.length < L.length := by
  have hle := (List.dedup_sublist (L.map ExpectedPayout.output)).length_le
  have hne : (L.map ExpectedPayout.output).dedup.length ≠ (L.map ExpectedPayout.output).length := by
    intro heq
    have hself := (List.dedup_sublist (L.map ExpectedPayout.output)).eq_of_length heq
    have hnd : (L.map ExpectedPayout.output).Nodup := by
      rw [← hself]
      exact List.nodup_dedup _
    refine hdup ?_
    rw [List.nodup_map_iff_inj_on hnd.of_map]
    intro e he e' he' heq'
    exact List.inj_on_of_nodup_map hnd he he' (output_eq_iff.2 heq')
  simp only [sharingTx, List.length_map] at *
  omega

section

variable {F : Type} [FloatArith F] {D : Type} [FloatArith D] [FloatWiden F D]

/-- A parsed manifest fits the two-octet length of its field. -/
theorem size_le_of_parsePoolDistribution {tx : Transaction} {d : PoolDistribution}
    (h : parsePoolDistribution tx = some d) : d.size ≤ 0xFFFF := by
  obtain ⟨blob, hfind, hparse⟩ := Option.bind_eq_some_iff.1 h
  have hblob := PoolDistribution.codec_strict.exact.eq_write_of_parse hparse
  have hlen := findMevatrustTag_length hfind
  have hout := PoolDistribution.outputs_length_le_write d
  rw [hblob] at hlen
  rwa [PoolDistribution.codec_write_length (by omega)] at hlen

/-- **Every due payout has an output of its own** in every accepted coinbase exactly when no two
payouts agree in key and amount, or the list is too long for any manifest. -/
theorem duePayouts_paidDistinctly_iff (env : Env) (st : RewardState F) (height R : UInt64)
    (hf : UInt8) (L : List ExpectedPayout) (h14 : 14 ≤ hf)
    (hL : computeExpectedPayouts D env st height R hf = .ok L) :
    (∀ tx, checkMevatrustCoinbasePureConsensus D env st tx height R hf = .ok () →
        PaidDistinctly tx L) ↔
      (L.map ExpectedPayout.entry).Nodup ∨ 0xFFFF < (bareManifest L).size := by
  by_cases hnil : L = []
  · subst hnil
    simp only [List.map_nil, List.nodup_nil, true_or, iff_true]
    intro tx _
    exact paidDistinctly_of_nodup (by simp) (by simp)
  constructor
  · intro hall
    by_contra hcon
    obtain ⟨hdup, hsize⟩ := not_or.1 hcon
    have hok : checkMevatrustCoinbasePureConsensus D env st (sharingTx L) height R hf = .ok () := by
      rw [pureConsensus_eq_checkManifest hL hnil, checkManifest_ok_iff h14]
      refine ⟨bareManifest L, parsePoolDistribution_sharingTx (by omega), rfl, rfl, ?_⟩
      intro e he
      exact List.mem_dedup.2 (List.mem_map_of_mem he)
    exact not_paidDistinctly_of_length_lt (sharingTx_vout_length_lt hdup) (hall _ hok)
  · intro hcond tx hok
    rw [pureConsensus_eq_checkManifest hL hnil, checkManifest_ok_iff h14] at hok
    obtain ⟨d, hd, ho, ht, hpaid⟩ := hok
    rcases hcond with hnd | hbig
    · exact paidDistinctly_of_nodup hnd hpaid
    · have := size_le_of_parsePoolDistribution hd
      have := bareManifest_size_le ho ht
      omega

end

/-! ### Two nodes of one wallet -/

/-- An environment in which one wallet address can be parsed. -/
def sampleEnv : Env where
  crypto := sevenCurve.crypto
  parseWalletAddress a :=
    if a = asciiBytes "wallet" then some ⟨Pod32.single 11, Pod32.single 12⟩ else none
  poolAddress := ⟨Pod32.fill 0xEE, Pod32.fill 0xEE⟩

/-- A registration to that wallet. -/
def sampleRegistration (n : UInt8) : Registration where
  nodeId := Pod32.single n
  walletPubkey := Pod32.single 11
  nodePubkey := Pod32.single n
  walletAddress := asciiBytes "wallet"
  port := 17080
  signature := ⟨Pod32.null, Pod32.null⟩

/-- Five uptime samples, twelve hours apart. -/
def withUptime (eng : Engine) (n : UInt8) : Engine :=
  [0, 1, 2, 3, 4].foldl
    (fun eng k => eng.recordChainUptimeSample (Pod32.single n) (100 + 360 * k) (43200 * k)) eng

/-- The state after some nodes registered and showed two days of uptime. -/
def uptimeState (nodes : List UInt8) : RewardState ℚ where
  registry := nodes.foldl
    (fun r n => (r.registerNodeOnchain (sampleRegistration n) 50 17 1000).getD r) {}
  engine := nodes.foldl withUptime {}

/-- What one node is due. -/
def samplePayout (amount : UInt64) : ExpectedPayout :=
  ⟨⟨Pod32.single 11, Pod32.single 12⟩, amount⟩

/-- Two nodes of one wallet are due the same. -/
theorem twinPayouts :
    computeExpectedPayouts ℚ sampleEnv (uptimeState [1, 2]) 43200 10000 17 =
      .ok [samplePayout 150, samplePayout 150] := by
  decide +kernel

/-- One node is due the whole budget. -/
theorem lonePayout :
    computeExpectedPayouts ℚ sampleEnv (uptimeState [1]) 43200 10000 17 =
      .ok [samplePayout 300] := by
  decide +kernel

/-- One output for two payouts is accepted. -/
theorem sharingTx_twin_accepted :
    checkMevatrustCoinbasePureConsensus ℚ sampleEnv (uptimeState [1, 2])
      (sharingTx [samplePayout 150, samplePayout 150]) 43200 10000 17 = .ok () := by
  decide +kernel

/-- **Two equal payouts to one wallet may share an output.** -/
theorem equalPayouts_share_output :
    ¬ ∀ (st : RewardState ℚ) (height R : UInt64) (hf : UInt8) (L : List ExpectedPayout)
        (tx : Transaction), 14 ≤ hf → computeExpectedPayouts ℚ sampleEnv st height R hf = .ok L →
        checkMevatrustCoinbasePureConsensus ℚ sampleEnv st tx height R hf = .ok () →
        PaidDistinctly tx L := by
  intro h
  exact not_paidDistinctly_of_length_lt (by decide)
    (h _ _ _ _ _ _ (by decide) twinPayouts sharingTx_twin_accepted)

/-- A single payout is always paid by an output of its own. -/
theorem lonePayout_paidDistinctly :
    computeExpectedPayouts ℚ sampleEnv (uptimeState [1]) 43200 10000 17 =
        .ok [samplePayout 300] ∧
      ∀ tx, checkMevatrustCoinbasePureConsensus ℚ sampleEnv (uptimeState [1]) tx 43200 10000 17 =
        .ok () → PaidDistinctly tx [samplePayout 300] :=
  ⟨lonePayout,
    (duePayouts_paidDistinctly_iff _ _ _ _ _ _ (by decide) lonePayout).2 (Or.inl (by decide))⟩

/-! ### The pool receives the rest of the 3% -/

/-- Whether an output, tagged or not, carries a key. -/
def TxOut.carries (o : TxOut) (key : PublicKey) : Bool :=
  match o.target with
  | .toKey k => k = key
  | .toTaggedKey k _ => k = key
  | _ => false

/-- What the outputs carrying the pool's spend key add up to, as a natural number. -/
def poolPaid (env : Env) (tx : Transaction) : ℕ :=
  ((tx.vout.filter fun o => TxOut.carries o env.poolAddress.spendPublicKey).map
    (·.amount.toNat)).sum

/-- What a list of payouts adds up to, as a natural number. -/
def payoutTotal (L : List ExpectedPayout) : ℕ := (L.map (·.amount.toNat)).sum

variable (R : UInt64) {env : Env} {tx : Transaction} {a : UInt64}

/-- The budget, with its wrap. -/
theorem toNat_nodeBudget : (nodeBudget R).toNat = 3 * R.toNat % 2 ^ 64 / 100 := by
  rw [nodeBudget, UInt64.toNat_div, Nat.mul_comm]
  rfl

/-- The budget is 3% if nothing wraps. -/
theorem nodeBudget_toNat {R : UInt64} (hR : 3 * R.toNat < 2 ^ 64) :
    (nodeBudget R).toNat = 3 * R.toNat / 100 := by
  rw [toNat_nodeBudget, Nat.mod_eq_of_lt hR]

/-- The budget is 3% at most. -/
theorem toNat_nodeBudget_le : (nodeBudget R).toNat ≤ 3 * R.toNat / 100 := by
  rw [toNat_nodeBudget]
  exact Nat.div_le_div_right (Nat.mod_le _ _)

/-- The wrapping sum of the amounts. -/
theorem amountSum_toNat (L : List ExpectedPayout) :
    ((L.map ExpectedPayout.amount).sum).toNat = payoutTotal L % 2 ^ 64 :=
  toNat_sum_mod _ L

/-- The amounts of the outputs that carry the spend key of the pool. -/
def poolAmounts (env : Env) (tx : Transaction) : List ℕ :=
  (tx.vout.filter fun o => TxOut.carries o env.poolAddress.spendPublicKey).map (·.amount.toNat)

/-- An output to the pool is counted. -/
theorem mem_poolAmounts (h : ⟨a, .toKey env.poolAddress.spendPublicKey⟩ ∈ tx.vout) :
    a.toNat ∈ poolAmounts env tx := by
  refine List.mem_map.2 ⟨_, List.mem_filter.2 ⟨h, ?_⟩, rfl⟩
  simp [TxOut.carries]

/-- The pool is paid no less than one output to it. -/
theorem le_poolPaid (h : ⟨a, .toKey env.poolAddress.spendPublicKey⟩ ∈ tx.vout) :
    a.toNat ≤ poolPaid env tx :=
  List.single_le_sum (fun _ _ => Nat.zero_le _) _ (mem_poolAmounts h)

/-- From fork 14 the pool's share is the budget less the distributed total, unless from
fork 17 nothing was distributed. -/
theorem poolAmount_toNat {hf : UInt8} (h14 : 14 ≤ hf) {budget nodeTotal : UInt64}
    (hpaid : hf ≤ 16 ∨ nodeTotal ≠ 0) :
    (poolAmount hf budget nodeTotal).toNat = budget.toNat - nodeTotal.toNat := by
  have hv2 : hfVersionMevatrustRuleV2 ≤ hf := h14
  have hv3 : ¬ (hfVersionMevatrustUptimeV3 ≤ hf ∧ nodeTotal = 0) := by
    rintro ⟨h17, h0⟩
    rcases hpaid with h16 | hne
    · exact absurd (UInt8.le_trans h17 h16) (by decide)
    · exact hne h0
  rw [poolAmount]
  split_ifs with hlt
  · exact UInt64.toNat_sub_of_le _ _ (UInt64.le_of_lt hlt)
  · rw [UInt64.not_lt, UInt64.le_iff_toNat_le] at hlt
    simp
    omega

/-- If the first check passes, the pool has at least the budget less the declared total. -/
theorem budget_sub_le_poolPaid {height R : UInt64} {hf : UInt8} (h14 : 14 ≤ hf)
    (hok : checkMevatrustCoinbase env tx height R hf = .ok ()) {total : UInt64}
    (htotal : ((parsePoolDistribution tx).map (·.totalDistributed)).getD 0 = total)
    (hpaid : hf ≤ 16 ∨ total ≠ 0) : (nodeBudget R).toNat - total.toNat ≤ poolPaid env tx := by
  obtain ⟨-, hpool⟩ := (checkMevatrustCoinbase_ok_iff h14).1 hok
  simp only [htotal] at hpool
  rw [← poolAmount_toNat h14 hpaid]
  rcases Nat.eq_zero_or_pos (poolAmount hf (nodeBudget R) total).toNat with h0 | hpos
  · rw [h0]
    exact Nat.zero_le _
  · exact le_poolPaid (hpool (UInt64.lt_iff_toNat_lt.2 hpos))

/-- A key that is not the pool's. -/
def otherKey (env : Env) : PublicKey :=
  if env.poolAddress.spendPublicKey = Pod32.null then Pod32.fill 1 else Pod32.null

/-- The other key is not the pool's. -/
theorem otherKey_ne (env : Env) : otherKey env ≠ env.poolAddress.spendPublicKey := by
  unfold otherKey
  split_ifs with h
  · rw [h]
    decide
  · exact fun h' => h h'.symm

/-- A coinbase that gives the pool no more than `pool` and the rest to another key. -/
def skimmingTx (env : Env) (R pool : UInt64) (extra : Bytes) : Transaction :=
  { vout := [⟨pool, .toKey env.poolAddress.spendPublicKey⟩, ⟨R - pool, .toKey (otherKey env)⟩]
    extra := extra }

/-- What the skimming coinbase pays the pool. -/
theorem poolPaid_skimmingTx (env : Env) (R pool : UInt64) (extra : Bytes) :
    poolPaid env (skimmingTx env R pool extra) = pool.toNat := by
  simp [poolPaid, skimmingTx, TxOut.carries, otherKey_ne]

/-- The first check of the skimming coinbase. -/
theorem checkMevatrustCoinbase_skimmingTx {height R : UInt64} {hf : UInt8} (h14 : 14 ≤ hf)
    {extra : Bytes} {dist : PoolDistribution}
    (hdist : parsePoolDistribution { extra := extra } = some dist) :
    checkMevatrustCoinbase env
      (skimmingTx env R (poolAmount hf (nodeBudget R) dist.totalDistributed) extra) height R hf =
      .ok () := by
  rw [checkMevatrustCoinbase_ok_iff h14]
  have hd : parsePoolDistribution
      (skimmingTx env R (poolAmount hf (nodeBudget R) dist.totalDistributed) extra) =
      some dist := hdist
  refine ⟨?_, ?_⟩
  · simp only [skimmingTx, List.map_cons, List.map_nil, List.sum_cons, List.sum_nil,
      UInt64.add_zero]
    rw [UInt64.add_comm, UInt64.sub_add_cancel]
  · rw [hd, Option.map_some]
    exact fun _ => List.mem_cons_self

section

variable {F : Type} [FloatArith F] {D : Type} [FloatArith D] [FloatWiden F D]

/-- **The pool receives the rest of the 3%** in every accepted coinbase with a given extra field
exactly when, with nobody to pay and a budget to give, the manifest does not declare a total without
entries. -/
theorem pool_receives_rest_iff (env : Env) (st : RewardState F) (height R : UInt64) (hf : UInt8)
    (extra : Bytes) (L : List ExpectedPayout) (h14 : 14 ≤ hf) (hR : 3 * R.toNat < 2 ^ 64)
    (hL : computeExpectedPayouts D env st height R hf = .ok L) (hdue : hf ≤ 16 ∨ L ≠ []) :
    (∀ tx, tx.extra = extra → checkMevatrustCoinbase env tx height R hf = .ok () →
        checkMevatrustCoinbasePureConsensus D env st tx height R hf = .ok () →
        3 * R.toNat / 100 - payoutTotal L ≤ poolPaid env tx) ↔
      (L = [] → 0 < 3 * R.toNat / 100 → ∀ dist,
        parsePoolDistribution { extra := extra } = some dist → dist.outputs = [] →
        dist.totalDistributed = 0) := by
  constructor
  · intro hall hnil hbudget dist hdist hout
    subst hnil
    by_contra hne
    have h16 : hf ≤ 16 := by simpa using hdue
    have hpure : checkMevatrustCoinbasePureConsensus D env st (skimmingTx env R
        (poolAmount hf (nodeBudget R) dist.totalDistributed) extra) height R hf = .ok () := by
      refine (pureConsensus_nil_iff hL).2 fun d hd => ?_
      obtain rfl := Option.some.inj (hdist.symm.trans hd)
      exact hout
    have hle := hall _ rfl (checkMevatrustCoinbase_skimmingTx h14 hdist) hpure
    rw [poolPaid_skimmingTx, poolAmount_toNat h14 (Or.inl h16), nodeBudget_toNat hR] at hle
    have hpos : 0 < dist.totalDistributed.toNat :=
      Nat.pos_of_ne_zero fun h0 => hne (UInt64.toNat_inj.mp h0)
    simp only [payoutTotal, List.map_nil, List.sum_nil] at hle
    omega
  · intro hcond tx hextra hok hpure
    have hparse : parsePoolDistribution tx = parsePoolDistribution { extra := extra } := by
      rw [← hextra]
      rfl
    rw [← nodeBudget_toNat hR]
    rcases eq_or_ne L [] with rfl | hne
    · -- nobody to pay: the total declared by an empty manifest is zero
      have h16 : hf ≤ 16 := by simpa using hdue
      rcases Nat.eq_zero_or_pos (3 * R.toNat / 100) with h0 | hpos
      · rw [nodeBudget_toNat hR, h0]
        simp
      · have hzero : ((parsePoolDistribution tx).map (·.totalDistributed)).getD 0 = 0 := by
          cases hp : parsePoolDistribution tx with
          | none => rfl
          | some dist =>
            exact hcond rfl hpos dist (hparse ▸ hp) ((pureConsensus_nil_iff hL).1 hpure dist hp)
        simpa [payoutTotal] using budget_sub_le_poolPaid h14 hok hzero (Or.inl h16)
    · -- somebody to pay: the declared total is the wrapping sum of the payouts
      rw [pureConsensus_eq_checkManifest hL hne, checkManifest_ok_iff h14] at hpure
      obtain ⟨dist, hp, -, htotal, -⟩ := hpure
      have hsum := amountSum_toNat L
      have hdecl : ((parsePoolDistribution tx).map (·.totalDistributed)).getD 0 =
          (L.map ExpectedPayout.amount).sum := by
        rw [hp, Option.map_some, Option.getD_some, htotal]
      by_cases hpaid : hf ≤ 16 ∨ (L.map ExpectedPayout.amount).sum ≠ 0
      · have hle := budget_sub_le_poolPaid h14 hok hdecl hpaid
        omega
      · -- from fork 17 every amount is positive, so a zero sum has wrapped
        obtain ⟨h17, hz⟩ := not_or.1 hpaid
        have hz : (L.map ExpectedPayout.amount).sum = 0 := not_not.1 hz
        rw [hz, UInt64.toNat_zero] at hsum
        obtain ⟨e, he⟩ := List.exists_mem_of_ne_nil L hne
        have hpos : 0 < payoutTotal L := by
          have hge : 17 ≤ hf := by
            rw [UInt8.not_le] at h17
            exact UInt8.lt_iff_toNat_lt.1 h17
          have hamt := computeExpectedPayouts_amount_ne_zero hge hL he
          have hle : e.amount.toNat ≤ payoutTotal L :=
            List.single_le_sum (fun _ _ => Nat.zero_le _) _ (List.mem_map_of_mem he)
          have : 0 < e.amount.toNat := Nat.pos_of_ne_zero fun h0 => hamt (UInt64.toNat_inj.mp h0)
          omega
        have hlt := (nodeBudget R).toNat_lt
        omega

end

/-- A coinbase whose manifest pays nobody and declares that the budget is distributed. -/
def emptyManifestTx : Transaction :=
  let blob := PoolDistribution.codec.write { totalDistributed := 300 }
  { vout := [⟨10000, .toKey (Pod32.single 5)⟩]
    extra := poolDistributionTag :: leBytes 2 blob.length ++ blob }

/-- Nobody is due a payout. -/
theorem noPayouts : computeExpectedPayouts ℚ sampleEnv (uptimeState []) 1 10000 14 = .ok [] := by
  decide +kernel

/-- **The miner can keep the 3%** when nobody is due a payout. -/
theorem emptyManifest_skims_pool :
    ¬ ∀ (st : RewardState ℚ) (height R : UInt64) (hf : UInt8) (L : List ExpectedPayout)
        (tx : Transaction), 14 ≤ hf → 3 * R.toNat < 2 ^ 64 →
        computeExpectedPayouts ℚ sampleEnv st height R hf = .ok L → (hf ≤ 16 ∨ L ≠ []) →
        checkMevatrustCoinbase sampleEnv tx height R hf = .ok () →
        checkMevatrustCoinbasePureConsensus ℚ sampleEnv st tx height R hf = .ok () →
        3 * R.toNat / 100 - payoutTotal L ≤ poolPaid sampleEnv tx := by
  intro h
  have hpure : checkMevatrustCoinbasePureConsensus ℚ sampleEnv (uptimeState []) emptyManifestTx
      1 10000 14 = .ok () := by decide +kernel
  have hle := h _ _ _ _ _ emptyManifestTx (by decide) (by decide) noPayouts (Or.inl (by decide))
    (by decide +kernel) hpure
  revert hle
  decide +kernel

/-- Without a manifest the pool receives the whole 3%. -/
theorem pool_receives_rest_bare :
    computeExpectedPayouts ℚ sampleEnv (uptimeState []) 1 10000 14 = .ok [] ∧
      ∀ tx, tx.extra = [] → checkMevatrustCoinbase sampleEnv tx 1 10000 14 = .ok () →
        checkMevatrustCoinbasePureConsensus ℚ sampleEnv (uptimeState []) tx 1 10000 14 = .ok () →
        300 ≤ poolPaid sampleEnv tx :=
  ⟨noPayouts, (pool_receives_rest_iff sampleEnv (uptimeState []) 1 10000 14 [] [] (by decide)
    (by decide) noPayouts (Or.inl (by decide))).2
      fun _ _ dist hdist => absurd hdist (by simp [parsePoolDistribution, parseTagged])⟩

end Mevacoin.Trust
