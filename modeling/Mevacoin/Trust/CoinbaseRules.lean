import Mevacoin.Trust.Payload
import Mevacoin.Trust.Payouts

/-!
# The two coinbase checks

`src/cryptonote_core/mevatrust/mevatrust_coinbase_validator.cpp`.
-/

namespace Mevacoin.Trust

open Lib

/-- `HF_VERSION_MEVATRUST_VALIDATION`. -/
def hfVersionMevatrustValidation : UInt8 := 13

/-- `HF_VERSION_MEVATRUST_RULE_V2`. -/
def hfVersionMevatrustRuleV2 : UInt8 := 14

/-- `vout_key_is`: only a plain key output counts. -/
def voutKeyIs (o : TxOut) (expected : PublicKey) : Bool := o.target = .toKey expected

/-- `parse_mevatrust_pool_distribution_from_tx`. -/
def parsePoolDistribution (tx : Transaction) : Option PoolDistribution :=
  parseTagged PoolDistribution.codec poolDistributionTag tx

/-- What is due to the pool: nothing from fork 17 if nobody is paid, the remainder from fork 14, the
whole budget before. -/
def poolAmount (hfVersion : UInt8) (budget nodeTotal : UInt64) : UInt64 :=
  if hfVersionMevatrustUptimeV3 ≤ hfVersion ∧ nodeTotal = 0 then 0
  else if hfVersionMevatrustRuleV2 ≤ hfVersion then
    if nodeTotal < budget then budget - nodeTotal else 0
  else budget

/-- `check_mevatrust_coinbase`. -/
def checkMevatrustCoinbase (env : Env) (minerTx : Transaction) (height totalReward : UInt64)
    (hfVersion : UInt8) : Except String Unit :=
  let sumActual := (minerTx.vout.map (·.amount)).sum
  let nodeTotal := ((parsePoolDistribution minerTx).map (·.totalDistributed)).getD 0
  let expectedPoolAmount := poolAmount hfVersion (nodeBudget totalReward) nodeTotal
  let poolFound := minerTx.vout.any fun o =>
    o.amount = expectedPoolAmount && (hfVersion < hfVersionMevatrustRuleV2 ||
      voutKeyIs o env.poolAddress.spendPublicKey)
  if hfVersion < hfVersionMevatrustValidation then .ok ()
  else if sumActual ≠ totalReward then
    .error ("Coinbase sum " ++ toString sumActual ++ " != total_reward " ++
      toString totalReward ++ " at height " ++ toString height)
  else if 0 < expectedPoolAmount ∧ poolFound = false then
    .error ("Pool output missing or misdirected at height " ++ toString height ++
      ": expected " ++ toString expectedPoolAmount ++ " to the pool address")
  else .ok ()

/-- The key and amount of a payout, as a manifest entry has them. -/
def ExpectedPayout.entry (e : ExpectedPayout) : PublicKey × UInt64 :=
  (e.address.spendPublicKey, e.amount)

/-- Whether some output pays this entry. -/
def paidIn (tx : Transaction) (e : ExpectedPayout) : Bool :=
  tx.vout.any fun o => o.amount = e.amount && voutKeyIs o e.address.spendPublicKey

/-- The two hexadecimal digits of an octet. -/
def hexOctet (b : UInt8) : List Char := [Nat.digitChar (b.toNat / 16), Nat.digitChar (b.toNat % 16)]

/-- `pod_to_hex`. -/
def podToHex (p : Pod32) : String := String.ofList (p.data.flatMap hexOctet)

/-- The comparison of manifest and payouts, position by position. -/
def compareEntries : ℕ → List (PublicKey × UInt64) → List ExpectedPayout → Except String Unit
  | i, d :: ds, e :: es =>
    if d.1 ≠ e.address.spendPublicKey then
      .error ("MevaTrust: payout mismatch at position " ++ toString i ++
        " — the recipient is not the node the protocol chose")
    else if d.2 ≠ e.amount then
      .error ("MevaTrust: amount mismatch at position " ++ toString i ++ " - " ++
        toString d.2 ++ " declared, " ++ toString e.amount ++ " due")
    else compareEntries (i + 1) ds es
  | _, _, _ => .ok ()

/-- The checks made when someone is due a payout. -/
def checkManifest (minerTx : Transaction) (hfVersion : UInt8) (expected : List ExpectedPayout) :
    Except String Unit :=
  match parsePoolDistribution minerTx with
  | none => .error "MevaTrust: the 3% is due but the block declares no manifest"
  | some dist =>
    let entriesSum := (dist.outputs.map (·.2)).sum
    if dist.outputs.length ≠ expected.length then
      .error ("MevaTrust: the manifest pays " ++ toString dist.outputs.length ++
        " nodes, the rule says " ++ toString expected.length)
    else if entriesSum ≠ dist.totalDistributed then
      .error ("MevaTrust: the manifest total (" ++ toString dist.totalDistributed ++
        ") is not the sum of its own entries (" ++ toString entriesSum ++ ")")
    else
      match expected.find? fun e => hfVersionMevatrustRuleV2 ≤ hfVersion && !paidIn minerTx e with
      | some e =>
        .error ("MevaTrust: the 3% is declared to the right node but the coinbase " ++
          "has no spendable output to it (node " ++
          ((podToHex e.address.spendPublicKey).take 16).toString ++
          ") - the money would go somewhere else")
      | none => compareEntries 0 dist.outputs expected

section

variable {F : Type} [FloatArith F]

/-- `check_mevatrust_coinbase_pure_consensus`. -/
def checkMevatrustCoinbasePureConsensus (D : Type) [FloatArith D] [FloatWiden F D] (env : Env)
    (st : RewardState F) (minerTx : Transaction) (height totalReward : UInt64)
    (hfVersion : UInt8) : Except String Unit :=
  if st.initialized = false then
    .error "MevaTrust state unavailable: cannot recompute the 3% rule"
  else
    match computeExpectedPayouts D env st height totalReward hfVersion with
    | .error e => .error ("MevaTrust 3% rule not computable: " ++ e)
    | .ok [] =>
      match parsePoolDistribution minerTx with
      | some stray =>
        if stray.outputs = [] then .ok ()
        else .error "MevaTrust: the block declares payouts but no node is due any"
      | none => .ok ()
    | .ok expected => checkManifest minerTx hfVersion expected

end

/-! ### What the checks decide -/

@[simp] theorem voutKeyIs_iff {o : TxOut} {k : PublicKey} :
    voutKeyIs o k = true ↔ o.target = .toKey k := by
  simp [voutKeyIs]

theorem paidIn_iff {tx : Transaction} {e : ExpectedPayout} :
    paidIn tx e = true ↔ ⟨e.amount, .toKey e.address.spendPublicKey⟩ ∈ tx.vout := by
  simp only [paidIn, List.any_eq_true, Bool.and_eq_true, decide_eq_true_eq, voutKeyIs_iff]
  constructor
  · rintro ⟨⟨a, t⟩, ho, rfl, rfl⟩
    exact ho
  · intro ho
    exact ⟨_, ho, rfl, rfl⟩

/-- The first check from fork 14: the amounts add up, modulo the word size, and the pool has its
output. -/
theorem checkMevatrustCoinbase_ok_iff {env : Env} {tx : Transaction} {height R : UInt64}
    {hf : UInt8} (h14 : 14 ≤ hf) :
    checkMevatrustCoinbase env tx height R hf = .ok () ↔
      (tx.vout.map (·.amount)).sum = R ∧
        let due := poolAmount hf (nodeBudget R)
          (((parsePoolDistribution tx).map (·.totalDistributed)).getD 0)
        (0 < due → ⟨due, .toKey env.poolAddress.spendPublicKey⟩ ∈ tx.vout) := by
  have h13 : ¬ hf < hfVersionMevatrustValidation := by
    rw [UInt8.not_lt]
    exact UInt8.le_trans (by decide) h14
  have hv2 : ¬ hf < hfVersionMevatrustRuleV2 := by
    rw [UInt8.not_lt]
    exact h14
  have hfound : ∀ due, (tx.vout.any fun o => decide (o.amount = due) &&
      (decide (hf < hfVersionMevatrustRuleV2) || voutKeyIs o env.poolAddress.spendPublicKey)) = true
      ↔ ⟨due, .toKey env.poolAddress.spendPublicKey⟩ ∈ tx.vout := by
    intro due
    rw [← paidIn_iff (e := ⟨env.poolAddress, due⟩)]
    simp [paidIn, hv2]
  unfold checkMevatrustCoinbase
  simp only [if_neg h13]
  split_ifs with hsum hpool
  · simp [hsum]
  · simp only [false_iff, not_and]
    intro _ himp
    rw [← Bool.not_eq_true, hfound] at hpool
    exact hpool.2 (himp hpool.1)
  · have hsum' := not_not.1 hsum
    simp only [true_iff]
    refine ⟨hsum', fun hpos => ?_⟩
    rw [← hfound]
    by_contra hno
    exact hpool ⟨hpos, by simpa using hno⟩

theorem compareEntries_ok_iff {i : ℕ} {ds : List (PublicKey × UInt64)} {es : List ExpectedPayout}
    (hlen : ds.length = es.length) :
    compareEntries i ds es = .ok () ↔ ds = es.map ExpectedPayout.entry := by
  induction ds generalizing i es with
  | nil =>
    obtain rfl : es = [] := List.length_eq_zero_iff.1 hlen.symm
    simp [compareEntries]
  | cons d ds ih =>
    cases es with
    | nil => simp at hlen
    | cons e es =>
      have hlen' : ds.length = es.length := by simpa using hlen
      unfold compareEntries
      split_ifs with hk ha
      · simp [ExpectedPayout.entry, Prod.ext_iff, hk]
      · simp [ExpectedPayout.entry, Prod.ext_iff, ha]
      · rw [ih hlen']
        simp [ExpectedPayout.entry, Prod.ext_iff, not_not.1 hk, not_not.1 ha]

/-- The manifest check from fork 14: it lists the payouts with their wrapping total, and every
payout finds some output. -/
theorem checkManifest_ok_iff {tx : Transaction} {hf : UInt8} {L : List ExpectedPayout}
    (h14 : 14 ≤ hf) :
    checkManifest tx hf L = .ok () ↔
      ∃ dist, parsePoolDistribution tx = some dist ∧ dist.outputs = L.map ExpectedPayout.entry ∧
        dist.totalDistributed = (L.map (·.amount)).sum ∧
        ∀ e ∈ L, ⟨e.amount, .toKey e.address.spendPublicKey⟩ ∈ tx.vout := by
  have hv2 : hfVersionMevatrustRuleV2 ≤ hf := h14
  have hsnd : (L.map ExpectedPayout.entry).map (·.2) = L.map (·.amount) := by
    simp [ExpectedPayout.entry]
  unfold checkManifest
  cases hp : parsePoolDistribution tx with
  | none => simp
  | some dist =>
    simp only [Option.some.injEq, exists_eq_left']
    split_ifs with hlen hsum
    · simp only [false_iff]
      intro ho
      simp [ho] at hlen
    · simp only [false_iff, not_and]
      intro ho htot
      rw [ho, hsnd] at hsum
      exact absurd htot.symm hsum
    · have hlen' := not_not.1 hlen
      have hsum' := not_not.1 hsum
      split
      · next e he =>
        have hmem := List.mem_of_find?_eq_some he
        have hun := List.find?_some he
        simp only [reduceCtorEq, false_iff, not_and]
        intro _ _ hall
        rw [paidIn_iff.2 (hall e hmem)] at hun
        exact absurd hun (by simp)
      · next hnone =>
        rw [compareEntries_ok_iff hlen']
        constructor
        · intro ho
          refine ⟨ho, by rw [← hsum', ho, hsnd], fun e he => ?_⟩
          have := List.find?_eq_none.1 hnone e he
          simpa [hv2, paidIn_iff] using this
        · exact fun h => h.1

section

variable {F : Type} [FloatArith F] {D : Type} [FloatArith D] [FloatWiden F D]

variable {env : Env} {st : RewardState F} {R : UInt64} {L : List ExpectedPayout} {tx : Transaction}

/-- A state whose payouts can be computed is initialised. -/
theorem initialized_of_computeExpectedPayouts {height : UInt64} {hf : UInt8}
    (hL : computeExpectedPayouts D env st height R hf = .ok L) : st.initialized = true := by
  by_contra h
  rw [Bool.not_eq_true] at h
  simp [computeExpectedPayouts, h] at hL

/-- With nobody to pay, the second check only refuses a manifest that lists someone. -/
theorem pureConsensus_nil_iff {height : UInt64} {hf : UInt8}
    (hL : computeExpectedPayouts D env st height R hf = .ok []) :
    checkMevatrustCoinbasePureConsensus D env st tx height R hf = .ok () ↔
      ∀ dist, parsePoolDistribution tx = some dist → dist.outputs = [] := by
  unfold checkMevatrustCoinbasePureConsensus
  rw [if_neg (by simp [initialized_of_computeExpectedPayouts hL]), hL]
  cases hp : parsePoolDistribution tx with
  | none => simp
  | some dist => by_cases ho : dist.outputs = [] <;> simp [ho]

/-- With someone to pay, the second check is the manifest check. -/
theorem pureConsensus_eq_checkManifest {height : UInt64} {hf : UInt8}
    (hL : computeExpectedPayouts D env st height R hf = .ok L) (hne : L ≠ []) :
    checkMevatrustCoinbasePureConsensus D env st tx height R hf = checkManifest tx hf L := by
  unfold checkMevatrustCoinbasePureConsensus
  rw [if_neg (by simp [initialized_of_computeExpectedPayouts hL]), hL]
  cases L with
  | nil => exact absurd rfl hne
  | cons e L => rfl

end

end Mevacoin.Trust
