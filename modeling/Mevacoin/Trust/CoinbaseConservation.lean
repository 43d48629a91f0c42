import Mevacoin.Lib.Loop
import Mevacoin.Trust.HonestMiner

/-!
# What the coinbase builder mints

`construct_miner_tx_with_mevatrust` compares the sum of its outputs with the block reward plus the
bonus, both in 64 bits.
-/

namespace Mevacoin.Trust

open Lib

/-! ### Digits and their merging -/

/-- Amounts added up in the naturals. -/
def natSum (amounts : List UInt64) : ℕ := (amounts.map (·.toNat)).sum

@[simp] theorem natSum_nil : natSum [] = 0 := rfl

@[simp] theorem natSum_cons (a : UInt64) (l : List UInt64) :
    natSum (a :: l) = a.toNat + natSum l := rfl

@[simp] theorem natSum_append (l l' : List UInt64) : natSum (l ++ l') = natSum l + natSum l' := by
  rw [natSum, List.map_append, List.sum_append]
  rfl

theorem decomposeDigits_zero (n : ℕ) (order : UInt64) (handled : Bool) :
    decomposeDigits 0 n 0 order 0 handled = [] := by
  cases n <;> simp [decomposeDigits]

section Digits

variable {amount order : UInt64}

theorem toNat_chunk (hfit : amount.toNat * order.toNat < 2 ^ 64) :
    (amount % 10 * order).toNat = amount.toNat % 10 * order.toNat := by
  refine Nat.mod_eq_of_lt (Nat.lt_of_le_of_lt ?_ hfit)
  exact Nat.mul_le_mul_right _ (Nat.mod_le _ _)

/-- The rest of an amount at the next order is no more than the amount. -/
theorem rest_mul_le : amount.toNat / 10 * (order.toNat * 10) ≤ amount.toNat * order.toNat := by
  calc amount.toNat / 10 * (order.toNat * 10)
      = amount.toNat / 10 * 10 * order.toNat := by ring
    _ ≤ amount.toNat * order.toNat := Nat.mul_le_mul_right _ (by omega)

/-- The order does not wrap as long as there are digits left. -/
theorem toNat_order (hfit : amount.toNat * order.toNat < 2 ^ 64) (hrest : 1 ≤ amount.toNat / 10) :
    (order * 10).toNat = order.toNat * 10 := by
  refine Nat.mod_eq_of_lt (Nat.lt_of_le_of_lt ?_ (Nat.lt_of_le_of_lt rest_mul_le hfit))
  exact Nat.le_mul_of_pos_left _ hrest

end Digits

variable {amount : UInt64} {maxOuts : ℕ} {amounts : List UInt64} {key : TxKey}
  {recipient : AccountAddress} {i : ℕ} {o : TxOut}

/-- The digits of an amount, times their orders, add up without wrapping. -/
theorem natSum_decomposeDigits {n : ℕ} {order : UInt64} {handled : Bool}
    (hn : amount.toNat < 10 ^ n) (hfit : amount.toNat * order.toNat < 2 ^ 64) :
    natSum (decomposeDigits 0 n amount order 0 handled) = amount.toNat * order.toNat := by
  induction n generalizing amount order with
  | zero =>
    obtain rfl : amount = 0 := UInt64.toNat_inj.mp (by simpa using hn)
    simp [decomposeDigits]
  | succ n ih =>
    by_cases h0 : amount = 0
    · simp [decomposeDigits, h0]
    · have hq : (amount / 10).toNat = amount.toNat / 10 := UInt64.toNat_div _ _
      have hdigit : natSum (if amount % 10 * order = 0 then [] else [amount % 10 * order]) =
          amount.toNat % 10 * order.toNat := by
        rw [← toNat_chunk hfit]
        split_ifs with hz <;> simp [hz]
      rw [decomposeDigits_succ _ h0, natSum_append, hdigit]
      by_cases hlast : amount / 10 = 0
      · -- the order may wrap after the last digit, where it is not used
        have hzero : amount.toNat / 10 = 0 := by rw [← hq, hlast]; rfl
        rw [hlast, decomposeDigits_zero, natSum_nil, Nat.add_zero]
        congr 1
        omega
      · have hrest : 1 ≤ amount.toNat / 10 := by
          exact UInt64.lt_iff_toNat_lt.mp (UInt64.pos_iff_ne_zero.mpr hlast)
        have horder := toNat_order hfit hrest
        have hle : amount.toNat / 10 * (order.toNat * 10) ≤ amount.toNat * order.toNat :=
          rest_mul_le
        have hsplit : amount.toNat = amount.toNat % 10 + amount.toNat / 10 * 10 := by omega
        rw [ih (by omega) (by rw [hq, horder]; omega), hq, horder]
        conv_rhs => rw [hsplit]
        ring

/-- **An amount is split into parts that add up to it**, in the naturals. -/
theorem natSum_decompose (amount : UInt64) :
    natSum (decomposeAmountIntoDigits amount 0) = amount.toNat := by
  unfold decomposeAmountIntoDigits
  split_ifs with h
  · simp [h]
  · have hsize : amount.toNat < 10 ^ 21 := Nat.lt_of_lt_of_le amount.toNat_lt (by norm_num)
    have hone : amount.toNat * (1 : UInt64).toNat = amount.toNat := Nat.mul_one _
    rw [natSum_decomposeDigits hsize (by rw [hone]; exact amount.toNat_lt), hone]

/-- The body of the merging loop: `miner_amounts[1] += miner_amounts[0]`, and everything moves
down. -/
def mergeStep : List UInt64 → List UInt64
  | a :: b :: rest => (b + a) :: rest
  | amounts => amounts

/-- `while (max_outs < miner_amounts.size())` ends in what `mergeOuts` returns. -/
theorem loopsTo_mergeOuts (h : 1 ≤ maxOuts) (amounts : List UInt64) :
    LoopsTo (fun l => maxOuts < l.length) mergeStep amounts (mergeOuts maxOuts amounts) := by
  cases amounts with
  | nil => exact .done (Nat.not_lt_zero _)
  | cons a rest =>
    rw [mergeOuts]
    induction rest generalizing a with
    | nil => exact .done (Nat.not_lt.mpr h)
    | cons b rest ih =>
      rw [mergeFrom]
      split_ifs with hlong
      · exact .next hlong (ih (b + a))
      · exact .done hlong

/-- A round of the loop keeps the total. -/
theorem natSum_mergeStep (hfit : natSum amounts < 2 ^ 64) :
    natSum (mergeStep amounts) = natSum amounts := by
  match amounts with
  | [] => rfl
  | [_] => rfl
  | a :: b :: rest =>
    simp only [natSum_cons] at hfit
    rw [mergeStep, natSum_cons, natSum_cons, natSum_cons, UInt64.toNat_add]
    omega

/-- **The merging loop ends**, with at most `max_outs` amounts and the same total. -/
theorem mergeOuts_spec (h : 1 ≤ maxOuts) (hfit : natSum amounts < 2 ^ 64) :
    (mergeOuts maxOuts amounts).length ≤ maxOuts ∧
      natSum (mergeOuts maxOuts amounts) = natSum amounts := by
  have hloop := loopsTo_mergeOuts h amounts
  refine ⟨Nat.not_lt.mp hloop.exit, ?_⟩
  refine hloop.invariant (I := fun l => natSum l = natSum amounts) (fun l _ hl => ?_) rfl
  rw [natSum_mergeStep (by rw [hl]; exact hfit), hl]

/-! ### The outputs -/

/-- Outputs carry the amounts they are made for. -/
theorem addOuts_amounts {α : Type} {out : α → ℕ → Option TxOut} {amount : α → UInt64}
    (hout : ∀ p i o, out p i = some o → o.amount = amount p) {ps : List α} {vout vout' : List TxOut}
    (h : addOuts out ps vout = some vout') :
    vout'.map (·.amount) = vout.map (·.amount) ++ ps.map amount := by
  induction ps generalizing vout with
  | nil =>
    obtain rfl : vout = vout' := Option.some.inj h
    simp
  | cons p ps ih =>
    unfold addOuts at h
    rw [List.foldlM_cons, Option.bind_eq_bind, Option.bind_eq_some_iff] at h
    obtain ⟨next, hnext, h⟩ := h
    obtain ⟨o, ho, rfl⟩ := Option.map_eq_some_iff.mp hnext
    rw [ih h]
    simp [hout p _ o ho]

theorem stealthOut_amount {hf : UInt8} (h : stealthOut key hf recipient i amount = some o) :
    o.amount = amount := by
  obtain ⟨k, -, rfl⟩ := Option.map_eq_some_iff.mp h
  rfl

theorem boundOut_amount {hf : UInt8} (h : boundOut key hf recipient i amount = some o) :
    o.amount = amount := by
  unfold boundOut at h
  split_ifs at h
  · obtain rfl := Option.some.inj h
    rfl
  · exact stealthOut_amount h

section

variable (maxOuts : ℕ) (hf : UInt8) (total : UInt64) (L : List ExpectedPayout)

/-- `node_total`. -/
def nodeTotal : UInt64 := (L.map (·.amount)).sum

/-- The amount for the miner. -/
def minerPart : UInt64 := minerReward hf total (nodeBudget total) (nodeTotal L)

/-- The amounts of the miner's outputs. -/
def minerAmounts : List UInt64 :=
  mergeOuts maxOuts (decomposeAmountIntoDigits (minerPart hf total L) 0)

/-- The amount for the pool. -/
def poolPart : UInt64 := poolAmount hf (nodeBudget total) (nodeTotal L)

/-- The amounts of all outputs. -/
def coinbaseAmounts : List UInt64 :=
  minerAmounts maxOuts hf total L ++ (L.filter (·.amount ≠ 0)).map (·.amount) ++
    if 0 < poolPart hf total L then [poolPart hf total L] else []

end

/-- **What a coinbase consists of**: the miner's amounts, the nodes' and the pool's. -/
theorem constructMinerTx_amounts {env : Env} {key : TxKey} {height R bonus : UInt64}
    {miner : AccountAddress} {L : List ExpectedPayout} {nonce : Bytes} {maxOuts : ℕ} {hf : UInt8}
    {snapshot : Bytes} {window : UInt64} {tx : Transaction} (h2 : 2 ≤ hf)
    (h : constructMinerTxWithMevatrust env key height R miner L nonce maxOuts hf snapshot window
      bonus = some tx) : tx.vout.map (·.amount) = coinbaseAmounts maxOuts hf (R + bonus) L := by
  obtain ⟨-, minerVout, nodeVout, -, hminer, hnode, hpool, -, -⟩ := constructMinerTx_some h
  rw [if_pos h2] at hminer
  have hm := addOuts_amounts (fun a i o ho => stealthOut_amount ho) hminer
  have hn := addOuts_amounts (fun r i o ho => boundOut_amount ho) hnode
  have hp := addOuts_amounts (fun a i o ho => boundOut_amount ho) hpool
  rw [hp, hn, hm, List.map_id', List.map_id']
  rfl

/-! ### The sum in the naturals -/

section Sum

variable {maxOuts : ℕ} {hf : UInt8} {total : UInt64} {L : List ExpectedPayout}

/-- The miner's amounts are at most `max_outs` and add up to the miner's part. -/
theorem minerAmounts_spec (h : 1 ≤ maxOuts) :
    (minerAmounts maxOuts hf total L).length ≤ maxOuts ∧
      natSum (minerAmounts maxOuts hf total L) = (minerPart hf total L).toNat := by
  have hdigits := natSum_decompose (minerPart hf total L)
  have hmerge := mergeOuts_spec h (by rw [hdigits]; exact (minerPart hf total L).toNat_lt)
  exact ⟨hmerge.1, hmerge.2.trans hdigits⟩

theorem natSum_coinbaseAmounts (h : 1 ≤ maxOuts) :
    natSum (coinbaseAmounts maxOuts hf total L) =
      (minerPart hf total L).toNat + payoutTotal L + (poolPart hf total L).toNat := by
  have hnodes : natSum ((L.filter (·.amount ≠ 0)).map (·.amount)) = payoutTotal L := by
    rw [natSum, List.map_map]
    refine sum_filter_of_zero fun r _ hr => ?_
    have hzero : r.amount = 0 := by simpa using hr
    simp [hzero]
  have hpool : natSum (if 0 < poolPart hf total L then [poolPart hf total L] else []) =
      (poolPart hf total L).toNat := by
    split_ifs with hp
    · simp
    · have hzero : poolPart hf total L = 0 := by simpa [UInt64.pos_iff_ne_zero] using hp
      simp [hzero]
  rw [coinbaseAmounts, natSum_append, natSum_append, (minerAmounts_spec h).2, hnodes, hpool]

/-- Before fork 14, the budget and the node total exceed the total, and the miner's part goes
below zero. -/
def Overdrawn (hf : UInt8) (total : ℕ) (nodes : ℕ) : Prop :=
  hf < 14 ∧ total < 3 * total % 2 ^ 64 / 100 + nodes % 2 ^ 64
deriving Decidable

/-- How often `2 ^ 64` is paid on top of the 64-bit total. -/
def carries (hf : UInt8) (total nodes : ℕ) : ℕ :=
  nodes / 2 ^ 64 + if Overdrawn hf total nodes then 1 else 0

theorem nodeBudget_le (total : UInt64) : nodeBudget total ≤ total := by
  have hle := toNat_nodeBudget_le total
  rw [UInt64.le_iff_toNat_le]
  omega

theorem not_clamped (h13 : 13 ≤ hf) : ¬ (2 ≤ hf ∧ hf < 4) := by
  rintro ⟨-, hlt⟩
  exact absurd (UInt8.le_trans h13 (UInt8.le_of_lt hlt)) (by decide)

/-- From fork 17, if nobody is paid, the miner gets everything. -/
theorem parts_of_none (h17 : hfVersionMevatrustUptimeV3 ≤ hf) (hnone : nodeTotal L = 0) :
    minerPart hf total L = total ∧ poolPart hf total L = 0 := by
  have hclamp := not_clamped (UInt8.le_trans (by decide) h17)
  simp only [minerPart, poolPart, minerReward, poolAmount, h17, hnone, and_self, if_true,
    if_neg hclamp]

/-- From fork 14 on, the pool gets what the nodes leave of the budget. -/
theorem parts_of_bound (h14 : hfVersionMevatrustRuleV2 ≤ hf)
    (hsome : ¬ (hfVersionMevatrustUptimeV3 ≤ hf ∧ nodeTotal L = 0)) :
    (minerPart hf total L).toNat = total.toNat - (nodeBudget total).toNat ∧
      (poolPart hf total L).toNat =
        (nodeBudget total).toNat - (nodeTotal L).toNat := by
  have hclamp := not_clamped (UInt8.le_trans (by decide) h14)
  have hpaid : hf ≤ 16 ∨ nodeTotal L ≠ 0 := by
    by_cases hzero : nodeTotal L = 0
    · have hlt : hf < 17 := UInt8.not_le.mp fun h17 => hsome ⟨h17, hzero⟩
      exact Or.inl (UInt8.le_iff_toNat_le.mpr (Nat.le_of_lt_succ hlt))
    · exact Or.inr hzero
  refine ⟨?_, poolAmount_toNat h14 hpaid⟩
  unfold minerPart minerReward
  simp only [if_neg hclamp, if_neg hsome, if_pos h14]
  exact UInt64.toNat_sub_of_le _ _ (nodeBudget_le total)

/-- At fork 13 the pool gets the whole budget, and the nodes are paid from the miner's part. -/
theorem parts_of_before (h13 : 13 ≤ hf) (h14 : ¬ hfVersionMevatrustRuleV2 ≤ hf) :
    minerPart hf total L = total - nodeBudget total - nodeTotal L ∧
      poolPart hf total L = nodeBudget total := by
  have hclamp := not_clamped h13
  have h17 : ¬ (hfVersionMevatrustUptimeV3 ≤ hf ∧ nodeTotal L = 0) := fun h =>
    h14 (UInt8.le_trans (by decide) h.1)
  simp only [minerPart, poolPart, minerReward, poolAmount, if_neg hclamp, if_neg h17, if_neg h14,
    and_self]

/-- **The parts of a coinbase that passes the check of its 64-bit sum.** -/
theorem parts_sum (h13 : 13 ≤ hf)
    (hcheck : ((minerPart hf total L).toNat + payoutTotal L + (poolPart hf total L).toNat) %
      2 ^ 64 = total.toNat) :
    (minerPart hf total L).toNat + payoutTotal L + (poolPart hf total L).toNat =
      total.toNat + 2 ^ 64 * carries hf total.toNat (payoutTotal L) := by
  have hbudget := toNat_nodeBudget total
  have hnodes : (nodeTotal L).toNat = payoutTotal L % 2 ^ 64 := amountSum_toNat L
  have hle := UInt64.le_iff_toNat_le.mp (nodeBudget_le total)
  unfold carries
  by_cases h14 : hfVersionMevatrustRuleV2 ≤ hf
  · have hplain : ¬ Overdrawn hf total.toNat (payoutTotal L) := fun h =>
      absurd h14 (UInt8.not_le.mpr h.1)
    rw [if_neg hplain]
    by_cases hnone : hfVersionMevatrustUptimeV3 ≤ hf ∧ nodeTotal L = 0
    · obtain ⟨hminer, hpool⟩ := parts_of_none hnone.1 hnone.2
      rw [hnone.2] at hnodes
      rw [hminer, hpool]
      change 0 = _ at hnodes
      change total.toNat + payoutTotal L + 0 = _
      omega
    · obtain ⟨hminer, hpool⟩ := parts_of_bound h14 hnone
      rw [hpool] at hcheck ⊢
      omega
  · obtain ⟨hminer, hpool⟩ := parts_of_before h13 h14
    have hbefore : hf < 14 := UInt8.not_le.mp h14
    have hminerNat : (minerPart hf total L).toNat =
        (2 ^ 64 - (nodeTotal L).toNat + (total.toNat - (nodeBudget total).toNat)) % 2 ^ 64 := by
      rw [hminer, UInt64.toNat_sub, UInt64.toNat_sub_of_le _ _ (nodeBudget_le total)]
    rw [hminerNat, hpool]
    split_ifs with hover
    · have hlt := hover.2
      omega
    · have hge : ¬ total.toNat < 3 * total.toNat % 2 ^ 64 / 100 + payoutTotal L % 2 ^ 64 :=
        fun h => hover ⟨hbefore, h⟩
      omega

end Sum

/-! ### Conservation -/

/-- The node total, with the miner's part, wraps as often as the reward with its bonus. -/
def WrapsAlike (hf : UInt8) (R bonus : UInt64) (L : List ExpectedPayout) : Prop :=
  carries hf ((R.toNat + bonus.toNat) % 2 ^ 64) (payoutTotal L) = (R.toNat + bonus.toNat) / 2 ^ 64
deriving Decidable

/-- The loop that merges the parts of the miner's amount ends, with at most `max_outs` outputs and
the same total. -/
structure MergesMinerOuts (maxOuts : ℕ) (hf : UInt8) (total : UInt64) (L : List ExpectedPayout) :
    Prop where
  ends : LoopsTo (fun l => maxOuts < l.length) mergeStep
    (decomposeAmountIntoDigits (minerPart hf total L) 0) (minerAmounts maxOuts hf total L)
  few : (minerAmounts maxOuts hf total L).length ≤ maxOuts
  sum_eq : natSum (minerAmounts maxOuts hf total L) =
    natSum (decomposeAmountIntoDigits (minerPart hf total L) 0)

/-- **A coinbase pays out exactly the reward and the bonus if and only if they wrap as often as the
node total and the miner's part**; the merging loop ends in any case. -/
theorem coinbase_conserves_iff (env : Env) (key : TxKey) (height R bonus : UInt64)
    (miner : AccountAddress) (L : List ExpectedPayout) (nonce : Bytes) {maxOuts : ℕ} {hf : UInt8}
    (snapshot : Bytes) (window : UInt64) (h13 : 13 ≤ hf) (hmax : 1 ≤ maxOuts) :
    MergesMinerOuts maxOuts hf (R + bonus) L ∧
      ∀ tx, constructMinerTxWithMevatrust env key height R miner L nonce maxOuts hf snapshot window
          bonus = some tx →
        ((tx.vout.map (·.amount.toNat)).sum = R.toNat + bonus.toNat ↔ WrapsAlike hf R bonus L) := by
  have hloop : MergesMinerOuts maxOuts hf (R + bonus) L := by
    obtain ⟨hfew, hsum⟩ := minerAmounts_spec hmax
    exact ⟨loopsTo_mergeOuts hmax _, hfew, by rw [hsum, natSum_decompose]⟩
  refine ⟨hloop, fun tx htx => ?_⟩
  have hamounts := constructMinerTx_amounts (UInt8.le_trans (by decide) h13) htx
  obtain ⟨-, -, -, -, -, -, -, hwords, -⟩ := constructMinerTx_some htx
  have hnat : (tx.vout.map (·.amount.toNat)).sum =
      natSum (coinbaseAmounts maxOuts hf (R + bonus) L) := by
    rw [← hamounts, natSum, List.map_map]
    rfl
  have htotal : (R + bonus).toNat = (R.toNat + bonus.toNat) % 2 ^ 64 := UInt64.toNat_add _ _
  have hcheck := congrArg UInt64.toNat hwords
  rw [toNat_sum_mod, hnat, natSum_coinbaseAmounts hmax] at hcheck
  rw [hnat, natSum_coinbaseAmounts hmax, parts_sum h13 hcheck, htotal, WrapsAlike]
  omega

/-- The coinbase of a reward of 100 with one node to be paid, one miner output allowed. -/
def smallCoinbase (hf : UInt8) (nodeAmount : UInt64) : Option Transaction :=
  constructMinerTxWithMevatrust sampleEnv sampleKey 1000 100 ⟨Pod32.single 1, Pod32.single 2⟩
    [⟨⟨Pod32.single 5, Pod32.single 6⟩, nodeAmount⟩] [] 1 hf [] 0 0

/-- At fork 13 a node that is to get 200 out of 100 is paid, and the miner gets `2 ^ 64 - 103`. -/
theorem smallCoinbase_mints :
    ∃ tx, smallCoinbase 13 200 = some tx ∧
      (tx.vout.map (·.amount.toNat)).sum = (100 : UInt64).toNat + (0 : UInt64).toNat + 2 ^ 64 := by
  have h : (smallCoinbase 13 200).map (fun tx => (tx.vout.map (·.amount.toNat)).sum) =
      some ((100 : UInt64).toNat + (0 : UInt64).toNat + 2 ^ 64) := by
    decide +kernel
  exact Option.map_eq_some_iff.mp h

/-- Two of the three that fork 17 leaves for the nodes. -/
theorem smallCoinbase_conserves :
    ∃ tx, smallCoinbase 17 2 = some tx ∧
      (tx.vout.map (·.amount.toNat)).sum = (100 : UInt64).toNat + (0 : UInt64).toNat := by
  have hsome : (smallCoinbase 17 2).isSome = true := by decide +kernel
  obtain ⟨tx, htx⟩ := Option.isSome_iff_exists.mp hsome
  exact ⟨tx, htx, ((coinbase_conserves_iff sampleEnv sampleKey 1000 100 0 _ _ [] [] 0 (by decide)
    (by decide)).2 tx htx).mpr (by decide +kernel)⟩

end Mevacoin.Trust
