import Mevacoin.Availability.Handler

/-!
# Honest answers

A node answers with the hash in hexadecimal; `verify_block_response` compares the first 32
characters with the 32 octets of the hash.
-/

namespace Mevacoin.Availability

open Lib Std Trust

/-! ### A hash that is its own beginning in hexadecimal -/

/-- Only the character `3` is the high digit of itself. -/
theorem hexDigit_high_eq_self {o : UInt8} (h : hexDigit (o.toNat / 16) = o) : o = 0x33 := by
  -- there are sixteen digits to try
  have hdigits : ∀ q < 16, hexDigit ((hexDigit q).toNat / 16) = hexDigit q → hexDigit q = 0x33 := by
    decide
  have hq : o.toNat / 16 < 16 := by
    have := o.toNat_lt
    omega
  have ho := hdigits (o.toNat / 16) hq
  rw [h] at ho
  exact ho h

/-- Each octet of such a string is a digit of an earlier one, so the first fixes them all. -/
theorem getElem?_of_take_toHex {b : Bytes} (h : (toHex b).take b.length = b) (i : ℕ)
    (hi : i < b.length) : b[i]? = some 0x33 := by
  have hdigit : ∀ j < b.length, (toHex b)[j]? = b[j]? := by
    intro j hj
    conv_rhs => rw [← h]
    rw [List.getElem?_take_of_lt hj]
  induction i using Nat.strong_induction_on with
  | _ i ih =>
    obtain ⟨heven, hodd⟩ := getElem?_toHex b (i / 2)
    rcases Nat.eq_zero_or_pos i with rfl | hpos
    · -- the first octet is its own high digit
      have hfirst := hdigit 0 hi
      rw [heven] at hfirst
      rw [List.getElem?_eq_getElem hi] at hfirst ⊢
      simp only [Option.map_some, Option.some.injEq] at hfirst
      rw [hexDigit_high_eq_self hfirst]
    · have hhalf := ih (i / 2) (by omega) (by omega)
      rw [hhalf] at heven hodd
      rcases Nat.mod_two_eq_zero_or_one i with hmod | hmod
      · rw [← hdigit i hi, show i = 2 * (i / 2) by omega, heven]
        rfl
      · rw [← hdigit i hi, show i = 2 * (i / 2) + 1 by omega, hodd]
        rfl

variable (h : Hash) {ch : AvailabilityChallenge} {eng : AvailabilityEngine}
  {rsp : AvailabilityResponse}

/-- **The one hash that agrees with its hexadecimal form.** -/
theorem take_toHex_eq_iff : (toHex h.data).take 32 = h.data ↔ h = Pod32.fill 0x33 := by
  constructor
  · intro htake
    refine Pod32.ext (List.ext_getElem? fun i => ?_)
    rcases Nat.lt_or_ge i 32 with hi | hi
    · rw [getElem?_of_take_toHex (by rw [h.size_eq]; exact htake) i (by rw [h.size_eq]; exact hi)]
      exact (List.getElem?_replicate_of_lt hi).symm
    · rw [List.getElem?_eq_none (by rw [h.size_eq]; exact hi),
        List.getElem?_eq_none (by exact hi)]
  · rintro rfl
    decide

/-! ### The answer and the check -/

/-- The answer to a question for a block below the tip. -/
theorem answerData_blockHash {chain : ChainView} (htype : ch.challengeType = .blockHash)
    (hheight : 0 < ch.blockHeight ∧ ch.blockHeight < chain.currentHeight) :
    answerData chain ch.request = toHex (chain.blockIdByHeight ch.blockHeight).data := by
  simp [answerData, AvailabilityChallenge.request, htype, ChallengeType.toUInt8, hheight]

theorem verifyBlockResponse_toHex_iff {f : UInt64 → Option Hash} {height : UInt64} {h : Hash}
    (hf : eng.getBlockHash = some f) (hh : f height = some h) :
    eng.verifyBlockResponse height (toHex h.data) = true ↔ h = Pod32.fill 0x33 := by
  rw [← take_toHex_eq_iff]
  simp [AvailabilityEngine.verifyBlockResponse, hf, hh, h.size_eq]

/-- When a response to a question for a block is judged right. -/
theorem validateResponse_eq_valid_iff (htype : ch.challengeType = .blockHash) :
    eng.validateResponse ch rsp = .valid ↔
      rsp.responseTimestamp ≤ ch.sentTimestamp + ch.timeoutMs ∧ rsp.responseData ≠ [] ∧
        (eng.parameters.verifyBlockHash = false ∨
          eng.verifyBlockResponse ch.blockHeight rsp.responseData = true) := by
  unfold AvailabilityEngine.validateResponse
  split_ifs with htime hempty hverify
  · simp [UInt64.not_le.mpr htime]
  · simp [hempty]
  · simp only [Bool.and_eq_true, Bool.not_eq_true'] at hverify
    simp [hverify]
  · simp only [htype] at hverify
    simp only [UInt64.not_lt.mp htime, hempty, ne_eq, not_false_eq_true, true_and, true_iff]
    by_cases hv : eng.parameters.verifyBlockHash = false
    · exact Or.inl hv
    · exact Or.inr (by simpa [hv] using hverify)

theorem processChallengeResponse_correct {it : PendingOrder}
    (hfind : eng.getChallenge it rsp.challengeId = some ch) :
    (eng.processChallengeResponse it rsp).2 = true ↔ eng.validateResponse ch rsp = .valid := by
  simp [AvailabilityEngine.processChallengeResponse, hfind]

/-- **Which honest answers are accepted**, of those that are in time in the integers: the deadline
fits in 64 bits or is met even when wrapped, and the hash is not looked at or agrees with its
hexadecimal form. -/
theorem honest_answer_accepted_iff (it : PendingOrder) (eng : AvailabilityEngine)
    (chain : ChainView) (ch : AvailabilityChallenge) (start finish timestamp : UInt64)
    (f : UInt64 → Option Hash) (hf : eng.getBlockHash = some f)
    (hshared : f ch.blockHeight = some (chain.blockIdByHeight ch.blockHeight))
    (hfind : eng.getChallenge it ch.challengeId = some ch) (htype : ch.challengeType = .blockHash)
    (hheight : 0 < ch.blockHeight ∧ ch.blockHeight < chain.currentHeight)
    (htime : timestamp.toNat ≤ ch.sentTimestamp.toNat + ch.timeoutMs.toNat) :
    (eng.processChallengeResponse it
        { respond chain ch.nodeId ch.request start finish with
          responseTimestamp := timestamp }).2 = true ↔
      (ch.sentTimestamp.toNat + ch.timeoutMs.toNat < 2 ^ 64 ∨
          timestamp.toNat + 2 ^ 64 ≤ ch.sentTimestamp.toNat + ch.timeoutMs.toNat) ∧
        (eng.parameters.verifyBlockHash = false ∨
          chain.blockIdByHeight ch.blockHeight = Pod32.fill 0x33) := by
  have hdata := answerData_blockHash htype hheight
  rw [processChallengeResponse_correct hfind, validateResponse_eq_valid_iff htype]
  simp only [respond, hdata, verifyBlockResponse_toHex_iff hf hshared]
  have hne : toHex (chain.blockIdByHeight ch.blockHeight).data ≠ [] := by
    rw [← List.length_pos_iff_ne_nil, length_toHex, Pod32.size_eq]
    decide
  have hdeadline : timestamp ≤ ch.sentTimestamp + ch.timeoutMs ↔
      ch.sentTimestamp.toNat + ch.timeoutMs.toNat < 2 ^ 64 ∨
        timestamp.toNat + 2 ^ 64 ≤ ch.sentTimestamp.toNat + ch.timeoutMs.toNat := by
    have hsent := ch.sentTimestamp.toNat_lt
    have htimeout := ch.timeoutMs.toNat_lt
    rw [UInt64.le_iff_toNat_le, UInt64.toNat_add]
    omega
  rw [hdeadline]
  simp only [hne, ne_eq, not_false_eq_true, true_and]

/-- A challenge that was sent out for block 5. -/
def blockFive : AvailabilityChallenge where
  challengeId := .fill 1
  nodeId := .fill 9
  challengeType := .blockHash
  blockHeight := 5
  sentTimestamp := 1000000
  timeoutMs := 2000

/-- A challenger that waits for the answer, with the same hash for every block. -/
def waitingEngine (h : Hash) : AvailabilityEngine where
  pending := PendingTable.empty.push blockFive
  getBlockHash := some fun _ => some h

/-- The chain of the challenged node. -/
def tenBlocks (h : Hash) : ChainView := ⟨10, fun _ => h⟩

theorem getChallenge_waitingEngine :
    (waitingEngine h).getChallenge (.byKey _ _) (.fill 1) = some blockFive := by
  rfl

/-- The response comes at once and has the hash of the block, and is judged wrong. -/
theorem honest_answer_rejected :
    (waitingEngine (.fill 7)).getChallenge (.byKey _ _) (.fill 1) = some blockFive ∧
      (0 < blockFive.blockHeight ∧ blockFive.blockHeight < (tenBlocks (.fill 7)).currentHeight) ∧
      (respond (tenBlocks (.fill 7)) (.fill 9) blockFive.request 1000 1000).responseTimestamp ≤
        blockFive.sentTimestamp + blockFive.timeoutMs ∧
      ((waitingEngine (.fill 7)).processChallengeResponse (.byKey _ _)
        (respond (tenBlocks (.fill 7)) (.fill 9) blockFive.request 1000 1000)).2 = false := by
  decide

/-- The one hash that is accepted. -/
theorem honest_answer_of_threes :
    ((waitingEngine (.fill 0x33)).processChallengeResponse (.byKey _ _)
        { respond (tenBlocks (.fill 0x33)) (.fill 9) blockFive.request 1000 1000 with
          responseTimestamp := 1000000 }).2 = true :=
  (honest_answer_accepted_iff (.byKey _ _) (waitingEngine (.fill 0x33)) (tenBlocks (.fill 0x33))
    blockFive 1000 1000 1000000 _ rfl rfl (getChallenge_waitingEngine _) rfl (by decide)
    (by decide)).mpr ⟨Or.inl (by decide), Or.inr rfl⟩

end Mevacoin.Availability
