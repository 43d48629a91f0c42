import Mevacoin.Lib.HashMaps
import Mevacoin.Lib.Machine
import Mevacoin.Trust.NodeRegistry

/-!
# Proofs of availability

`src/cryptonote_core/mevatrust/availability_proof.cpp`: a validator asks the other nodes for the
hash of a block, keeps the question as pending and files the answer.  Left out are the statistics
and the history file.
-/

namespace Mevacoin.Availability

open Lib Std Trust

/-! ### Challenges and responses -/

/-- `ChallengeType`. -/
inductive ChallengeType where
  | blockHash | blockHeight | txHash | txExists | utxoExists | lastBlockHash
deriving DecidableEq, Repr

/-- The octet of a challenge type. -/
def ChallengeType.toUInt8 : ChallengeType → UInt8
  | blockHash => 0
  | blockHeight => 1
  | txHash => 2
  | txExists => 3
  | utxoExists => 4
  | lastBlockHash => 5

/-- `AvailabilityChallenge`, without the fields that are never set. -/
structure AvailabilityChallenge where
  challengeId : Hash
  nodeId : Hash
  challengeType : ChallengeType
  blockHeight : UInt64
  sentTimestamp : UInt64
  timeoutMs : UInt64
  responded : Bool := false
  responseTimestamp : UInt64 := 0
  responseTimeMs : UInt32 := 0
  responseCorrect : Bool := false
  responseData : Bytes := []
deriving DecidableEq

/-- `AvailabilityResponse`, as `handle_NOTIFY_MEVATRUST_RESPONSE` fills it in. -/
structure AvailabilityResponse where
  challengeId : Hash
  nodeId : Hash
  responseData : Bytes
  responseTimestamp : UInt64
  processingTimeMs : UInt32
deriving DecidableEq

/-- `AvailabilityParameters`: those that challenges depend on, with the values the constructor
sets. -/
structure AvailabilityParameters where
  challengeIntervalHours : UInt64 := 10
  responseTimeoutMs : UInt32 := 2000
  verifyBlockHash : Bool := true
deriving DecidableEq

/-! ### The engine -/

/-- `pending_challenges_`: a challenge stands under the node it asks. -/
structure PendingTable where
  rows : ExtTreeMap Hash (List AvailabilityChallenge)
  filed : ∀ n, ∀ ch ∈ rows.getD n [], ch.nodeId = n

namespace PendingTable

/-- No challenge is pending. -/
def empty : PendingTable := ⟨∅, by simp⟩

/-- The challenges pending for a node. -/
def of (t : PendingTable) (n : Hash) : List AvailabilityChallenge := t.rows.getD n []

/-- Add a challenge. -/
def push (t : PendingTable) (ch : AvailabilityChallenge) : PendingTable where
  rows := t.rows.insert ch.nodeId (t.of ch.nodeId ++ [ch])
  filed := by
    intro n c hc
    rw [ExtTreeMap.getD_insert] at hc
    split_ifs at hc with hn
    · obtain rfl : ch.nodeId = n := LawfulEqOrd.eq_of_compare hn
      rcases List.mem_append.mp hc with hc | hc
      · exact t.filed _ c hc
      · rw [List.mem_singleton.mp hc]
    · exact t.filed n c hc

/-- Drop the challenges of a node that have a given number. -/
def discard (t : PendingTable) (n id : Hash) : PendingTable where
  rows := t.rows.insert n ((t.of n).filter (·.challengeId ≠ id))
  filed := by
    intro m c hc
    rw [ExtTreeMap.getD_insert] at hc
    split_ifs at hc with hn
    · obtain rfl : n = m := LawfulEqOrd.eq_of_compare hn
      exact t.filed _ c (List.mem_filter.mp hc).1
    · exact t.filed m c hc

/-- Challenges are filed by node. -/
theorem nodeId_of_mem {t : PendingTable} {n : Hash} {ch : AvailabilityChallenge}
    (h : ch ∈ t.of n) : ch.nodeId = n := t.filed n ch h

@[simp] theorem of_empty (n : Hash) : empty.of n = [] := by simp [of, empty]

/-- One more challenge. -/
theorem of_push (t : PendingTable) (ch : AvailabilityChallenge) (n : Hash) :
    (t.push ch).of n = if ch.nodeId = n then t.of n ++ [ch] else t.of n := by
  unfold of push
  rw [ExtTreeMap.getD_insert]
  simp only [LawfulEqOrd.compare_eq_iff_eq]
  split_ifs with hn
  · rw [hn]
    rfl
  · rfl

/-- One challenge less. -/
theorem of_discard (t : PendingTable) (n id m : Hash) :
    (t.discard n id).of m =
      if n = m then (t.of m).filter (·.challengeId ≠ id) else t.of m := by
  unfold of discard
  rw [ExtTreeMap.getD_insert]
  simp only [LawfulEqOrd.compare_eq_iff_eq]
  split_ifs with hn
  · rw [hn]
    rfl
  · rfl

end PendingTable

/-- The order in which `get_challenge` searches the pending challenges. -/
abbrev PendingOrder := Iteration Hash (List AvailabilityChallenge)

/-- `AvailabilityProofEngine`. -/
structure AvailabilityEngine where
  parameters : AvailabilityParameters := {}
  /-- `pending_challenges_`. -/
  pending : PendingTable := .empty
  /-- `challenge_history_`. -/
  challengeHistory : ExtTreeMap Hash (List AvailabilityChallenge) := ∅
  /-- `response_times_`. -/
  responseTimes : ExtTreeMap Hash (List UInt32) := ∅
  /-- `get_block_hash_`, once it is set. -/
  getBlockHash : Option (UInt64 → Option Hash) := none

/-- `ResponseValidation`. -/
inductive ResponseValidation where
  | valid | invalidData | invalidSignature | timeout | notFound | integrityError
deriving DecidableEq, Repr

/-- `compute_challenge_id`. -/
def computeChallengeId (cr : Crypto) (nodeId : Hash) (timestamp : UInt64) (type : ChallengeType) :
    Hash :=
  cr.cnFastHash (nodeId.data ++ leBytes 8 timestamp.toNat ++ [type.toUInt8])

namespace AvailabilityEngine

/-- `generate_challenge`. -/
def generateChallenge (cr : Crypto) (eng : AvailabilityEngine) (nodeId : Hash)
    (currentHeight currentTimestamp : UInt64) : AvailabilityChallenge where
  challengeId := computeChallengeId cr nodeId currentTimestamp .blockHash
  nodeId := nodeId
  challengeType := .blockHash
  blockHeight := currentHeight
  sentTimestamp := currentTimestamp
  timeoutMs := eng.parameters.responseTimeoutMs.toUInt64

/-- `get_challenge`. -/
def getChallenge (it : PendingOrder) (eng : AvailabilityEngine) (id : Hash) :
    Option AvailabilityChallenge :=
  ((it.order eng.pending.rows).flatMap (·.2)).find? (·.challengeId = id)

/-- `verify_block_response`: the first 32 octets of the answer. -/
def verifyBlockResponse (eng : AvailabilityEngine) (blockHeight : UInt64) (data : Bytes) : Bool :=
  match eng.getBlockHash with
  | none => false
  | some getBlockHash =>
    match getBlockHash blockHeight with
    | none => false
    | some expected => 32 ≤ data.length && data.take 32 = expected.data

/-- `validate_response`. -/
def validateResponse (eng : AvailabilityEngine) (ch : AvailabilityChallenge)
    (rsp : AvailabilityResponse) : ResponseValidation :=
  if ch.sentTimestamp + ch.timeoutMs < rsp.responseTimestamp then .timeout
  else if rsp.responseData = [] then .invalidData
  else if eng.parameters.verifyBlockHash && ch.challengeType = .blockHash &&
      !eng.verifyBlockResponse ch.blockHeight rsp.responseData then .invalidData
  else .valid

/-- The challenge as it goes into the history. -/
def answered (ch : AvailabilityChallenge) (rsp : AvailabilityResponse) (correct : Bool) :
    AvailabilityChallenge :=
  { ch with
    responded := true, responseCorrect := correct, responseData := rsp.responseData,
    responseTimeMs := rsp.processingTimeMs, responseTimestamp := rsp.responseTimestamp }

/-- `process_challenge_response`.  Who sent the response is not looked at. -/
def processChallengeResponse (it : PendingOrder) (eng : AvailabilityEngine)
    (rsp : AvailabilityResponse) : AvailabilityEngine × Bool :=
  match eng.getChallenge it rsp.challengeId with
  | none => (eng, false)
  | some ch =>
    let correct := eng.validateResponse ch rsp = .valid
    ({ eng with
        challengeHistory := eng.challengeHistory.insert ch.nodeId
          (eng.challengeHistory.getD ch.nodeId [] ++ [answered ch rsp correct])
        pending := eng.pending.discard ch.nodeId ch.challengeId
        responseTimes := eng.responseTimes.insert ch.nodeId
          (eng.responseTimes.getD ch.nodeId [] ++ [rsp.processingTimeMs]) },
      correct)

/-- `send_challenge`; `route` is what `send_challenge_func_` returns, if it is set.  A challenge
that could not be sent is taken back, with whatever else has its number. -/
def sendChallenge (cr : Crypto) (eng : AvailabilityEngine) (target : Hash)
    (currentHeight currentTimestampMs : UInt64) (route : Option Bool) : AvailabilityEngine × Bool :=
  let ch := eng.generateChallenge cr target currentHeight currentTimestampMs
  let eng := { eng with pending := eng.pending.push ch }
  match route with
  | none => (eng, false)
  | some true => (eng, true)
  | some false => ({ eng with pending := eng.pending.discard target ch.challengeId }, false)

/-- The challenge history of a node. -/
def history (eng : AvailabilityEngine) (n : Hash) : List AvailabilityChallenge :=
  eng.challengeHistory.getD n []

/-- The response times of a node. -/
def times (eng : AvailabilityEngine) (n : Hash) : List UInt32 := eng.responseTimes.getD n []

/-- Some challenge to the node with this number is pending. -/
def Awaits (eng : AvailabilityEngine) (n id : Hash) : Prop :=
  ∃ ch ∈ eng.pending.of n, ch.challengeId = id

/-- `get_nodes_due_for_challenge`. -/
def getNodesDueForChallenge {F : Type} (eng : AvailabilityEngine) (r : NodeRegistry F)
    (currentTimestamp : UInt64) : List Hash :=
  ((r.getNodesByStatus .active).filter fun e =>
    eng.pending.of e.nodeId = [] &&
      (e.nextChallengeTime = 0 || e.nextChallengeTime ≤ currentTimestamp)).map (·.nodeId)

/-- One node of the loop of `schedule_period_challenges`, with the number scheduled so far; `clock`
is what each update reads. -/
def scheduleNode {F : Type} (eng : AvailabilityEngine) (count : UInt32) (currentTimestamp : UInt64)
    (clock : UInt32 → UInt64) (acc : NodeRegistry F × UInt32) (e : NodeRegistryEntry F) :
    NodeRegistry F × UInt32 :=
  if e.nextChallengeTime = 0 then
    let intervalMs := eng.parameters.challengeIntervalHours * 3600 * 1000
    let stagger := acc.2.toUInt64 * intervalMs / count.toUInt64
    ((acc.1.updateNodeChallengeTime e.nodeId (currentTimestamp + stagger) (clock acc.2)).getD acc.1,
      acc.2 + 1)
  else acc

/-- `schedule_period_challenges`. -/
def schedulePeriodChallenges {F : Type} (eng : AvailabilityEngine) (r : NodeRegistry F)
    (currentTimestamp : UInt64) (clock : UInt32 → UInt64) : NodeRegistry F × UInt32 :=
  let active := r.getNodesByStatus .active
  let count := active.length.toUInt32
  if count = 0 then (r, 0)
  else active.foldl (eng.scheduleNode count currentTimestamp clock) (r, 0)

/-! ### What a response does -/

section

variable {it : PendingOrder} {eng : AvailabilityEngine}

/-- What is found is pending. -/
theorem getChallenge_eq_some {id : Hash} {ch : AvailabilityChallenge}
    (h : eng.getChallenge it id = some ch) :
    ch ∈ eng.pending.of ch.nodeId ∧ ch.challengeId = id := by
  have hid := List.find?_some h
  obtain ⟨⟨n, row⟩, hrow, hch⟩ := List.mem_flatMap.mp (List.mem_of_find?_eq_some h)
  have hn : ch ∈ eng.pending.of n := by
    rw [PendingTable.of, ExtTreeMap.getD_eq_getD_getElem?, it.mem_order.mp hrow]
    exact hch
  rw [PendingTable.nodeId_of_mem hn]
  exact ⟨hn, of_decide_eq_true hid⟩

/-- A pending challenge is found by its number, or another one with that number is. -/
theorem exists_getChallenge (it : PendingOrder) {n : Hash} {ch : AvailabilityChallenge}
    (h : ch ∈ eng.pending.of n) : ∃ c, eng.getChallenge it ch.challengeId = some c := by
  have hrow : (n, eng.pending.of n) ∈ it.order eng.pending.rows := by
    rw [it.mem_order]
    rw [PendingTable.of, ExtTreeMap.getD_eq_getD_getElem?] at h ⊢
    cases hn : eng.pending.rows[n]? with
    | none => simp [hn] at h
    | some row => rfl
  rw [← Option.isSome_iff_exists, getChallenge, List.find?_isSome]
  exact ⟨ch, List.mem_flatMap.mpr ⟨_, hrow, h⟩, decide_eq_true rfl⟩

/-- What filing a response to the challenge `ch` changes. -/
structure Files (eng : AvailabilityEngine) (ch : AvailabilityChallenge)
    (rsp : AvailabilityResponse) (eng' : AvailabilityEngine) : Prop where
  pending : eng'.pending = eng.pending.discard ch.nodeId ch.challengeId
  history : ∀ n, eng'.history n = if ch.nodeId = n then
    eng.history n ++ [answered ch rsp (eng.validateResponse ch rsp = .valid)] else eng.history n
  times : ∀ n, eng'.times n =
    if ch.nodeId = n then eng.times n ++ [rsp.processingTimeMs] else eng.times n

/-- A response is filed for the challenge that its number finds, or does nothing. -/
theorem processChallengeResponse_cases (it : PendingOrder) (eng : AvailabilityEngine)
    (rsp : AvailabilityResponse) :
    eng.getChallenge it rsp.challengeId = none ∧ (eng.processChallengeResponse it rsp).1 = eng ∨
      ∃ ch, eng.getChallenge it rsp.challengeId = some ch ∧
        eng.Files ch rsp (eng.processChallengeResponse it rsp).1 := by
  cases hfind : eng.getChallenge it rsp.challengeId with
  | none => exact Or.inl ⟨rfl, by simp [processChallengeResponse, hfind]⟩
  | some ch =>
    refine Or.inr ⟨ch, rfl, ?_, fun n => ?_, fun n => ?_⟩
    · simp [processChallengeResponse, hfind]
    · simp only [processChallengeResponse, hfind, history, ExtTreeMap.getD_insert,
        LawfulEqOrd.compare_eq_iff_eq]
      split_ifs with hn
      · rw [hn]
      · rfl
    · simp only [processChallengeResponse, hfind, times, ExtTreeMap.getD_insert,
        LawfulEqOrd.compare_eq_iff_eq]
      split_ifs with hn
      · rw [hn]
      · rfl

end

end AvailabilityEngine

end Mevacoin.Availability
