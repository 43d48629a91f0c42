import Mathlib.Data.List.MinMax
import Mevacoin.Availability.Engine

/-!
# The node that is asked

`handle_NOTIFY_MEVATRUST_CHALLENGE` (`src/cryptonote_protocol/cryptonote_protocol_handler.inl`) and
the `ChallengeRateLimiter` (`mevatrust_security.h`), whose three filters each change their part of
the state before the next one is asked.
-/

namespace Mevacoin.Availability

open Lib Std

/-- `ChallengeRateLimiter::PeerState`. -/
structure PeerState where
  windowStartMs : UInt64 := 0
  challengeCount : UInt32 := 0
deriving DecidableEq

/-- `ChallengeRateLimiter`. -/
structure ChallengeRateLimiter where
  /-- `peers_`. -/
  peers : ExtTreeMap Bytes PeerState := ∅
  globalWindowStart : UInt64 := 0
  globalChallengeCount : UInt32 := 0
  /-- `seen_challenges_`. -/
  seenChallenges : ExtTreeMap Hash UInt64 := ∅

/-- The order in which the remembered challenges are searched for the oldest. -/
abbrev SeenOrder := Iteration Hash UInt64

namespace ChallengeRateLimiter

/-- `MAX_CHALLENGES_PER_WINDOW`. -/
def maxChallengesPerWindow : UInt32 := 1

/-- `WINDOW_MS`. -/
def windowMs : UInt64 := 60000

/-- `GLOBAL_MAX_PER_WINDOW`. -/
def globalMaxPerWindow : UInt32 := 60

/-- `DEDUP_TTL_MS`. -/
def dedupTtlMs : UInt64 := 30000

/-- `DEDUP_MAX_SIZE`. -/
def dedupMaxSize : ℕ := 5000

/-- `make_key`. -/
def makeKey (peerIp : Bytes) (peerId : Hash) : Bytes := peerId.data ++ asciiBytes "|" ++ peerIp

/-- A peer's window at `now`: a new one, if the last is over. -/
def PeerState.current (s : PeerState) (now : UInt64) : PeerState :=
  if windowMs < now - s.windowStartMs then ⟨now, 0⟩ else s

/-- `is_allowed`. -/
def isAllowed (rl : ChallengeRateLimiter) (peerIp : Bytes) (peerId : Hash) (now : UInt64) :
    ChallengeRateLimiter × Bool :=
  let key := makeKey peerIp peerId
  let state := PeerState.current (rl.peers.getD key {}) now
  if maxChallengesPerWindow ≤ state.challengeCount then
    ({ rl with peers := rl.peers.insert key state }, false)
  else
    let state := { state with challengeCount := state.challengeCount + 1 }
    ({ rl with peers := rl.peers.insert key state }, true)

/-- The global window at `now`. -/
def currentGlobal (rl : ChallengeRateLimiter) (now : UInt64) : ChallengeRateLimiter :=
  if windowMs < now - rl.globalWindowStart then
    { rl with globalWindowStart := now, globalChallengeCount := 0 }
  else rl

/-- `is_global_allowed`. -/
def isGlobalAllowed (rl : ChallengeRateLimiter) (now : UInt64) : ChallengeRateLimiter × Bool :=
  let rl := rl.currentGlobal now
  if globalMaxPerWindow ≤ rl.globalChallengeCount then (rl, false)
  else ({ rl with globalChallengeCount := rl.globalChallengeCount + 1 }, true)

/-- The oldest remembered challenge, the first of them in the order of the table. -/
def oldest (it : SeenOrder) (seen : ExtTreeMap Hash UInt64) : Option (Hash × UInt64) :=
  (it.order seen).argmin (·.2.toNat)

/-- Drop the oldest remembered challenge if there are too many. -/
def evict (it : SeenOrder) (seen : ExtTreeMap Hash UInt64) : ExtTreeMap Hash UInt64 :=
  if dedupMaxSize < seen.size then
    match oldest it seen with
    | none => seen
    | some (cid, _) => seen.erase cid
  else seen

/-- Whether a challenge is remembered from less than `DEDUP_TTL_MS` ago. -/
def isFresh (seen : ExtTreeMap Hash UInt64) (cid : Hash) (now : UInt64) : Bool :=
  (seen[cid]?).any fun t => now - t < dedupTtlMs

/-- `is_challenge_id_seen`. -/
def isChallengeIdSeen (it : SeenOrder) (rl : ChallengeRateLimiter) (cid : Hash) (now : UInt64) :
    ChallengeRateLimiter × Bool :=
  if isFresh rl.seenChallenges cid now then (rl, true)
  else ({ rl with seenChallenges := evict it (rl.seenChallenges.insert cid now) }, false)

/-- `cleanup`. -/
def cleanup (rl : ChallengeRateLimiter) (now : UInt64) : ChallengeRateLimiter :=
  { rl with
    peers := rl.peers.filter fun _ s => !(windowMs * 10 < now - s.windowStartMs)
    seenChallenges := rl.seenChallenges.filter fun _ t => !(dedupTtlMs < now - t) }

end ChallengeRateLimiter

/-! ### The handler -/

/-- `NOTIFY_MEVATRUST_CHALLENGE::request`, what the handler reads of it. -/
structure ChallengeRequest where
  challengeId : Hash
  targetNodeId : Hash
  challengeType : UInt8
  blockHeight : UInt64
deriving DecidableEq

/-- The message that the challenger sends out for a challenge (`send_challenge_func`). -/
def AvailabilityChallenge.request (ch : AvailabilityChallenge) : ChallengeRequest where
  challengeId := ch.challengeId
  targetNodeId := ch.nodeId
  challengeType := ch.challengeType.toUInt8
  blockHeight := ch.blockHeight

/-- The chain as the handler asks for it. -/
structure ChainView where
  /-- `get_current_blockchain_height`. -/
  currentHeight : UInt64
  /-- `get_block_id_by_height`, the null hash where there is no block. -/
  blockIdByHeight : UInt64 → Hash

/-- The answer, in hexadecimal: the `switch` over the type of the challenge. -/
def answerData (chain : ChainView) (req : ChallengeRequest) : Bytes :=
  if req.challengeType = 0 then
    if 0 < req.blockHeight ∧ req.blockHeight < chain.currentHeight then
      toHex (chain.blockIdByHeight req.blockHeight).data
    else toHex Pod32.null.data
  else if req.challengeType = 5 then
    if 0 < chain.currentHeight then toHex (chain.blockIdByHeight (chain.currentHeight - 1)).data
    else toHex Pod32.null.data
  else []

/-- The `NOTIFY_MEVATRUST_RESPONSE` to a challenge; `start` and `finish` are what `time` gives. -/
def respond (chain : ChainView) (myNodeId : Hash) (req : ChallengeRequest) (start finish : UInt64) :
    AvailabilityResponse where
  challengeId := req.challengeId
  nodeId := myNodeId
  responseData := answerData chain req
  responseTimestamp := start * 1000
  processingTimeMs := (finish * 1000 - start * 1000).toUInt32

/-- What became of a challenge. -/
inductive Verdict where
  /-- No identity, or the challenge is for another node. -/
  | ignored
  /-- `is_challenge_id_seen`. -/
  | duplicate
  /-- Not `is_global_allowed`. -/
  | overGlobal
  /-- Not `is_allowed`. -/
  | throttled
  | answered
deriving DecidableEq, Repr

/-- The three filters, in the order of the handler. -/
def filterChallenge (it : SeenOrder) (rl : ChallengeRateLimiter) (cid : Hash) (host : Bytes)
    (now : UInt64) : ChallengeRateLimiter × Verdict :=
  match rl.isChallengeIdSeen it cid now with
  | (rl, true) => (rl, .duplicate)
  | (rl, false) =>
    match rl.isGlobalAllowed now with
    | (rl, false) => (rl, .overGlobal)
    | (rl, true) =>
      match rl.isAllowed host Pod32.null now with
      | (rl, false) => (rl, .throttled)
      | (rl, true) => (rl, .answered)

/-- `handle_NOTIFY_MEVATRUST_CHALLENGE` at `now`, for a node whose identity is `myNodeId`. -/
def handleChallenge (it : SeenOrder) (myNodeId : Option Hash) (rl : ChallengeRateLimiter)
    (req : ChallengeRequest) (host : Bytes) (now : UInt64) : ChallengeRateLimiter × Verdict :=
  if myNodeId = some req.targetNodeId then filterChallenge it rl req.challengeId host now
  else (rl, .ignored)

/-! ### What the filters change -/

namespace ChallengeRateLimiter

/-- The global window is full. -/
def isFull (rl : ChallengeRateLimiter) (now : UInt64) : Bool :=
  globalMaxPerWindow ≤ (rl.currentGlobal now).globalChallengeCount

/-- The window of a host at `now`. -/
def hostState (rl : ChallengeRateLimiter) (host : Bytes) (now : UInt64) : PeerState :=
  PeerState.current (rl.peers.getD (makeKey host Pod32.null) {}) now

/-- The window of the host is full. -/
def isBusy (rl : ChallengeRateLimiter) (host : Bytes) (now : UInt64) : Bool :=
  maxChallengesPerWindow ≤ (rl.hostState host now).challengeCount

/-- The limiter once the challenge is remembered. -/
def remember (it : SeenOrder) (rl : ChallengeRateLimiter) (cid : Hash) (now : UInt64) :
    ChallengeRateLimiter :=
  { rl with seenChallenges := evict it (rl.seenChallenges.insert cid now) }

/-- The limiter once the challenge is counted in the global window. -/
def countGlobal (rl : ChallengeRateLimiter) (now : UInt64) : ChallengeRateLimiter :=
  { rl.currentGlobal now with
    globalChallengeCount := (rl.currentGlobal now).globalChallengeCount + 1 }

/-- The limiter once the host has been let through. -/
def letThrough (rl : ChallengeRateLimiter) (host : Bytes) (now : UInt64) : ChallengeRateLimiter :=
  let state := rl.hostState host now
  { rl with
    peers := rl.peers.insert (makeKey host Pod32.null)
      ⟨state.windowStartMs, state.challengeCount + 1⟩ }

section

variable (it : SeenOrder) (rl : ChallengeRateLimiter) (cid : Hash) (host : Bytes) (now : UInt64)

/-- The global filter counts what it lets through. -/
theorem isGlobalAllowed_eq : rl.isGlobalAllowed now =
    if rl.isFull now then (rl, false) else (rl.countGlobal now, true) := by
  unfold isGlobalAllowed isFull countGlobal
  by_cases hwindow : windowMs < now - rl.globalWindowStart
  · -- a new window is empty
    simp [currentGlobal, hwindow, globalMaxPerWindow]
  · simp [currentGlobal, hwindow]

variable {rl host now} in
/-- A host with a full window has an entry, which is its state. -/
theorem getElem?_peers_of_isBusy (h : rl.isBusy host now = true) :
    rl.peers[makeKey host Pod32.null]? = some (rl.hostState host now) := by
  have hcount : (1 : UInt32) ≤ (rl.hostState host now).challengeCount := of_decide_eq_true h
  unfold hostState PeerState.current at hcount ⊢
  split_ifs at hcount ⊢ with hwindow
  · -- a new window is empty
    have hempty : ¬ (1 : UInt32) ≤ 0 := by decide
    exact absurd hcount hempty
  · rw [ExtTreeMap.getD_eq_getD_getElem?] at hcount ⊢
    cases hentry : rl.peers[makeKey host Pod32.null]? with
    | none =>
      rw [hentry] at hcount
      exact absurd hcount (by decide)
    | some state => rfl

/-- A host that is held back leaves no trace. -/
theorem isAllowed_eq : rl.isAllowed host Pod32.null now =
    if rl.isBusy host now then (rl, false) else (rl.letThrough host now, true) := by
  have hunfold : rl.isAllowed host Pod32.null now =
      if rl.isBusy host now then
        ({ rl with
            peers := rl.peers.insert (makeKey host Pod32.null) (rl.hostState host now) }, false)
      else (rl.letThrough host now, true) := by
    unfold isBusy
    simp only [decide_eq_true_eq]
    rfl
  rw [hunfold]
  split_ifs with hbusy
  · have hentry := getElem?_peers_of_isBusy hbusy
    have hsame : rl.peers.insert (makeKey host Pod32.null) (rl.hostState host now) = rl.peers := by
      ext k state
      rw [ExtTreeMap.getElem?_insert]
      split_ifs with hk
      · rw [← LawfulEqOrd.eq_of_compare hk, hentry]
      · rfl
    rw [hsame]
  · rfl

variable {rl} in
/-- The state of a host is in its entry. -/
theorem hostState_congr {rl' : ChallengeRateLimiter} (h : rl'.peers = rl.peers) :
    rl'.hostState host now = rl.hostState host now := by
  rw [hostState, hostState, h]

/-- Remembering and counting leave the hosts alone. -/
theorem peers_counted : ((rl.remember it cid now).countGlobal now).peers = rl.peers := by
  unfold countGlobal currentGlobal remember
  split_ifs <;> rfl

/-- Counting leaves the numbers alone. -/
theorem seen_counted : ((rl.remember it cid now).countGlobal now).seenChallenges =
    evict it (rl.seenChallenges.insert cid now) := by
  unfold countGlobal currentGlobal remember
  split_ifs <;> rfl

/-- **What the filters do**, the first one that objects deciding. -/
theorem filterChallenge_eq : filterChallenge it rl cid host now =
    if isFresh rl.seenChallenges cid now then (rl, .duplicate)
    else if rl.isFull now then (rl.remember it cid now, .overGlobal)
    else if rl.isBusy host now then ((rl.remember it cid now).countGlobal now, .throttled)
    else (((rl.remember it cid now).countGlobal now).letThrough host now, .answered) := by
  have hseen : rl.isChallengeIdSeen it cid now =
      if isFresh rl.seenChallenges cid now then (rl, true) else (rl.remember it cid now, false) :=
    rfl
  have hfull : (rl.remember it cid now).isFull now = rl.isFull now := by
    unfold isFull currentGlobal remember
    split_ifs <;> rfl
  have hbusy : ((rl.remember it cid now).countGlobal now).isBusy host now = rl.isBusy host now := by
    rw [isBusy, isBusy, hostState_congr host now (peers_counted it rl cid now)]
  rw [filterChallenge, hseen]
  split_ifs with hfresh hf hb
  · rfl
  · simp only [isGlobalAllowed_eq, hfull, hf, if_true]
  · simp only [isGlobalAllowed_eq, hfull, hf, isAllowed_eq, hbusy, hb, if_true, if_false,
      Bool.false_eq_true]
  · simp only [isGlobalAllowed_eq, hfull, hf, isAllowed_eq, hbusy, hb, if_false,
      Bool.false_eq_true]

/-- What the filters do to the hosts. -/
theorem filterChallenge_peers : (filterChallenge it rl cid host now).1.peers =
    if (filterChallenge it rl cid host now).2 = .answered then
      rl.peers.insert (makeKey host Pod32.null)
        ⟨(rl.hostState host now).windowStartMs, (rl.hostState host now).challengeCount + 1⟩
    else rl.peers := by
  rw [filterChallenge_eq]
  by_cases hfresh : isFresh rl.seenChallenges cid now = true
  · simp [hfresh]
  by_cases hfull : rl.isFull now = true
  · simp [hfresh, hfull, remember]
  by_cases hbusy : rl.isBusy host now = true
  · simp [hfresh, hfull, hbusy, peers_counted]
  · simp [hfresh, hfull, hbusy, letThrough, peers_counted,
      hostState_congr host now (peers_counted it rl cid now)]

/-- What the filters do to the numbers. -/
theorem filterChallenge_seen : (filterChallenge it rl cid host now).1.seenChallenges =
    if (filterChallenge it rl cid host now).2 = .duplicate then rl.seenChallenges
    else evict it (rl.seenChallenges.insert cid now) := by
  rw [filterChallenge_eq]
  by_cases hfresh : isFresh rl.seenChallenges cid now = true
  · simp [hfresh]
  by_cases hfull : rl.isFull now = true
  · simp [hfresh, hfull, remember]
  by_cases hbusy : rl.isBusy host now = true
  · simp [hfresh, hfull, hbusy, seen_counted]
  · simp [hfresh, hfull, hbusy, letThrough, seen_counted]

/-- What is counted in the global window. -/
theorem global_counted :
    ((rl.remember it cid now).countGlobal now).globalWindowStart =
        (rl.currentGlobal now).globalWindowStart ∧
      ((rl.remember it cid now).countGlobal now).globalChallengeCount =
        (rl.currentGlobal now).globalChallengeCount + 1 := by
  unfold countGlobal currentGlobal remember
  split_ifs <;> exact ⟨rfl, rfl⟩

/-- What the filters do to the global window's start. -/
theorem filterChallenge_globalStart : (filterChallenge it rl cid host now).1.globalWindowStart =
    if (filterChallenge it rl cid host now).2 = .duplicate ∨
        (filterChallenge it rl cid host now).2 = .overGlobal then rl.globalWindowStart
    else (rl.currentGlobal now).globalWindowStart := by
  obtain ⟨hstart, -⟩ := global_counted it rl cid now
  rw [filterChallenge_eq]
  by_cases hfresh : isFresh rl.seenChallenges cid now = true
  · simp [hfresh]
  by_cases hfull : rl.isFull now = true
  · simp [hfresh, hfull, remember]
  by_cases hbusy : rl.isBusy host now = true
  · simp [hfresh, hfull, hbusy, hstart]
  · simp [hfresh, hfull, hbusy, letThrough, hstart]

/-- What the filters do to the global count. -/
theorem filterChallenge_globalCount :
    (filterChallenge it rl cid host now).1.globalChallengeCount =
    if (filterChallenge it rl cid host now).2 = .duplicate ∨
        (filterChallenge it rl cid host now).2 = .overGlobal then rl.globalChallengeCount
    else (rl.currentGlobal now).globalChallengeCount + 1 := by
  obtain ⟨-, hcount⟩ := global_counted it rl cid now
  rw [filterChallenge_eq]
  by_cases hfresh : isFresh rl.seenChallenges cid now = true
  · simp [hfresh]
  by_cases hfull : rl.isFull now = true
  · simp [hfresh, hfull, remember]
  by_cases hbusy : rl.isBusy host now = true
  · simp [hfresh, hfull, hbusy, hcount]
  · simp [hfresh, hfull, hbusy, letThrough, hcount]

/-- A stretch of time is measured right when the clock does not run backwards. -/
theorem lt_sub_iff {w now start : UInt64} (h : start.toNat ≤ now.toNat) :
    w < now - start ↔ start.toNat + w.toNat < now.toNat := by
  rw [UInt64.lt_iff_toNat_lt, UInt64.toNat_sub_of_le _ _ (UInt64.le_iff_toNat_le.mpr h)]
  omega

/-- A number is fresh for 30000 milliseconds. -/
theorem isFresh_iff {seen : ExtTreeMap Hash UInt64} {cid : Hash} {now : UInt64}
    (h : ∀ t : UInt64, seen[cid]? = some t → t.toNat ≤ now.toNat) :
    isFresh seen cid now = true ↔
      ∃ t : UInt64, seen[cid]? = some t ∧ now.toNat < t.toNat + 30000 := by
  unfold isFresh
  cases hentry : seen[cid]? with
  | none => simp
  | some t =>
    have ht := h t hentry
    have hage : now - t < dedupTtlMs ↔ now.toNat < t.toNat + 30000 := by
      rw [UInt64.lt_iff_toNat_lt, UInt64.toNat_sub_of_le _ _ (UInt64.le_iff_toNat_le.mpr ht)]
      simp only [dedupTtlMs, UInt64.toNat_ofNat]
      omega
    simp [hage]

/-- No number is remembered ahead of time. -/
theorem le_of_insert {seen : ExtTreeMap Hash UInt64} {cid id : Hash} {now t : UInt64}
    (h : ∀ (id : Hash) (t : UInt64), seen[id]? = some t → t.toNat ≤ now.toNat)
    (ht : (seen.insert cid now)[id]? = some t) : t.toNat ≤ now.toNat := by
  rw [ExtTreeMap.getElem?_insert] at ht
  split_ifs at ht
  · rw [← Option.some.inj ht]
  · exact h id t ht

/-- Duplicates are fresh numbers. -/
theorem filterChallenge_eq_duplicate_iff : (filterChallenge it rl cid host now).2 = .duplicate ↔
    isFresh rl.seenChallenges cid now = true := by
  rw [filterChallenge_eq]
  split_ifs with hfresh hfull hbusy <;> simp [hfresh]

variable {it rl cid host now} in
/-- An answered host was not held back. -/
theorem isBusy_of_answered (h : (filterChallenge it rl cid host now).2 = .answered) :
    rl.isBusy host now = false := by
  rw [filterChallenge_eq] at h
  split_ifs at h with hfresh hfull hbusy
  exact Bool.eq_false_iff.mpr hbusy

variable {it rl cid host now} in
/-- What is counted finds the global window open. -/
theorem isFull_of_counted (h : (filterChallenge it rl cid host now).2 = .throttled ∨
    (filterChallenge it rl cid host now).2 = .answered) : rl.isFull now = false := by
  rw [filterChallenge_eq] at h
  split_ifs at h with hfresh hfull hbusy
  · simp at h
  · simp at h
  · exact Bool.eq_false_iff.mpr hfull
  · exact Bool.eq_false_iff.mpr hfull

/-- The filters ignore nothing. -/
theorem filterChallenge_ne_ignored : (filterChallenge it rl cid host now).2 ≠ .ignored := by
  rw [filterChallenge_eq]
  split_ifs <;> simp

/-- A table that is too large has an oldest entry. -/
theorem exists_oldest {seen : ExtTreeMap Hash UInt64} (h : dedupMaxSize < seen.size) :
    ∃ (id : Hash) (t : UInt64), oldest it seen = some (id, t) ∧ seen[id]? = some t := by
  cases hold : oldest it seen with
  | none =>
    have hempty : it.order seen = [] := List.argmin_eq_none.mp hold
    have hsize := (it.perm seen).length_eq
    rw [hempty, ExtTreeMap.length_toList] at hsize
    rw [← hsize] at h
    exact absurd h (by simp)
  | some entry => exact ⟨entry.1, entry.2, rfl, it.mem_order.mp (List.argmin_mem hold)⟩

/-- No entry is older than the oldest. -/
theorem oldest_le {seen : ExtTreeMap Hash UInt64} {id i : Hash} {t u : UInt64}
    (h : oldest it seen = some (id, t)) (hi : seen[i]? = some u) : t.toNat ≤ u.toNat :=
  List.le_of_mem_argmin (f := fun entry : Hash × UInt64 => entry.2.toNat)
    (it.mem_order.mpr hi) h

/-- A table that is too large loses an entry that no other is older than. -/
theorem evict_cases (seen : ExtTreeMap Hash UInt64) :
    seen.size ≤ dedupMaxSize ∧ evict it seen = seen ∨
      dedupMaxSize < seen.size ∧ ∃ (id : Hash) (t : UInt64), seen[id]? = some t ∧
        (∀ (i : Hash) (u : UInt64), seen[i]? = some u → t.toNat ≤ u.toNat) ∧
        evict it seen = seen.erase id := by
  rcases Nat.lt_or_ge dedupMaxSize seen.size with hlarge | hsmall
  · obtain ⟨id, t, hold, hentry⟩ := exists_oldest it hlarge
    refine Or.inr ⟨hlarge, id, t, hentry, fun i u hi => oldest_le it hold hi, ?_⟩
    rw [evict, if_pos hlarge, hold]
  · exact Or.inl ⟨hsmall, by rw [evict, if_neg (by omega)]⟩

end

end ChallengeRateLimiter

/-! ### The node over time -/

/-- The calls that reach the limiter. -/
inductive Arrival where
  /-- A challenge that a host sends to the node, whose identity is `myNodeId`. -/
  | challenge (myNodeId : Option Hash) (req : ChallengeRequest) (host : Bytes) (now : UInt64)
  /-- `on_idle`. -/
  | idle (now : UInt64)
deriving DecidableEq

/-- A challenge to node 9, which is this one. -/
def toNine (cid : Hash) (host : String) (now : UInt64) : Arrival :=
  .challenge (some (.fill 9)) ⟨cid, .fill 9, 0, 5⟩ (asciiBytes host) now

/-- What the call reads from the clock. -/
def Arrival.now : Arrival → UInt64
  | challenge _ _ _ now => now
  | idle now => now

/-- A challenge and what became of it. -/
structure Handled where
  host : Bytes
  challengeId : Hash
  now : UInt64
  verdict : Verdict
deriving DecidableEq

/-- The limiter, and the clock at the last call. -/
structure Responder where
  limiter : ChallengeRateLimiter := {}
  clock : UInt64 := 0

/-- One call. -/
def Responder.step (it : SeenOrder) (s : Responder) : Arrival → Responder × List Handled
  | .challenge myNodeId req host now =>
    let (rl, verdict) := handleChallenge it myNodeId s.limiter req host now
    (⟨rl, now⟩, [⟨host, req.challengeId, now, verdict⟩])
  | .idle now => (⟨s.limiter.cleanup now, now⟩, [])

/-- The machine of the calls. -/
def responderMachine (it : SeenOrder) : Machine Responder Arrival Handled := ⟨Responder.step it⟩

/-- The clock is that of the last arrival. -/
@[simp] theorem Responder.clock_step (it : SeenOrder) (s : Responder) (a : Arrival) :
    (s.step it a).1.clock = a.now := by
  cases a <;> rfl

/-- The clock does not run backwards and is past the first minute. -/
def InOrder (arrivals : List Arrival) : Prop :=
  arrivals.Pairwise (fun a b => a.now.toNat ≤ b.now.toNat) ∧ ∀ a ∈ arrivals, 60000 < a.now.toNat
deriving Decidable

/-- The same of one call after the others. -/
def Responder.OnTime (s : Responder) (a : Arrival) : Prop :=
  s.clock.toNat ≤ a.now.toNat ∧ 60000 < a.now.toNat

/-- Arrivals in order are on time. -/
theorem InOrder.guarded {arrivals : List Arrival} (h : InOrder arrivals) (it : SeenOrder)
    {s : Responder} (hs : ∀ a ∈ arrivals, s.clock.toNat ≤ a.now.toNat) :
    (responderMachine it).Guarded Responder.OnTime s arrivals := by
  induction arrivals generalizing s with
  | nil => exact trivial
  | cons a as ih =>
    obtain ⟨hsorted, hlate⟩ := h
    obtain ⟨hfirst, hrest⟩ := List.pairwise_cons.mp hsorted
    refine ⟨⟨hs a List.mem_cons_self, hlate a List.mem_cons_self⟩, ih ⟨hrest, ?_⟩ ?_⟩
    · exact fun b hb => hlate b (List.mem_cons_of_mem _ hb)
    · intro b hb
      show (s.step it a).1.clock.toNat ≤ b.now.toNat
      rw [Responder.clock_step]
      exact hfirst b hb

end Mevacoin.Availability
