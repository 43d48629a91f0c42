import Mevacoin.Trust.NodeRegistry

/-!
# The scoring engine

`src/cryptonote_core/mevatrust/mevatrust_engine.cpp`.  `score_cache_`, which the block processing
never reads, is left out.
-/

namespace Mevacoin.Trust

open Lib Std

/-! ### Constants of `mevatrust_consensus.h` -/

/-- `NODE_REWARD_PERCENT`. -/
def nodeRewardPercent : UInt64 := 3

/-- `DISTRIBUTION_PERIOD_BLOCKS`. -/
def distributionPeriodBlocks : UInt64 := 240

/-- `MIN_ELIGIBLE_UPTIME_SECONDS`. -/
def minEligibleUptimeSeconds : UInt64 := 2 * 24 * 60 * 60

/-- `UPTIME_WEIGHT_CAP_DAYS`. -/
def uptimeWeightCapDays : ℕ := 90

/-- `UPTIME_WINDOW_BLOCKS`. -/
def uptimeWindowBlocks : UInt64 := 43200

/-- `MAX_UPTIME_CREDIT_GAP_SECONDS`. -/
def maxUptimeCreditGapSeconds : UInt64 := 12 * 60 * 60

/-- `CHAIN_PROOF_VALIDITY_BLOCKS`. -/
def chainProofValidityBlocks : UInt64 := uptimeWindowBlocks

/-- `UptimeEvent`, without the address nobody reads. -/
structure UptimeEvent where
  timestamp : UInt64
  online : Bool
  blockHeight : UInt64
  peerCount : UInt32
  responseTimeMs : UInt32
deriving DecidableEq

/-- `ChainUptimeSample`. -/
structure ChainUptimeSample where
  height : UInt64
  blockTs : UInt64
deriving DecidableEq

/-- `ChainProofSample`. -/
structure ChainProofSample where
  height : UInt64
  targetHeight : UInt64
deriving DecidableEq

/-- The state of `MevaTrustEngine`. -/
structure Engine where
  /-- `uptime_history_`. -/
  uptimeHistory : ExtTreeMap Hash (List UptimeEvent) := ∅
  /-- `chain_uptime_samples_`. -/
  chainUptimeSamples : ExtTreeMap Hash (List ChainUptimeSample) := ∅
  /-- `chain_proof_samples_`. -/
  chainProofSamples : ExtTreeMap Hash (List ChainProofSample) := ∅
  /-- `last_period_processed_height_`. -/
  lastPeriodProcessedHeight : UInt64 := 0

/-- `parameters_.period_length`. -/
def enginePeriodLength : UInt64 := 240

namespace Engine

/-! ### Recording -/

/-- `record_uptime_event`: one event per block height, and the registry's own record of
the node. -/
def recordUptimeEvent {F : Type} (eng : Engine) (r : NodeRegistry F) (n : Hash)
    (ev : UptimeEvent) : Engine × NodeRegistry F :=
  let hist := eng.uptimeHistory.getD n []
  let dup := 0 < ev.blockHeight && hist.any (·.blockHeight = ev.blockHeight)
  let hist := if dup then hist else hist ++ [ev]
  ({ eng with uptimeHistory := eng.uptimeHistory.insert n hist },
    (r.recordUptimeEvent n ev.online ev.timestamp ev.peerCount).getD r)

/-- Drop the samples that a window ending at `height` no longer reaches. -/
def pruneSamples {α : Type} (heightOf : α → UInt64) (window height : UInt64) (l : List α) :
    List α :=
  l.dropWhile fun s => window ≤ height && heightOf s + window ≤ height

/-- Append a sample unless one at the same or a greater height is there, then prune. -/
def appendSample {α : Type} (heightOf : α → UInt64) (window height : UInt64) (s : α)
    (l : List α) : List α :=
  if l.getLast?.any fun last => height ≤ heightOf last then l
  else pruneSamples heightOf window height (l ++ [s])

/-- `record_chain_uptime_sample`. -/
def recordChainUptimeSample (eng : Engine) (n : Hash) (height blockTs : UInt64) : Engine :=
  let samples := appendSample ChainUptimeSample.height uptimeWindowBlocks height ⟨height, blockTs⟩
    (eng.chainUptimeSamples.getD n [])
  { eng with chainUptimeSamples := eng.chainUptimeSamples.insert n samples }

/-- `record_chain_proof_sample`. -/
def recordChainProofSample (eng : Engine) (n : Hash) (height targetHeight : UInt64) : Engine :=
  let samples := appendSample ChainProofSample.height chainProofValidityBlocks height
    ⟨height, targetHeight⟩ (eng.chainProofSamples.getD n [])
  { eng with chainProofSamples := eng.chainProofSamples.insert n samples }

/-- `has_recent_chain_proof`: the newest sample lies in the window. -/
def hasRecentChainProof (eng : Engine) (n : Hash) (height : UInt64) : Bool :=
  let windowStart :=
    if chainProofValidityBlocks < height then height - chainProofValidityBlocks else 0
  (eng.chainProofSamples.getD n []).getLast?.any fun s =>
    s.height ≤ height && windowStart ≤ s.height

/-! ### The uptime standing of the rule from fork 17 -/

/-- The seconds one pair of consecutive samples is worth. -/
def pairCredit (prev cur : ChainUptimeSample) : UInt64 :=
  if prev.blockTs < cur.blockTs then
    let gap := cur.blockTs - prev.blockTs
    if maxUptimeCreditGapSeconds < gap then maxUptimeCreditGapSeconds else gap
  else 0

/-- The loop of `compute_uptime_standing`: credited seconds and pairs considered. -/
def creditPairs (windowStart height : UInt64) : List ChainUptimeSample → UInt64 × UInt32
  | prev :: cur :: rest =>
    if prev.height < windowStart then creditPairs windowStart height (cur :: rest)
    else if height < cur.height then (0, 0)
    else
      let later := creditPairs windowStart height (cur :: rest)
      (pairCredit prev cur + later.1, 1 + later.2)
  | _ => (0, 0)

/-- `UptimeStanding`, over a type `D` of doubles. -/
structure UptimeStanding (D : Type) where
  creditedSeconds : UInt64
  samples : UInt32
  eligible : Bool
  days : D
  weight : D

/-- `compute_uptime_standing`. -/
def computeUptimeStanding (D : Type) [FloatArith D] (eng : Engine) (n : Hash) (height : UInt64) :
    UptimeStanding D :=
  let zero : D := FloatArith.ofRat 0
  let samples := eng.chainUptimeSamples.getD n []
  if height < uptimeWindowBlocks ∨ samples.length < 2 then ⟨0, 0, false, zero, zero⟩
  else
    let credit := creditPairs (height - uptimeWindowBlocks) height samples
    let days : D := FloatArith.div (FloatArith.ofNat credit.1.toNat) (FloatArith.ofRat 86400)
    if credit.1 < minEligibleUptimeSeconds then ⟨credit.1, credit.2, false, days, zero⟩
    else
      let cap : D := FloatArith.ofNat uptimeWeightCapDays
      ⟨credit.1, credit.2, true, days, if FloatArith.lt cap days then cap else days⟩

/-! ### The score of the rule up to fork 16 -/

section

variable {F : Type} [FloatArith F]

/-- `calculate_uptime_score`: the share of events in which the node was online. -/
def calculateUptimeScore (eng : Engine) (n : Hash) : F :=
  let hist := eng.uptimeHistory.getD n []
  if hist = [] then FloatArith.ofRat 0
  else fmin (FloatArith.ofRat 1)
    (FloatArith.div (FloatArith.ofNat (hist.countP (·.online))) (FloatArith.ofNat hist.length))

/-- `calculate_sync_score`. -/
def calculateSyncScore (r : NodeRegistry F) (n : Hash) : F :=
  match r.getNodeById n with
  | none => FloatArith.ofRat 0
  | some e => if e.isSynchronized then FloatArith.ofRat 1 else FloatArith.ofRat (1 / 2)

/-- `get_challenge_success_rate`. -/
def getChallengeSuccessRate (eng : Engine) (n : Hash) : F :=
  let timed := (eng.uptimeHistory.getD n []).filter (0 < ·.responseTimeMs)
  if timed = [] then FloatArith.ofRat 0
  else FloatArith.div (FloatArith.ofNat (timed.countP (·.online))) (FloatArith.ofNat timed.length)

/-- `get_average_response_time`. -/
def getAverageResponseTime (eng : Engine) (n : Hash) : F :=
  let timed := (eng.uptimeHistory.getD n []).filter (0 < ·.responseTimeMs)
  if timed = [] then FloatArith.ofRat 0
  else FloatArith.div (fsum (timed.map fun ev => FloatArith.ofNat ev.responseTimeMs.toNat))
    (FloatArith.ofNat timed.length)

/-- `calculate_responsiveness_score`. -/
def calculateResponsivenessScore (eng : Engine) (n : Hash) : F :=
  let rate : F := eng.getChallengeSuccessRate n
  let avg : F := eng.getAverageResponseTime n
  let rtSc : F :=
    if FloatArith.lt (FloatArith.ofRat 0) avg then
      fmax (FloatArith.ofRat 0) (FloatArith.sub (FloatArith.ofRat 1)
        (FloatArith.div avg (FloatArith.ofRat 2000)))
    else FloatArith.ofRat 1
  FloatArith.div (FloatArith.add rate rtSc) (FloatArith.ofRat 2)

/-- `calculate_activity_score`. -/
def calculateActivityScore (eng : Engine) (n : Hash) : F :=
  match eng.uptimeHistory[n]? with
  | none => FloatArith.ofRat 0
  | some hist =>
    fmin (FloatArith.ofRat 1)
      (FloatArith.div (FloatArith.ofNat (hist.countP (0 < ·.peerCount))) (FloatArith.ofRat 10))

/-- `get_uptime_percentage`: between 0 and 100. -/
def getUptimePercentage (eng : Engine) (n : Hash) : F :=
  FloatArith.mul (eng.calculateUptimeScore n) (FloatArith.ofRat 100)

/-- `get_sync_percentage`: between 0 and 100. -/
def getSyncPercentage (r : NodeRegistry F) (n : Hash) : F :=
  FloatArith.mul (calculateSyncScore r n) (FloatArith.ofRat 100)

/-- `calculate_node_score`: the weighted sum and the validator bonus. -/
def calculateNodeScore (eng : Engine) (r : NodeRegistry F) (n : Hash) : F :=
  let weighted (w : ℚ) (x : F) : F := FloatArith.mul (FloatArith.ofRat w) x
  let total := FloatArith.add (FloatArith.add (FloatArith.add
      (weighted (40 / 100) (eng.calculateUptimeScore n))
      (weighted (30 / 100) (calculateSyncScore r n)))
      (weighted (20 / 100) (eng.calculateResponsivenessScore n)))
      (weighted (10 / 100) (eng.calculateActivityScore n))
  match r.getNodeById n with
  | some e =>
    if e.isValidator then
      fmin (FloatArith.ofRat 1) (FloatArith.add total (FloatArith.ofRat (10 / 100)))
    else total
  | none => total

/-- `calculate_all_scores`, in the order of the score map. -/
def calculateAllScores (eng : Engine) (r : NodeRegistry F) : List (Hash × F) :=
  (r.getEligibleNodes.foldl
    (fun (m : ExtTreeMap Hash F) e => m.insert e.nodeId (eng.calculateNodeScore r e.nodeId))
    ∅).toList

end

/-- The loop of `get_consecutive_uptime_seconds`: the seconds of ended spells, and the start of an
open one or zero. -/
def uptimeSpells : UInt64 × UInt64 → UptimeEvent → UInt64 × UInt64
  | (seconds, lastOnline), ev =>
    if ev.online then (seconds, ev.timestamp)
    else if 0 < lastOnline then (seconds + (ev.timestamp - lastOnline), 0)
    else (seconds, lastOnline)

/-- `get_consecutive_uptime_seconds`: a spell that has not ended runs to now. -/
def getTotalUptimeSeconds (eng : Engine) (n : Hash) (now : UInt64) : UInt64 :=
  let spells := (eng.uptimeHistory.getD n []).foldl uptimeSpells (0, 0)
  if 0 < spells.2 then spells.1 + (now - spells.2) else spells.1

/-- `process_reward_period`: an unsigned distance. -/
def processRewardPeriod (eng : Engine) (currentHeight : UInt64) : Engine :=
  if currentHeight - eng.lastPeriodProcessedHeight < enginePeriodLength then eng
  else { eng with lastPeriodProcessedHeight := currentHeight }

end Engine

end Mevacoin.Trust
