import Mevacoin.Lib.Undo
import Mevacoin.Trust.Engine

/-!
# Badges

`src/cryptonote_core/mevatrust/badge_system.cpp`.  The callback that queues an award for this node's
own miner is not modelled.
-/

namespace Mevacoin.Trust

open Lib Std

/-- `BadgeType`; a snapshot may carry an octet that names none of them. -/
inductive BadgeType where
  | activeMiner | fullNodeOperator | stableNode | coreNetworkNode | longUptimeNode
  | earlySupporter | networkValidator | bridgeNode | privacyGuardian | relayMaster | welcome
  | other (octet : UInt8)
deriving DecidableEq, Repr

namespace BadgeType

/-- `static_cast<BadgeType>`. -/
def ofUInt8 : UInt8 → BadgeType
  | 0 => activeMiner
  | 1 => fullNodeOperator
  | 2 => stableNode
  | 3 => coreNetworkNode
  | 4 => longUptimeNode
  | 5 => earlySupporter
  | 6 => networkValidator
  | 7 => bridgeNode
  | 8 => privacyGuardian
  | 9 => relayMaster
  | 10 => welcome
  | octet => other octet

/-- `badge_type_to_string`. -/
def toName : BadgeType → Bytes
  | activeMiner => asciiBytes "ACTIVE_MINER"
  | fullNodeOperator => asciiBytes "FULL_NODE_OPERATOR"
  | stableNode => asciiBytes "STABLE_NODE"
  | coreNetworkNode => asciiBytes "CORE_NETWORK_NODE"
  | longUptimeNode => asciiBytes "LONG_UPTIME_NODE"
  | earlySupporter => asciiBytes "EARLY_SUPPORTER"
  | networkValidator => asciiBytes "NETWORK_VALIDATOR"
  | bridgeNode => asciiBytes "BRIDGE_NODE"
  | privacyGuardian => asciiBytes "PRIVACY_GUARDIAN"
  | relayMaster => asciiBytes "RELAY_MASTER"
  | welcome => asciiBytes "WELCOME"
  | other _ => asciiBytes "UNKNOWN"

/-- The list `auto_evaluate_badges` goes through. -/
def all : List BadgeType :=
  [activeMiner, fullNodeOperator, stableNode, coreNetworkNode, longUptimeNode, earlySupporter,
    networkValidator, bridgeNode, privacyGuardian, relayMaster, welcome]

end BadgeType

/-- `Badge`, without the fields that are never set. -/
structure Badge where
  type : BadgeType
  name : Bytes
  awardedHeight : UInt64
  awardedTimestamp : UInt64
  isActive : Bool
  revocationReason : Bytes
deriving DecidableEq

/-- `badge_cache_`. -/
structure BadgeSystem where
  cache : ExtTreeMap Hash (List Badge) := ∅

/-- `BadgeRequirements`: the minima that some criterion reads. -/
structure BadgeRequirements where
  uptimeHours : UInt64
  uptimePercentage : ℚ
  daysRegistered : UInt64
  syncPercentage : ℚ
  peerConnections : UInt32
  challengesValidated : UInt32

/-- The table of `initialize_default_badges`. -/
def BadgeType.requirements : BadgeType → BadgeRequirements
  | activeMiner => ⟨24, 50 / 100, 3, 80 / 100, 0, 0⟩
  | fullNodeOperator => ⟨100, 80 / 100, 7, 95 / 100, 5, 5⟩
  | stableNode => ⟨2160, 90 / 100, 90, 90 / 100, 3, 50⟩
  | coreNetworkNode => ⟨4320, 92 / 100, 180, 97 / 100, 8, 200⟩
  | longUptimeNode => ⟨8760, 95 / 100, 365, 95 / 100, 3, 100⟩
  | earlySupporter => ⟨0, 0, 0, 0, 0, 0⟩
  | networkValidator => ⟨0, 60 / 100, 14, 85 / 100, 3, 100⟩
  | bridgeNode => ⟨720, 80 / 100, 30, 90 / 100, 20, 50⟩
  | privacyGuardian => ⟨336, 85 / 100, 14, 98 / 100, 3, 30⟩
  | relayMaster => ⟨168, 75 / 100, 7, 85 / 100, 5, 20⟩
  | welcome => ⟨0, 0, 0, 0, 0, 0⟩
  | other _ => ⟨0, 0, 0, 0, 0, 0⟩

/-- `EARLY_HEIGHT_MAX`. -/
def earlyHeightMax : UInt64 := 100000

namespace BadgeSystem

/-- `has_badge`. -/
def hasBadge (b : BadgeSystem) (n : Hash) (t : BadgeType) : Bool :=
  (b.cache.getD n []).any fun bg => bg.type = t && bg.isActive

/-- `award_badge`; the reason goes into the field for the reason of a revocation. -/
def awardBadge (b : BadgeSystem) (n : Hash) (t : BadgeType) (height : UInt64) (reason : Bytes)
    (now : UInt64) : BadgeSystem :=
  if b.hasBadge n t then b
  else
    let bg : Badge := ⟨t, t.toName, height, now, true, reason⟩
    { cache := b.cache.insert n (b.cache.getD n [] ++ [bg]) }

/-- Deactivate the first active badge of a type. -/
def revokeFirst (t : BadgeType) (reason : Bytes) : List Badge → List Badge
  | [] => []
  | bg :: rest =>
    if bg.type = t && bg.isActive then
      { bg with isActive := false, revocationReason := reason } :: rest
    else bg :: revokeFirst t reason rest

/-- `revoke_badge`. -/
def revokeBadge (b : BadgeSystem) (n : Hash) (t : BadgeType) (reason : Bytes) : BadgeSystem :=
  match b.cache[n]? with
  | none => b
  | some bv => { cache := b.cache.insert n (revokeFirst t reason bv) }

section

variable {F : Type} [FloatArith F]

/-- At least the percentages of a badge, as `get_uptime_percentage` and
`get_sync_percentage` give them. -/
def meetsPercentages (eng : Engine) (r : NodeRegistry F) (n : Hash) (req : BadgeRequirements) :
    Bool :=
  !FloatArith.lt (eng.getUptimePercentage n : F) (FloatArith.ofRat req.uptimePercentage) &&
    !FloatArith.lt (Engine.getSyncPercentage r n : F) (FloatArith.ofRat req.syncPercentage)

/-- Whole days since the registration, as an unsigned difference. -/
def daysRegistered (e : NodeRegistryEntry F) (now : UInt64) : UInt64 :=
  (now - e.registeredTimestamp) / 86400

/-- `qualifies_for_badge`, with the seven `check_…_criteria` it calls. -/
def qualifiesForBadge (eng : Engine) (r : NodeRegistry F) (n : Hash) (t : BadgeType)
    (now : UInt64) : Bool :=
  match r.getNodeById n with
  | none => false
  | some e =>
    let req := t.requirements
    let uptimeOk :=
      !FloatArith.lt (eng.getUptimePercentage n : F) (FloatArith.ofRat req.uptimePercentage)
    let reputationOk (q : ℚ) := !FloatArith.lt e.reputationScore (FloatArith.ofRat q)
    e.status ≠ .banned &&
      match t with
      | .activeMiner =>
        req.uptimeHours ≤ e.totalUptimeSeconds / 3600 && 10 ≤ e.totalChallenges &&
          reputationOk (30 / 100)
      | .fullNodeOperator =>
        let days := if e.registeredTimestamp < now then daysRegistered e now else 0
        req.daysRegistered ≤ days && req.peerConnections ≤ e.peerCount &&
          req.challengesValidated ≤ e.totalChallenges && meetsPercentages eng r n req
      | .stableNode | .longUptimeNode =>
        req.daysRegistered ≤ daysRegistered e now && meetsPercentages eng r n req
      | .coreNetworkNode =>
        req.daysRegistered ≤ daysRegistered e now && reputationOk (80 / 100) &&
          req.peerConnections ≤ e.peerCount && meetsPercentages eng r n req
      | .earlySupporter => e.registeredHeight ≤ earlyHeightMax
      | .networkValidator =>
        req.challengesValidated ≤ e.successfulChallenges &&
          !FloatArith.lt (eng.getChallengeSuccessRate n : F) (FloatArith.ofRat (60 / 100)) &&
          uptimeOk
      | .bridgeNode => req.peerConnections ≤ e.peerCount && uptimeOk
      | .privacyGuardian =>
        reputationOk (85 / 100) &&
          !FloatArith.lt (Engine.getSyncPercentage r n : F) (FloatArith.ofRat req.syncPercentage)
      | .relayMaster =>
        !FloatArith.lt (eng.calculateActivityScore n : F) (FloatArith.ofRat (50 / 100)) && uptimeOk
      | .welcome => true
      | .other _ => false

/-- `auto_evaluate_badges`: badges are awarded here, never taken away. -/
def autoEvaluateBadges (eng : Engine) (r : NodeRegistry F) (b : BadgeSystem) (n : Hash)
    (height now : UInt64) : BadgeSystem :=
  BadgeType.all.foldl (fun b t =>
    if qualifiesForBadge eng r n t now && !b.hasBadge n t then
      b.awardBadge n t height (asciiBytes "auto-evaluation") now
    else b) b

/-- `evaluate_all_badges`. -/
def evaluateAllBadges (eng : Engine) (r : NodeRegistry F) (b : BadgeSystem) (height now : UInt64) :
    BadgeSystem :=
  (r.getNodesByStatus .active).foldl
    (fun b e => autoEvaluateBadges eng r b e.nodeId height now) b

end

end BadgeSystem

/-! ### Penalties -/

/-- `OffenseType`. -/
inductive OffenseType where
  | uptimeViolation | challengeFailure | syncFailure | doubleRegistration | byzantineBehavior
  | maliciousActivity
deriving DecidableEq, Repr

namespace OffenseType

/-- `offense_type_to_string`. -/
def toName : OffenseType → Bytes
  | uptimeViolation => asciiBytes "uptime_violation"
  | challengeFailure => asciiBytes "challenge_failure"
  | syncFailure => asciiBytes "sync_failure"
  | doubleRegistration => asciiBytes "double_registration"
  | byzantineBehavior => asciiBytes "byzantine_behavior"
  | maliciousActivity => asciiBytes "malicious_activity"

/-- The offense a `0xA4` payload names; an unknown name is the gravest. -/
def ofName (name : Bytes) : OffenseType :=
  if name = asciiBytes "UPTIME_VIOLATION" then uptimeViolation
  else if name = asciiBytes "CHALLENGE_FAILURE" then challengeFailure
  else if name = asciiBytes "SYNC_FAILURE" then syncFailure
  else if name = asciiBytes "DOUBLE_REGISTRATION" then doubleRegistration
  else if name = asciiBytes "BYZANTINE_BEHAVIOR" then byzantineBehavior
  else maliciousActivity

/-- The change of reputation. -/
def delta : OffenseType → ℚ
  | uptimeViolation => -(5 / 100)
  | challengeFailure => -(2 / 100)
  | syncFailure => -(3 / 100)
  | doubleRegistration => -(10 / 100)
  | byzantineBehavior => -(25 / 100)
  | maliciousActivity => -(50 / 100)

/-- The status an offense leads to, `active` for none. -/
def newStatus : OffenseType → NodeStatus
  | byzantineBehavior => .suspended
  | maliciousActivity => .banned
  | _ => .active

end OffenseType

section

variable {F : Type} [FloatArith F]

/-- The status `apply_penalty` settles on: a low reputation suspends. -/
def penaltyStatus (offense : OffenseType) (reputation : F) : NodeStatus :=
  if FloatArith.lt reputation (FloatArith.ofRat (2 / 10)) && offense.newStatus = .active then
    .suspended
  else offense.newStatus

/-- `apply_penalty` (`src/cryptonote_core/mevatrust/penalty.cpp`). -/
def applyPenalty (r : NodeRegistry F) (b : BadgeSystem) (n : Hash) (offense : OffenseType)
    (now : UInt64) : NodeRegistry F × BadgeSystem :=
  let r := (r.updateReputation n (FloatArith.ofRat offense.delta) now).getD r
  match r.getNodeById n with
  | none => (r, b)
  | some e =>
    let status := penaltyStatus offense e.reputationScore
    let r :=
      if status = .active then r
      else (r.updateNodeStatus n status (asciiBytes "auto-penalty:" ++ offense.toName) now).getD r
    let b :=
      if status = .banned then
        ((b.cache.getD n []).filter (·.isActive)).foldl
          (fun b bg => b.revokeBadge n bg.type (asciiBytes "auto-revoke:node-banned")) b
      else b
    (r, b)

/-! ### A penalty is one update of one entry -/

/-- The reputation after a change. -/
def shiftReputation (d : ℚ) (reputation : F) : F :=
  clamp01 (FloatArith.add reputation (FloatArith.ofRat d))

/-- What a penalty makes of an entry. -/
def NodeRegistryEntry.penalized (offense : OffenseType) (now : UInt64) (e : NodeRegistryEntry F) :
    NodeRegistryEntry F :=
  let reputation := shiftReputation offense.delta e.reputationScore
  let status := penaltyStatus offense reputation
  if status = .active then { e with reputationScore := reputation, updatedAt := now }
  else
    { e with
      reputationScore := reputation, status, updatedAt := now
      metadata := asciiBytes "auto-penalty:" ++ offense.toName }

theorem NodeRegistryEntry.penalized_eq (offense : OffenseType) (now : UInt64)
    (e : NodeRegistryEntry F) :
    e.penalized offense now =
      let reputation := shiftReputation offense.delta e.reputationScore
      let status := penaltyStatus offense reputation
      { e with
        reputationScore := reputation
        status := if status = .active then e.status else status
        updatedAt := now
        metadata := if status = .active then e.metadata
          else asciiBytes "auto-penalty:" ++ offense.toName } := by
  unfold NodeRegistryEntry.penalized
  dsimp only
  split_ifs <;> rfl

/-- **A penalty is one update of one entry.** -/
theorem applyPenalty_registry (r : NodeRegistry F) (b : BadgeSystem) (n : Hash)
    (offense : OffenseType) (now : UInt64) :
    (applyPenalty r b n offense now).1 =
      (r.modify n (NodeRegistryEntry.penalized offense now)).getD r := by
  unfold applyPenalty NodeRegistry.updateReputation NodeRegistry.updateNodeStatus
    NodeRegistry.getNodeById NodeRegistry.modify
  cases hn : r.nodes[n]? with
  | none => simp [hn]
  | some e =>
    have hreason : asciiBytes "auto-penalty:" ++ offense.toName ≠ [] := by
      cases offense <;> decide
    simp only [Option.map_some, Option.getD_some, ExtTreeMap.getElem?_insert_self, hreason,
      NodeRegistryEntry.penalized, shiftReputation]
    by_cases hs : penaltyStatus offense (clamp01 (FloatArith.add e.reputationScore
        (FloatArith.ofRat offense.delta))) = .active
    · simp only [hs, if_true]
    · simp only [hs, if_false, insert_insert_self]

/-- What bans is malicious activity. -/
theorem penaltyStatus_eq_banned_iff {offense : OffenseType} (reputation : F) :
    penaltyStatus offense reputation = .banned ↔ offense = .maliciousActivity := by
  unfold penaltyStatus
  cases offense <;> simp [OffenseType.newStatus] <;> split <;> simp

/-- Malicious activity costs a registered node its badges. -/
theorem applyPenalty_badges (r : NodeRegistry F) (b : BadgeSystem) (n : Hash)
    (offense : OffenseType) (now : UInt64) :
    (applyPenalty r b n offense now).2 =
      if offense = .maliciousActivity ∧ r.nodes[n]? ≠ none then
        ((b.cache.getD n []).filter (·.isActive)).foldl
          (fun b bg => b.revokeBadge n bg.type (asciiBytes "auto-revoke:node-banned")) b
      else b := by
  unfold applyPenalty NodeRegistry.updateReputation NodeRegistry.getNodeById NodeRegistry.modify
  cases hn : r.nodes[n]? with
  | none => simp [hn]
  | some e => simp [penaltyStatus_eq_banned_iff]

end

end Mevacoin.Trust
