import Mevacoin.Lib.Records
import Mevacoin.Trust.Manager

/-!
# Ballots on snapshots

`SnapshotBroadcaster` (`snapshot_broadcaster.cpp`).  The callbacks are given as functions, and so is
what `generate_signature` returns.
-/

namespace Mevacoin.Trust

open Lib Std

/-- `QUORUM_THRESHOLD`. -/
def quorumThreshold : ℕ := 3

/-- `BALLOT_TTL_SECONDS`. -/
def ballotTtlSeconds : UInt64 := 300

/-- `BallotEntry`. -/
structure BallotEntry where
  snapshot : Snapshot := ⟨0, 0, 0, []⟩
  proposers : List PublicKey := []
  firstSeenTs : UInt64 := 0
  finalized : Bool := false
deriving DecidableEq

/-- `ballot_box_`. -/
abbrev BallotBox := ExtTreeMap Hash BallotEntry

/-- What the broadcaster calls: `m_apply_fn` and `m_broadcast_fn`, if they are set. -/
structure Callbacks where
  apply : Option (Snapshot → Bool) := none
  broadcast : Option (Bytes → UInt64 → Bool) := none

/-- What an award is for. -/
def BadgeAward.subject (a : BadgeAward) : Hash × UInt8 := (a.nodeId, a.badgeType)

/-- The awards of a snapshot, by what they are for. -/
def Snapshot.subjects (v : Snapshot) : List (Hash × UInt8) := v.badgeAwards.map (·.subject)

/-- The 33 octets of a record in the key of a ballot. -/
def subjectRecord (x : Hash × UInt8) : Bytes := x.1.data ++ [x.2]

/-- What the key of a ballot is a hash of. -/
def Snapshot.ballotOctets (v : Snapshot) : Bytes :=
  leBytes 8 v.height.toNat ++ leBytes 4 v.period.toNat ++ canonical (v.subjects.map subjectRecord)

/-- `make_ballot_key`. -/
def makeBallotKey (cr : Crypto) (v : Snapshot) : Hash := cr.cnFastHash v.ballotOctets

/-- `verify_single_vote`; `award_msg_hash` is the hash the block processing checks. -/
def verifySingleVote (cr : Crypto) (v : Snapshot) : Bool :=
  match v.badgeAwards with
  | [] => false
  | first :: _ => v.badgeAwards.all fun a =>
      decide (a.proposerPubkey = first.proposerPubkey) && verifyBadgeAward cr a

/-- The awards of a vote that are not there yet, after those that are. -/
def accumulate (known new : List BadgeAward) : List BadgeAward :=
  new.foldl (fun acc a => if acc.any fun b => b.subject = a.subject then acc else acc ++ [a]) known

/-- `try_finalize` on a ballot that is not final: the ballot, the snapshots handed to the apply
function, and the answer. -/
def tryFinalize (cb : Callbacks) (e : BallotEntry) : BallotEntry × List Snapshot × Bool :=
  match cb.apply with
  | none => ({ e with finalized := true }, [], true)
  | some apply => ({ e with finalized := true }, [e.snapshot], apply e.snapshot)

/-- The ballot after a vote of a new proposer. -/
def BallotEntry.vote (e : BallotEntry) (now : UInt64) (v : Snapshot) (key : PublicKey) :
    BallotEntry :=
  let e := if e.proposers = [] then
      { e with snapshot := { v with badgeAwards := [] }, firstSeenTs := now, finalized := false }
    else e
  { e with
    snapshot := { e.snapshot with
      badgeAwards := accumulate e.snapshot.badgeAwards v.badgeAwards }
    proposers := e.proposers ++ [key] }

/-- `on_receive_vote`: the box, the snapshots handed to the apply function, and the answer. -/
def onReceiveVote (cr : Crypto) (cb : Callbacks) (now : UInt64) (v : Snapshot) (box : BallotBox) :
    BallotBox × List Snapshot × Bool :=
  if !verifySingleVote cr v then (box, [], false)
  else
    match v.badgeAwards with
    | [] => (box, [], false)
    | first :: _ =>
      let e := box.getD (makeBallotKey cr v) {}
      if first.proposerPubkey ∈ e.proposers then (box, [], true)
      else
        let e := e.vote now v first.proposerPubkey
        if quorumThreshold ≤ e.proposers.length ∧ e.finalized = false then
          let out := tryFinalize cb e
          (box.insert (makeBallotKey cr v) out.1, out.2)
        else (box.insert (makeBallotKey cr v) e, [], true)

/-- The vote that `propose_snapshot` builds; `sign` is `generate_signature` with the node's key. -/
def ownVote (key : PublicKey) (sign : Hash → UInt8 → Signature) (height : UInt64) (period : UInt32)
    (activeNodeCount : UInt32) (awards : List (Hash × UInt8)) : Snapshot where
  height
  period
  nodeCount := activeNodeCount
  badgeAwards := awards.map fun x => ⟨x.1, x.2, height, key, sign x.1 x.2⟩

/-- `build_mevatrust_snapshot_extra`. -/
def buildSnapshotExtra (v : Snapshot) : Option Bytes := packBlob 0xA2 (Snapshot.codec.write v)

/-- `propose_snapshot`, which is `broadcast_snapshot`; `key` is the node's key if it is set. -/
def proposeSnapshot (cr : Crypto) (cb : Callbacks) (now : UInt64) (key : Option PublicKey)
    (sign : Hash → UInt8 → Signature) (height : UInt64) (period activeNodeCount : UInt32)
    (awards : List (Hash × UInt8)) (box : BallotBox) : BallotBox × List Snapshot × Bool :=
  match key with
  | none => (box, [], false)
  | some key =>
    if awards = [] then (box, [], true)
    else
      let v := ownVote key sign height period activeNodeCount awards
      let out := onReceiveVote cr cb now v box
      let sent := match cb.broadcast with
        | none => true
        | some broadcast => (buildSnapshotExtra v).any fun extra => broadcast extra height
      (out.1, out.2.1, sent)

/-- `prune_expired_ballots`. -/
def pruneExpiredBallots (now : UInt64) (box : BallotBox) : BallotBox :=
  box.filter fun _ e => !(e.finalized || ballotTtlSeconds < now - e.firstSeenTs)

end Mevacoin.Trust
