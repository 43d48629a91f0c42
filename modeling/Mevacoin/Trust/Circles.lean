import Mevacoin.Crypto
import Mevacoin.Lib.FloatArith

/-!
# Circles

`src/cryptonote_core/mevatrust/circle_registry.cpp`: the in-memory maps.  The same records in LMDB
and the index from circles to proposals, which only answers queries, are left out.
-/

namespace Mevacoin.Trust

open Lib Std

/-- `CircleEntry`; its `metadata` is never set. -/
structure CircleEntry where
  circleId : Hash
  name : Bytes
  adminPubkey : PublicKey
  members : List PublicKey
  createdHeight : UInt64
  createdTimestamp : UInt64
  updatedAt : UInt64
deriving DecidableEq

/-- `ProposalEntry`. -/
structure ProposalEntry where
  proposalId : Hash
  circleId : Hash
  proposerPk : PublicKey
  targetPk : PublicKey
  createdHeight : UInt64
  convocation : UInt8
  status : UInt8
  finalizeHeight : UInt64
deriving DecidableEq

/-- `ProposalEntry::is_open`. -/
def ProposalEntry.isOpen (p : ProposalEntry) : Bool := p.status = 0 || p.status = 1

/-- `VoteEntry`. -/
structure VoteEntry where
  proposalId : Hash
  voterPk : PublicKey
  voteYes : Bool
  height : UInt64
deriving DecidableEq

/-- `CircleRegistry`. -/
structure CircleRegistry where
  /-- `circles_`. -/
  circles : ExtTreeMap Hash CircleEntry := ∅
  /-- `name_to_id_`. -/
  nameToId : ExtTreeMap Bytes Hash := ∅
  /-- `proposals_`. -/
  proposals : ExtTreeMap Hash ProposalEntry := ∅
  /-- `votes_`, keyed by the proposal followed by the voter. -/
  votes : ExtTreeMap Bytes VoteEntry := ∅
  /-- `m_processed_txs`. -/
  processedTxs : ExtTreeMap Hash (List Hash) := ∅

/-- `MAX_MEMBERS`. -/
def maxCircleMembers : ℕ := 1000

/-- `VOTE_WINDOW_BLOCKS`. -/
def voteWindowBlocks : UInt64 := 10080

/-- `compute_circle_id`. -/
def computeCircleId (cr : Crypto) (name : Bytes) (admin : PublicKey) (nonce : UInt64) : Hash :=
  cr.cnFastHash (name ++ admin.data ++ leBytes 8 nonce.toNat)

namespace CircleRegistry

/-- `create_circle`; the null hash for a refusal. -/
def createCircle (cr : Crypto) (c : CircleRegistry) (name : Bytes) (adminPubkey : PublicKey)
    (height now : UInt64) : CircleRegistry × Hash :=
  if name = [] ∨ 32 < name.length then (c, Pod32.null)
  else if c.nameToId.contains name then (c, Pod32.null)
  else
    let cid := computeCircleId cr name adminPubkey now
    let e : CircleEntry := ⟨cid, name, adminPubkey, [adminPubkey], height, now, now⟩
    ({ c with circles := c.circles.insert cid e, nameToId := c.nameToId.insert name cid }, cid)

/-- Replace the entry of a circle by what `f` makes of it; `none` for no such circle or a
refusal. -/
def modify (c : CircleRegistry) (cid : Hash) (f : CircleEntry → Option CircleEntry) :
    Option CircleRegistry := do
  let e ← c.circles[cid]?
  let e' ← f e
  return { c with circles := c.circles.insert cid e' }

/-- `add_member`. -/
def addMember (c : CircleRegistry) (cid : Hash) (member caller : PublicKey) (now : UInt64) :
    Option CircleRegistry :=
  c.modify cid fun e =>
    if e.adminPubkey ≠ caller then none
    else if member ∈ e.members then none
    else if maxCircleMembers ≤ e.members.length then none
    else some { e with members := e.members ++ [member], updatedAt := now }

/-- `remove_member`. -/
def removeMember (c : CircleRegistry) (cid : Hash) (member caller : PublicKey) (now : UInt64) :
    Option CircleRegistry :=
  c.modify cid fun e =>
    if e.adminPubkey ≠ caller ∧ caller ≠ member then none
    else if e.adminPubkey = member then none
    else some { e with members := e.members.filter (· ≠ member), updatedAt := now }

/-- `change_admin`. -/
def changeAdmin (c : CircleRegistry) (cid : Hash) (newAdmin caller : PublicKey) (now : UInt64) :
    Option CircleRegistry :=
  c.modify cid fun e =>
    if e.adminPubkey ≠ caller then none
    else if newAdmin ∉ e.members then none
    else some { e with adminPubkey := newAdmin, updatedAt := now }

/-- `disband_circle`. -/
def disbandCircle (c : CircleRegistry) (cid : Hash) (caller : PublicKey) : Option CircleRegistry :=
  match c.circles[cid]? with
  | none => none
  | some e =>
    if e.adminPubkey ≠ caller then none
    else some { c with
      circles := c.circles.erase cid
      nameToId := c.nameToId.erase e.name }

/-- `get_circle`. -/
def getCircle (c : CircleRegistry) (cid : Hash) : Option CircleEntry := c.circles[cid]?

/-- `list_circles`. -/
def listCircles (c : CircleRegistry) : List CircleEntry := c.circles.toList.map (·.2)

/-- `is_tx_processed`. -/
def isTxProcessed (c : CircleRegistry) (cid txHash : Hash) : Bool :=
  (c.processedTxs.getD cid []).contains txHash

/-- `mark_tx_processed`. -/
def markTxProcessed (c : CircleRegistry) (cid txHash : Hash) : CircleRegistry :=
  { c with processedTxs := c.processedTxs.insert cid (txHash :: c.processedTxs.getD cid []) }

/-! ### The vote -/

/-- `create_proposal`; the null hash for a refusal. -/
def createProposal (cr : Crypto) (c : CircleRegistry) (cid : Hash) (proposer target : PublicKey)
    (height : UInt64) : CircleRegistry × Hash :=
  match c.circles[cid]? with
  | none => (c, Pod32.null)
  | some e =>
    if proposer ∉ e.members ∨ e.adminPubkey = target ∨ target ∉ e.members then (c, Pod32.null)
    else
      let pid := cr.cnFastHash (cid.data ++ target.data ++ leBytes 8 height.toNat)
      let p : ProposalEntry := ⟨pid, cid, proposer, target, height, 0, 0, 0⟩
      ({ c with proposals := c.proposals.insert pid p }, pid)

/-- The key of a vote. -/
def voteKey (pid : Hash) (voter : PublicKey) : Bytes := pid.data ++ voter.data

/-- `cast_vote`. -/
def castVote (c : CircleRegistry) (pid : Hash) (voter : PublicKey) (voteYes : Bool)
    (height : UInt64) : Option CircleRegistry := do
  let p ← c.proposals[pid]?
  if !p.isOpen then none
  else
    let e ← c.circles[p.circleId]?
    if voter ∉ e.members ∨ c.votes.contains (voteKey pid voter) then none
    else some { c with votes := c.votes.insert (voteKey pid voter) ⟨pid, voter, voteYes, height⟩ }

/-- The votes on a proposal. -/
def votesOn (c : CircleRegistry) (pid : Hash) : List VoteEntry :=
  (c.votes.toList.filter fun kv => kv.1.take 32 = pid.data).map (·.2)

/-- `(size_t)(total_members * quorum + 0.5)` for a quorum of `k` thirds. -/
def quorumThreshold (D : Type) [FloatArith D] (k : ℚ) (members : ℕ) : UInt64 :=
  FloatArith.trunc (FloatArith.add (FloatArith.mul (FloatArith.ofNat members : D)
    (FloatArith.div (FloatArith.ofRat k) (FloatArith.ofRat 3))) (FloatArith.ofRat (1 / 2)))

/-- Write a proposal back. -/
def setProposal (c : CircleRegistry) (pid : Hash) (p : ProposalEntry) : CircleRegistry :=
  { c with proposals := c.proposals.insert pid p }

/-- What `finalize_vote` does once the window is over, and the status it returns. -/
def closeVote (D : Type) [FloatArith D] (c : CircleRegistry) (pid : Hash) (p : ProposalEntry)
    (e : CircleEntry) (height now : UInt64) : CircleRegistry × UInt8 :=
  if e.members = [] then (c.setProposal pid { p with status := 3 }, 3)
  else
    let cast := c.votesOn pid
    let yes := cast.countP (·.voteYes)
    let majority := cast.length - yes < yes
    let threshold := quorumThreshold D (if p.convocation = 0 then 2 else 1) e.members.length
    if threshold.toNat ≤ cast.length ∧ majority then
      let e := { e with adminPubkey := p.targetPk, updatedAt := now }
      let c := { c with circles := c.circles.insert p.circleId e }
      (c.setProposal pid { p with status := 2, finalizeHeight := height }, 2)
    else if threshold.toNat ≤ cast.length then
      (c.setProposal pid { p with status := 3, finalizeHeight := height }, 3)
    else if p.convocation = 0 then
      -- no quorum at the first call: the second one opens
      (c.setProposal pid { p with convocation := 1, status := 1 }, 0)
    else (c.setProposal pid { p with status := 3, finalizeHeight := height }, 3)

/-- `finalize_vote`. -/
def finalizeVote (D : Type) [FloatArith D] (c : CircleRegistry) (pid : Hash)
    (currentHeight now : UInt64) : CircleRegistry × UInt8 :=
  match c.proposals[pid]? with
  | none => (c, 0xFF)
  | some p =>
    if !p.isOpen then (c, p.status)
    else
      let elapsed := currentHeight - p.createdHeight
      if p.convocation = 0 ∧ elapsed < voteWindowBlocks then (c, 0)
      else if p.convocation ≠ 0 ∧ elapsed < 2 * voteWindowBlocks then (c, 1)
      else
        match c.circles[p.circleId]? with
        | none => (c, 0xFF)
        | some e => closeVote D c pid p e currentHeight now

end CircleRegistry

end Mevacoin.Trust
