import Mevacoin.Trust.Payload
import Mevacoin.Trust.Registration

/-!
# The MevaTrust payloads and what their signatures cover

The structs of `src/cryptonote_basic/tx_extra.h` for the tags `0xA0` to `0xAC`, and the message
hashes and signature checks of `mevatrust_tx_parser.h` and `.cpp`.  `0xA7` carries no signature; the
manifest `0xAA` is in `Trust.Payload`.
-/

namespace Mevacoin.Trust

open Lib

/-! ### Registration and deregistration, tags `0xA0` and `0xA1` -/

/-- The archive form of a registration. -/
def Registration.codec : Codec Registration :=
  (Pod32.codec.prod <| Pod32.codec.prod <| Pod32.codec.prod <| Codec.str.prod <|
      Codec.varint32.prod Signature.codec).imap
    (fun ⟨n, w, k, a, p, s⟩ => ⟨n, w, k, a, p, s⟩)
    (fun r => (r.nodeId, r.walletPubkey, r.nodePubkey, r.walletAddress, r.port, r.signature))

/-- `parse_mevatrust_registration_from_tx`. -/
def parseRegistration (tx : Transaction) : Option Registration :=
  parseTagged Registration.codec 0xA0 tx

/-- The archive form of a deregistration. -/
def Deregister.codec : Codec Deregister :=
  (Pod32.codec.prod <| Pod32.codec.prod Signature.codec).imap
    (fun ⟨n, w, s⟩ => ⟨n, w, s⟩) (fun d => (d.nodeId, d.walletPubkey, d.signature))

/-- `parse_mevatrust_deregister_from_tx`. -/
def parseDeregister (tx : Transaction) : Option Deregister :=
  parseTagged Deregister.codec 0xA1 tx

/-- `deregister_message_hash`. -/
def deregisterMessageHash (cr : Crypto) (nodeId : Hash) : Hash :=
  cr.cnFastHash (nodeId.data ++ asciiBytes "deregister")

/-- `verify_deregister_signature`. -/
def verifyDeregisterSignature (cr : Crypto) (d : Deregister) : Bool :=
  cr.checkSignature (deregisterMessageHash cr d.nodeId) d.walletPubkey d.signature

/-! ### Snapshot, tag `0xA2` -/

/-- `tx_extra_mevatrust_snapshot::BadgeAward`. -/
structure BadgeAward where
  nodeId : Hash
  badgeType : UInt8
  awardedHeight : UInt64
  proposerPubkey : PublicKey
  proposerSig : Signature
deriving DecidableEq

/-- The archive form of a badge award. -/
def BadgeAward.codec : Codec BadgeAward :=
  (Pod32.codec.prod <| Codec.varint8.prod <| Codec.varint64.prod <|
      Pod32.codec.prod Signature.codec).imap
    (fun ⟨n, t, h, k, s⟩ => ⟨n, t, h, k, s⟩)
    (fun a => (a.nodeId, a.badgeType, a.awardedHeight, a.proposerPubkey, a.proposerSig))

/-- The hash a proposer signs, as the block processing computes it. -/
def badgeAwardMessageHash (cr : Crypto) (a : BadgeAward) : Hash :=
  cr.cnFastHash (a.nodeId.data ++ [a.badgeType] ++ leBytes 8 a.awardedHeight.toNat)

/-- The signature check the block processing makes on each award. -/
def verifyBadgeAward (cr : Crypto) (a : BadgeAward) : Bool :=
  cr.checkSignature (badgeAwardMessageHash cr a) a.proposerPubkey a.proposerSig

/-- `tx_extra_mevatrust_snapshot`. -/
structure Snapshot where
  height : UInt64
  period : UInt32
  nodeCount : UInt32
  badgeAwards : List BadgeAward
deriving DecidableEq

/-- The archive form of a snapshot. -/
def Snapshot.codec : Codec Snapshot :=
  (Codec.varint64.prod <| Codec.varint32.prod <| Codec.varint32.prod BadgeAward.codec.list).imap
    (fun ⟨h, p, n, a⟩ => ⟨h, p, n, a⟩) (fun s => (s.height, s.period, s.nodeCount, s.badgeAwards))

/-- `parse_mevatrust_snapshot_from_tx`. -/
def parseSnapshot (tx : Transaction) : Option Snapshot :=
  parseTagged Snapshot.codec 0xA2 tx

/-! ### Circles, tags `0xA3` and `0xA9` -/

/-- `tx_extra_mevatrust_circle::OpType`. -/
inductive CircleOpType where
  | create | join | leave | changeAdmin | disband
deriving DecidableEq, Repr

/-- The enumerator an octet stands for. -/
def CircleOpType.ofUInt8 : UInt8 → Option CircleOpType
  | 0 => some create
  | 1 => some join
  | 2 => some leave
  | 3 => some changeAdmin
  | 4 => some disband
  | _ => none

/-- `tx_extra_mevatrust_circle`. -/
structure CircleOp where
  opType : UInt8
  circleId : Hash
  circleName : Bytes
  targetPubkey : PublicKey
  signerPubkey : PublicKey
  signature : Signature
deriving DecidableEq

/-- The archive form of a circle operation. -/
def CircleOp.codec : Codec CircleOp :=
  (Codec.varint8.prod <| Pod32.codec.prod <| Codec.str.prod <| Pod32.codec.prod <|
      Pod32.codec.prod Signature.codec).imap
    (fun ⟨o, c, n, t, k, s⟩ => ⟨o, c, n, t, k, s⟩)
    (fun c => (c.opType, c.circleId, c.circleName, c.targetPubkey, c.signerPubkey, c.signature))

/-- `parse_mevatrust_circle_from_tx`. -/
def parseCircle (tx : Transaction) : Option CircleOp :=
  parseTagged CircleOp.codec 0xA3 tx

/-- `circle_message_hash`. -/
def circleMessageHash (cr : Crypto) (cid : Hash) (opType : UInt8) (target : PublicKey)
    (name : Bytes) : Hash :=
  cr.cnFastHash (opType :: cid.data ++ target.data ++ name)

/-- `verify_circle_signature`. -/
def verifyCircleSignature (cr : Crypto) (op : CircleOp) : Bool :=
  cr.checkSignature (circleMessageHash cr op.circleId op.opType op.targetPubkey op.circleName)
    op.signerPubkey op.signature

/-- `tx_extra_mevatrust_circle_vote::VoteOpType`. -/
inductive VoteOpType where
  | proposeChangeAdmin | castVote | finalizeVote
deriving DecidableEq, Repr

/-- The enumerator an octet stands for. -/
def VoteOpType.ofUInt8 : UInt8 → Option VoteOpType
  | 0 => some proposeChangeAdmin
  | 1 => some castVote
  | 2 => some finalizeVote
  | _ => none

/-- `tx_extra_mevatrust_circle_vote`. -/
structure CircleVote where
  opType : UInt8
  proposalId : Hash
  circleId : Hash
  targetPubkey : PublicKey
  signerPubkey : PublicKey
  voteYes : Bool
  reason : Bytes
  signature : Signature
deriving DecidableEq

/-- The archive form of a vote. -/
def CircleVote.codec : Codec CircleVote :=
  (Codec.varint8.prod <| Pod32.codec.prod <| Pod32.codec.prod <| Pod32.codec.prod <|
      Pod32.codec.prod <| Codec.bool.prod <| Codec.str.prod Signature.codec).imap
    (fun ⟨o, p, c, t, k, y, r, s⟩ => ⟨o, p, c, t, k, y, r, s⟩)
    (fun v => (v.opType, v.proposalId, v.circleId, v.targetPubkey, v.signerPubkey, v.voteYes,
      v.reason, v.signature))

/-- `parse_mevatrust_circle_vote_from_tx`. -/
def parseCircleVote (tx : Transaction) : Option CircleVote :=
  parseTagged CircleVote.codec 0xA9 tx

/-- The octet a truth value is hashed as. -/
def boolOctet (b : Bool) : UInt8 := if b then 1 else 0

/-- `circle_vote_message_hash`. -/
def circleVoteMessageHash (cr : Crypto) (v : CircleVote) : Hash :=
  cr.cnFastHash (v.opType :: v.proposalId.data ++ v.circleId.data ++ v.targetPubkey.data ++
    [boolOctet v.voteYes] ++ v.reason)

/-- `verify_circle_vote_signature`. -/
def verifyCircleVoteSignature (cr : Crypto) (v : CircleVote) : Bool :=
  cr.checkSignature (circleVoteMessageHash cr v) v.signerPubkey v.signature

/-! ### Penalty, tag `0xA4` -/

/-- `tx_extra_mevatrust_penalty::PenOpType`. -/
inductive PenOpType where
  | penalty | ban | unban
deriving DecidableEq, Repr

/-- What the block processing makes of the octet: all but two values are a penalty. -/
def PenOpType.ofUInt8 : UInt8 → PenOpType
  | 1 => ban
  | 2 => unban
  | _ => penalty

/-- `tx_extra_mevatrust_penalty`. -/
structure Penalty where
  opType : UInt8
  nodeId : Hash
  offenseType : Bytes
  amount : Int64
  reason : Bytes
  signerPubkey : PublicKey
  signature : Signature
deriving DecidableEq

/-- The archive form of a penalty. -/
def Penalty.codec : Codec Penalty :=
  (Codec.varint8.prod <| Pod32.codec.prod <| Codec.str.prod <|
      (Codec.varint64.imap UInt64.toInt64 Int64.toUInt64).prod <| Codec.str.prod <|
      Pod32.codec.prod Signature.codec).imap
    (fun ⟨o, n, t, a, r, k, s⟩ => ⟨o, n, t, a, r, k, s⟩)
    (fun p => (p.opType, p.nodeId, p.offenseType, p.amount, p.reason, p.signerPubkey,
      p.signature))

/-- `parse_mevatrust_penalty_from_tx`. -/
def parsePenalty (tx : Transaction) : Option Penalty :=
  parseTagged Penalty.codec 0xA4 tx

/-- `penalty_message_hash`. -/
def penaltyMessageHash (cr : Crypto) (p : Penalty) : Hash :=
  cr.cnFastHash (p.opType :: p.nodeId.data ++ p.offenseType ++
    leBytes 8 p.amount.toUInt64.toNat ++ p.reason)

/-- `verify_penalty_signature`. -/
def verifyPenaltySignature (cr : Crypto) (p : Penalty) : Bool :=
  cr.checkSignature (penaltyMessageHash cr p) p.signerPubkey p.signature

/-! ### Uptime and challenge, tags `0xA5` and `0xA6` -/

/-- `tx_extra_mevatrust_uptime`. -/
structure Uptime where
  nodeId : Hash
  uptimeSeconds : UInt64
  timestamp : UInt64
  peerCount : UInt32
  isSynced : Bool
  syncHeight : UInt64
  nodePubkey : PublicKey
  signature : Signature
deriving DecidableEq

/-- The archive form of an uptime commitment. -/
def Uptime.codec : Codec Uptime :=
  (Pod32.codec.prod <| Codec.varint64.prod <| Codec.varint64.prod <| Codec.varint32.prod <|
      Codec.bool.prod <| Codec.varint64.prod <| Pod32.codec.prod Signature.codec).imap
    (fun ⟨n, u, t, p, y, h, k, s⟩ => ⟨n, u, t, p, y, h, k, s⟩)
    (fun u => (u.nodeId, u.uptimeSeconds, u.timestamp, u.peerCount, u.isSynced, u.syncHeight,
      u.nodePubkey, u.signature))

/-- `parse_mevatrust_uptime_from_tx`. -/
def parseUptime (tx : Transaction) : Option Uptime :=
  parseTagged Uptime.codec 0xA5 tx

/-- `uptime_message_hash`. -/
def uptimeMessageHash (cr : Crypto) (u : Uptime) : Hash :=
  cr.cnFastHash (u.nodeId.data ++ leBytes 8 u.uptimeSeconds.toNat ++
    leBytes 8 u.timestamp.toNat ++ leBytes 4 u.peerCount.toNat ++ [boolOctet u.isSynced] ++
    leBytes 8 u.syncHeight.toNat)

/-- `verify_uptime_signature`. -/
def verifyUptimeSignature (cr : Crypto) (u : Uptime) : Bool :=
  cr.checkSignature (uptimeMessageHash cr u) u.nodePubkey u.signature

/-- `tx_extra_mevatrust_challenge`. -/
structure Challenge where
  challengerNodeId : Hash
  challengedNodeId : Hash
  success : Bool
  responseTimeMs : UInt64
  height : UInt64
  challengerPubkey : PublicKey
  challengedPubkey : PublicKey
  challengerSig : Signature
  challengedSig : Signature
deriving DecidableEq

/-- The archive form of a challenge result. -/
def Challenge.codec : Codec Challenge :=
  (Pod32.codec.prod <| Pod32.codec.prod <| Codec.bool.prod <| Codec.varint64.prod <|
      Codec.varint64.prod <| Pod32.codec.prod <| Pod32.codec.prod <|
      Signature.codec.prod Signature.codec).imap
    (fun ⟨a, b, y, t, h, k, l, s, z⟩ => ⟨a, b, y, t, h, k, l, s, z⟩)
    (fun c => (c.challengerNodeId, c.challengedNodeId, c.success, c.responseTimeMs, c.height,
      c.challengerPubkey, c.challengedPubkey, c.challengerSig, c.challengedSig))

/-- `parse_mevatrust_challenge_from_tx`. -/
def parseChallenge (tx : Transaction) : Option Challenge :=
  parseTagged Challenge.codec 0xA6 tx

/-- `challenge_message_hash`. -/
def challengeMessageHash (cr : Crypto) (c : Challenge) : Hash :=
  cr.cnFastHash (c.challengerNodeId.data ++ c.challengedNodeId.data ++ [boolOctet c.success] ++
    leBytes 8 c.responseTimeMs.toNat ++ leBytes 8 c.height.toNat)

/-- `verify_challenge_signatures`: both parties sign the same hash. -/
def verifyChallengeSignatures (cr : Crypto) (c : Challenge) : Bool :=
  cr.checkSignature (challengeMessageHash cr c) c.challengerPubkey c.challengerSig &&
    cr.checkSignature (challengeMessageHash cr c) c.challengedPubkey c.challengedSig

/-! ### Validator promotion, tag `0xAB` -/

/-- `tx_extra_mevatrust_validator`. -/
structure Validator where
  nodeId : Hash
  walletPubkey : PublicKey
  nodePubkey : PublicKey
  signature : Signature
deriving DecidableEq

/-- The archive form of a validator promotion. -/
def Validator.codec : Codec Validator :=
  (Pod32.codec.prod <| Pod32.codec.prod <| Pod32.codec.prod Signature.codec).imap
    (fun ⟨n, w, k, s⟩ => ⟨n, w, k, s⟩)
    (fun v => (v.nodeId, v.walletPubkey, v.nodePubkey, v.signature))

/-- `parse_mevatrust_validator_from_tx`. -/
def parseValidator (tx : Transaction) : Option Validator :=
  parseTagged Validator.codec 0xAB tx

/-- `validator_message_hash`. -/
def validatorMessageHash (cr : Crypto) (nodeId : Hash) (walletPubkey : PublicKey) : Hash :=
  cr.cnFastHash (nodeId.data ++ walletPubkey.data ++ asciiBytes "validator")

/-- `verify_validator_signature`. -/
def verifyValidatorSignature (cr : Crypto) (v : Validator) : Bool :=
  cr.checkSignature (validatorMessageHash cr v.nodeId v.walletPubkey) v.walletPubkey v.signature

/-! ### Chain proof, tag `0xAC` -/

/-- `CHAIN_PROOF_MIN_DEPTH`. -/
def chainProofMinDepth : UInt64 := 100

/-- `CHAIN_PROOF_SPAN`. -/
def chainProofSpan : UInt64 := 1000

/-- `CHAIN_PROOF_MAX_ANCHOR_LAG`. -/
def chainProofMaxAnchorLag : UInt64 := 60

/-- `tx_extra_mevatrust_chain_proof`. -/
structure ChainProof where
  nodeId : Hash
  nodePubkey : PublicKey
  anchorHeight : UInt64
  proofHeight : UInt64
  blockHash : Hash
  signature : Signature
deriving DecidableEq

/-- The archive form of a chain proof. -/
def ChainProof.codec : Codec ChainProof :=
  (Pod32.codec.prod <| Pod32.codec.prod <| Codec.varint64.prod <| Codec.varint64.prod <|
      Pod32.codec.prod Signature.codec).imap
    (fun ⟨n, k, a, p, b, s⟩ => ⟨n, k, a, p, b, s⟩)
    (fun c => (c.nodeId, c.nodePubkey, c.anchorHeight, c.proofHeight, c.blockHash, c.signature))

/-- `parse_mevatrust_chain_proof_from_tx`. -/
def parseChainProof (tx : Transaction) : Option ChainProof :=
  parseTagged ChainProof.codec 0xAC tx

/-- `chain_proof_message_hash`. -/
def chainProofMessageHash (cr : Crypto) (c : ChainProof) : Hash :=
  cr.cnFastHash (asciiBytes "mevatrust.chainproof.v1" ++ c.nodeId.data ++
    leBytes 8 c.anchorHeight.toNat ++ leBytes 8 c.proofHeight.toNat ++ c.blockHash.data)

/-- `verify_chain_proof_signature`. -/
def verifyChainProofSignature (cr : Crypto) (c : ChainProof) : Bool :=
  cr.checkSignature (chainProofMessageHash cr c) c.nodePubkey c.signature

/-- `chain_proof_target`: the block a node must attest, picked by a hash. -/
def chainProofTarget (cr : Crypto) (nodeId : Hash) (anchorHeight : UInt64) : Option UInt64 :=
  if anchorHeight < chainProofMinDepth + chainProofSpan then none
  else
    let h := cr.cnFastHash (nodeId.data ++ leBytes 8 anchorHeight.toNat)
    let r := UInt64.ofNat (ofLeBytes (h.data.take 8))
    some (anchorHeight - chainProofMinDepth - r % chainProofSpan)

end Mevacoin.Trust
