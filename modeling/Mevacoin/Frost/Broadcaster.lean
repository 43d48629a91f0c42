import Mevacoin.Frost.Threshold
import Mevacoin.Lib.Machine

/-!
# The ballot machine of the FROST broadcaster

`src/cryptonote_core/mevatrust/frost_broadcaster.cpp`.  The `i`-th call to `generate_nonces` returns
`rng i`, and a call carries the time it reads.  `myDraw`, which no handler reads, remembers which
draw a ballot's nonces came from.
-/

namespace Mevacoin.Frost

open Lib Std

/-- `FROST_THRESHOLD`. -/
def frostThreshold : ℕ := 3

/-- `BALLOT_TTL_SECS`. -/
def ballotTtlSecs : UInt64 := 120

/-- `FrostBroadcaster::Ballot`. -/
structure Ballot (ℓ : ℕ) where
  height : UInt64 := 0
  period : UInt32 := 0
  outputs : List (PublicKey × UInt64) := []
  outputsBlob : Bytes := []
  /-- Signer index to commitments. -/
  nonces : ExtTreeMap UInt8 NonceEntry := ∅
  /-- Signer index to partial signature. -/
  partials : ExtTreeMap UInt8 PartialSignature := ∅
  participants : List UInt8 := []
  rho : List (ZMod ℓ) := []
  coordinatorIndex : UInt8 := 0
  aggR : PublicKey := Pod32.null
  /-- Our round-1 nonces, zero until they are drawn. -/
  myNonces : NoncePair ℓ := ⟨0, 0⟩
  myD : PublicKey := Pod32.null
  myE : PublicKey := Pod32.null
  round1Done : Bool := false
  finalized : Bool := false
  hasAggR : Bool := false
  firstSeenTs : UInt64 := 0
  /-- The draw `myNonces` was set from, if it was set. -/
  myDraw : Option ℕ := none

/-- The key a node signs with (`set_node_key`) and the ceremony keys it checks
against. -/
structure NodeKey (ℓ : ℕ) where
  hasKey : Bool
  nodeSk : ZMod ℓ
  nodeIndex : UInt8
  /-- `CONSENSUS_GROUP_PUBKEY`. -/
  groupPubkey : PublicKey
  /-- `CONSENSUS_PROPOSER_PUBKEYS`. -/
  proposerPubkeys : List PublicKey

/-- The mutable part of a broadcaster, and how many nonce pairs it has drawn. -/
structure State (ℓ : ℕ) where
  ballotBox : ExtTreeMap Hash (Ballot ℓ) := ∅
  draws : ℕ := 0

/-- A call into the broadcaster, with the clock value it reads. -/
inductive Call (ℓ : ℕ) where
  | proposeDistribution (height : UInt64) (period : UInt32)
      (outputs : List (PublicKey × UInt64)) (now : UInt64)
  | onReceiveNonce (height : UInt64) (period : UInt32) (proposerIndex : UInt8)
      (commit : NonceEntry) (now : UInt64)
  | requestSignatures (height : UInt64) (period : UInt32) (now : UInt64)
  | onReceiveSignRequest (height : UInt64) (period : UInt32) (aggR : PublicKey)
      (outputsBlob signerIndicesBlob : Bytes) (now : UInt64)
  | onReceivePartial (height : UInt64) (period : UInt32) (signerIndex : UInt8)
      (sig : PartialSignature) (now : UInt64)
  | tryFinalize (height : UInt64) (period : UInt32) (now : UInt64)
  | pruneExpiredBallots (now : UInt64)

/-- Everything an emitted partial signature was computed from. -/
structure Signing (ℓ : ℕ) where
  ballotKey : Hash
  /-- The draw the nonce pair came from. -/
  draw : Option ℕ
  nonce : NoncePair ℓ
  /-- What the ballot stores for the node's own index. -/
  own : Option NonceEntry
  participants : List UInt8
  comms : List NonceEntry
  msgHash : Hash
  rho : List (ZMod ℓ)
  aggR : PublicKey
  ownPos : ℕ
  sig : PartialSignature

/-- What the calls do to the outside. -/
inductive Event (ℓ : ℕ) where
  /-- The `i`-th nonce pair was drawn for a ballot. -/
  | drew (ballotKey : Hash) (i : ℕ)
  | broadcast (blob : Bytes)
  | reply (commit : NonceEntry)
  | signed (s : Signing ℓ)
  | applied (sig : FrostSignature)
  | returned (ok : Bool)

/-- `serialize_outputs`: a count octet, then key and little-endian amount. -/
def serializeOutputs (outputs : List (PublicKey × UInt64)) : Option Bytes :=
  if outputs.length > 255 then none
  else some (UInt8.ofNat outputs.length ::
    outputs.flatMap fun o => o.1.data ++ leBytes 8 o.2.toNat)

/-- The records of an outputs blob, 40 octets each. -/
def readOutputs : ℕ → Bytes → Option (List (PublicKey × UInt64))
  | 0, [] => some []
  | 0, _ :: _ => none
  | n + 1, bs =>
    if h : (bs.take 32).length = 32 ∧ 40 ≤ bs.length then do
      let rest ← readOutputs n (bs.drop 40)
      return (⟨bs.take 32, h.1⟩, UInt64.ofNat (ofLeBytes ((bs.drop 32).take 8))) :: rest
    else none

/-- `deserialize_outputs`: the size must be exactly what the count says. -/
def deserializeOutputs : Bytes → Option (List (PublicKey × UInt64))
  | [] => none
  | n :: bs => readOutputs n.toNat bs

/-- `serialize_indices`. -/
def serializeIndices (indices : List UInt8) : Option Bytes :=
  if indices.length > 255 then none else some (UInt8.ofNat indices.length :: indices)

/-- `deserialize_indices`. -/
def deserializeIndices : Bytes → Option (List UInt8)
  | [] => none
  | n :: bs => if bs.length = n.toNat then some bs else none

section Handlers

variable {ℓ : ℕ} {G : Type} [AddCommGroup G] [Module (ZMod ℓ) G]
variable (cv : Curve ℓ G) (nk : NodeKey ℓ) (rng : ℕ → NoncePair ℓ)

/-- `make_ballot_key`. -/
def makeBallotKey (height : UInt64) (period : UInt32) : Hash :=
  cv.cnFastHash (leBytes 8 height.toNat ++ leBytes 4 period.toNat)

/-- `get_or_create_ballot`: the ballot the handlers work on. -/
def getOrCreateBallot (st : State ℓ) (height : UInt64) (period : UInt32) (now : UInt64) :
    Ballot ℓ :=
  let e := st.ballotBox.getD (makeBallotKey cv height period) {}
  if e.height = 0 then { e with height, period, firstSeenTs := now } else e

/-- Write a ballot back under its key. -/
def State.put (st : State ℓ) (key : Hash) (b : Ballot ℓ) : State ℓ :=
  { st with ballotBox := st.ballotBox.insert key b }

/-- Install freshly drawn nonces in a ballot: the pair, its commitments, and the
node's own slot of the commitment table. -/
def Ballot.install (b : Ballot ℓ) (i : ℕ) : Ballot ℓ :=
  let com := nonceCommitments cv (rng i)
  { b with
    myNonces := rng i, myDraw := some i, myD := com.D, myE := com.E,
    nonces := b.nonces.insert nk.nodeIndex com }

/-- `propose_distribution`. -/
def proposeDistribution (st : State ℓ) (height : UInt64) (period : UInt32)
    (outputs : List (PublicKey × UInt64)) (now : UInt64) : State ℓ × List (Event ℓ) :=
  if nk.hasKey then
    let key := makeBallotKey cv height period
    let i := st.draws
    let st := { st with draws := i + 1 }
    match serializeOutputs outputs with
    | none => (st, [.drew key i, .returned false])
    | some blob =>
      let b := getOrCreateBallot cv st height period now
      if b.round1Done then (st.put key b, [.drew key i, .returned true])
      else
        let b' := Ballot.install cv nk rng
          { b with outputs, outputsBlob := blob, coordinatorIndex := nk.nodeIndex } i
        let com := nonceCommitments cv (rng i)
        (st.put key b', [.drew key i,
          .broadcast (0 :: leBytes 8 height.toNat ++ leBytes 4 period.toNat ++
            [nk.nodeIndex] ++ com.D.data ++ com.E.data),
          .returned true])
  else (st, [.returned false])

/-- `on_receive_nonce`: the commitment is stored under the index the sender names, whatever it is;
the node answers unless its own slot is taken. -/
def onReceiveNonce (st : State ℓ) (height : UInt64) (period : UInt32) (proposerIndex : UInt8)
    (commit : NonceEntry) (now : UInt64) : State ℓ × List (Event ℓ) :=
  if nk.hasKey ∧ 1 ≤ proposerIndex.toNat ∧ proposerIndex.toNat ≤ frostN then
    let key := makeBallotKey cv height period
    let b := getOrCreateBallot cv st height period now
    let b := { b with nonces := b.nonces.insert proposerIndex commit }
    if b.nonces[nk.nodeIndex]? = none then
      let i := st.draws
      let b' := Ballot.install cv nk rng { b with coordinatorIndex := proposerIndex } i
      (({ st with draws := i + 1 }).put key b',
        [.drew key i, .reply (nonceCommitments cv (rng i)), .returned true])
    else (st.put key b, [.returned false])
  else (st, [.returned false])

/-- The part of `request_signatures` that can fail: participants, binding factors
and aggregate commitment. -/
def roundOne (b : Ballot ℓ) (height : UInt64) (period : UInt32) :
    Option (List UInt8 × List (ZMod ℓ) × PublicKey) := do
  let participants := b.nonces.keys
  let msgHash := createDistributionMessageHash cv height period b.outputs
  if msgHash = Pod32.null then none
  let comms ← participants.mapM fun idx => b.nonces[idx]?
  let rho ← computeBindingFactors cv participants msgHash comms
  let aggR ← computeAggregateR cv comms rho
  return (participants, rho, aggR)

/-- `request_signatures`.  The table of commitments is in the order that the source sorts into. -/
def requestSignatures (st : State ℓ) (height : UInt64) (period : UInt32) (now : UInt64) :
    State ℓ × List (Event ℓ) :=
  let key := makeBallotKey cv height period
  let b := getOrCreateBallot cv st height period now
  if b.round1Done then (st.put key b, [.returned true])
  else if b.nonces.size < frostThreshold then (st.put key b, [.returned false])
  else
    match roundOne cv b height period with
    | none => (st.put key b, [.returned false])
    | some (participants, rho, aggR) =>
      let b' := { b with aggR, hasAggR := true, round1Done := true, participants, rho }
      match serializeIndices participants with
      | none => (st.put key b', [.returned false])
      | some indicesBlob =>
        (st.put key b', [
          .broadcast (2 :: leBytes 8 height.toNat ++ leBytes 4 period.toNat ++
            [nk.nodeIndex] ++ aggR.data ++ b.outputsBlob ++ indicesBlob),
          .returned true])

/-- `on_receive_sign_request` from the moment it holds the ballot: the ballot, and the signature. -/
def signBallot (b : Ballot ℓ) (key : Hash) (height : UInt64) (period : UInt32)
    (aggR : PublicKey) (outputs : List (PublicKey × UInt64)) (outputsBlob : Bytes)
    (participants : List UInt8) : Ballot ℓ × Option (Signing ℓ) :=
  if b.partials.contains nk.nodeIndex then (b, none)
  else
    let b := { b with outputs, outputsBlob, aggR, hasAggR := true, participants }
    match participants.mapM fun idx => b.nonces[idx]? with
    | none => (b, none)
    | some comms =>
      let msgHash := createDistributionMessageHash cv height period outputs
      match computeBindingFactors cv participants msgHash comms with
      | none => (b, none)
      | some rho =>
        let b := { b with rho }
        if computeAggregateR cv comms rho ≠ some aggR then (b, none)
        else
          let ownPos := participants.idxOf nk.nodeIndex
          match (computeLagrangeCoeffs participants).bind (·[ownPos]?), rho[ownPos]? with
          | some lambda, some r =>
            let sig := signPartial cv nk.nodeIndex msgHash b.myNonces nk.nodeSk lambda r
              aggR nk.groupPubkey
            ({ b with partials := b.partials.insert nk.nodeIndex sig },
              some { ballotKey := key, draw := b.myDraw, nonce := b.myNonces,
                     own := b.nonces[nk.nodeIndex]?, participants, comms, msgHash, rho,
                     aggR, ownPos, sig })
          | _, _ => (b, none)

/-- `on_receive_sign_request`. -/
def onReceiveSignRequest (st : State ℓ) (height : UInt64) (period : UInt32)
    (aggR : PublicKey) (outputsBlob signerIndicesBlob : Bytes) (now : UInt64) :
    State ℓ × List (Event ℓ) :=
  match nk.hasKey, deserializeOutputs outputsBlob, deserializeIndices signerIndicesBlob with
  | true, some outputs, some participants =>
    if participants.length < frostThreshold then (st, [.returned false])
    else
      let key := makeBallotKey cv height period
      let b := getOrCreateBallot cv st height period now
      match signBallot cv nk b key height period aggR outputs outputsBlob participants with
      | (b', some s) => (st.put key b', [.signed s, .returned true])
      | (b', none) => (st.put key b', [.returned false])
  | _, _, _ => (st, [.returned false])

/-- Whether `on_receive_partial` accepts a partial signature for a ballot. -/
def acceptsPartial (b : Ballot ℓ) (height : UInt64) (period : UInt32) (signerIndex : UInt8)
    (sig : PartialSignature) : Bool :=
  let pos := b.participants.idxOf signerIndex
  b.hasAggR && !b.participants.isEmpty &&
    b.nonces[signerIndex]? = some ⟨sig.D, sig.E⟩ &&
    match (computeLagrangeCoeffs b.participants).bind (·[pos]?), b.rho[pos]?,
        nk.proposerPubkeys[signerIndex.toNat - 1]? with
    | some lambda, some r, some P =>
      verifyPartial cv (createDistributionMessageHash cv height period b.outputs) sig lambda r
        b.aggR nk.groupPubkey P
    | _, _, _ => false

/-- `on_receive_partial`. -/
def onReceivePartial (st : State ℓ) (height : UInt64) (period : UInt32) (signerIndex : UInt8)
    (sig : PartialSignature) (now : UInt64) : State ℓ × List (Event ℓ) :=
  if 1 ≤ signerIndex.toNat ∧ signerIndex.toNat ≤ frostN then
    let key := makeBallotKey cv height period
    let b := getOrCreateBallot cv st height period now
    if b.finalized ∨ b.partials.contains signerIndex then (st.put key b, [.returned true])
    else if acceptsPartial cv nk b height period signerIndex sig then
      (st.put key { b with partials := b.partials.insert signerIndex sig }, [.returned true])
    else (st.put key b, [.returned false])
  else (st, [.returned false])

/-- The aggregate `try_finalize` computes from a ballot, if it gets that far. -/
def finalSignature (b : Ballot ℓ) (height : UInt64) (period : UInt32) : Option FrostSignature :=
  let partials := b.participants.filterMap fun idx => b.partials[idx]?
  if b.partials.size < frostThreshold ∨ b.hasAggR = false ∨ b.participants = [] ∨
      partials.length < frostThreshold then none
  else
    aggregateSignatures cv (createDistributionMessageHash cv height period b.outputs)
      b.participants partials b.rho nk.groupPubkey nk.proposerPubkeys

/-- `try_finalize`. -/
def tryFinalize (st : State ℓ) (height : UInt64) (period : UInt32) (now : UInt64) :
    State ℓ × List (Event ℓ) :=
  let key := makeBallotKey cv height period
  let b := getOrCreateBallot cv st height period now
  if b.finalized then (st.put key b, [.returned true])
  else
    match finalSignature cv nk b height period with
    | none => (st.put key b, [.returned false])
    | some sig => (st.put key { b with finalized := true }, [.applied sig, .returned true])

/-- `prune_expired_ballots`: the age is an unsigned difference. -/
def pruneExpiredBallots (st : State ℓ) (now : UInt64) : State ℓ × List (Event ℓ) :=
  ({ st with ballotBox := st.ballotBox.filter fun _ b =>
      !(b.finalized || decide (now - b.firstSeenTs > ballotTtlSecs)) }, [])

/-- The broadcaster as a machine over its calls. -/
def broadcaster : Machine (State ℓ) (Call ℓ) (Event ℓ) where
  step st
    | .proposeDistribution h p outputs now => proposeDistribution cv nk rng st h p outputs now
    | .onReceiveNonce h p idx commit now => onReceiveNonce cv nk rng st h p idx commit now
    | .requestSignatures h p now => requestSignatures cv nk st h p now
    | .onReceiveSignRequest h p aggR outs idxs now =>
      onReceiveSignRequest cv nk st h p aggR outs idxs now
    | .onReceivePartial h p idx sig now => onReceivePartial cv nk st h p idx sig now
    | .tryFinalize h p now => tryFinalize cv nk st h p now
    | .pruneExpiredBallots now => pruneExpiredBallots st now

end Handlers

end Mevacoin.Frost
