import Mevacoin.Frost.Broadcaster

/-!
# What one call can do

The list of what a call of the broadcaster can store, from which the invariants over runs are read.
-/

namespace Mevacoin.Frost

open Lib Std

variable {ℓ : ℕ} {G : Type} [AddCommGroup G] [Module (ZMod ℓ) G]

/-- The height and period a call is about, and its time. -/
def Call.address : Call ℓ → Option (UInt64 × UInt32 × UInt64)
  | .proposeDistribution h p _ now => some (h, p, now)
  | .onReceiveNonce h p _ _ now => some (h, p, now)
  | .requestSignatures h p now => some (h, p, now)
  | .onReceiveSignRequest h p _ _ _ now => some (h, p, now)
  | .onReceivePartial h p _ _ now => some (h, p, now)
  | .tryFinalize h p now => some (h, p, now)
  | .pruneExpiredBallots _ => none

section

variable (cv : Curve ℓ G) (nk : NodeKey ℓ) (rng : ℕ → NoncePair ℓ)

/-- The state and the events a call can lead to. -/
inductive CallEffect (st : State ℓ) : Call ℓ → State ℓ × List (Event ℓ) → Prop where
  /-- The call is turned away. -/
  | refused (c : Call ℓ) : CallEffect st c (st, [.returned false])
  /-- The ballot is fetched and stored as it is. -/
  | fetched {c : Call ℓ} {h : UInt64} {p : UInt32} {now : UInt64}
      (hc : c.address = some (h, p, now)) (ok : Bool) :
      CallEffect st c (st.put (makeBallotKey cv h p) (getOrCreateBallot cv st h p now),
        [.returned ok])
  /-- A pair is drawn, but there are too many outputs. -/
  | tooMany {h : UInt64} {p : UInt32} {outputs : List (PublicKey × UInt64)} {now : UInt64} :
      CallEffect st (.proposeDistribution h p outputs now)
        ({ st with draws := st.draws + 1 },
          [.drew (makeBallotKey cv h p) st.draws, .returned false])
  /-- A pair is drawn, but the ballot is past round 1. -/
  | tooLate {h : UInt64} {p : UInt32} {outputs : List (PublicKey × UInt64)} {now : UInt64} :
      CallEffect st (.proposeDistribution h p outputs now)
        (({ st with draws := st.draws + 1 }).put (makeBallotKey cv h p)
            (getOrCreateBallot cv st h p now),
          [.drew (makeBallotKey cv h p) st.draws, .returned true])
  /-- A pair is drawn and installed together with the proposed outputs. -/
  | proposed {h : UInt64} {p : UInt32} {outputs : List (PublicKey × UInt64)} {now : UInt64}
      {blob : Bytes} (hkey : nk.hasKey = true) (hser : serializeOutputs outputs = some blob)
      (hopen : (getOrCreateBallot cv st h p now).round1Done = false) (msg : Bytes) :
      CallEffect st (.proposeDistribution h p outputs now)
        (({ st with draws := st.draws + 1 }).put (makeBallotKey cv h p)
            (Ballot.install cv nk rng
              { getOrCreateBallot cv st h p now with
                outputs, outputsBlob := blob, coordinatorIndex := nk.nodeIndex } st.draws),
          [.drew (makeBallotKey cv h p) st.draws, .broadcast msg, .returned true])
  /-- A commitment is stored. -/
  | stored {h : UInt64} {p : UInt32} {idx : UInt8} {com : NonceEntry} {now : UInt64}
      (hkey : nk.hasKey = true) :
      CallEffect st (.onReceiveNonce h p idx com now)
        (st.put (makeBallotKey cv h p)
            { getOrCreateBallot cv st h p now with
              nonces := (getOrCreateBallot cv st h p now).nonces.insert idx com },
          [.returned false])
  /-- A commitment is stored, and a pair is drawn and installed for an answer. -/
  | answered {h : UInt64} {p : UInt32} {idx : UInt8} {com : NonceEntry} {now : UInt64}
      (hkey : nk.hasKey = true)
      (hnone : ((getOrCreateBallot cv st h p now).nonces.insert idx com)[nk.nodeIndex]? = none)
      (reply : NonceEntry) :
      CallEffect st (.onReceiveNonce h p idx com now)
        (({ st with draws := st.draws + 1 }).put (makeBallotKey cv h p)
            (Ballot.install cv nk rng
              { getOrCreateBallot cv st h p now with
                nonces := (getOrCreateBallot cv st h p now).nonces.insert idx com
                coordinatorIndex := idx } st.draws),
          [.drew (makeBallotKey cv h p) st.draws, .reply reply, .returned true])
  /-- The data of round 1 are computed, and the request goes out unless it has too many
  participants. -/
  | requested {h : UInt64} {p : UInt32} {now : UInt64} {participants : List UInt8}
      {rho : List (ZMod ℓ)} {aggR : PublicKey}
      (hopen : (getOrCreateBallot cv st h p now).round1Done = false)
      (hround : roundOne cv (getOrCreateBallot cv st h p now) h p = some (participants, rho, aggR))
      (msg : Option Bytes) :
      CallEffect st (.requestSignatures h p now)
        (st.put (makeBallotKey cv h p)
            { getOrCreateBallot cv st h p now with
              aggR, hasAggR := true, round1Done := true, participants, rho },
          msg.toList.map .broadcast ++ [.returned msg.isSome])
  /-- A sign request is handled. -/
  | handled {h : UInt64} {p : UInt32} {aggR : PublicKey} {outs idxs : Bytes} {now : UInt64}
      {outputs : List (PublicKey × UInt64)} {participants : List UInt8} {b : Ballot ℓ}
      {signing : Option (Signing ℓ)} (hkey : nk.hasKey = true)
      (ho : deserializeOutputs outs = some outputs)
      (hi : deserializeIndices idxs = some participants)
      (hlen : frostThreshold ≤ participants.length)
      (hsign : signBallot cv nk (getOrCreateBallot cv st h p now) (makeBallotKey cv h p) h p aggR
        outputs outs participants = (b, signing)) :
      CallEffect st (.onReceiveSignRequest h p aggR outs idxs now)
        (st.put (makeBallotKey cv h p) b,
          signing.toList.map .signed ++ [.returned signing.isSome])
  /-- A partial signature is accepted. -/
  | accepted {h : UInt64} {p : UInt32} {i : UInt8} {sig : PartialSignature} {now : UInt64}
      (hacc : acceptsPartial cv nk (getOrCreateBallot cv st h p now) h p i sig = true) :
      CallEffect st (.onReceivePartial h p i sig now)
        (st.put (makeBallotKey cv h p)
            { getOrCreateBallot cv st h p now with
              partials := (getOrCreateBallot cv st h p now).partials.insert i sig },
          [.returned true])
  /-- The signature is handed out. -/
  | finished {h : UInt64} {p : UInt32} {now : UInt64} {sig : FrostSignature}
      (hopen : (getOrCreateBallot cv st h p now).finalized = false)
      (hsig : finalSignature cv nk (getOrCreateBallot cv st h p now) h p = some sig) :
      CallEffect st (.tryFinalize h p now)
        (st.put (makeBallotKey cv h p)
            { getOrCreateBallot cv st h p now with finalized := true },
          [.applied sig, .returned true])
  /-- Old and finished ballots are dropped. -/
  | pruned (now : UInt64) :
      CallEffect st (.pruneExpiredBallots now) (pruneExpiredBallots st now)

end

variable {cv : Curve ℓ G} {nk : NodeKey ℓ} {rng : ℕ → NoncePair ℓ} {st : State ℓ}

/-- **The list is complete.** -/
theorem call_effect (c : Call ℓ) :
    CallEffect cv nk rng st c ((broadcaster cv nk rng).step st c) := by
  cases c with
  | proposeDistribution h p outputs now =>
    dsimp only [broadcaster, proposeDistribution]
    cases hser : serializeOutputs outputs with
    | none =>
      dsimp only
      split_ifs with hkey
      · exact .tooMany
      · exact .refused _
    | some blob =>
      split_ifs with hkey hdone
      · exact .tooLate
      · have hopen : (getOrCreateBallot cv st h p now).round1Done = false :=
          Bool.eq_false_of_not_eq_true hdone
        exact .proposed hkey hser hopen _
      · exact .refused _
  | onReceiveNonce h p idx com now =>
    dsimp only [broadcaster, onReceiveNonce]
    split_ifs with hkey hnone
    · exact .answered hkey.1 hnone _
    · exact .stored hkey.1
    · exact .refused _
  | requestSignatures h p now =>
    dsimp only [broadcaster, requestSignatures]
    split_ifs with hdone hfew
    · exact .fetched rfl true
    · exact .fetched rfl false
    · cases hround : roundOne cv (getOrCreateBallot cv st h p now) h p with
      | none => exact .fetched rfl false
      | some data =>
        dsimp only
        split
        · exact .requested (Bool.eq_false_of_not_eq_true hdone) hround none
        · exact .requested (Bool.eq_false_of_not_eq_true hdone) hround (some _)
  | onReceiveSignRequest h p aggR outs idxs now =>
    dsimp only [broadcaster, onReceiveSignRequest]
    split
    · rename_i outputs participants hkey ho hi
      split_ifs with hshort
      · exact .refused _
      · split
        · rename_i b s hsign
          exact .handled hkey ho hi (Nat.not_lt.1 hshort) hsign
        · rename_i b hsign
          exact .handled hkey ho hi (Nat.not_lt.1 hshort) hsign
    · exact .refused _
  | onReceivePartial h p i sig now =>
    dsimp only [broadcaster, onReceivePartial]
    split_ifs with hrange hdone hacc
    · exact .fetched rfl true
    · exact .accepted hacc
    · exact .fetched rfl false
    · exact .refused _
  | tryFinalize h p now =>
    dsimp only [broadcaster, tryFinalize]
    split_ifs with hdone
    · exact .fetched rfl true
    · cases hsig : finalSignature cv nk (getOrCreateBallot cv st h p now) h p with
      | none => exact .fetched rfl false
      | some sig => exact .finished (Bool.eq_false_of_not_eq_true hdone) hsig
  | pruneExpiredBallots now => exact .pruned now

end Mevacoin.Frost
