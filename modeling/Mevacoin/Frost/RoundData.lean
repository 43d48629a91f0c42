import Mevacoin.Frost.NonceSafety

/-!
# The round data of a ballot

`agg_R`, `participants` and `rho` of a ballot belong together.  `on_receive_sign_request` stores the
first two from the message and checks them afterwards.
-/

namespace Mevacoin.Frost

open Lib Std

variable {ℓ : ℕ} {G : Type} [AddCommGroup G] [Module (ZMod ℓ) G]

/-- The stored commitments of the participants. -/
def Ballot.commitments (b : Ballot ℓ) (participants : List UInt8) : Option (List NonceEntry) :=
  participants.mapM fun idx => b.nonces[idx]?

/-- The aggregate commitment of the participants for a message, if the ballot holds a
commitment for each. -/
def Ballot.aggregateFor (cv : Curve ℓ G) (b : Ballot ℓ) (participants : List UInt8)
    (msg : Hash) : Option PublicKey := do
  let comms ← b.commitments participants
  let rho ← computeBindingFactors cv participants msg comms
  computeAggregateR cv comms rho

/-- The round data of a ballot that has R and participants belong together. -/
def Ballot.Consistent (cv : Curve ℓ G) (b : Ballot ℓ) : Prop :=
  b.hasAggR = true → b.participants ≠ [] →
    b.rho.length = b.participants.length ∧
      ∃ comms, b.commitments b.participants = some comms ∧
        computeAggregateR cv comms b.rho = some b.aggR

/-- The round data and the commitments are the same in both ballots. -/
structure SameRound (b b' : Ballot ℓ) : Prop where
  hasAggR : b'.hasAggR = b.hasAggR
  participants : b'.participants = b.participants
  rho : b'.rho = b.rho
  aggR : b'.aggR = b.aggR
  nonces : b'.nonces = b.nonces

variable {cv : Curve ℓ G} {nk : NodeKey ℓ} {rng : ℕ → NoncePair ℓ} {st : State ℓ}
  {b b' : Ballot ℓ}

theorem SameRound.consistent (h : SameRound b b') (hb : b.Consistent cv) : b'.Consistent cv := by
  unfold Ballot.Consistent Ballot.commitments at hb ⊢
  rw [h.hasAggR, h.participants, h.rho, h.aggR, h.nonces]
  exact hb

theorem consistent_empty : ({} : Ballot ℓ).Consistent cv := nofun

/-- Fetching a ballot changes its header at most. -/
theorem getOrCreateBallot_eq (cv : Curve ℓ G) (st : State ℓ) (h : UInt64) (p : UInt32)
    (now : UInt64) :
    ∃ h' p' t, getOrCreateBallot cv st h p now =
      { st.ballot (makeBallotKey cv h p) with height := h', period := p', firstSeenTs := t } := by
  unfold getOrCreateBallot State.ballot
  dsimp only
  split_ifs
  · exact ⟨_, _, _, rfl⟩
  · exact ⟨_, _, _, rfl⟩

/-- A commitment can be stored under an index that is no participant, or once more. -/
theorem Ballot.Consistent.insert (hb : b.Consistent cv) {idx : UInt8} {com : NonceEntry}
    (hidx : b.hasAggR = true → idx ∈ b.participants → b.nonces[idx]? = some com) :
    ({ b with nonces := b.nonces.insert idx com } : Ballot ℓ).Consistent cv := by
  intro hR hne
  obtain ⟨hlen, comms, hcomms, hagg⟩ := hb hR hne
  refine ⟨hlen, comms, ?_, hagg⟩
  rw [← hcomms]
  refine mapM_congr fun a ha => ?_
  rw [ExtTreeMap.getElem?_insert]
  split_ifs with hcmp
  · obtain rfl := LawfulEqCmp.eq_of_compare hcmp
    exact (hidx hR ha).symm
  · rfl

/-- Fresh nonces can be installed when the node is no participant. -/
theorem Ballot.Consistent.install (hb : b.Consistent cv) (i : ℕ)
    (hown : b.hasAggR = true → nk.nodeIndex ∉ b.participants) :
    (Ballot.install cv nk rng b i).Consistent cv :=
  SameRound.consistent
    (b := { b with nonces := b.nonces.insert nk.nodeIndex (nonceCommitments cv (rng i)) })
    ⟨rfl, rfl, rfl, rfl, rfl⟩ (hb.insert fun hR hmem => absurd hmem (hown hR))

/-- A participant of a consistent ballot has a commitment. -/
theorem Ballot.Consistent.isSome (hb : b.Consistent cv) (hR : b.hasAggR = true) {idx : UInt8}
    (hidx : idx ∈ b.participants) : b.nonces[idx]?.isSome = true := by
  obtain ⟨-, comms, hcomms, -⟩ := hb hR (List.ne_nil_of_mem hidx)
  exact isSome_of_mapM hcomms hidx

/-! ### The calls -/

section Calls

variable (cv nk)

/-- A sign request that is turned away before anything is stored: no key, blobs that do not parse,
fewer than three participants, or a ballot the node has signed. -/
def TurnedAway (st : State ℓ) (h : UInt64) (p : UInt32) (outs idxs : Bytes) : Prop :=
  match nk.hasKey, deserializeOutputs outs, deserializeIndices idxs with
  | true, some _, some participants =>
    participants.length < frostThreshold ∨
      (st.ballot (makeBallotKey cv h p)).height ≠ 0 ∧
        (st.ballot (makeBallotKey cv h p)).partials.contains nk.nodeIndex = true
  | _, _, _ => True

/-- A sign request that the node can answer: it holds a commitment for each participant, R is their
aggregate commitment, and the participants are signers, the node among them. -/
def Answerable (b : Ballot ℓ) (h : UInt64) (p : UInt32) (aggR : PublicKey)
    (outs idxs : Bytes) : Prop :=
  match deserializeOutputs outs, deserializeIndices idxs with
  | some outputs, some participants =>
    b.partials.contains nk.nodeIndex = false ∧ nk.nodeIndex ∈ participants ∧
      (∀ i ∈ participants, 1 ≤ i.toNat ∧ i.toNat ≤ frostN) ∧
      b.aggregateFor cv participants (createDistributionMessageHash cv h p outputs) = some aggR
  | _, _ => False

/-- The call replaces no commitment of a participant of a ballot that has R, and asks for no
signature with data that do not fit the ballot. -/
def RoundKept (st : State ℓ) : Call ℓ → Prop
  | .proposeDistribution h p outputs _ =>
    let b := st.ballot (makeBallotKey cv h p)
    nk.hasKey = true → outputs.length ≤ 255 → b.round1Done = false → b.hasAggR = true →
      nk.nodeIndex ∉ b.participants
  | .onReceiveNonce h p idx commit _ =>
    let b := st.ballot (makeBallotKey cv h p)
    nk.hasKey = true → b.hasAggR = true → idx ∈ b.participants → b.nonces[idx]? = some commit
  | .onReceiveSignRequest h p aggR outs idxs _ =>
    TurnedAway cv nk st h p outs idxs ∨
      Answerable cv nk (st.ballot (makeBallotKey cv h p)) h p aggR outs idxs
  | _ => True

instance (st : State ℓ) (h : UInt64) (p : UInt32) (outs idxs : Bytes) :
    Decidable (TurnedAway cv nk st h p outs idxs) := by
  unfold TurnedAway
  split <;> infer_instance

instance (b : Ballot ℓ) (h : UInt64) (p : UInt32) (aggR : PublicKey) (outs idxs : Bytes) :
    Decidable (Answerable cv nk b h p aggR outs idxs) := by
  unfold Answerable
  exact match deserializeOutputs outs, deserializeIndices idxs with
    | some _, some participants =>
      haveI := List.decidableBAll (fun i : UInt8 => 1 ≤ i.toNat ∧ i.toNat ≤ frostN) participants
      inferInstanceAs (Decidable (_ ∧ _ ∧ _ ∧ _))
    | none, _ | some _, none => .isFalse id

instance (st : State ℓ) : ∀ c : Call ℓ, Decidable (RoundKept cv nk st c)
  | .proposeDistribution .. | .onReceiveNonce .. | .requestSignatures .. | .onReceiveSignRequest ..
  | .onReceivePartial .. | .tryFinalize .. | .pruneExpiredBallots .. => by
    unfold RoundKept
    infer_instance

end Calls

variable {h : UInt64} {p : UInt32} {outputs : List (PublicKey × UInt64)} {participants : List UInt8}
  {rho : List (ZMod ℓ)} {aggR : PublicKey} {outs idxs : Bytes}

/-! ### One call -/

/-- Every ballot in the box is consistent. -/
def BoxConsistent (cv : Curve ℓ G) (st : State ℓ) : Prop :=
  ∀ key, (st.ballot key).Consistent cv

theorem BoxConsistent.put (hst : BoxConsistent cv st) {key : Hash} (hb : b.Consistent cv) :
    BoxConsistent cv (st.put key b) := by
  intro key'
  by_cases hk : key = key'
  · subst hk
    rwa [State.ballot_put_self]
  · rw [State.ballot_put_of_ne st b hk]
    exact hst key'

theorem BoxConsistent.getOrCreate (hst : BoxConsistent cv st) (h : UInt64) (p : UInt32)
    (now : UInt64) : (getOrCreateBallot cv st h p now).Consistent cv := by
  obtain ⟨h', p', t, hb⟩ := getOrCreateBallot_eq cv st h p now
  rw [hb]
  exact SameRound.consistent ⟨rfl, rfl, rfl, rfl, rfl⟩ (hst (makeBallotKey cv h p))

/-- The ballot after a commitment that keeps the round. -/
theorem BoxConsistent.stored (hst : BoxConsistent cv st) {idx : UInt8} {com : NonceEntry}
    {now : UInt64} (hk : RoundKept cv nk st (.onReceiveNonce h p idx com now))
    (hkey : nk.hasKey = true) :
    ({ getOrCreateBallot cv st h p now with
      nonces := (getOrCreateBallot cv st h p now).nonces.insert idx com } : Ballot ℓ).Consistent
      cv := by
  obtain ⟨h', p', t, hb⟩ := getOrCreateBallot_eq cv st h p now
  refine (hst.getOrCreate h p now).insert ?_
  rw [hb]
  exact hk hkey

theorem length_of_serializeOutputs {blob : Bytes} (hser : serializeOutputs outputs = some blob) :
    outputs.length ≤ 255 := by
  unfold serializeOutputs at hser
  split_ifs at hser
  omega

/-- What `request_signatures` computes, and from what. -/
theorem roundOne_eq_some (hr : roundOne cv b h p = some (participants, rho, aggR)) :
    participants = b.nonces.keys ∧ ∃ comms, b.commitments participants = some comms ∧
      computeBindingFactors cv participants (createDistributionMessageHash cv h p b.outputs)
        comms = some rho ∧
      computeAggregateR cv comms rho = some aggR := by
  unfold roundOne at hr
  dsimp only at hr
  split_ifs at hr
  · cases hr
  · simp only [Option.bind_eq_bind, Option.bind_eq_some_iff] at hr
    obtain ⟨comms, hcomms, rho', hrho, aggR', hagg, rfl, rfl, rfl⟩ := hr
    exact ⟨rfl, comms, hcomms, hrho, hagg⟩

/-- What `request_signatures` stores belongs together. -/
theorem roundOne_consistent (hr : roundOne cv b h p = some (participants, rho, aggR)) :
    ({ b with aggR, hasAggR := true, round1Done := true, participants, rho } :
      Ballot ℓ).Consistent cv := by
  obtain ⟨-, comms, hcomms, hrho, hagg⟩ := roundOne_eq_some hr
  exact fun _ _ => ⟨computeBindingFactors_length hrho, comms, hcomms, hagg⟩

/-- A request that is turned away leaves no trace. -/
theorem onReceiveSignRequest_turnedAway {now : UInt64} (ht : TurnedAway cv nk st h p outs idxs) :
    onReceiveSignRequest cv nk st h p aggR outs idxs now = (st, [.returned false]) := by
  have hput : (st.ballot (makeBallotKey cv h p)).height ≠ 0 →
      st.put (makeBallotKey cv h p) (st.ballot (makeBallotKey cv h p)) = st := by
    intro hheight
    have hsome : st.ballotBox[makeBallotKey cv h p]? = some (st.ballot (makeBallotKey cv h p)) := by
      unfold State.ballot at hheight ⊢
      rw [ExtTreeMap.getD_eq_getD_getElem?] at hheight ⊢
      cases hget : st.ballotBox[makeBallotKey cv h p]? with
      | none => rw [hget] at hheight; exact absurd rfl hheight
      | some b => rfl
    unfold State.put
    congr 1
    refine ExtTreeMap.ext_getElem? fun k => ?_
    rw [ExtTreeMap.getElem?_insert]
    split_ifs with hcmp
    · rw [← LawfulEqCmp.eq_of_compare hcmp, hsome]
    · rfl
  unfold onReceiveSignRequest
  unfold TurnedAway at ht
  cases hkey : nk.hasKey with
  | false => rfl
  | true =>
    cases ho : deserializeOutputs outs with
    | none => rfl
    | some outputs =>
      cases hi : deserializeIndices idxs with
      | none => rfl
      | some participants =>
        rw [hkey, ho, hi] at ht
        dsimp only at ht ⊢
        split_ifs with hshort
        · rfl
        obtain ⟨hheight, hsigned⟩ := ht.resolve_left hshort
        have hfetch : getOrCreateBallot cv st h p now = st.ballot (makeBallotKey cv h p) :=
          if_neg hheight
        rw [hfetch, signBallot, if_pos hsigned]
        dsimp only
        rw [hput hheight]

theorem of_not_turnedAway (ht : ¬ TurnedAway cv nk st h p outs idxs) :
    ∃ outputs participants, nk.hasKey = true ∧ deserializeOutputs outs = some outputs ∧
      deserializeIndices idxs = some participants ∧ frostThreshold ≤ participants.length := by
  unfold TurnedAway at ht
  split at ht
  · rename_i outputs participants hkey ho hi
    exact ⟨outputs, participants, hkey, ho, hi, Nat.not_lt.1 (not_or.1 ht).1⟩
  · exact absurd trivial ht

/-- The ballot after it took the data of a sign request and the node's own signature. -/
def Ballot.answered (b : Ballot ℓ) (outputs : List (PublicKey × UInt64)) (outs : Bytes)
    (aggR : PublicKey) (participants : List UInt8) (rho : List (ZMod ℓ)) (own : UInt8)
    (sig : PartialSignature) : Ballot ℓ :=
  { b with
    outputs, outputsBlob := outs, aggR, hasAggR := true, participants, rho
    partials := b.partials.insert own sig }

/-- A request that the node can answer is answered, and the ballot takes its data whole. -/
theorem signBallot_of_answerable (key : Hash) (ho : deserializeOutputs outs = some outputs)
    (hi : deserializeIndices idxs = some participants) (hlen : frostThreshold ≤ participants.length)
    (ha : Answerable cv nk b h p aggR outs idxs) :
    ∃ comms rho lambda r,
      b.commitments participants = some comms ∧
      computeBindingFactors cv participants (createDistributionMessageHash cv h p outputs)
        comms = some rho ∧
      computeAggregateR cv comms rho = some aggR ∧
      (computeLagrangeCoeffs participants).bind (·[participants.idxOf nk.nodeIndex]?) =
        some lambda ∧
      rho[participants.idxOf nk.nodeIndex]? = some r ∧
      ∃ s, signBallot cv nk b key h p aggR outputs outs participants =
        (b.answered outputs outs aggR participants rho nk.nodeIndex
          (signPartial cv nk.nodeIndex (createDistributionMessageHash cv h p outputs) b.myNonces
            nk.nodeSk lambda r aggR nk.groupPubkey), some s) := by
  unfold Answerable at ha
  simp only [ho, hi] at ha
  obtain ⟨hnew, hown, hrange, hR⟩ := ha
  simp only [Ballot.aggregateFor, Option.bind_eq_bind, Option.bind_eq_some_iff] at hR
  obtain ⟨comms, hcomms, rho, hrho, hagg⟩ := hR
  have hpos := List.idxOf_lt_length_iff.2 hown
  have hcoeffs : computeLagrangeCoeffs (ℓ := ℓ) participants =
      some (participants.mapIdx fun k i => lagrangeCoeff participants k i) := by
    refine (if_neg ?_).trans (if_pos ?_)
    · exact Nat.not_lt.2 hlen
    · simpa using hrange
  obtain ⟨lambda, hlambda⟩ : ∃ lambda, (computeLagrangeCoeffs (ℓ := ℓ) participants).bind
      (·[participants.idxOf nk.nodeIndex]?) = some lambda := by
    rw [hcoeffs]
    exact ⟨_, List.getElem?_eq_getElem (by rwa [List.length_mapIdx])⟩
  obtain ⟨r, hr⟩ : ∃ r, rho[participants.idxOf nk.nodeIndex]? = some r :=
    ⟨_, List.getElem?_eq_getElem (by rwa [computeBindingFactors_length hrho])⟩
  have hcomms' : (participants.mapM fun idx => b.nonces[idx]?) = some comms := hcomms
  refine ⟨comms, rho, lambda, r, hcomms, hrho, hagg, hlambda, hr, ?_⟩
  rw [signBallot, if_neg (by rw [hnew]; simp)]
  simp only [hcomms', hrho, hagg, ne_eq, hlambda, hr]
  exact ⟨_, rfl⟩

theorem Answerable.getOrCreate
    (ha : Answerable cv nk (st.ballot (makeBallotKey cv h p)) h p aggR outs idxs) (now : UInt64) :
    Answerable cv nk (getOrCreateBallot cv st h p now) h p aggR outs idxs := by
  obtain ⟨h', p', t, hb⟩ := getOrCreateBallot_eq cv st h p now
  rw [hb]
  exact ha

/-- The whole call, for a request that is not turned away and can be answered. -/
theorem onReceiveSignRequest_of_answerable (now : UInt64) (ht : ¬ TurnedAway cv nk st h p outs idxs)
    (ha : Answerable cv nk (st.ballot (makeBallotKey cv h p)) h p aggR outs idxs) :
    ∃ outputs participants comms rho lambda r s,
      let b := getOrCreateBallot cv st h p now
      let sig := signPartial cv nk.nodeIndex (createDistributionMessageHash cv h p outputs)
        b.myNonces nk.nodeSk lambda r aggR nk.groupPubkey
      deserializeOutputs outs = some outputs ∧ deserializeIndices idxs = some participants ∧
      b.commitments participants = some comms ∧
      computeBindingFactors cv participants (createDistributionMessageHash cv h p outputs)
        comms = some rho ∧
      computeAggregateR cv comms rho = some aggR ∧
      (computeLagrangeCoeffs participants).bind (·[participants.idxOf nk.nodeIndex]?) =
        some lambda ∧
      rho[participants.idxOf nk.nodeIndex]? = some r ∧
      onReceiveSignRequest cv nk st h p aggR outs idxs now =
        (st.put (makeBallotKey cv h p)
          (b.answered outputs outs aggR participants rho nk.nodeIndex sig),
          [.signed s, .returned true]) := by
  obtain ⟨outputs, participants, hkey, ho, hi, hlen⟩ := of_not_turnedAway ht
  obtain ⟨comms, rho, lambda, r, hcomms, hrho, hagg, hlambda, hr, s, hs⟩ :=
    signBallot_of_answerable (makeBallotKey cv h p) ho hi hlen (ha.getOrCreate now)
  refine ⟨outputs, participants, comms, rho, lambda, r, s, ho, hi, hcomms, hrho, hagg, hlambda, hr,
    ?_⟩
  simp only [onReceiveSignRequest, hkey, ho, hi, if_neg (Nat.not_lt.2 hlen), hs]

theorem boxConsistent_onReceiveSignRequest (hst : BoxConsistent cv st) {now : UInt64}
    (hk : RoundKept cv nk st (.onReceiveSignRequest h p aggR outs idxs now)) :
    BoxConsistent cv (onReceiveSignRequest cv nk st h p aggR outs idxs now).1 := by
  by_cases ht : TurnedAway cv nk st h p outs idxs
  · rwa [onReceiveSignRequest_turnedAway ht]
  obtain ⟨outputs, participants, comms, rho, lambda, r, s, -, -, hcomms, hrho, hagg, -, -, heq⟩ :=
    onReceiveSignRequest_of_answerable now ht (hk.resolve_left ht)
  rw [heq]
  exact hst.put fun _ _ => ⟨computeBindingFactors_length hrho, comms, hcomms, hagg⟩

/-- One call keeps the box consistent. -/
theorem boxConsistent_step (hst : BoxConsistent cv st) {c : Call ℓ} (hk : RoundKept cv nk st c) :
    BoxConsistent cv ((broadcaster cv nk rng).step st c).1 := by
  have heffect : CallEffect cv nk rng st c ((broadcaster cv nk rng).step st c) := call_effect c
  generalize hout : (broadcaster cv nk rng).step st c = out at heffect ⊢
  cases heffect with
  | refused => exact hst
  | @fetched _ h p now => exact hst.put (hst.getOrCreate h p now)
  | tooMany => exact hst
  | @tooLate h p outputs now => exact BoxConsistent.put hst (hst.getOrCreate h p now)
  | @proposed h p outputs now blob hkey hser hopen msg =>
    have hc := hst.getOrCreate h p now
    obtain ⟨h', p', t, hb⟩ := getOrCreateBallot_eq cv st h p now
    refine BoxConsistent.put hst (Ballot.Consistent.install ?_ _ ?_)
    · exact hc
    · rw [hb] at hopen ⊢
      exact hk hkey (length_of_serializeOutputs hser) hopen
  | stored hkey => exact hst.put (hst.stored hk hkey)
  | answered hkey hnone reply =>
    have hins := hst.stored hk hkey
    refine BoxConsistent.put hst (Ballot.Consistent.install ?_ _ fun hR hmem => ?_)
    · exact hins
    · -- the node's own slot is empty, so it is no participant
      have hsome := hins.isSome hR hmem
      rw [hnone] at hsome
      cases hsome
  | requested hopen hround msg => exact hst.put (roundOne_consistent hround)
  | handled => exact hout ▸ boxConsistent_onReceiveSignRequest hst hk
  | @accepted h p _ _ now | @finished h p now =>
    exact hst.put (SameRound.consistent ⟨rfl, rfl, rfl, rfl, rfl⟩ (hst.getOrCreate h p now))
  | pruned now =>
    intro key
    rcases pruneExpiredBallots_ballot st now key with h | h
    · rw [h]
      exact hst key
    · rw [h]
      exact consistent_empty

/-! ### Runs -/

/-- **Round data belong together** in every run of calls that keep the rounds, and a sign request
that is refused leaves the box as it was. -/
theorem ballots_consistent {calls : List (Call ℓ)}
    (hg : (broadcaster cv nk rng).Guarded (RoundKept cv nk) {} calls) :
    let st := ((broadcaster cv nk rng).run {} calls).1
    (∀ (key : Hash) (b : Ballot ℓ), st.ballotBox[key]? = some b → b.Consistent cv) ∧
      ∀ h p aggR outs idxs now,
        RoundKept cv nk st (.onReceiveSignRequest h p aggR outs idxs now) →
        .returned false ∈ (onReceiveSignRequest cv nk st h p aggR outs idxs now).2 →
        (onReceiveSignRequest cv nk st h p aggR outs idxs now).1.ballotBox = st.ballotBox := by
  intro st
  constructor
  · intro key b hb
    have hst : BoxConsistent cv st :=
      (broadcaster cv nk rng).run_state_invariant (I := BoxConsistent cv)
        (fun _ => consistent_empty) (fun _ _ h hk => boxConsistent_step h hk) hg
    have hkey := hst key
    unfold State.ballot at hkey
    rwa [ExtTreeMap.getD_eq_getD_getElem?, hb] at hkey
  · intro h p aggR outs idxs now hk hfalse
    by_cases ht : TurnedAway cv nk st h p outs idxs
    · rw [onReceiveSignRequest_turnedAway ht]
    · obtain ⟨outputs, participants, comms, rho, lambda, r, s, -, -, -, -, -, -, -, heq⟩ :=
        onReceiveSignRequest_of_answerable now ht (hk.resolve_left ht)
      rw [heq] at hfalse
      simp at hfalse

/-- The call returned false. -/
def Event.isRefusal : Event ℓ → Bool
  | .returned ok => !ok
  | _ => false

/-- Signer 1 knows the commitments of 1 and 2 and is asked to sign with 1, 2 and 3. -/
def earlySignRequest : List (Call 7) :=
  [.onReceiveNonce 480 2 2 (peerCommit 2) 1000,
    signRequest [nonceCommitments sevenCurve (someDraws 0), peerCommit 2, peerCommit 3]]

/-- The request is refused, but its participants and its R stay in the ballot without binding
factors. -/
theorem earlySignRequest_torn :
    let out := (broadcaster sevenCurve signerOne someDraws).run {} earlySignRequest
    let b := out.1.ballot (makeBallotKey sevenCurve 480 2)
    out.2.getLast?.any Event.isRefusal = true ∧ b.hasAggR = true ∧ b.participants = [1, 2, 3] ∧
      b.rho = [] := by
  decide +kernel

/-- The rounds are kept in a run that does sign. -/
theorem honestBallot_consistent :
    (broadcaster sevenCurve signerOne someDraws).Guarded (RoundKept sevenCurve signerOne) {}
        honestBallot ∧
      let st := ((broadcaster sevenCurve signerOne someDraws).run {} honestBallot).1
      (st.ballot (makeBallotKey sevenCurve 480 2)).hasAggR = true ∧
        (∀ (key : Hash) (b : Ballot 7), st.ballotBox[key]? = some b → b.Consistent sevenCurve) ∧
        ∀ h p aggR outs idxs now,
          RoundKept sevenCurve signerOne st (.onReceiveSignRequest h p aggR outs idxs now) →
          .returned false ∈
            (onReceiveSignRequest sevenCurve signerOne st h p aggR outs idxs now).2 →
          (onReceiveSignRequest sevenCurve signerOne st h p aggR outs idxs now).1.ballotBox =
            st.ballotBox :=
  ⟨by decide +kernel, by decide +kernel, ballots_consistent (by decide +kernel)⟩

end Mevacoin.Frost
