import Mevacoin.Frost.Aggregation
import Mevacoin.Frost.RoundData

/-!
# From a sign request to a signature

`try_finalize` is content with `FROST_THRESHOLD` partial signatures, but `aggregate_signatures`
wants one of each participant, and these are all signers that had committed.
-/

namespace Mevacoin.Frost

open Lib Std

variable {ℓ : ℕ} {G : Type} [AddCommGroup G] [Module (ZMod ℓ) G] {cv : Curve ℓ G}
  {nk : NodeKey ℓ} {rng : ℕ → NoncePair ℓ} {st : State ℓ} {b b' : Ballot ℓ} {h : UInt64}
  {p : UInt32}

variable {i : UInt8} {sig : PartialSignature}

/-! ### Live ballots -/

/-- A ballot whose round is the one `request_signatures` fixed, with valid partial signatures of
their signers and shares in range. -/
structure Live (cv : Curve ℓ G) (nk : NodeKey ℓ) (h : UInt64) (p : UInt32) (b : Ballot ℓ) :
    Prop where
  hasAggR : b.hasAggR = true
  round1Done : b.round1Done = true
  nodup : b.participants.Nodup
  round : ∃ comms, b.commitments b.participants = some comms ∧
    computeBindingFactors cv b.participants (createDistributionMessageHash cv h p b.outputs)
      comms = some b.rho ∧
    computeAggregateR cv comms b.rho = some b.aggR
  partials : ∀ (i : UInt8) sig, b.partials[i]? = some sig →
    acceptsPartial cv nk b h p i sig = true ∧ sig.signerIndex = i ∧ InRange sig.sigShare

theorem acceptsPartial_iff :
    acceptsPartial cv nk b h p i sig = true ↔
      b.hasAggR = true ∧ b.participants ≠ [] ∧ b.nonces[i]? = some ⟨sig.D, sig.E⟩ ∧
        ∃ lambda r P,
          (computeLagrangeCoeffs b.participants).bind (·[b.participants.idxOf i]?) =
            some lambda ∧
          b.rho[b.participants.idxOf i]? = some r ∧
          nk.proposerPubkeys[i.toNat - 1]? = some P ∧
          verifyPartial cv (createDistributionMessageHash cv h p b.outputs) sig lambda r b.aggR
            nk.groupPubkey P = true := by
  unfold acceptsPartial
  dsimp only
  cases hl : (computeLagrangeCoeffs (ℓ := ℓ) b.participants).bind
      (·[b.participants.idxOf i]?) <;>
    cases hr : b.rho[b.participants.idxOf i]? <;>
    cases hP : nk.proposerPubkeys[i.toNat - 1]? <;> simp [and_assoc]

/-- A signature is accepted from a participant only. -/
theorem mem_participants_of_accepts (ha : acceptsPartial cv nk b h p i sig = true) :
    i ∈ b.participants := by
  obtain ⟨-, -, -, lambda, r, P, hl, -⟩ := acceptsPartial_iff.1 ha
  obtain ⟨lambdas, hls, hpos⟩ := Option.bind_eq_some_iff.1 hl
  have hlt := (List.getElem?_eq_some_iff.1 hpos).1
  rw [computeLagrangeCoeffs_length hls] at hlt
  exact List.idxOf_lt_length_iff.1 hlt

/-- Acceptance reads the round data and the signer's commitment. -/
theorem accepts_congr (hA : b'.hasAggR = b.hasAggR) (hpart : b'.participants = b.participants)
    (hrho : b'.rho = b.rho) (hR : b'.aggR = b.aggR) (hout : b'.outputs = b.outputs)
    (hcom : i ∈ b.participants → b'.nonces[i]? = b.nonces[i]?)
    (ha : acceptsPartial cv nk b h p i sig = true) : acceptsPartial cv nk b' h p i sig = true := by
  rw [acceptsPartial_iff, hA, hpart, hrho, hR, hout, hcom (mem_participants_of_accepts ha)]
  exact acceptsPartial_iff.1 ha

/-- A ballot with the same round, the same commitments of its participants and the same
partial signatures is live too. -/
theorem Live.congr (hl : Live cv nk h p b) (hA : b'.hasAggR = b.hasAggR)
    (hdone : b'.round1Done = b.round1Done) (hpart : b'.participants = b.participants)
    (hrho : b'.rho = b.rho) (hR : b'.aggR = b.aggR) (hout : b'.outputs = b.outputs)
    (hcom : ∀ i ∈ b.participants, b'.nonces[i]? = b.nonces[i]?)
    (hps : b'.partials = b.partials) : Live cv nk h p b' where
  hasAggR := hA.trans hl.hasAggR
  round1Done := hdone.trans hl.round1Done
  nodup := hpart ▸ hl.nodup
  round := by
    obtain ⟨comms, hcomms, hrest⟩ := hl.round
    rw [hpart, hrho, hR, hout]
    exact ⟨comms, (mapM_congr hcom).trans hcomms, hrest⟩
  partials i sig hi := by
    rw [hps] at hi
    obtain ⟨ha, hs⟩ := hl.partials i sig hi
    exact ⟨accepts_congr hA hpart hrho hR hout (hcom i) ha, hs⟩

/-- A further valid signature keeps a ballot live. -/
theorem Live.insert (hl : Live cv nk h p b) (ha : acceptsPartial cv nk b h p i sig = true)
    (hs : sig.signerIndex = i ∧ InRange sig.sigShare) :
    Live cv nk h p { b with partials := b.partials.insert i sig } where
  hasAggR := hl.hasAggR
  round1Done := hl.round1Done
  nodup := hl.nodup
  round := hl.round
  partials j sig' hj := by
    rw [ExtTreeMap.getElem?_insert] at hj
    split_ifs at hj with hcmp
    · obtain rfl := Option.some.inj hj
      obtain rfl := LawfulEqCmp.eq_of_compare hcmp
      exact ⟨ha, hs⟩
    · exact hl.partials j sig' hj

/-! ### Aggregating a live ballot -/

/-- Without a partial signature of each participant there is no aggregate. -/
theorem finalSignature_eq_none (hi : i ∈ b.participants) (hmiss : b.partials[i]? = none) :
    finalSignature cv nk b h p = none := by
  have hlt : (b.participants.filterMap fun idx => b.partials[idx]?).length <
      b.participants.length :=
    List.length_filterMap_lt_length_iff_exists.2 ⟨i, hi, hmiss⟩
  unfold finalSignature
  dsimp only
  split_ifs
  · rfl
  · cases hagg : aggregateSignatures cv (createDistributionMessageHash cv h p b.outputs)
      b.participants (b.participants.filterMap fun idx => b.partials[idx]?) b.rho nk.groupPubkey
      nk.proposerPubkeys with
    | none => rfl
    | some sig => exact absurd (aggregateSignatures_eq_some.1 hagg).2.1 (Nat.not_le.2 hlt)

/-- The partial signatures in the order of the participants. -/
def Ballot.orderedPartials (b : Ballot ℓ) : List PartialSignature :=
  b.participants.filterMap fun idx => b.partials[idx]?

/-- The sum of their shares. -/
def Ballot.total (b : Ballot ℓ) : EcScalar :=
  scalarPod (b.orderedPartials.map fun q => scalarOf ℓ q.sigShare).sum

/-- Every participant has answered. -/
def Ballot.Complete (b : Ballot ℓ) : Prop :=
  ∀ i ∈ b.participants, b.partials[i]?.isSome = true

namespace Live

theorem threshold_le (hl : Live cv nk h p b) : frostT ≤ b.participants.length := by
  obtain ⟨comms, -, hrho, -⟩ := hl.round
  unfold computeBindingFactors at hrho
  split_ifs at hrho with hshort
  omega

variable (hl : Live cv nk h p b) (hall : b.Complete)

include hall in
theorem length_orderedPartials : b.orderedPartials.length = b.participants.length :=
  length_of_mapM (mapM_eq_filterMap hall)

include hl hall

/-- The `k`-th partial signature was accepted from the `k`-th participant. -/
theorem accepted {k : ℕ} {q : PartialSignature} {i : UInt8}
    (hq : b.orderedPartials[k]? = some q) (hi : b.participants[k]? = some i) :
    acceptsPartial cv nk b h p i q = true ∧ q.signerIndex = i ∧ InRange q.sigShare := by
  rw [Ballot.orderedPartials, getElem?_of_mapM (mapM_eq_filterMap hall), hi] at hq
  exact hl.partials i q hq

/-- They carry the commitments of round 1. -/
theorem map_orderedPartials :
    b.commitments b.participants =
      some (b.orderedPartials.map fun q => (⟨q.D, q.E⟩ : NonceEntry)) := by
  obtain ⟨comms, hcomms, -⟩ := hl.round
  rw [hcomms]
  congr 1
  refine List.ext_getElem ?_ fun k hk hk' => ?_
  · rw [List.length_map, length_orderedPartials hall, length_of_mapM hcomms]
  · rw [List.length_map] at hk'
    have hkp : k < b.participants.length := by rwa [length_orderedPartials hall] at hk'
    have hacc := hl.accepted hall (List.getElem?_eq_getElem hk') (List.getElem?_eq_getElem hkp)
    have hcom := (acceptsPartial_iff.1 hacc.1).2.2.1
    have hcom' := getElem?_of_mapM hcomms k
    rw [List.getElem?_eq_getElem hk, List.getElem?_eq_getElem hkp, Option.bind_some, hcom] at hcom'
    rw [List.getElem_map]
    exact Option.some.inj hcom'

theorem exists_coeffs :
    ∃ lambdas, computeLagrangeCoeffs (ℓ := ℓ) b.participants = some lambdas := by
  have hpos : 0 < b.participants.length := Nat.lt_of_lt_of_le (by decide) hl.threshold_le
  have hpos' : 0 < b.orderedPartials.length := by rwa [length_orderedPartials hall]
  have hacc := hl.accepted hall (List.getElem?_eq_getElem hpos') (List.getElem?_eq_getElem hpos)
  obtain ⟨-, -, -, lambda, r, P, hlambda, -⟩ := acceptsPartial_iff.1 hacc.1
  obtain ⟨lambdas, hlam, -⟩ := Option.bind_eq_some_iff.1 hlambda
  exact ⟨lambdas, hlam⟩

/-- The aggregate of a live ballot that is complete. -/
theorem aggregate :
    aggregateSignatures cv (createDistributionMessageHash cv h p b.outputs) b.participants
      b.orderedPartials b.rho nk.groupPubkey nk.proposerPubkeys =
    some ⟨b.aggR, b.total, createDistributionMessageHash cv h p b.outputs⟩ := by
  obtain ⟨comms, hcomms, hrho, hR⟩ := hl.round
  obtain ⟨lambdas, hlam⟩ := hl.exists_coeffs hall
  have hlen := length_orderedPartials hall
  have htake : b.orderedPartials.take b.participants.length = b.orderedPartials :=
    List.take_of_length_le hlen.le
  rw [hl.map_orderedPartials hall] at hcomms
  refine aggregateSignatures_eq_some.2 ⟨hl.threshold_le, hlen.ge, computeBindingFactors_length hrho,
    lambdas, b.aggR, hlam, ?_, fun k q i lambda rho hq hi hla hr => ?_, by rw [htake, Ballot.total]⟩
  · rw [htake, Option.some.inj hcomms]
    exact hR
  · rw [htake] at hq
    obtain ⟨hacc, hsigner, -⟩ := hl.accepted hall hq hi
    obtain ⟨-, -, -, lambda', r, P, hla', hr', hP, hv⟩ := acceptsPartial_iff.1 hacc
    obtain ⟨hk, rfl⟩ := List.getElem?_eq_some_iff.1 hi
    -- the participants are distinct, so the position looked up is the position here
    rw [hl.nodup.idxOf_getElem k hk] at hla' hr'
    rw [hlam, Option.bind_some, hla] at hla'
    obtain rfl := Option.some.inj hla'
    obtain rfl := Option.some.inj (hr.symm.trans hr')
    have hrange := (inRange_of_coeffs hlam).2 _ (List.getElem_mem hk)
    exact ⟨hsigner, hrange.1, hrange.2, P, hP, hv⟩

theorem finalSignature_eq :
    finalSignature cv nk b h p =
      some ⟨b.aggR, b.total, createDistributionMessageHash cv h p b.outputs⟩ := by
  have hS : frostThreshold ≤ b.participants.length := hl.threshold_le
  have hlen := length_orderedPartials hall
  have hsize : b.participants.length ≤ b.partials.size := by
    rw [← ExtTreeMap.length_keys]
    refine (List.subperm_of_subset hl.nodup fun i hi => ?_).length_le
    rw [ExtTreeMap.mem_keys, ExtTreeMap.mem_iff_isSome_getElem?]
    exact hall i hi
  have hne : b.participants ≠ [] := fun hnil => by
    rw [hnil] at hS
    exact absurd hS (by decide)
  refine (if_neg ?_).trans (hl.aggregate hall)
  rw [hl.hasAggR]
  rintro (hlt | hno | hnil | hlt)
  · omega
  · cases hno
  · exact hne hnil
  · rw [← hlen] at hS
    exact absurd hlt (Nat.not_lt.2 hS)

end Live

/-- The ceremony keys that the node checks against are those of a key package, and its own
key is the share of its index. -/
structure HoldsShare (cv : Curve ℓ G) (nk : NodeKey ℓ) (sk a1 a2 : ZMod ℓ) : Prop where
  group : nk.groupPubkey = (frostKeygen cv sk a1 a2).groupPublicKey
  proposers : nk.proposerPubkeys = (frostKeygen cv sk a1 a2).signerPublicKeys
  share : nk.nodeSk = secretShare sk a1 a2 (nk.nodeIndex.toNat : ZMod ℓ)

/-- The aggregate of a live and complete ballot verifies under the group key. -/
theorem Live.verifies [Fact ℓ.Prime] {sk a1 a2 : ZMod ℓ} (hl : Live cv nk h p b)
    (hall : b.Complete) (hℓ : frostN < ℓ) (hcv : PointsRoundTrip cv)
    (hkey : HoldsShare cv nk sk a1 a2) :
    verifySignature cv ⟨b.aggR, b.total, createDistributionMessageHash cv h p b.outputs⟩
      nk.groupPubkey = true := by
  obtain ⟨lambdas, hlam⟩ := hl.exists_coeffs hall
  have hagg := hl.aggregate hall
  rw [hkey.group, hkey.proposers] at hagg
  rw [hkey.group]
  have hshares : ∀ q ∈ b.orderedPartials, InRange q.sigShare := by
    intro q hq
    obtain ⟨i, -, hi⟩ := List.mem_filterMap.1 hq
    exact (hl.partials i q hi).2.2
  exact verifySignature_of_interpolates hℓ hcv hagg hshares (interpolates_of_nodup hℓ hl.nodup
    (fun i hi => ((inRange_of_coeffs hlam).2 i hi).2) hl.threshold_le sk a1 a2)

/-! ### Calls that leave the round alone -/

section Calls

variable (cv nk h p)

/-- The call leaves the round of `(h, p)` alone: it replaces no participant's commitment; a sign
request is turned away or repeats what the ballot holds, and the node signs with the nonces it
committed to; a partial signature names its signer, with its share in range; and the ballot is not
pruned. -/
def Undisturbed (st : State ℓ) : Call ℓ → Prop
  | .onReceiveNonce h' p' idx com _ =>
    let b := st.ballot (makeBallotKey cv h p)
    makeBallotKey cv h' p' = makeBallotKey cv h p → idx ∈ b.participants →
      b.nonces[idx]? = some com
  | .onReceiveSignRequest h' p' aggR outs idxs _ =>
    let b := st.ballot (makeBallotKey cv h p)
    makeBallotKey cv h' p' = makeBallotKey cv h p →
      TurnedAway cv nk st h' p' outs idxs ∨
        h' = h ∧ p' = p ∧ deserializeOutputs outs = some b.outputs ∧
          deserializeIndices idxs = some b.participants ∧ Answerable cv nk b h p aggR outs idxs ∧
          b.nonces[nk.nodeIndex]? = some (nonceCommitments cv b.myNonces)
  | .onReceivePartial h' p' i sig _ =>
    makeBallotKey cv h' p' = makeBallotKey cv h p →
      h' = h ∧ p' = p ∧ sig.signerIndex = i ∧ InRange sig.sigShare
  | .pruneExpiredBallots now =>
    let b := st.ballot (makeBallotKey cv h p)
    b.finalized = false ∧ now - b.firstSeenTs ≤ ballotTtlSecs
  | _ => True

instance (st : State ℓ) : ∀ c : Call ℓ, Decidable (Undisturbed cv nk h p st c)
  | .proposeDistribution .. | .onReceiveNonce .. | .requestSignatures .. | .onReceiveSignRequest ..
  | .onReceivePartial .. | .tryFinalize .. | .pruneExpiredBallots .. => by
    unfold Undisturbed
    infer_instance

end Calls

variable {sk a1 a2 : ZMod ℓ} {p' : UInt32} {idx : UInt8} {com : NonceEntry} {now : UInt64}

/-- The node accepts its own signature, made with the nonces it has committed to. -/
theorem Live.accepts_own [NeZero ℓ] (hl : Live cv nk h p b) (hcv : PointsRoundTrip cv)
    (hkey : HoldsShare cv nk sk a1 a2)
    (hown : b.nonces[nk.nodeIndex]? = some (nonceCommitments cv b.myNonces)) {lambda r : ZMod ℓ}
    (hla : (computeLagrangeCoeffs b.participants).bind (·[b.participants.idxOf nk.nodeIndex]?) =
      some lambda) (hr : b.rho[b.participants.idxOf nk.nodeIndex]? = some r) :
    acceptsPartial cv nk b h p nk.nodeIndex
      (signPartial cv nk.nodeIndex (createDistributionMessageHash cv h p b.outputs) b.myNonces
        nk.nodeSk lambda r b.aggR nk.groupPubkey) = true := by
  obtain ⟨lambdas, hlam, hpos⟩ := Option.bind_eq_some_iff.1 hla
  have hmem : nk.nodeIndex ∈ b.participants := by
    rw [← List.idxOf_lt_length_iff, ← computeLagrangeCoeffs_length hlam]
    exact (List.getElem?_eq_some_iff.1 hpos).1
  obtain ⟨h1, hN⟩ := (inRange_of_coeffs hlam).2 _ hmem
  refine acceptsPartial_iff.2 ⟨hl.hasAggR, List.ne_nil_of_mem hmem, hown, lambda, r, _, hla, hr,
    hkey.proposers ▸ frostKeygen_signerPublicKeys sk a1 a2 h1 hN, ?_⟩
  rw [hkey.share]
  exact verifyPartial_signPartial hcv ..

/-- The ballot of `(h, p)` is live. -/
def LiveAt (cv : Curve ℓ G) (nk : NodeKey ℓ) (h : UInt64) (p : UInt32) (st : State ℓ) : Prop :=
  Live cv nk h p (st.ballot (makeBallotKey cv h p))

theorem LiveAt.put (hl : LiveAt cv nk h p st) {key : Hash}
    (hb : key = makeBallotKey cv h p → Live cv nk h p b) : LiveAt cv nk h p (st.put key b) := by
  unfold LiveAt
  by_cases hk : key = makeBallotKey cv h p
  · rw [← hk, State.ballot_put_self]
    exact hb hk
  · rw [State.ballot_put_of_ne st b hk]
    exact hl

theorem LiveAt.getOrCreate (hl : LiveAt cv nk h p st) {h' : UInt64}
    (hkey : makeBallotKey cv h' p' = makeBallotKey cv h p) (now : UInt64) :
    Live cv nk h p (getOrCreateBallot cv st h' p' now) := by
  obtain ⟨x, y, t, hb⟩ := getOrCreateBallot_eq cv st h' p' now
  rw [hb, hkey]
  exact Live.congr hl rfl rfl rfl rfl rfl rfl (fun _ _ => rfl) rfl

/-- A commitment that is new, or for a signer that takes no part, keeps a ballot live. -/
theorem Live.insertNonce (hl : Live cv nk h p b)
    (hidx : idx ∈ b.participants → b.nonces[idx]? = some com) :
    Live cv nk h p { b with nonces := b.nonces.insert idx com } := by
  refine hl.congr rfl rfl rfl rfl rfl rfl (fun i hi => ?_) rfl
  rw [ExtTreeMap.getElem?_insert]
  split_ifs with hcmp
  · obtain rfl := LawfulEqCmp.eq_of_compare hcmp
    exact (hidx hi).symm
  · rfl

theorem Live.isSome (hl : Live cv nk h p b) {i : UInt8} (hi : i ∈ b.participants) :
    b.nonces[i]?.isSome = true := by
  obtain ⟨comms, hcomms, -⟩ := hl.round
  exact isSome_of_mapM hcomms hi

/-- The ballot after a commitment that leaves the round alone. -/
theorem LiveAt.stored (hl : LiveAt cv nk h p st) {h' : UInt64}
    (hu : Undisturbed cv nk h p st (.onReceiveNonce h' p' idx com now))
    (hk : makeBallotKey cv h' p' = makeBallotKey cv h p) :
    Live cv nk h p
      { getOrCreateBallot cv st h' p' now with
        nonces := (getOrCreateBallot cv st h' p' now).nonces.insert idx com } := by
  refine (hl.getOrCreate hk now).insertNonce ?_
  obtain ⟨x, y, t, hb⟩ := getOrCreateBallot_eq cv st h' p' now
  rw [hb, hk]
  exact hu hk

theorem liveAt_onReceiveSignRequest [NeZero ℓ] (hcv : PointsRoundTrip cv)
    (hkey : HoldsShare cv nk sk a1 a2)
    (hl : LiveAt cv nk h p st) {h' : UInt64} {aggR : PublicKey} {outs idxs : Bytes}
    (hu : Undisturbed cv nk h p st (.onReceiveSignRequest h' p' aggR outs idxs now))
    (hk : makeBallotKey cv h' p' = makeBallotKey cv h p) :
    LiveAt cv nk h p (onReceiveSignRequest cv nk st h' p' aggR outs idxs now).1 := by
  by_cases ht : TurnedAway cv nk st h' p' outs idxs
  · rwa [onReceiveSignRequest_turnedAway ht]
  obtain ⟨rfl, rfl, ho, hi, ha, hown⟩ := (hu hk).resolve_left ht
  obtain ⟨outputs, participants, comms, rho, lambda, r, s, ho', hi', hcomms, hrho, hagg, hla, hr,
    heq⟩ := onReceiveSignRequest_of_answerable now ht ha
  rw [heq]
  refine hl.put fun _ => ?_
  have hlive := hl.getOrCreate rfl now
  obtain ⟨x, y, t, hb⟩ := getOrCreateBallot_eq cv st h' p' now
  generalize getOrCreateBallot cv st h' p' now = b at hb hlive hcomms
  subst hb
  -- what the request carries is what the ballot holds
  obtain rfl := Option.some.inj (ho.symm.trans ho')
  obtain rfl := Option.some.inj (hi.symm.trans hi')
  obtain ⟨comms', hcomms', hrho', hagg'⟩ := hlive.round
  obtain rfl := Option.some.inj (hcomms'.symm.trans hcomms)
  obtain rfl := Option.some.inj (hrho'.symm.trans hrho)
  obtain rfl := Option.some.inj (hagg'.symm.trans hagg)
  exact (hlive.insert (hlive.accepts_own hcv hkey hown hla hr) ⟨rfl, inRange_scalarPod cv _⟩).congr
    hlive.hasAggR.symm rfl rfl rfl rfl rfl (fun _ _ => rfl) rfl

/-- One call that leaves the round alone keeps the ballot live. -/
theorem liveAt_step [NeZero ℓ] (hcv : PointsRoundTrip cv) (hkey : HoldsShare cv nk sk a1 a2)
    (hl : LiveAt cv nk h p st) {c : Call ℓ} (hu : Undisturbed cv nk h p st c) :
    LiveAt cv nk h p ((broadcaster cv nk rng).step st c).1 := by
  have heffect : CallEffect cv nk rng st c ((broadcaster cv nk rng).step st c) := call_effect c
  generalize hout : (broadcaster cv nk rng).step st c = out at heffect ⊢
  cases heffect with
  | refused => exact hl
  | @fetched _ h' p' now => exact hl.put fun hk => hl.getOrCreate hk now
  | tooMany => exact hl
  | @tooLate h' p' outputs now => exact LiveAt.put hl fun hk => hl.getOrCreate hk now
  | @proposed h' p' outputs now blob _ _ hopen msg =>
    -- a live ballot is past round 1
    refine LiveAt.put hl fun hk => ?_
    rw [(hl.getOrCreate hk now).round1Done] at hopen
    cases hopen
  | stored => exact hl.put (hl.stored hu)
  | answered _ hnone reply =>
    refine LiveAt.put hl fun hk => ?_
    have hins := hl.stored hu hk
    refine (hins.insertNonce fun hmem => ?_).congr rfl rfl rfl rfl rfl rfl (fun _ _ => rfl) rfl
    have hsome := hins.isSome hmem
    rw [hnone] at hsome
    cases hsome
  | @requested h' p' now participants rho aggR hopen hround msg =>
    refine hl.put fun hk => ?_
    rw [(hl.getOrCreate hk now).round1Done] at hopen
    cases hopen
  | @handled h' p' =>
    by_cases hk : makeBallotKey cv h' p' = makeBallotKey cv h p
    · exact hout ▸ liveAt_onReceiveSignRequest hcv hkey hl hu hk
    · exact hl.put fun hk' => absurd hk' hk
  | @accepted h' p' i sig now hacc =>
    refine hl.put fun hk => ?_
    obtain ⟨rfl, rfl, hs⟩ := hu hk
    exact (hl.getOrCreate hk now).insert hacc hs
  | @finished h' p' now =>
    exact hl.put fun hk =>
      (hl.getOrCreate hk now).congr rfl rfl rfl rfl rfl rfl (fun _ _ => rfl) rfl
  | pruned now =>
    unfold LiveAt
    rw [pruneExpiredBallots_keeps hu.1 hu.2]
    exact hl

/-! ### The request and the verdict -/

/-- A request for signatures that goes out makes a ballot without partial signatures live. -/
theorem liveAt_of_requested (hopen : (st.ballot (makeBallotKey cv h p)).round1Done = false)
    (hnone : (st.ballot (makeBallotKey cv h p)).partials.isEmpty = true)
    (hreq : .returned true ∈ (requestSignatures cv nk st h p now).2) :
    LiveAt cv nk h p (requestSignatures cv nk st h p now).1 := by
  obtain ⟨x, y, t, hb⟩ := getOrCreateBallot_eq cv st h p now
  unfold requestSignatures at hreq ⊢
  generalize getOrCreateBallot cv st h p now = b at hb hreq ⊢
  subst hb
  rw [if_neg (by rw [hopen]; simp)] at hreq ⊢
  split_ifs at hreq ⊢ with hfew
  · simp at hreq
  split at hreq
  · simp at hreq
  rename_i participants rho aggR hround
  obtain ⟨rfl, comms, hcomms, hrho, hagg⟩ := roundOne_eq_some hround
  split at hreq
  · simp at hreq
  rename_i blob hser
  unfold LiveAt
  rw [State.ballot_put_self]
  exact {
    hasAggR := rfl
    round1Done := rfl
    nodup := ExtTreeMap.nodup_keys
    round := ⟨comms, hcomms, hrho, hagg⟩
    partials := fun i sig hi => by
      rw [ExtTreeMap.isEmpty_iff.1 hnone] at hi
      simp at hi }

/-- What finalising an open ballot answers. -/
theorem tryFinalize_events (hopen : (st.ballot (makeBallotKey cv h p)).finalized = false)
    (later : UInt64) :
    (tryFinalize cv nk st h p later).2 =
      match finalSignature cv nk (getOrCreateBallot cv st h p later) h p with
      | none => [.returned false]
      | some sig => [.applied sig, .returned true] := by
  obtain ⟨x, y, t, hb⟩ := getOrCreateBallot_eq cv st h p later
  unfold tryFinalize
  rw [if_neg (by rw [hb]; exact hopen ▸ Bool.false_ne_true)]
  cases finalSignature cv nk (getOrCreateBallot cv st h p later) h p <;> rfl

/-- **When a requested signature is finished.**  On an undisturbed ballot that is not final,
`try_finalize` hands out a signature, and one that verifies, if and only if every participant has
answered. -/
theorem finalized_iff_complete [Fact ℓ.Prime] {sk a1 a2 : ZMod ℓ} (hℓ : frostN < ℓ)
    (hcv : PointsRoundTrip cv) (hkey : HoldsShare cv nk sk a1 a2) {now : UInt64}
    (hopen : (st.ballot (makeBallotKey cv h p)).round1Done = false)
    (hnone : (st.ballot (makeBallotKey cv h p)).partials.isEmpty = true)
    (hreq : .returned true ∈ (requestSignatures cv nk st h p now).2) {calls : List (Call ℓ)}
    (hg : (broadcaster cv nk rng).Guarded (Undisturbed cv nk h p)
      (requestSignatures cv nk st h p now).1 calls) (later : UInt64) :
    let st' := ((broadcaster cv nk rng).run (requestSignatures cv nk st h p now).1 calls).1
    let b := st'.ballot (makeBallotKey cv h p)
    b.finalized = false →
      ((∃ sig, (tryFinalize cv nk st' h p later).2 = [.applied sig, .returned true] ∧
          sig.msgHash = createDistributionMessageHash cv h p b.outputs ∧
          verifySignature cv sig nk.groupPubkey = true) ↔
        b.Complete) := by
  intro st' b hopen'
  have hl : LiveAt cv nk h p st' :=
    (broadcaster cv nk rng).run_state_invariant (I := LiveAt cv nk h p)
      (liveAt_of_requested hopen hnone hreq) (fun _ _ hl hu => liveAt_step hcv hkey hl hu) hg
  obtain ⟨x, y, t, hb⟩ := getOrCreateBallot_eq cv st' h p later
  have hlive := hl.getOrCreate rfl later
  rw [tryFinalize_events hopen']
  constructor
  · rintro ⟨sig, hsig, -⟩ i hi
    by_contra hmiss
    have hno : finalSignature cv nk (getOrCreateBallot cv st' h p later) h p = none := by
      refine finalSignature_eq_none (i := i) ?_ ?_
      · rw [hb]
        exact hi
      · rw [hb]
        exact Option.not_isSome_iff_eq_none.1 hmiss
    rw [hno] at hsig
    simp at hsig
  · intro hall
    have hcomplete : (getOrCreateBallot cv st' h p later).Complete := by
      rw [hb]
      exact hall
    rw [hlive.finalSignature_eq hcomplete]
    refine ⟨_, rfl, ?_, hlive.verifies hcomplete hℓ hcv hkey⟩
    rw [hb]

/-! ### Four committed, three answered -/

/-- The coordinator, signer 1 of the polynomial `2 + x + 3 x²`. -/
def coordinator : NodeKey 7 :=
  let pkg := frostKeygen sevenCurve (2 : ℕ) 1 (3 : ℕ)
  ⟨true, secretShare (2 : ℕ) 1 (3 : ℕ) 1, 1, pkg.groupPublicKey, pkg.signerPublicKeys⟩

/-- The coordinator proposes and hears the commitments of the signers up to `n`. -/
def roundOneCalls (n : ℕ) : List (Call 7) :=
  .proposeDistribution 480 2 [] 1000 ::
    (List.range (n - 1)).map fun i =>
      .onReceiveNonce 480 2 (UInt8.ofNat (i + 2)) (peerCommit (i + 2)) 1001

/-- The coordinator's state after round 1. -/
def committed (n : ℕ) : State 7 :=
  ((broadcaster sevenCurve coordinator someDraws).run {} (roundOneCalls n)).1

/-- The state after the request. -/
def requested (n : ℕ) : State 7 :=
  (requestSignatures sevenCurve coordinator (committed n) 480 2 1002).1

/-- What signer `i` answers to the request. -/
def answer (n i : ℕ) : Call 7 :=
  let b := (requested n).ballot (makeBallotKey sevenCurve 480 2)
  let pos := b.participants.idxOf (UInt8.ofNat i)
  .onReceivePartial 480 2 (UInt8.ofNat i)
    (signPartial sevenCurve (UInt8.ofNat i) (createDistributionMessageHash sevenCurve 480 2 [])
      ⟨i, i + 1⟩ (secretShare (2 : ℕ) 1 (3 : ℕ) i)
      (((computeLagrangeCoeffs b.participants).getD []).getD pos 0) (b.rho.getD pos 0) b.aggR
      coordinator.groupPubkey) 1003

/-- Signers 2, 3 and 4 answer a request that went to 1, 2, 3 and 4. -/
def threeAnswers : State 7 :=
  ((broadcaster sevenCurve coordinator someDraws).run (requested 4)
    [answer 4 2, answer 4 3, answer 4 4]).1

/-- All three answers were accepted, and there is no signature. -/
theorem threeAnswers_refused :
    (threeAnswers.ballot (makeBallotKey sevenCurve 480 2)).partials.keys = [2, 3, 4] ∧
      (threeAnswers.ballot (makeBallotKey sevenCurve 480 2)).participants = [1, 2, 3, 4] ∧
      (tryFinalize sevenCurve coordinator threeAnswers 480 2 1004).2.any Event.isRefusal =
        true := by
  decide +kernel

/-- The three signers of a request to three answer it, the coordinator by handling its own
request. -/
def fullAnswers : List (Call 7) :=
  [.onReceiveSignRequest 480 2 ((requested 3).ballot (makeBallotKey sevenCurve 480 2)).aggR [0]
      [3, 1, 2, 3] 1003,
    answer 3 2, answer 3 3]

/-- The call returned true. -/
def Event.isSuccess : Event ℓ → Bool
  | .returned ok => ok
  | _ => false

theorem returned_true_mem {evs : List (Event ℓ)} (h : evs.any Event.isSuccess = true) :
    .returned true ∈ evs := by
  obtain ⟨e, he, hs⟩ := List.any_eq_true.1 h
  cases e <;> simp_all [Event.isSuccess]

attribute [local instance] fact_prime_seven

/-- Their ballot is complete, and finishes with a signature that verifies. -/
theorem fullAnswers_finish :
    let st' := ((broadcaster sevenCurve coordinator someDraws).run (requested 3) fullAnswers).1
    let b := st'.ballot (makeBallotKey sevenCurve 480 2)
    b.partials.keys = [1, 2, 3] ∧ b.participants = [1, 2, 3] ∧
      ((∃ sig, (tryFinalize sevenCurve coordinator st' 480 2 1004).2 =
            [.applied sig, .returned true] ∧
          sig.msgHash = createDistributionMessageHash sevenCurve 480 2 b.outputs ∧
          verifySignature sevenCurve sig coordinator.groupPubkey = true) ↔
        b.Complete) :=
  ⟨by decide +kernel, by decide +kernel,
    finalized_iff_complete (by decide) sevenCurve_pointsRoundTrip
      (⟨rfl, rfl, by decide⟩ : HoldsShare sevenCurve coordinator 2 1 3) (by decide +kernel)
      (by decide +kernel) (returned_true_mem (by decide +kernel)) (by decide +kernel) 1004
      (by decide +kernel)⟩

end Mevacoin.Frost
