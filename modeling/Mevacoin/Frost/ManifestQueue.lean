import Mevacoin.Frost.Finalization
import Mevacoin.Trust.MinerTx

/-!
# The manifest a finished round queues

`pool_distribution.cpp` and the callback of `try_finalize`, which writes a manifest (tag `0xAA`)
from three members of the manager that `get_coinbase_rewards` changes, too.
-/

namespace Mevacoin.Frost

open Lib Std

open Trust (ExpectedPayout PoolDistribution packBlob poolDistributionTag manifestFor
  distributionPeriodBlocks parsePoolDistribution parseTagged)

/-! ### Splitting the pool -/

/-- The loop of `build_distribution_outputs`: proportional shares, what is left for the last reward.
A total of zero, which only a wrapped sum gives, is a division by zero in the source. -/
def splitPool (totalPoolBalance totalScore : UInt64) :
    List ExpectedPayout → List (AccountAddress × UInt64) → UInt64 → List (AccountAddress × UInt64)
  | [], outputs, _ => outputs
  | r :: rest, outputs, allocated =>
    let share :=
      if rest = [] then
        if allocated < totalPoolBalance then totalPoolBalance - allocated else 0
      else totalPoolBalance * r.amount / totalScore
    if 0 < share ∨ outputs = [] then
      splitPool totalPoolBalance totalScore rest (outputs ++ [(r.address, share)])
        (allocated + share)
    else splitPool totalPoolBalance totalScore rest outputs allocated

/-- `build_distribution_outputs`. -/
def buildDistributionOutputs (rewards : List ExpectedPayout) (totalPoolBalance : UInt64) :
    List (AccountAddress × UInt64) :=
  if rewards = [] ∨ totalPoolBalance = 0 then []
  else
    let q := rewards.filter (·.amount ≠ 0)
    splitPool totalPoolBalance (q.map (·.amount)).sum q [] 0

/-- The spend keys and amounts that a manifest stores and a round signs. -/
def spendOutputs (outputs : List (AccountAddress × UInt64)) : List (PublicKey × UInt64) :=
  outputs.map fun o => (o.1.spendPublicKey, o.2)

/-- The manifest `construct_pool_distribution_extra` writes. -/
def signedManifest (height : UInt64) (period : UInt32) (totalPoolBalance : UInt64)
    (rewards : List ExpectedPayout) (sig : FrostSignature) : PoolDistribution where
  height := height
  period := period
  totalPoolBalance := totalPoolBalance
  totalDistributed := ((buildDistributionOutputs rewards totalPoolBalance).map (·.2)).sum
  outputs := spendOutputs (buildDistributionOutputs rewards totalPoolBalance)
  frostR := sig.R
  frostZ := sig.z

/-- `construct_pool_distribution_extra`. -/
def constructPoolDistributionExtra (height : UInt64) (period : UInt32) (totalPoolBalance : UInt64)
    (rewards : List ExpectedPayout) (sig : FrostSignature) : Option Bytes :=
  let outputs := buildDistributionOutputs rewards totalPoolBalance
  if outputs = [] then none
  else if totalPoolBalance < (outputs.map (·.2)).sum then none
  else packBlob poolDistributionTag (PoolDistribution.codec.write
    (signedManifest height period totalPoolBalance rewards sig))

/-- A packed manifest reads back. -/
theorem parsePoolDistribution_of_packed {d : PoolDistribution} {extra : Bytes}
    (h : packBlob poolDistributionTag (PoolDistribution.codec.write d) = some extra) :
    parsePoolDistribution { extra := extra } = some d := by
  unfold packBlob at h
  split_ifs at h with hbig
  have hsize : (PoolDistribution.codec.write d).length ≤ 0xFFFF := Nat.not_lt.1 hbig
  have hlen : d.outputs.length < 2 ^ 64 := by
    have := d.outputs_length_le_write
    omega
  refine Trust.parseTagged_packed PoolDistribution.codec_roundTrips hlen (by decide) hsize [] ?_
  rw [List.append_nil, Option.some.inj h]

/-! ### The manager's members -/

/-- `m_resolved_rewards`, `m_resolved_at_height` and `m_resolved_pool_balance`. -/
structure Resolved where
  rewards : List ExpectedPayout := []
  height : UInt64 := 0
  poolBalance : UInt64 := 0
deriving DecidableEq

/-- The period of the resolved height. -/
def Resolved.period (r : Resolved) : UInt32 := (r.height / distributionPeriodBlocks).toUInt32

/-- The outputs that a manifest written from these members carries. -/
def Resolved.outputs (r : Resolved) : List (PublicKey × UInt64) :=
  spendOutputs (buildDistributionOutputs r.rewards r.poolBalance)

/-- The part of the manager that queues manifests, with its broadcaster. -/
structure Queue (ℓ : ℕ) where
  /-- The state of `m_frost_broadcaster`. -/
  rounds : State ℓ := {}
  resolved : Resolved := {}
  /-- `m_pending_pool_distribution_extra`, if there is one. -/
  pending : Option Bytes := none

/-- The calls that reach these members. -/
inductive QueueOp (ℓ : ℕ) where
  /-- `trigger_distribution` at a boundary: the pool balance, the rewards it could resolve
  (none when no distribution is due), and the signature of the local key shares. -/
  | triggerDistribution (height poolBalance : UInt64) (resolved : List ExpectedPayout)
      (localSig : FrostSignature) (now : UInt64)
  /-- `get_coinbase_rewards` for a block template, with the outcome of
  `compute_expected_payouts`. -/
  | getCoinbaseRewards (height totalReward poolBalance : UInt64)
      (expected : Except String (List ExpectedPayout))
  /-- A call of the protocol handler into the broadcaster. -/
  | frost (c : Call ℓ)

/-- The signature that a call handed to the callback. -/
def Event.signature? {ℓ : ℕ} : Event ℓ → Option FrostSignature
  | .applied sig => some sig
  | _ => none

section Steps

variable {ℓ : ℕ} {G : Type} [AddCommGroup G] [Module (ZMod ℓ) G]

/-- The callback that `init` installs: the manifest for a signature. -/
def Resolved.manifest (r : Resolved) (sig : FrostSignature) : Option Bytes :=
  constructPoolDistributionExtra r.height r.period r.poolBalance r.rewards sig

/-- `get_coinbase_rewards`, what it does to the members. -/
def Queue.getCoinbaseRewards (s : Queue ℓ) (height totalReward poolBalance : UInt64)
    (expected : Except String (List ExpectedPayout)) : Queue ℓ :=
  match expected with
  | .error _ => s
  | .ok [] => { s with resolved := { s.resolved with rewards := [], height := 0 }, pending := none }
  | .ok L =>
    if totalReward ≤ (L.map (·.amount)).sum then s
    else
      match packBlob poolDistributionTag
          (PoolDistribution.codec.write (manifestFor height poolBalance L)) with
      | none => s
      | some extra => { s with resolved := ⟨L, height, poolBalance⟩, pending := some extra }

variable (cv : Curve ℓ G) (nk : NodeKey ℓ) (rng : ℕ → NoncePair ℓ)
  -- `m_has_proposer_keys`
  (hasProposerKeys : Bool)

/-- `trigger_distribution`, what it does to the members and the broadcaster. -/
def Queue.triggerDistribution (s : Queue ℓ) (height poolBalance : UInt64)
    (resolved : List ExpectedPayout) (localSig : FrostSignature) (now : UInt64) : Queue ℓ :=
  if poolBalance = 0 ∨ resolved = [] then
    { s with resolved := { s.resolved with poolBalance } }
  else
    let r : Resolved := ⟨resolved, height, poolBalance⟩
    let sig := if hasProposerKeys then localSig else ⟨Pod32.null, Pod32.null, Pod32.null⟩
    let pending := (r.manifest sig).orElse fun _ => s.pending
    let rounds :=
      if hasProposerKeys then
        (proposeDistribution cv nk rng s.rounds height r.period r.outputs now).1
      else s.rounds
    { rounds, resolved := r, pending }

/-- A call into the broadcaster, and the callback if there is a signature. -/
def Queue.frost (s : Queue ℓ) (c : Call ℓ) : Queue ℓ × List Bytes :=
  let out := (broadcaster cv nk rng).step s.rounds c
  let s := { s with rounds := out.1 }
  match (out.2.findSome? Event.signature?).bind s.resolved.manifest with
  | some extra => ({ s with pending := some extra }, [extra])
  | none => (s, [])

/-- The manager's queue as a machine; its events are the manifests the callback queued. -/
def manifestQueue : Machine (Queue ℓ) (QueueOp ℓ) Bytes where
  step s
    | .triggerDistribution height poolBalance resolved localSig now =>
      (s.triggerDistribution cv nk rng hasProposerKeys height poolBalance resolved localSig now,
        [])
    | .getCoinbaseRewards height totalReward poolBalance expected =>
      (s.getCoinbaseRewards height totalReward poolBalance expected, [])
    | .frost c => s.frost cv nk rng c

/-- The extra carries a manifest whose signature verifies for the manifest's own height,
period and outputs. -/
def CarriesSignature (aggPubkey : PublicKey) (extra : Bytes) : Prop :=
  match parsePoolDistribution { extra := extra } with
  | some d => verifySignature cv ⟨d.frostR, d.frostZ,
      createDistributionMessageHash cv d.height d.period d.outputs⟩ aggPubkey = true
  | none => False

instance (aggPubkey : PublicKey) (extra : Bytes) :
    Decidable (CarriesSignature cv aggPubkey extra) := by
  unfold CarriesSignature
  split <;> infer_instance

/-! ### Keeping a round and the members together -/

/-- The members are those of a round on this message. -/
def Resolved.Fits (r : Resolved) (h : UInt64) (p : UInt32) (outputs : List (PublicKey × UInt64)) :
    Prop :=
  h = r.height ∧ p = r.period ∧ outputs = r.outputs
deriving Decidable

/-- No ballot is between R and its signature. -/
def State.Settled (st : State ℓ) : Prop :=
  ∀ e ∈ st.ballotBox.toList, e.2.hasAggR = true → e.2.finalized = true
deriving Decidable

/-- The ballot under the key of `(h, p)` is its own, or fresh: no collision of `make_ballot_key`. -/
def Addressed (st : State ℓ) (h : UInt64) (p : UInt32) : Prop :=
  let b := st.ballot (makeBallotKey cv h p)
  b.height = h ∧ b.period = p ∨ b.height = 0 ∧ b.hasAggR = false
deriving Decidable

/-- What a sign request asks for is the message of the members, and no signer is named
twice. -/
def Resolved.FitsRequest (r : Resolved) (h : UInt64) (p : UInt32) (outs idxs : Bytes) : Prop :=
  match deserializeOutputs outs, deserializeIndices idxs with
  | some outputs, some participants => participants.Nodup ∧ r.Fits h p outputs
  | _, _ => True

instance (r : Resolved) (h : UInt64) (p : UInt32) (outs idxs : Bytes) :
    Decidable (r.FitsRequest h p outs idxs) := by
  unfold Resolved.FitsRequest
  exact match deserializeOutputs outs, deserializeIndices idxs with
    | some _, some _ => inferInstanceAs (Decidable (_ ∧ _))
    | none, _ | some _, none => .isTrue trivial

/-- A call that gives a ballot R, or new outputs under its R, does so for the message of the
members, and a partial signature has its share in range. -/
def RoundFits (r : Resolved) (st : State ℓ) : Call ℓ → Prop
  | .proposeDistribution h p outputs _ =>
    let b := st.ballot (makeBallotKey cv h p)
    Addressed cv st h p ∧
      (b.hasAggR = true → b.finalized = false → b.round1Done = false → outputs = r.outputs)
  | .onReceiveNonce h p _ _ _ => Addressed cv st h p
  | .requestSignatures h p _ =>
    let b := st.ballot (makeBallotKey cv h p)
    Addressed cv st h p ∧ (b.round1Done = true ∨ r.Fits h p b.outputs)
  | .onReceiveSignRequest h p _ outs idxs _ =>
    Addressed cv st h p ∧
      (TurnedAway cv nk st h p outs idxs ∨ r.FitsRequest h p outs idxs)
  | .onReceivePartial h p _ sig _ => Addressed cv st h p ∧ InRange sig.sigShare
  | .tryFinalize h p _ => Addressed cv st h p
  | .pruneExpiredBallots _ => True

instance (r : Resolved) (st : State ℓ) : ∀ c : Call ℓ, Decidable (RoundFits cv nk r st c)
  | .proposeDistribution .. | .onReceiveNonce .. | .requestSignatures .. | .onReceiveSignRequest ..
  | .onReceivePartial .. | .tryFinalize .. | .pruneExpiredBallots .. => by
    unfold RoundFits
    infer_instance

/-- The members change only when no ballot is between R and its signature, and rounds are opened on
their message. -/
def MembersKept (s : Queue ℓ) : QueueOp ℓ → Prop
  | .triggerDistribution height poolBalance resolved localSig now =>
    Addressed cv s.rounds height (height / distributionPeriodBlocks).toUInt32 ∧
      (s.rounds.Settled ∨
        (s.triggerDistribution cv nk rng hasProposerKeys height poolBalance resolved localSig
          now).resolved = s.resolved)
  | .getCoinbaseRewards height totalReward poolBalance expected =>
    s.rounds.Settled ∨
      (s.getCoinbaseRewards height totalReward poolBalance expected).resolved = s.resolved
  | .frost c => RoundFits cv nk s.resolved s.rounds c

instance (s : Queue ℓ) (op : QueueOp ℓ) :
    Decidable (MembersKept cv nk rng hasProposerKeys s op) := by
  cases op <;> (unfold MembersKept; infer_instance)

end Steps

/-! ### Open rounds fit the members -/

section Invariant

variable {ℓ : ℕ} {G : Type} [AddCommGroup G] [Module (ZMod ℓ) G] {cv : Curve ℓ G}
  {nk : NodeKey ℓ} {rng : ℕ → NoncePair ℓ} {hasProposerKeys : Bool} {st : State ℓ} {b b' : Ballot ℓ}
  {r : Resolved} {h : UInt64} {p : UInt32}

/-- A ballot between R and its signature is on the message of the members, names no participant
twice, and holds shares in range. -/
structure Ballot.FitsMembers (r : Resolved) (b : Ballot ℓ) : Prop where
  message : b.hasAggR = true → b.finalized = false →
    r.Fits b.height b.period b.outputs ∧ b.participants.Nodup
  shares : ∀ (i : UInt8) sig, b.partials[i]? = some sig → InRange sig.sigShare

/-- A ballot of which nothing is known fits any members. -/
theorem Ballot.FitsMembers.empty : ({} : Ballot ℓ).FitsMembers r where
  message := nofun
  shares i sig hi := by simp at hi

/-- Every ballot fits the members. -/
def RoundsFit (r : Resolved) (st : State ℓ) : Prop := ∀ key, (st.ballot key).FitsMembers r

theorem RoundsFit.put (hst : RoundsFit r st) {key : Hash} (hb : b.FitsMembers r) :
    RoundsFit r (st.put key b) := by
  intro key'
  by_cases hk : key = key'
  · subst hk
    rwa [State.ballot_put_self]
  · rw [State.ballot_put_of_ne st b hk]
    exact hst key'

/-- A ballot with the same message, participants, stage and shares. -/
theorem Ballot.FitsMembers.congr (hb : b.FitsMembers r) (hA : b'.hasAggR = b.hasAggR)
    (hf : b'.finalized = b.finalized) (hh : b'.height = b.height) (hp : b'.period = b.period)
    (ho : b'.outputs = b.outputs) (hs : b'.participants = b.participants)
    (hps : b'.partials = b.partials) : b'.FitsMembers r := by
  refine ⟨?_, hps ▸ hb.shares⟩
  rw [hA, hf, hh, hp, ho, hs]
  exact hb.message

/-- Fetching the ballot of `(h, p)` gives one with that header. -/
theorem Addressed.fetch (ha : Addressed cv st h p) (now : UInt64) :
    ∃ t, getOrCreateBallot cv st h p now =
      { st.ballot (makeBallotKey cv h p) with height := h, period := p, firstSeenTs := t } := by
  unfold Addressed State.ballot at *
  unfold getOrCreateBallot
  dsimp only at *
  split_ifs with h0
  · exact ⟨now, rfl⟩
  · obtain ⟨hh, hp⟩ := ha.resolve_right fun hfresh => h0 hfresh.1
    generalize st.ballotBox.getD (makeBallotKey cv h p) {} = b at hh hp
    subst hh hp
    exact ⟨_, rfl⟩

theorem RoundsFit.fetch (hst : RoundsFit r st) (ha : Addressed cv st h p) (now : UInt64) :
    (getOrCreateBallot cv st h p now).FitsMembers r := by
  obtain ⟨t, hb⟩ := ha.fetch now
  rw [hb]
  refine ⟨fun hR hf => ?_, (hst (makeBallotKey cv h p)).shares⟩
  obtain ⟨hfits, hnd⟩ := (hst (makeBallotKey cv h p)).message hR hf
  obtain ⟨hh, hp⟩ := ha.resolve_right fun hfresh => by
    rw [hfresh.2] at hR
    cases hR
  rw [hh, hp] at hfits
  exact ⟨hfits, hnd⟩

variable {c : Call ℓ} {now : UInt64} {s : Queue ℓ} {op : QueueOp ℓ} {sig : FrostSignature}
  {sk a1 a2 : ZMod ℓ} {extra : Bytes}

/-- Every call that is about a ballot addresses it. -/
theorem RoundFits.addressed (hk : RoundFits cv nk r st c) (hc : c.address = some (h, p, now)) :
    Addressed cv st h p := by
  cases c with
  | proposeDistribution => cases hc; exact hk.1
  | onReceiveNonce => cases hc; exact hk
  | requestSignatures | onReceiveSignRequest | onReceivePartial => cases hc; exact hk.1
  | tryFinalize => cases hc; exact hk
  | pruneExpiredBallots => cases hc

/-- What `on_receive_sign_request` stores: nothing if the node has signed, otherwise the outputs and
participants of the message, and its own signature at most. -/
theorem signBallot_stores [NeZero ℓ] (cv : Curve ℓ G) (nk : NodeKey ℓ) (b : Ballot ℓ) (key : Hash)
    (h : UInt64) (p : UInt32) (aggR : PublicKey) (outputs : List (PublicKey × UInt64))
    (outs : Bytes) (participants : List UInt8) :
    let b' := (signBallot cv nk b key h p aggR outputs outs participants).1
    b' = b ∨ b'.height = b.height ∧ b'.period = b.period ∧ b'.outputs = outputs ∧
      b'.participants = participants ∧
      ∀ (i : UInt8) sig, b'.partials[i]? = some sig →
        b.partials[i]? = some sig ∨ InRange sig.sigShare := by
  unfold signBallot
  dsimp only
  split_ifs
  · exact .inl rfl
  · right
    split
    · exact ⟨rfl, rfl, rfl, rfl, fun _ _ => .inl⟩
    split
    · exact ⟨rfl, rfl, rfl, rfl, fun _ _ => .inl⟩
    split_ifs
    · exact ⟨rfl, rfl, rfl, rfl, fun _ _ => .inl⟩
    · split
      · refine ⟨rfl, rfl, rfl, rfl, fun i sig hi => ?_⟩
        dsimp only at hi
        rw [ExtTreeMap.getElem?_insert] at hi
        split_ifs at hi
        · exact .inr (Option.some.inj hi ▸ inRange_scalarPod cv _)
        · exact .inl hi
      · exact ⟨rfl, rfl, rfl, rfl, fun _ _ => .inl⟩

theorem roundsFit_onReceiveSignRequest [NeZero ℓ] (hst : RoundsFit r st) {aggR : PublicKey}
    {outs idxs : Bytes} (hk : RoundFits cv nk r st (.onReceiveSignRequest h p aggR outs idxs now)) :
    RoundsFit r (onReceiveSignRequest cv nk st h p aggR outs idxs now).1 := by
  obtain ⟨ha, hreq⟩ := hk
  by_cases ht : TurnedAway cv nk st h p outs idxs
  · rwa [onReceiveSignRequest_turnedAway ht]
  have hfits := hreq.resolve_left ht
  obtain ⟨outputs, participants, hkey, ho, hi, hlen⟩ := of_not_turnedAway ht
  simp only [Resolved.FitsRequest, ho, hi] at hfits
  have hstored : (signBallot cv nk (getOrCreateBallot cv st h p now) (makeBallotKey cv h p) h p
      aggR outputs outs participants).1.FitsMembers r := by
    obtain ⟨t, hb⟩ := ha.fetch now
    rcases signBallot_stores cv nk (getOrCreateBallot cv st h p now) (makeBallotKey cv h p) h p
      aggR outputs outs participants with hsame | ⟨hh, hp, ho', hs, hps⟩
    · rw [hsame]
      exact hst.fetch ha now
    · refine ⟨fun _ _ => ?_, fun i sig hi => ?_⟩
      · rw [hh, hp, ho', hs, hb]
        exact ⟨hfits.2, hfits.1⟩
      · exact (hps i sig hi).elim ((hst.fetch ha now).shares i sig) id
  simp only [onReceiveSignRequest, hkey, ho, hi, if_neg (Nat.not_lt.2 hlen)]
  generalize signBallot cv nk (getOrCreateBallot cv st h p now) (makeBallotKey cv h p) h p aggR
    outputs outs participants = out at hstored
  obtain ⟨b', _ | s⟩ := out
  · exact hst.put hstored
  · exact hst.put hstored

/-- One call that fits the members keeps the rounds fitting. -/
theorem roundsFit_step [NeZero ℓ] (hst : RoundsFit r st) (hk : RoundFits cv nk r st c) :
    RoundsFit r ((broadcaster cv nk rng).step st c).1 := by
  have heffect : CallEffect cv nk rng st c ((broadcaster cv nk rng).step st c) := call_effect c
  generalize hout : (broadcaster cv nk rng).step st c = out at heffect ⊢
  cases heffect with
  | refused => exact hst
  | @fetched _ h p now hc => exact hst.put (hst.fetch (hk.addressed hc) now)
  | tooMany => exact hst
  | @tooLate h p outputs now => exact RoundsFit.put hst (hst.fetch (hk.addressed rfl) now)
  | @proposed h p outputs now blob hkey hser hopen msg =>
    obtain ⟨ha, hout'⟩ := hk
    have hfits := hst.fetch ha now
    obtain ⟨t, hb⟩ := ha.fetch now
    rw [hb] at hopen hfits ⊢
    refine RoundsFit.put hst ⟨fun hR hf => ?_, hfits.shares⟩
    obtain ⟨⟨hh, hp, -⟩, hnd⟩ := hfits.message hR hf
    exact ⟨⟨hh, hp, hout' hR hf hopen⟩, hnd⟩
  | @stored h p idx com now =>
    exact hst.put ((hst.fetch (hk.addressed rfl) now).congr rfl rfl rfl rfl rfl rfl rfl)
  | @answered h p idx com now =>
    exact RoundsFit.put hst ((hst.fetch (hk.addressed rfl) now).congr rfl rfl rfl rfl rfl rfl rfl)
  | @requested h p now participants rho aggR hopen hround msg =>
    obtain ⟨ha, hfits⟩ := hk
    obtain ⟨rfl, -⟩ := roundOne_eq_some hround
    have hshares := (hst.fetch ha now).shares
    obtain ⟨t, hb⟩ := ha.fetch now
    rw [hb] at hopen hshares ⊢
    have hfits := hfits.resolve_left fun hdone => Bool.false_ne_true (hopen.symm.trans hdone)
    exact hst.put ⟨fun _ _ => ⟨hfits, ExtTreeMap.nodup_keys⟩, hshares⟩
  | handled => exact hout ▸ roundsFit_onReceiveSignRequest hst hk
  | @accepted h p i sig now =>
    have hfits := hst.fetch hk.1 now
    refine hst.put ⟨hfits.message, fun j sig' hj => ?_⟩
    dsimp only at hj
    rw [ExtTreeMap.getElem?_insert] at hj
    split_ifs at hj
    · exact Option.some.inj hj ▸ hk.2
    · exact hfits.shares j sig' hj
  | @finished h p now =>
    exact hst.put ⟨fun _ => nofun, (hst.fetch (hk.addressed rfl) now).shares⟩
  | pruned now =>
    intro key
    rcases pruneExpiredBallots_ballot st now key with hb | hb
    · rw [hb]
      exact hst key
    · rw [hb]
      exact .empty

/-- Without a ballot between R and its signature the members may be anything. -/
theorem State.Settled.roundsFit (hst : st.Settled) (hfit : RoundsFit r st) (r' : Resolved) :
    RoundsFit r' st := by
  refine fun key => ⟨fun hR hf => ?_, (hfit key).shares⟩
  unfold State.ballot at hR hf
  rw [ExtTreeMap.getD_eq_getD_getElem?] at hR hf
  cases hb : st.ballotBox[key]? with
  | none =>
    rw [hb] at hR
    cases hR
  | some b =>
    rw [hb] at hR hf
    have hfin := hst (key, b) (ExtTreeMap.mem_toList_iff_getElem?_eq_some.2 hb) hR
    rw [Option.getD_some, hfin] at hf
    cases hf

theorem roundsFit_triggerDistribution [NeZero ℓ] (hs : RoundsFit s.resolved s.rounds)
    {height poolBalance : UInt64} {resolved : List ExpectedPayout} {localSig : FrostSignature}
    (hk : MembersKept cv nk rng hasProposerKeys s
      (.triggerDistribution height poolBalance resolved localSig now)) :
    let s' := s.triggerDistribution cv nk rng hasProposerKeys height poolBalance resolved localSig
      now
    RoundsFit s'.resolved s'.rounds := by
  obtain ⟨ha, hkept⟩ := hk
  intro s'
  have hs' : RoundsFit s'.resolved s.rounds := by
    rcases hkept with hsettled | hsame
    · exact hsettled.roundsFit hs _
    · exact hsame ▸ hs
  unfold s' Queue.triggerDistribution at hs' ⊢
  by_cases hnone : poolBalance = 0 ∨ resolved = []
  · rw [if_pos hnone] at hs' ⊢
    exact hs'
  · rw [if_neg hnone] at hs' ⊢
    split_ifs
    · exact roundsFit_step (c := .proposeDistribution ..) hs' ⟨ha, fun _ _ _ => rfl⟩
    · exact hs'

theorem Queue.getCoinbaseRewards_rounds (s : Queue ℓ) (height totalReward poolBalance : UInt64)
    (expected : Except String (List ExpectedPayout)) :
    (s.getCoinbaseRewards height totalReward poolBalance expected).rounds = s.rounds := by
  unfold Queue.getCoinbaseRewards
  split
  · rfl
  · rfl
  · split_ifs
    · rfl
    · split <;> rfl

theorem Queue.frost_state (cv : Curve ℓ G) (nk : NodeKey ℓ) (rng : ℕ → NoncePair ℓ) (s : Queue ℓ)
    (c : Call ℓ) :
    (s.frost cv nk rng c).1.resolved = s.resolved ∧
      (s.frost cv nk rng c).1.rounds = ((broadcaster cv nk rng).step s.rounds c).1 := by
  unfold Queue.frost
  dsimp only
  split <;> exact ⟨rfl, rfl⟩

theorem roundsFit_queueStep [NeZero ℓ] (hs : RoundsFit s.resolved s.rounds)
    (hk : MembersKept cv nk rng hasProposerKeys s op) :
    let s' := ((manifestQueue cv nk rng hasProposerKeys).step s op).1
    RoundsFit s'.resolved s'.rounds := by
  cases op with
  | triggerDistribution height poolBalance resolved localSig now =>
    exact roundsFit_triggerDistribution hs hk
  | getCoinbaseRewards height totalReward poolBalance expected =>
    have hrounds := s.getCoinbaseRewards_rounds height totalReward poolBalance expected
    dsimp only [manifestQueue]
    rw [hrounds]
    rcases hk with hsettled | hsame
    · exact hsettled.roundsFit hs _
    · exact hsame ▸ hs
  | frost c =>
    obtain ⟨hres, hrounds⟩ := s.frost_state cv nk rng c
    dsimp only [manifestQueue]
    rw [hres, hrounds]
    exact roundsFit_step hs hk

/-! ### The callback -/

/-- A signature comes out of `try_finalize` only. -/
theorem signature_of_step
    (hsig : ((broadcaster cv nk rng).step st c).2.findSome? Event.signature? = some sig) :
    ∃ h p now, c = .tryFinalize h p now ∧
      (getOrCreateBallot cv st h p now).finalized = false ∧
      finalSignature cv nk (getOrCreateBallot cv st h p now) h p = some sig := by
  have heffect : CallEffect cv nk rng st c ((broadcaster cv nk rng).step st c) := call_effect c
  generalize (broadcaster cv nk rng).step st c = out at heffect hsig
  cases heffect with
  | finished hopen hfinal =>
    cases hsig
    exact ⟨_, _, _, rfl, hopen, hfinal⟩
  | requested _ _ msg => cases msg <;> cases hsig
  | @handled _ _ _ _ _ _ _ _ _ signing => cases signing <;> cases hsig
  | _ => cases hsig

/-- What `try_finalize` hands out is signed under the ballot's message, and verifies when no
participant is named twice. -/
theorem finalSignature_verifies [Fact ℓ.Prime] (hℓ : frostN < ℓ) (hcv : PointsRoundTrip cv)
    (hgroup : nk.groupPubkey = (frostKeygen cv sk a1 a2).groupPublicKey)
    (hproposers : nk.proposerPubkeys = (frostKeygen cv sk a1 a2).signerPublicKeys)
    (hsig : finalSignature cv nk b h p = some sig) (hnd : b.participants.Nodup)
    (hshares : ∀ (i : UInt8) sig, b.partials[i]? = some sig → InRange sig.sigShare) :
    sig.msgHash = createDistributionMessageHash cv h p b.outputs ∧
      verifySignature cv sig nk.groupPubkey = true := by
  unfold finalSignature at hsig
  dsimp only at hsig
  split_ifs at hsig
  rw [hgroup, hproposers] at hsig
  obtain ⟨hlen, -, -, lambdas, R, hlam, -, -, rfl⟩ := aggregateSignatures_eq_some.1 hsig
  rw [hgroup]
  have hrange : ∀ q ∈ b.participants.filterMap (b.partials[·]?), InRange q.sigShare := by
    intro q hq
    obtain ⟨i, -, hi⟩ := List.mem_filterMap.1 hq
    exact hshares i q hi
  exact ⟨rfl, verifySignature_of_interpolates hℓ hcv hsig hrange (interpolates_of_nodup hℓ hnd
    (fun i hi => ((inRange_of_coeffs hlam).2 i hi).2) hlen sk a1 a2)⟩

theorem hasAggR_of_finalSignature (hsig : finalSignature cv nk b h p = some sig) :
    b.hasAggR = true := by
  unfold finalSignature at hsig
  dsimp only at hsig
  split_ifs at hsig with hno
  by_contra hR
  exact hno (.inr (.inl (by simpa using hR)))

/-- A manifest written for a signature on the members' message carries it. -/
theorem Resolved.carriesSignature {Y : PublicKey} (hm : r.manifest sig = some extra)
    (hmsg : sig.msgHash = createDistributionMessageHash cv r.height r.period r.outputs)
    (hv : verifySignature cv sig Y = true) : CarriesSignature cv Y extra := by
  unfold Resolved.manifest constructPoolDistributionExtra at hm
  dsimp only at hm
  split_ifs at hm
  unfold CarriesSignature
  rw [parsePoolDistribution_of_packed hm]
  have hsig : (⟨sig.R, sig.z,
      createDistributionMessageHash cv r.height r.period r.outputs⟩ : FrostSignature) = sig := by
    rw [← hmsg]
  exact (congrArg (fun x => verifySignature cv x Y) hsig).trans hv

/-- One call: what it queues carries its signature. -/
theorem carriesSignature_step [Fact ℓ.Prime] (hℓ : frostN < ℓ) (hcv : PointsRoundTrip cv)
    (hgroup : nk.groupPubkey = (frostKeygen cv sk a1 a2).groupPublicKey)
    (hproposers : nk.proposerPubkeys = (frostKeygen cv sk a1 a2).signerPublicKeys)
    (hs : RoundsFit s.resolved s.rounds) (hk : MembersKept cv nk rng hasProposerKeys s op)
    (hq : extra ∈ ((manifestQueue cv nk rng hasProposerKeys).step s op).2) :
    CarriesSignature cv nk.groupPubkey extra := by
  cases op with
  | triggerDistribution | getCoinbaseRewards => cases hq
  | frost c =>
    simp only [manifestQueue, Queue.frost] at hq
    split at hq
    swap
    · cases hq
    rename_i queued hqueued
    obtain rfl := List.mem_singleton.1 hq
    obtain ⟨sig, hsig, hm⟩ := Option.bind_eq_some_iff.1 hqueued
    obtain ⟨h, p, now, rfl, hopen, hfinal⟩ := signature_of_step hsig
    obtain ⟨t, hb⟩ := Addressed.fetch hk now
    have hround := hs.fetch hk now
    obtain ⟨hfits, hnd⟩ := hround.message (hasAggR_of_finalSignature hfinal) hopen
    obtain ⟨hmsg, hv⟩ :=
      finalSignature_verifies hℓ hcv hgroup hproposers hfinal hnd hround.shares
    refine Resolved.carriesSignature hm ?_ hv
    obtain ⟨hh, hp, ho⟩ := hfits
    rw [hmsg, ← hh, ← hp, ← ho, hb]

/-- **A queued manifest is the signed one**, in every run that keeps the members (`MembersKept`). -/
theorem queued_manifest_signed [Fact ℓ.Prime] {sk a1 a2 : ZMod ℓ} (hℓ : frostN < ℓ)
    (hcv : PointsRoundTrip cv) (hgroup : nk.groupPubkey = (frostKeygen cv sk a1 a2).groupPublicKey)
    (hproposers : nk.proposerPubkeys = (frostKeygen cv sk a1 a2).signerPublicKeys)
    {ops : List (QueueOp ℓ)} (hg : (manifestQueue cv nk rng hasProposerKeys).Guarded
      (MembersKept cv nk rng hasProposerKeys) {} ops) {extra : Bytes}
    (hq : extra ∈ ((manifestQueue cv nk rng hasProposerKeys).run {} ops).2) :
    CarriesSignature cv nk.groupPubkey extra := by
  have hinv := (manifestQueue cv nk rng hasProposerKeys).run_invariant
    (I := fun s evs => RoundsFit s.resolved s.rounds ∧
      ∀ e ∈ evs, CarriesSignature cv nk.groupPubkey e)
    (s := {}) ⟨fun _ => .empty, nofun⟩ ?_ hg
  · exact hinv.2 extra hq
  · rintro s evs op ⟨hs, hevs⟩ hk
    refine ⟨roundsFit_queueStep hs hk, fun e he => ?_⟩
    rcases List.mem_append.1 he with he | he
    · exact hevs e he
    · exact carriesSignature_step hℓ hcv hgroup hproposers hs hk he

/-! ### A template between the request and the last answer -/

/-- What signer `i` answers to the request of a ballot. -/
def answerTo (b : Ballot 7) (i : ℕ) : Call 7 :=
  let pos := b.participants.idxOf (UInt8.ofNat i)
  .onReceivePartial b.height b.period (UInt8.ofNat i)
    (signPartial sevenCurve (UInt8.ofNat i)
      (createDistributionMessageHash sevenCurve b.height b.period b.outputs) ⟨i, i + 1⟩
      (secretShare (2 : ℕ) 1 (3 : ℕ) i)
      (((computeLagrangeCoeffs b.participants).getD []).getD pos 0) (b.rho.getD pos 0) b.aggR
      coordinator.groupPubkey) 1003

/-- A reward for the owner of a key. -/
def rewardTo (key : UInt8) (amount : UInt64) : ExpectedPayout :=
  ⟨⟨Pod32.single key, Pod32.single key⟩, amount⟩

/-- The coordinator's queue, on the small curve. -/
def coordinatorQueue : Machine (Queue 7) (QueueOp 7) Bytes :=
  manifestQueue sevenCurve coordinator someDraws true

/-- The boundary at 480 opens a round, two signers commit, and signatures are requested. -/
def roundAt480 : List (QueueOp 7) :=
  [.triggerDistribution 480 1000 [rewardTo 5 7] ⟨Pod32.null, Pod32.null, Pod32.null⟩ 1000,
    .frost (.onReceiveNonce 480 2 2 (peerCommit 2) 1001),
    .frost (.onReceiveNonce 480 2 3 (peerCommit 3) 1001),
    .frost (.requestSignatures 480 2 1002)]

/-- The ballot after that. -/
def ballotAt480 : Ballot 7 :=
  (coordinatorQueue.run {} roundAt480).1.rounds.ballot (makeBallotKey sevenCurve 480 2)

/-- The three signers answer, the coordinator by handling its own request, and the round is
finished. -/
def answersAt480 : List (QueueOp 7) :=
  [.frost (.onReceiveSignRequest 480 2 ballotAt480.aggR ballotAt480.outputsBlob [3, 1, 2, 3] 1003),
    .frost (answerTo ballotAt480 2), .frost (answerTo ballotAt480 3),
    .frost (.tryFinalize 480 2 1004)]

/-- The template for the block at 720, built by a node whose round of 480 is still open. -/
def templateAt720 : QueueOp 7 := .getCoinbaseRewards 720 50000 6000 (.ok [rewardTo 6 9])

/-- The round of 480 is then finished with a manifest for 720, which it did not sign. -/
theorem templateAt720_unsigned :
    ∃ extra ∈ (coordinatorQueue.run {} (roundAt480 ++ templateAt720 :: answersAt480)).2,
      ¬ CarriesSignature sevenCurve coordinator.groupPubkey extra := by
  decide +kernel

attribute [local instance] fact_prime_seven

/-- Without the template the round queues its manifest, and it verifies. -/
theorem roundAt480_signed :
    (coordinatorQueue.run {} (roundAt480 ++ answersAt480)).2.length = 1 ∧
      ∀ extra ∈ (coordinatorQueue.run {} (roundAt480 ++ answersAt480)).2,
        CarriesSignature sevenCurve coordinator.groupPubkey extra := by
  refine ⟨by decide +kernel, fun extra hq => ?_⟩
  have hg : coordinatorQueue.Guarded (MembersKept sevenCurve coordinator someDraws true) {}
      (roundAt480 ++ answersAt480) := by
    decide +kernel
  exact queued_manifest_signed (by decide) sevenCurve_pointsRoundTrip
    (show coordinator.groupPubkey = (frostKeygen sevenCurve 2 1 3).groupPublicKey from rfl) rfl hg
    hq

end Invariant

end Mevacoin.Frost
