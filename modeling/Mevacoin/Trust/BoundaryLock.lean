import Mevacoin.Frost.ManifestQueue
import Mevacoin.Trust.BadgeQuorum

/-!
# The manager's lock at a period boundary

`on_new_block` (`mevatrust_manager.cpp`) holds `m_lock`, a `std::mutex`, while `propose_snapshot`
may call a function that takes it.  A call is described by its `LockEvent`s.
-/

namespace Mevacoin.Trust

open Lib Std

/-! ### One lock, one call -/

/-- What a call does to a lock. -/
inductive LockEvent where
  | acquire
  | release
deriving DecidableEq

/-- The call, which holds the lock or not, never acquires it while it holds it. -/
def selfSafe : Bool → List LockEvent → Bool
  | _, [] => true
  | held, .acquire :: events => !held && selfSafe true events
  | _, .release :: events => selfSafe false events

/-- The functions that `init` installs. -/
inductive Callback where
  | badge
  | frostApply
  | snapshotApply
deriving DecidableEq

/-- What they do to `m_lock`: the one of the badge system nothing, the others hold it. -/
def Callback.locks : Callback → List LockEvent
  | badge => []
  | frostApply => [.acquire, .release]
  | snapshotApply => [.acquire, .release]

/-- A function whose caller holds the lock must not take it. -/
theorem selfSafe_held (calls : List Callback) :
    selfSafe true (calls.flatMap Callback.locks ++ [.release]) = true ↔
      ∀ c ∈ calls, c.locks = [] := by
  induction calls with
  | nil => simp [selfSafe]
  | cons c calls ih =>
    cases c with
    | badge => simpa [Callback.locks] using ih
    | frostApply | snapshotApply => simp [Callback.locks, selfSafe]

/-- Called one after another without the lock they are safe. -/
theorem selfSafe_free (calls : List Callback) :
    selfSafe false (calls.flatMap Callback.locks) = true := by
  induction calls with
  | nil => rfl
  | cons c calls ih => cases c <;> simpa [Callback.locks, selfSafe] using ih

/-! ### The snapshot of a boundary -/

/-- `static_cast<uint8_t>` of a badge type. -/
def BadgeType.toUInt8 : BadgeType → UInt8
  | activeMiner => 0
  | fullNodeOperator => 1
  | stableNode => 2
  | coreNetworkNode => 3
  | longUptimeNode => 4
  | earlySupporter => 5
  | networkValidator => 6
  | bridgeNode => 7
  | privacyGuardian => 8
  | relayMaster => 9
  | welcome => 10
  | other octet => octet

/-- `get_recently_awarded`. -/
def BadgeSystem.getRecentlyAwarded (b : BadgeSystem) (fromHeight toHeight : UInt64) :
    List (Hash × BadgeType) :=
  b.cache.toList.flatMap fun kv =>
    (kv.2.filter fun bg =>
      bg.isActive && decide (fromHeight ≤ bg.awardedHeight) &&
        decide (bg.awardedHeight ≤ toHeight)).map fun bg => (kv.1, bg.type)

/-- How many badges are stored, active or not. -/
def BadgeSystem.count (b : BadgeSystem) : ℕ := (b.cache.toList.map (·.2.length)).sum

section

variable {F : Type} [FloatArith F]

/-- The manager when `on_new_block` comes to the snapshot. -/
def boundaryManager (D : Type) [FloatArith D] [FloatWiden F D] (ctx : BlockCtx) (now : UInt64)
    (s : Manager F) : Manager F :=
  let s := { s with engine := s.engine.processRewardPeriod ctx.height }
  let badges := s.badges.evaluateAllBadges s.engine s.registry ctx.height now
  triggerDistribution D ctx (checkAutoValidatorPromotion ctx.height now { s with badges })

/-- After it only the suspended nodes are looked at. -/
theorem onNewBlock_eq (D : Type) [FloatArith D] [FloatWiden F D] (ctx : BlockCtx) (now : UInt64)
    (s : Manager F) :
    onNewBlock D ctx now s =
      if s.initialized = false ∨ isPeriodBoundary ctx.height = false then s
      else escalateSuspended ctx.height now (boundaryManager D ctx now s) := rfl

/-- The manager with its two broadcasters. -/
structure BoundaryNode (F : Type) (ℓ : ℕ) where
  /-- The manager, the ballots on snapshots and the rate limit of the messages. -/
  peer : Peer F
  /-- The ballots of the FROST broadcaster. -/
  rounds : Frost.State ℓ := {}
  /-- `m_last_period_height`. -/
  lastPeriodHeight : UInt64 := 0

/-- What happens to a node. -/
inductive BoundaryOp (F : Type) (ℓ : ℕ) where
  /-- A snapshot vote of another node. -/
  | message (now : UInt64) (msg : SnapshotMessage)
  /-- A message of a FROST round. -/
  | frost (c : Frost.Call ℓ)
  /-- `on_new_block`: `sign` is what `generate_signature` returns for the node's awards, and
  `proposed` what `trigger_distribution` proposes to the FROST broadcaster, if it does. -/
  | newBlock (ctx : BlockCtx) (now : UInt64) (sign : Hash → UInt8 → Signature)
      (proposed : Option (List (PublicKey × UInt64)))
  | prune (now : UInt64)
  /-- Anything else that changes the manager between these calls. -/
  | elsewhere (manager : Manager F)

/-- The functions of the snapshot broadcaster: the one of `init`, and the one for the network. -/
def initCallbacks (broadcast : Option (Bytes → UInt64 → Bool)) : Callbacks where
  apply := some fun snap => (buildSnapshotExtra snap).isSome
  broadcast := broadcast

section Node

variable {ℓ : ℕ} {G : Type} [AddCommGroup G] [Module (ZMod ℓ) G]
variable (D : Type) [FloatArith D] [FloatWiden F D] (cr : Crypto) (nodeKey : Option PublicKey)
  (broadcast : Option (Bytes → UInt64 → Bool)) (cv : Curve ℓ G) (nk : Frost.NodeKey ℓ)
  (rng : ℕ → Frost.NoncePair ℓ)

/-- The awards that the snapshot of a boundary is about. -/
def BoundaryNode.awards (s : BoundaryNode F ℓ) (ctx : BlockCtx) (now : UInt64) :
    List (Hash × UInt8) :=
  ((boundaryManager D ctx now s.peer.manager).badges.getRecentlyAwarded s.lastPeriodHeight
    ctx.height).map fun x => (x.1, x.2.toUInt8)

/-- The call of `broadcast_snapshot`. -/
def BoundaryNode.broadcastSnapshot (s : BoundaryNode F ℓ) (ctx : BlockCtx) (now : UInt64)
    (sign : Hash → UInt8 → Signature) : BallotBox × List Snapshot × Bool :=
  let active := ((boundaryManager D ctx now s.peer.manager).registry.getNodesByStatus
    .active).length.toUInt32
  proposeSnapshot cr (initCallbacks broadcast) now nodeKey sign ctx.height
    (snapshotPeriod ctx.height) active (s.awards D ctx now) s.peer.box

/-- The call of `propose_distribution`. -/
def BoundaryNode.proposeDistribution (s : BoundaryNode F ℓ) (ctx : BlockCtx) (now : UInt64)
    (proposed : Option (List (PublicKey × UInt64))) : Frost.State ℓ × List (Frost.Event ℓ) :=
  match proposed with
  | none => (s.rounds, [])
  | some outputs =>
    (Frost.broadcaster cv nk rng).step s.rounds
      (.proposeDistribution ctx.height (snapshotPeriod ctx.height) outputs now)

/-- The functions that `on_new_block` calls: for each badge, for a signature, for a snapshot. -/
def BoundaryNode.callbacks (s : BoundaryNode F ℓ) (ctx : BlockCtx) (now : UInt64)
    (sign : Hash → UInt8 → Signature) (proposed : Option (List (PublicKey × UInt64))) :
    List Callback :=
  let awarded := (boundaryManager D ctx now s.peer.manager).badges.count -
    s.peer.manager.badges.count
  List.replicate awarded .badge ++
    (((s.proposeDistribution cv nk rng ctx now proposed).2.filterMap
      Frost.Event.signature?).map fun _ => .frostApply) ++
    (s.broadcastSnapshot D cr nodeKey broadcast ctx now sign).2.1.map fun _ => .snapshotApply

/-- `on_new_block` and the lock. -/
def BoundaryNode.newBlockLocks (s : BoundaryNode F ℓ) (ctx : BlockCtx) (now : UInt64)
    (sign : Hash → UInt8 → Signature) (proposed : Option (List (PublicKey × UInt64))) :
    List LockEvent :=
  if s.peer.manager.initialized = false then []
  else if isPeriodBoundary ctx.height = false then [.acquire, .release]
  else
    .acquire :: ((s.callbacks D cr nodeKey broadcast cv nk rng ctx now sign proposed).flatMap
      Callback.locks ++ [.release])

/-- The node after `on_new_block`, if the call returns. -/
def BoundaryNode.newBlock (s : BoundaryNode F ℓ) (ctx : BlockCtx) (now : UInt64)
    (sign : Hash → UInt8 → Signature) (proposed : Option (List (PublicKey × UInt64))) :
    BoundaryNode F ℓ :=
  if s.peer.manager.initialized = false ∨ isPeriodBoundary ctx.height = false then s
  else
    { peer := { s.peer with
        manager := onNewBlock D ctx now s.peer.manager
        box := (s.broadcastSnapshot D cr nodeKey broadcast ctx now sign).1 }
      rounds := (s.proposeDistribution cv nk rng ctx now proposed).1
      lastPeriodHeight := ctx.height }

/-- The node as a machine; it emits what each call does to the lock. -/
def boundaryNode : Machine (BoundaryNode F ℓ) (BoundaryOp F ℓ) (List LockEvent) where
  step s
    | .message now msg =>
      let applied := (s.peer.submitted cr msg).toList.flatMap fun v =>
        (onReceiveVote cr (initCallbacks broadcast) now v s.peer.box).2.1
      ({ s with peer := (handleSnapshot cr (initCallbacks broadcast) now msg s.peer).1 },
        [(applied.map fun _ => Callback.snapshotApply).flatMap Callback.locks])
    | .frost c =>
      let out := (Frost.broadcaster cv nk rng).step s.rounds c
      ({ s with rounds := out.1 },
        [((out.2.filterMap Frost.Event.signature?).map fun _ => Callback.frostApply).flatMap
          Callback.locks])
    | .newBlock ctx now sign proposed =>
      (s.newBlock D cr nodeKey broadcast cv nk rng ctx now sign proposed,
        [s.newBlockLocks D cr nodeKey broadcast cv nk rng ctx now sign proposed])
    | .prune now =>
      ({ s with peer := { s.peer with box := pruneExpiredBallots now s.peer.box } }, [])
    | .elsewhere manager => ({ s with peer := { s.peer with manager } }, [])

/-! ### When the node completes a quorum -/

/-- The key's vote would make a ballot final: it verifies, is new, and there are two others. -/
def CompletesQuorum (box : BallotBox) (key : PublicKey) (v : Snapshot) : Prop :=
  let e := box.getD (makeBallotKey cr v) {}
  verifySingleVote cr v = true ∧ key ∉ e.proposers ∧ e.finalized = false ∧
    quorumThreshold ≤ e.proposers.length + 1

/-- The node's own vote at a boundary. -/
def BoundaryNode.ownVote (s : BoundaryNode F ℓ) (key : PublicKey) (ctx : BlockCtx) (now : UInt64)
    (sign : Hash → UInt8 → Signature) : Snapshot :=
  Trust.ownVote key sign ctx.height (snapshotPeriod ctx.height)
    ((boundaryManager D ctx now s.peer.manager).registry.getNodesByStatus
      .active).length.toUInt32
    (s.awards D ctx now)

/-- At a boundary, the node's own vote does not complete a quorum. -/
def OwnVoteEarly (s : BoundaryNode F ℓ) : BoundaryOp F ℓ → Prop
  | .newBlock ctx now sign _ =>
    s.peer.manager.initialized = true → isPeriodBoundary ctx.height = true →
      ∀ key ∈ nodeKey, s.awards D ctx now ≠ [] →
        ¬ CompletesQuorum cr s.peer.box key (s.ownVote D key ctx now sign)
  | _ => True

/-- A vote makes a ballot final exactly when it completes a quorum. -/
theorem onReceiveVote_applied_iff {v : Snapshot} {first : BadgeAward} {rest : List BadgeAward}
    (hfirst : v.badgeAwards = first :: rest) (now : UInt64) (box : BallotBox) :
    (onReceiveVote cr (initCallbacks broadcast) now v box).2.1 = [] ↔
      ¬ CompletesQuorum cr box first.proposerPubkey v := by
  unfold CompletesQuorum
  cases hv : verifySingleVote cr v with
  | false => simp [onReceiveVote_of_not_verified hv]
  | true =>
    unfold onReceiveVote
    rw [if_neg (by rw [hv]; decide), hfirst]
    dsimp only
    generalize box.getD (makeBallotKey cr v) {} = e
    by_cases hold : first.proposerPubkey ∈ e.proposers
    · simp [hold]
    rw [if_neg hold]
    -- a ballot that is opened by this vote has one proposer
    have hvote : (quorumThreshold ≤ (e.vote now v first.proposerPubkey).proposers.length ∧
          (e.vote now v first.proposerPubkey).finalized = false) ↔
        (e.finalized = false ∧ quorumThreshold ≤ e.proposers.length + 1) := by
      unfold BallotEntry.vote
      by_cases hnil : e.proposers = []
      · simp [hnil, quorumThreshold]
      · simp [hnil, and_comm]
    simp only [hvote, hold]
    split_ifs with hquorum
    · simp [tryFinalize, initCallbacks, hquorum]
    · simp [hquorum]

/-- The snapshot of a boundary is applied exactly when the own vote completes a quorum. -/
theorem BoundaryNode.broadcastSnapshot_applied_iff (s : BoundaryNode F ℓ) (ctx : BlockCtx)
    (now : UInt64) (sign : Hash → UInt8 → Signature) :
    (s.broadcastSnapshot D cr nodeKey broadcast ctx now sign).2.1 = [] ↔
      ∀ key ∈ nodeKey, s.awards D ctx now ≠ [] →
        ¬ CompletesQuorum cr s.peer.box key (s.ownVote D key ctx now sign) := by
  unfold BoundaryNode.broadcastSnapshot proposeSnapshot
  cases nodeKey with
  | none => simp
  | some key =>
    cases hawards : s.awards D ctx now with
    | nil => simp
    | cons x rest =>
      have hvote : (s.ownVote D key ctx now sign).badgeAwards =
          (x :: rest).map fun y => ⟨y.1, y.2, ctx.height, key, sign y.1 y.2⟩ := by
        rw [← hawards, BoundaryNode.ownVote, Trust.ownVote]
      have h := onReceiveVote_applied_iff cr broadcast hvote now s.peer.box
      simp only [BoundaryNode.ownVote, hawards] at h ⊢
      simpa using h

omit [FloatArith F] in
/-- `propose_distribution` finishes no round. -/
theorem BoundaryNode.proposeDistribution_unsigned (s : BoundaryNode F ℓ) (ctx : BlockCtx)
    (now : UInt64) (proposed : Option (List (PublicKey × UInt64))) :
    (s.proposeDistribution cv nk rng ctx now proposed).2.filterMap Frost.Event.signature? = [] := by
  rw [← List.head?_eq_none_iff, List.head?_filterMap]
  unfold BoundaryNode.proposeDistribution
  cases proposed with
  | none => rfl
  | some outputs =>
    dsimp only
    by_contra hsome
    obtain ⟨sig, hsig⟩ := Option.ne_none_iff_exists'.1 hsome
    obtain ⟨h, p, t, hcall, -⟩ := Frost.signature_of_step hsig
    cases hcall

/-- **One boundary**: no self-deadlock if and only if the node's own vote completes no quorum. -/
theorem BoundaryNode.newBlockLocks_safe_iff (s : BoundaryNode F ℓ) (ctx : BlockCtx) (now : UInt64)
    (sign : Hash → UInt8 → Signature) (proposed : Option (List (PublicKey × UInt64))) :
    selfSafe false (s.newBlockLocks D cr nodeKey broadcast cv nk rng ctx now sign proposed) = true ↔
      OwnVoteEarly D cr nodeKey s (.newBlock ctx now sign proposed) := by
  unfold BoundaryNode.newBlockLocks OwnVoteEarly
  by_cases hinit : s.peer.manager.initialized = false
  · simp [hinit, selfSafe]
  by_cases hboundary : isPeriodBoundary ctx.height = false
  · simp [hinit, hboundary, selfSafe]
  have happlied := s.broadcastSnapshot_applied_iff D cr nodeKey broadcast ctx now sign
  rw [if_neg hinit, if_neg hboundary, selfSafe, Bool.not_false, Bool.true_and, selfSafe_held]
  simp only [hinit, hboundary, true_imp_iff, ← happlied]
  unfold BoundaryNode.callbacks
  rw [s.proposeDistribution_unsigned]
  constructor
  · intro hall
    by_contra hne
    obtain ⟨snap, hsnap⟩ := List.exists_mem_of_ne_nil _ hne
    have := hall .snapshotApply (List.mem_append_right _ (List.mem_map.2 ⟨snap, hsnap, rfl⟩))
    simp [Callback.locks] at this
  · intro hnil c hc
    rw [hnil] at hc
    obtain ⟨-, rfl⟩ := List.mem_replicate.1 (by simpa using hc)
    rfl

/-- **No self-deadlock** in a run of votes, rounds and new blocks if and only if at no boundary the
node's own vote completes a quorum. -/
theorem lock_never_reentered_iff (s : BoundaryNode F ℓ) (ops : List (BoundaryOp F ℓ)) :
    (∀ events ∈ ((boundaryNode D cr nodeKey broadcast cv nk rng).run s ops).2,
        selfSafe false events = true) ↔
      (boundaryNode D cr nodeKey broadcast cv nk rng).Guarded (OwnVoteEarly D cr nodeKey) s
        ops := by
  rw [Machine.forall_run_iff]
  have hstep : ∀ (s : BoundaryNode F ℓ) (op : BoundaryOp F ℓ),
      (∀ events ∈ ((boundaryNode D cr nodeKey broadcast cv nk rng).step s op).2,
          selfSafe false events = true) ↔ OwnVoteEarly D cr nodeKey s op := by
    intro s op
    cases op with
    | newBlock ctx now sign proposed =>
      simpa [boundaryNode] using
        s.newBlockLocks_safe_iff D cr nodeKey broadcast cv nk rng ctx now sign proposed
    | message | frost => simp [boundaryNode, OwnVoteEarly, selfSafe_free]
    | prune | elsewhere => simp [boundaryNode, OwnVoteEarly]
  exact ⟨.mono fun s op => (hstep s op).1, .mono fun s op => (hstep s op).2⟩

end Node

end

/-! ### The third vote -/

/-- A node with key 4, on the small curve. -/
def thirdVoter : Machine (BoundaryNode ℚ 7) (BoundaryOp ℚ 7) (List LockEvent) :=
  boundaryNode ℚ sevenCurve.crypto (some (Pod32.single 4)) none sevenCurve Frost.signerOne
    Frost.someDraws

/-- The boundary at 240. -/
def boundaryAt240 : BoundaryOp ℚ 7 :=
  .newBlock (carrierBlock 0xA2 [] 240) 1000 (fun _ _ => ⟨Pod32.single 1, Pod32.single 1⟩) none

/-- Two votes of other nodes come in before the node is at the boundary itself. -/
theorem thirdVoter_reenters :
    ¬ ∀ events ∈ (thirdVoter.run { peer := { manager := {} } }
        [.message 1000 (voteMessage 2), .message 1000 (voteMessage 3), boundaryAt240]).2,
      selfSafe false events = true := by
  decide +kernel

/-- With one vote before it the boundary passes, and the vote after it finishes the ballot. -/
example : ∀ events ∈ (thirdVoter.run { peer := { manager := {} } }
      [.message 1000 (voteMessage 2), boundaryAt240, .message 1000 (voteMessage 3)]).2,
    selfSafe false events = true := by
  decide +kernel

end Mevacoin.Trust
