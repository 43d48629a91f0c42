import Mevacoin.Trust.BallotSafety
import Mevacoin.Trust.NodeFaces
import Mevacoin.Trust.Outsiders

/-!
# Does a badge take a quorum?

`handle_NOTIFY_MEVATRUST_SNAPSHOT` says that no badge is applied on the word of a single proposer,
but `submit_snapshot_for_quorum` answers with every award of every vote it accepts.
-/

namespace Mevacoin.Trust

open Lib Std

/-! ### The message -/

/-- `NOTIFY_MEVATRUST_SNAPSHOT::request`, without the number of active nodes, which is not read. -/
structure SnapshotMessage where
  height : UInt64
  period : UInt32
  snapshotExtra : Bytes
  proposerPubkey : PublicKey
deriving DecidableEq

/-- What the handler works on: the manager, its ballots and `s_seen`. -/
structure Peer (F : Type) where
  manager : Manager F
  box : BallotBox := ∅
  seen : ExtTreeMap Bytes UInt64 := ∅

/-- A badge that was awarded. -/
structure Award where
  nodeId : Hash
  type : BadgeType
  height : UInt64
deriving DecidableEq

/-- The rate limit: `none` for a message that is dropped. -/
def SnapshotMessage.rateLimit (msg : SnapshotMessage) (seen : ExtTreeMap Bytes UInt64) :
    Option (ExtTreeMap Bytes UInt64) :=
  let key := msg.proposerPubkey.data ++ leBytes 4 msg.period.toNat
  if seen[key]? = some msg.height then none
  else
    let seen := seen.insert key msg.height
    some (if 2000 < seen.size then ∅ else seen)

/-- The snapshot of a message, if it can be read, is of the height that the message says and all its
signatures hold. -/
def SnapshotMessage.snapshot (cr : Crypto) (msg : SnapshotMessage) : Option Snapshot :=
  if msg.snapshotExtra = [] then none
  else
    (parseSnapshot { extra := msg.snapshotExtra }).filter fun snap =>
      decide (snap.height = msg.height) && snap.badgeAwards.all (verifyBadgeAward cr)

/-- `submit_snapshot_for_quorum`: the box, the applied snapshots, and an answer for every award of
an accepted vote. -/
def submitSnapshotForQuorum (cr : Crypto) (cb : Callbacks) (now : UInt64) (snap : Snapshot)
    (box : BallotBox) : BallotBox × List Snapshot × List BadgeAward :=
  let out := onReceiveVote cr cb now snap box
  (out.1, out.2.1, if out.2.2 then snap.badgeAwards else [])

/-- The awards that are applied, one after another. -/
def awarding (reason : Bytes) (now : UInt64) : Machine BadgeSystem BadgeAward Award where
  step b a :=
    let t := BadgeType.ofUInt8 a.badgeType
    if b.hasBadge a.nodeId t then (b, [])
    else (b.awardBadge a.nodeId t a.awardedHeight reason now, [⟨a.nodeId, t, a.awardedHeight⟩])

/-- The reason that the handler gives. -/
def quorumReason (snap : Snapshot) : Bytes :=
  asciiBytes ("quorum P2P period=" ++ toString snap.period.toNat ++ " threshold=3")

section

variable {F : Type}

/-- The snapshot that a message submits: the manager is initialised and the rate limit lets it
through. -/
def Peer.submitted (cr : Crypto) (p : Peer F) (msg : SnapshotMessage) : Option Snapshot :=
  if p.manager.initialized = false then none
  else (msg.rateLimit p.seen).bind fun _ => msg.snapshot cr

/-- `handle_NOTIFY_MEVATRUST_SNAPSHOT`, with the badges that it awards. -/
def handleSnapshot (cr : Crypto) (cb : Callbacks) (now : UInt64) (msg : SnapshotMessage)
    (p : Peer F) : Peer F × List Award :=
  if p.manager.initialized = false then (p, [])
  else
    match msg.rateLimit p.seen with
    | none => (p, [])
    | some seen =>
      match msg.snapshot cr with
      | none => ({ p with seen }, [])
      | some snap =>
        let out := submitSnapshotForQuorum cr cb now snap p.box
        let applied := (awarding (quorumReason snap) now).run p.manager.badges out.2.2
        ({ manager := { p.manager with badges := applied.1 }, box := out.1, seen }, applied.2)

variable [FloatArith F]

/-! ### The blocks -/

/-- The badges that an action awards: a registration, a promotion, an award of a snapshot. -/
def Action.awards (ctx : BlockCtx) (now : UInt64) (s : Manager F) : Action → List Award
  | node (.register reg) =>
    if (s.registry.registerNodeOnchain reg ctx.height ctx.hfVersion now).isSome ∧
        s.badges.hasBadge reg.nodeId .welcome = false then
      [⟨reg.nodeId, .welcome, ctx.height⟩]
    else []
  | node (.promote n _) =>
    if (s.registry.getNodeById n).any (fun e => !e.isValidator) ∧
        s.badges.hasBadge n .networkValidator = false then
      [⟨n, .networkValidator, ctx.height⟩]
    else []
  | node (.award a) =>
    if s.badges.hasBadge a.nodeId (BadgeType.ofUInt8 a.badgeType) then []
    else [⟨a.nodeId, BadgeType.ofUInt8 a.badgeType, a.awardedHeight⟩]
  | _ => []

/-- The actions of a block, with the badges that they award. -/
def awardLedger (F D : Type) [FloatArith F] [FloatArith D] (ctx : BlockCtx) :
    Machine (Manager F) (Action × UInt64) Award where
  step s a := ((a.1.step D ctx a.2 s).1, a.1.awards ctx a.2 s)

variable {D : Type} [FloatArith D] {ctx : BlockCtx} {now : UInt64} {s : Manager F}

/-! Nothing else gives a badge -/

omit [FloatArith F] in
theorem hasBadge_awardBadge {b : BadgeSystem} {n n' : Hash} {t t' : BadgeType} {height : UInt64}
    {reason : Bytes} (h : (b.awardBadge n t height reason now).hasBadge n' t' = true) :
    b.hasBadge n' t' = true ∨ b.hasBadge n t = false ∧ n' = n ∧ t' = t := by
  rw [BadgeSystem.hasBadge_eq_decide, decide_eq_true_iff, BadgeSystem.counts_awardBadge,
    Function.update_apply] at h
  rw [BadgeSystem.hasBadge_eq_decide, decide_eq_true_iff, BadgeSystem.hasBadge_eq_false_iff]
  split_ifs at h with hn
  · obtain ⟨rfl, rfl⟩ := Prod.mk.inj hn
    rcases Nat.eq_zero_or_pos (b.counts (n', t')) with hzero | hpos
    · exact .inr ⟨hzero, rfl, rfl⟩
    · exact .inl hpos
  · exact .inl h

theorem hasBadge_applyPenalty {r : NodeRegistry F} {b : BadgeSystem} {n n' : Hash}
    {offense : OffenseType} {t : BadgeType}
    (h : (applyPenalty r b n offense now).2.hasBadge n' t = true) : b.hasBadge n' t = true := by
  rw [BadgeSystem.hasBadge_eq_decide, decide_eq_true_iff] at h ⊢
  rw [counts_applyPenalty] at h
  split_ifs at h
  · exact absurd h (Nat.lt_irrefl 0)
  · exact h

/-- **Every badge that an action gives is among its awards.** -/
theorem mem_awards_of_hasBadge {a : Action} {n : Hash} {t : BadgeType}
    (h : (a.step D ctx now s).1.badges.hasBadge n t = true) :
    s.badges.hasBadge n t = true ∨ ∃ height, (⟨n, t, height⟩ : Award) ∈ a.awards ctx now s := by
  cases a with
  | circle a =>
    rw [show (Action.step D ctx now s (.circle a)).1.badges = s.badges from
      Manager.logAll_project (p := (·.badges)) (fun _ _ => rfl) _ _ _] at h
    exact .inl h
  | chainProof | store | poolDistribution => exact .inl h
  | node a =>
    rw [show (Action.step D ctx now s (.node a)).1.badges =
        (a.step ctx now s.registry s.badges).1.2 from
      Manager.logAll_project (p := (·.badges)) (fun _ _ => rfl) _ _ _] at h
    cases a with
    | register reg =>
      dsimp only [NodeAct.step] at h
      cases hreg : s.registry.registerNodeOnchain reg ctx.height ctx.hfVersion now with
      | some r' =>
        rw [hreg] at h
        refine (hasBadge_awardBadge h).imp id ?_
        rintro ⟨hhas, rfl, rfl⟩
        exact ⟨ctx.height, by simp [Action.awards, hreg, hhas]⟩
      | none =>
        rw [hreg] at h
        dsimp only at h
        split at h
        · split at h
          · exact .inl h
          · exact .inl (hasBadge_applyPenalty h)
        · exact .inl h
    | deregister dereg =>
      dsimp only [NodeAct.step] at h
      split at h
      · exact .inl h
      · exact .inl h
    | promote n' stake =>
      dsimp only [NodeAct.step] at h
      cases hnode : s.registry.getNodeById n' with
      | none =>
        rw [hnode] at h
        exact .inl h
      | some e =>
        rw [hnode] at h
        dsimp only at h
        split at h
        · exact .inl h
        · rename_i hvalidator
          refine (hasBadge_awardBadge h).imp id ?_
          rintro ⟨hhas, rfl, rfl⟩
          exact ⟨ctx.height, by simp [Action.awards, hnode, hvalidator, hhas]⟩
    | award a =>
      dsimp only [NodeAct.step] at h
      split at h
      · exact .inl h
      · rename_i hhas
        refine (hasBadge_awardBadge h).imp id ?_
        rintro ⟨-, rfl, rfl⟩
        exact ⟨a.awardedHeight, by simp [Action.awards, hhas]⟩
    | penalty pen =>
      dsimp only [NodeAct.step] at h
      split at h
      · exact .inl h
      · exact .inl h
      · exact .inl (hasBadge_applyPenalty h)
    | uptime | challenge => exact .inl h

end

/-! ### Runs -/

/-- What may happen: a message; the payloads of a block; a period boundary; a vote that the node
proposes itself; a pruning. -/
inductive QuorumOp where
  | message (now : UInt64) (msg : SnapshotMessage)
  | block (ctx : BlockCtx) (clock : BlockClock)
  | boundary (ctx : BlockCtx) (now : UInt64)
  | propose (now : UInt64) (key : PublicKey) (sign : Hash → UInt8 → Signature) (height : UInt64)
      (period activeNodeCount : UInt32) (awards : List (Hash × UInt8))
  | prune (now : UInt64)

/-- The peer, the votes whose signatures hold, the awards received in messages, payloads and own
votes, and the badges awarded so far. -/
structure Quorum (F : Type) where
  peer : Peer F
  votes : List Snapshot := []
  received : List BadgeAward := []
  awarded : List Award := []

/-- The awards in the payloads of a block. -/
def BlockCtx.badgeAwards (ctx : BlockCtx) : List BadgeAward :=
  ctx.txs.flatMap fun t => (parseSnapshot t.tx).toList.flatMap (·.badgeAwards)

/-- The block, with the hash and the signature check of the peer. -/
def BlockCtx.withCrypto (ctx : BlockCtx) (cr : Crypto) : BlockCtx :=
  { ctx with env := { ctx.env with crypto := cr } }

section

variable {F : Type} [FloatArith F]

/-- The badges that the payloads of a block award. -/
def blockAwards (D : Type) [FloatArith D] (ctx : BlockCtx) (clock : BlockClock) (s : Manager F) :
    List Award :=
  if s.initialized = false then [] else ((awardLedger F D ctx).run s (actionsOf D ctx clock s)).2

/-- The peer at work. -/
def quorum (F D : Type) [FloatArith F] [FloatArith D] [FloatWiden F D] (cr : Crypto)
    (cb : Callbacks) : Machine (Quorum F) QuorumOp Empty where
  step w op := match op with
    | .message now msg =>
      let out := handleSnapshot cr cb now msg w.peer
      ({ peer := out.1
         votes := w.votes ++ (w.peer.submitted cr msg).toList.filter (verifySingleVote cr)
         received := w.received ++
           (parseSnapshot { extra := msg.snapshotExtra }).toList.flatMap (·.badgeAwards)
         awarded := w.awarded ++ out.2 }, [])
    | .block ctx clock =>
      let ctx := ctx.withCrypto cr
      ({ w with
         peer := { w.peer with manager := processMevatrustTxs D ctx clock w.peer.manager }
         received := w.received ++ ctx.badgeAwards
         awarded := w.awarded ++ blockAwards D ctx clock w.peer.manager }, [])
    | .boundary ctx now =>
      ({ w with peer := { w.peer with manager := onNewBlock D ctx now w.peer.manager } }, [])
    | .propose now key sign height period activeNodeCount awards =>
      let v := ownVote key sign height period activeNodeCount awards
      ({ w with
         peer := { w.peer with box := (onReceiveVote cr cb now v w.peer.box).1 }
         votes := w.votes ++ [v].filter (verifySingleVote cr)
         received := w.received ++ v.badgeAwards }, [])
    | .prune now =>
      ({ w with peer := { w.peer with box := pruneExpiredBallots now w.peer.box } }, [])

/-! ### Endorsements -/

/-- The key signed the award: this node, this badge, this height. -/
def SignedAward (cr : Crypto) (received : List BadgeAward) (x : Award) (k : PublicKey) : Prop :=
  ∃ a ∈ received, a.nodeId = x.nodeId ∧ BadgeType.ofUInt8 a.badgeType = x.type ∧
    a.awardedHeight = x.height ∧ a.proposerPubkey = k ∧ verifyBadgeAward cr a = true

/-- **Endorsed**: three distinct keys signed the award. -/
def Endorsed (cr : Crypto) (received : List BadgeAward) (x : Award) : Prop :=
  ∃ keys : List PublicKey, keys.Nodup ∧ quorumThreshold ≤ keys.length ∧
    ∀ k ∈ keys, SignedAward cr received x k

theorem Endorsed.mono {cr : Crypto} {received received' : List BadgeAward} {x : Award}
    (h : Endorsed cr received x) (hsub : received ⊆ received') : Endorsed cr received' x := by
  obtain ⟨keys, hnodup, hlen, hsigned⟩ := h
  refine ⟨keys, hnodup, hlen, fun k hk => ?_⟩
  obtain ⟨a, ha, hrest⟩ := hsigned k hk
  exact ⟨a, hsub ha, hrest⟩

/-- Some ballot for the award has its quorum. -/
def HasQuorum (box : BallotBox) (x : Award) : Prop :=
  ∃ ke ∈ box.toList, quorumThreshold ≤ ke.2.proposers.length ∧ ke.2.snapshot.height = x.height ∧
    ∃ y ∈ ke.2.snapshot.subjects, y.1 = x.nodeId ∧ BadgeType.ofUInt8 y.2 = x.type
deriving Decidable

/-- **The vote completes a quorum**: its awards are for the height of the snapshot, it collides with
no earlier vote, and two other proposers voted before it if it brings a badge. -/
structure Completes (cr : Crypto) (w : Quorum F) (v : Snapshot) : Prop where
  height : ∀ a ∈ v.badgeAwards, a.awardedHeight = v.height
  collision : NoCollision cr w.votes v
  others : ∀ a ∈ v.badgeAwards,
    w.peer.manager.badges.hasBadge a.nodeId (BadgeType.ofUInt8 a.badgeType) = false →
    quorumThreshold ≤ ((w.peer.box.getD (makeBallotKey cr v) {}).proposers.filter
      (· ≠ a.proposerPubkey)).length + 1

omit [FloatArith F] in
instance (cr : Crypto) (w : Quorum F) (v : Snapshot) : Decidable (Completes cr w v) :=
  decidable_of_iff ((∀ a ∈ v.badgeAwards, a.awardedHeight = v.height) ∧ NoCollision cr w.votes v ∧
      ∀ a ∈ v.badgeAwards,
        w.peer.manager.badges.hasBadge a.nodeId (BadgeType.ofUInt8 a.badgeType) = false →
        quorumThreshold ≤ ((w.peer.box.getD (makeBallotKey cr v) {}).proposers.filter
          (· ≠ a.proposerPubkey)).length + 1)
    ⟨fun ⟨hh, hc, ho⟩ => ⟨hh, hc, ho⟩, fun h => ⟨h.height, h.collision, h.others⟩⟩

/-- The operation awards badges only where a ballot has its quorum. -/
def QuorumOp.Vouched (D : Type) [FloatArith D] (cr : Crypto) (w : Quorum F) : QuorumOp → Prop
  | message _ msg => ∀ v ∈ w.peer.submitted cr msg, verifySingleVote cr v = true → Completes cr w v
  | block ctx clock =>
    w.peer.manager.initialized = true →
      (awardLedger F D (ctx.withCrypto cr)).Guarded
        (fun s a => ∀ x ∈ a.1.awards (ctx.withCrypto cr) a.2 s, HasQuorum w.peer.box x)
        w.peer.manager (actionsOf D (ctx.withCrypto cr) clock w.peer.manager)
  | propose _ key sign height period activeNodeCount awards =>
    verifySingleVote cr (ownVote key sign height period activeNodeCount awards) = true →
      NoCollision cr w.votes (ownVote key sign height period activeNodeCount awards)
  | _ => True

instance (D : Type) [FloatArith D] (cr : Crypto) (w : Quorum F) (op : QuorumOp) :
    Decidable (op.Vouched D cr w) := by
  unfold QuorumOp.Vouched
  split <;> infer_instance

/-! ### The invariant -/

/-- Every badge is endorsed, and the box stands for votes whose awards were received. -/
structure QuorumInv (cr : Crypto) (w : Quorum F) : Prop where
  endorsed : ∀ x ∈ w.awarded, Endorsed cr w.received x
  box : BoxInv cr w.votes w.peer.box
  votes : ∀ v ∈ w.votes, ∀ a ∈ v.badgeAwards, a.awardedHeight = v.height ∧ a ∈ w.received

variable {cr : Crypto} {cb : Callbacks} {w : Quorum F} {D : Type} [FloatArith D]
  {votes : List Snapshot} {received : List BadgeAward}

omit [FloatArith F] in
/-- Whoever signed a vote signed its awards. -/
theorem signedAward_of_vote {v : Snapshot} {pk : PublicKey} {y : Hash × UInt8}
    (hv : ∀ a ∈ v.badgeAwards, a.awardedHeight = v.height ∧ a ∈ received)
    (hpks : ∀ a ∈ v.badgeAwards, a.proposerPubkey = pk ∧ verifyBadgeAward cr a = true)
    (hy : y ∈ v.subjects) : SignedAward cr received ⟨y.1, BadgeType.ofUInt8 y.2, v.height⟩ pk := by
  obtain ⟨a, ha, rfl⟩ := List.mem_map.1 hy
  obtain ⟨hheight, hreceived⟩ := hv a ha
  obtain ⟨hproposer, hverified⟩ := hpks a ha
  exact ⟨a, hreceived, rfl, rfl, hheight, hproposer, hverified⟩

omit [FloatArith F] in
/-- **A ballot with a quorum endorses its awards.** -/
theorem QuorumInv.endorsed_of_hasQuorum (h : QuorumInv cr w) {x : Award}
    (hx : HasQuorum w.peer.box x) : Endorsed cr w.received x := by
  obtain ⟨⟨k, e⟩, hmem, hquorum, hheight, y, hy, hnode, htype⟩ := hx
  have hb := h.box.backed k e (ExtTreeMap.mem_toList_iff_getElem?_eq_some.1 hmem)
  refine ⟨e.proposers, hb.nodup, hquorum, fun pk hpk => ?_⟩
  obtain ⟨v, hv, hkey, hpks⟩ := hb.voted pk hpk
  obtain ⟨hsameHeight, -, hsubjects⟩ := hb.same v hv hkey
  have hsigned := signedAward_of_vote (h.votes v hv) hpks ((hsubjects y).1 hy)
  rwa [hnode, htype, ← hsameHeight, hheight] at hsigned

omit [FloatArith F] in
/-- **A vote that completes a quorum endorses what it brings.** -/
theorem QuorumInv.endorsed_of_completes (h : QuorumInv cr w) {v : Snapshot}
    (hc : Completes cr w v) (hv : verifySingleVote cr v = true) (hsub : w.received ⊆ received)
    (hnew : ∀ a ∈ v.badgeAwards, a ∈ received) {a : BadgeAward} (ha : a ∈ v.badgeAwards)
    (hhas : w.peer.manager.badges.hasBadge a.nodeId (BadgeType.ofUInt8 a.badgeType) = false) :
    Endorsed cr received ⟨a.nodeId, BadgeType.ofUInt8 a.badgeType, a.awardedHeight⟩ := by
  obtain ⟨pk, hpks, -⟩ := onReceiveVote_cases hv {} 0 w.peer.box
  have hothers := hc.others a ha hhas
  rw [(hpks a ha).1] at hothers
  have hsubject : a.subject ∈ v.subjects := List.mem_map_of_mem ha
  rw [hc.height a ha]
  cases hbox : w.peer.box[makeBallotKey cr v]? with
  | none =>
    rw [ExtTreeMap.getD_eq_getD_getElem?, hbox] at hothers
    exact absurd hothers (by simp [quorumThreshold])
  | some e =>
    rw [ExtTreeMap.getD_eq_getD_getElem?, hbox] at hothers
    have hb := h.box.backed _ e hbox
    refine ⟨pk :: e.proposers.filter (· ≠ pk), ?_, hothers, ?_⟩
    · exact List.nodup_cons.2 ⟨by simp, hb.nodup.filter _⟩
    intro k hk
    rcases List.mem_cons.1 hk with rfl | hk
    · exact signedAward_of_vote (fun a ha => ⟨hc.height a ha, hnew a ha⟩) hpks hsubject
    · -- the vote of another proposer has the same content
      obtain ⟨v', hv', hkey, hpks'⟩ := hb.voted k (List.mem_of_mem_filter hk)
      have hsame := same_of_ballotOctets_eq (hc.collision v' hv' hkey)
      have hrecv : ∀ a ∈ v'.badgeAwards, a.awardedHeight = v'.height ∧ a ∈ received :=
        fun a ha => ⟨(h.votes v' hv' a ha).1, hsub (h.votes v' hv' a ha).2⟩
      have hsigned := signedAward_of_vote hrecv hpks' ((hsame.2.2 _).2 hsubject)
      rwa [hsame.1] at hsigned

omit [FloatArith F] in
/-- What the handler awards are awards of the vote that were not there. -/
theorem exists_of_mem_awarding {reason : Bytes} {now : UInt64} {b : BadgeSystem}
    {as : List BadgeAward} {x : Award} (hx : x ∈ ((awarding reason now).run b as).2) :
    ∃ a ∈ as, b.hasBadge a.nodeId (BadgeType.ofUInt8 a.badgeType) = false ∧
      x = ⟨a.nodeId, BadgeType.ofUInt8 a.badgeType, a.awardedHeight⟩ := by
  induction as generalizing b with
  | nil => exact absurd hx List.not_mem_nil
  | cons a as ih =>
    rw [Machine.run_cons, List.mem_append] at hx
    cases hhas : b.hasBadge a.nodeId (BadgeType.ofUInt8 a.badgeType) with
    | true =>
      have hstep : (awarding reason now).step b a = (b, []) := if_pos hhas
      rw [hstep] at hx
      obtain ⟨a', ha', hrest⟩ := ih (hx.resolve_left List.not_mem_nil)
      exact ⟨a', List.mem_cons_of_mem _ ha', hrest⟩
    | false =>
      have hstep : (awarding reason now).step b a =
          (b.awardBadge a.nodeId (BadgeType.ofUInt8 a.badgeType) a.awardedHeight reason now,
            [⟨a.nodeId, BadgeType.ofUInt8 a.badgeType, a.awardedHeight⟩]) := if_neg (by simp [hhas])
      rw [hstep] at hx
      rcases hx with hx | hx
      · exact ⟨a, List.mem_cons_self, hhas, List.mem_singleton.1 hx⟩
      · obtain ⟨a', ha', hhas', hrest⟩ := ih hx
        refine ⟨a', List.mem_cons_of_mem _ ha', ?_, hrest⟩
        by_contra hb
        rw [BadgeSystem.hasBadge_awardBadge_of (by simpa using hb)] at hhas'
        cases hhas'

omit [FloatArith F] in
/-- Every badge that the handler gives is among its awards. -/
theorem mem_awarding_of_hasBadge {reason : Bytes} {now : UInt64} {b : BadgeSystem}
    {as : List BadgeAward} {n : Hash} {t : BadgeType}
    (h : ((awarding reason now).run b as).1.hasBadge n t = true) :
    b.hasBadge n t = true ∨
      ∃ height, (⟨n, t, height⟩ : Award) ∈ ((awarding reason now).run b as).2 := by
  induction as generalizing b with
  | nil => exact .inl h
  | cons a as ih =>
    rw [Machine.run_cons] at h ⊢
    rcases ih h with h | ⟨height, hmem⟩
    · have hstep : ((awarding reason now).step b a).1.hasBadge n t = true := h
      unfold awarding at hstep
      dsimp only at hstep
      split at hstep
      · exact .inl hstep
      · rename_i hhas
        refine (hasBadge_awardBadge hstep).imp id ?_
        rintro ⟨-, rfl, rfl⟩
        refine ⟨a.awardedHeight, List.mem_append_left _ ?_⟩
        unfold awarding
        dsimp only
        rw [if_neg hhas]
        exact List.mem_cons_self
    · exact .inr ⟨height, List.mem_append_right _ hmem⟩

omit [FloatArith F] in
/-- What the handler makes of a message, by what it submits. -/
theorem handleSnapshot_eq (cr : Crypto) (cb : Callbacks) (p : Peer F) (now : UInt64)
    (msg : SnapshotMessage) :
    (handleSnapshot cr cb now msg p).1.box =
        ((p.submitted cr msg).map fun v => (onReceiveVote cr cb now v p.box).1).getD p.box ∧
      (handleSnapshot cr cb now msg p).2 =
        (p.submitted cr msg).toList.flatMap fun v =>
          ((awarding (quorumReason v) now).run p.manager.badges
            (submitSnapshotForQuorum cr cb now v p.box).2.2).2 := by
  unfold handleSnapshot Peer.submitted
  split
  · exact ⟨rfl, rfl⟩
  · cases msg.rateLimit p.seen with
    | none => exact ⟨rfl, rfl⟩
    | some seen =>
      dsimp only [Option.bind_some]
      cases msg.snapshot cr with
      | none => exact ⟨rfl, rfl⟩
      | some snap => exact ⟨rfl, (List.append_nil _).symm⟩

omit [FloatArith F] in
/-- What is submitted was in the message. -/
theorem parseSnapshot_of_submitted {p : Peer F} {msg : SnapshotMessage} {v : Snapshot}
    (h : p.submitted cr msg = some v) : parseSnapshot { extra := msg.snapshotExtra } = some v := by
  unfold Peer.submitted at h
  split at h
  · cases h
  · obtain ⟨seen, -, hsnap⟩ := Option.bind_eq_some_iff.1 h
    unfold SnapshotMessage.snapshot at hsnap
    split at hsnap
    · cases hsnap
    · exact (Option.filter_eq_some_iff.1 hsnap).1

omit [FloatArith F] in
/-- A vote is cast: the box and the votes. -/
theorem QuorumInv.vote (h : QuorumInv cr w) {v : Snapshot} (cb : Callbacks) (now : UInt64)
    (hheight : verifySingleVote cr v = true → ∀ a ∈ v.badgeAwards, a.awardedHeight = v.height)
    (hcollision : verifySingleVote cr v = true → NoCollision cr w.votes v)
    (hsub : w.received ⊆ received) (hnew : ∀ a ∈ v.badgeAwards, a ∈ received) :
    BoxInv cr (w.votes ++ [v].filter (verifySingleVote cr))
        (onReceiveVote cr cb now v w.peer.box).1 ∧
      ∀ v' ∈ w.votes ++ [v].filter (verifySingleVote cr), ∀ a ∈ v'.badgeAwards,
        a.awardedHeight = v'.height ∧ a ∈ received := by
  refine ⟨h.box.onReceiveVote now hcollision, ?_⟩
  intro v' hv' a ha
  rcases List.mem_append.1 hv' with hv' | hv'
  · exact ⟨(h.votes v' hv' a ha).1, hsub (h.votes v' hv' a ha).2⟩
  · obtain ⟨hmem, hverified⟩ := List.mem_filter.1 hv'
    obtain rfl := List.mem_singleton.1 hmem
    exact ⟨hheight hverified a ha, hnew a ha⟩

/-- **One message.** -/
theorem QuorumInv.message (h : QuorumInv cr w) [FloatWiden F D] {now : UInt64}
    {msg : SnapshotMessage} (hv : (QuorumOp.message now msg).Vouched D cr w) :
    QuorumInv cr ((quorum F D cr cb).step w (.message now msg)).1 := by
  obtain ⟨hbox, hawards⟩ := handleSnapshot_eq cr cb w.peer now msg
  have hsub : w.received ⊆ w.received ++
      (parseSnapshot { extra := msg.snapshotExtra }).toList.flatMap (·.badgeAwards) :=
    List.subset_append_left _ _
  unfold quorum
  dsimp only
  cases hsubmitted : w.peer.submitted cr msg with
  | none =>
    rw [hsubmitted] at hbox hawards
    refine ⟨?_, ?_, ?_⟩
    · rw [hawards]
      intro x hx
      exact (h.endorsed x (by simpa using hx)).mono hsub
    · rw [hbox]
      simpa using h.box
    · intro v' hv' a ha
      have hold := h.votes v' (by simpa using hv') a ha
      exact ⟨hold.1, hsub hold.2⟩
  | some v =>
    rw [hsubmitted] at hbox hawards
    have hparse := parseSnapshot_of_submitted hsubmitted
    have hnew : ∀ a ∈ v.badgeAwards, a ∈ w.received ++
        (parseSnapshot { extra := msg.snapshotExtra }).toList.flatMap (·.badgeAwards) := by
      intro a ha
      rw [hparse]
      exact List.mem_append_right _ (by simpa using ha)
    have hcompletes : verifySingleVote cr v = true → Completes cr w v := hv v hsubmitted
    obtain ⟨hbox', hvotes'⟩ := h.vote cb now (fun hv => (hcompletes hv).height)
      (fun hv => (hcompletes hv).collision) hsub hnew
    refine ⟨?_, ?_, hvotes'⟩
    · intro x hx
      rcases List.mem_append.1 hx with hx | hx
      · exact (h.endorsed x hx).mono hsub
      · rw [hawards] at hx
        have hx' : x ∈ ((awarding (quorumReason v) now).run w.peer.manager.badges
            (submitSnapshotForQuorum cr cb now v w.peer.box).2.2).2 := by simpa using hx
        obtain ⟨a, ha, hhas, rfl⟩ := exists_of_mem_awarding hx'
        -- only a vote that is accepted brings awards
        have haccepted : verifySingleVote cr v = true ∧ a ∈ v.badgeAwards := by
          unfold submitSnapshotForQuorum at ha
          dsimp only at ha
          split at ha
          · rename_i hok
            refine ⟨?_, ha⟩
            by_contra hverify
            rw [onReceiveVote_of_not_verified (by simpa using hverify)] at hok
            cases hok
          · exact absurd ha List.not_mem_nil
        exact h.endorsed_of_completes (hcompletes haccepted.1) haccepted.1 hsub hnew haccepted.2
          hhas
    · rw [hbox]
      exact hbox'

/-- **One block.** -/
theorem QuorumInv.block (h : QuorumInv cr w) [FloatWiden F D] {ctx : BlockCtx} {clock : BlockClock}
    (hv : (QuorumOp.block ctx clock).Vouched D cr w) :
    QuorumInv cr ((quorum F D cr cb).step w (.block ctx clock)).1 := by
  have hsub : w.received ⊆ w.received ++ (ctx.withCrypto cr).badgeAwards :=
    List.subset_append_left _ _
  refine ⟨?_, h.box, fun v hv a ha => ⟨(h.votes v hv a ha).1, hsub (h.votes v hv a ha).2⟩⟩
  intro x hx
  rcases List.mem_append.1 hx with hx | hx
  · exact (h.endorsed x hx).mono hsub
  · unfold blockAwards at hx
    split at hx
    · exact absurd hx List.not_mem_nil
    · rename_i hinit
      obtain ⟨s', a, hquorum, hmem⟩ := (hv (by simpa using hinit)).exists_of_mem hx
      exact (h.endorsed_of_hasQuorum (hquorum x hmem)).mono hsub

/-- **Every badge takes a quorum** in every run that awards badges only where a ballot has its
quorum. -/
theorem badges_endorsed [FloatWiden F D] {s : Manager F} {ops : List QuorumOp}
    (hv : (quorum F D cr cb).Guarded (fun w op => op.Vouched D cr w) { peer := { manager := s } }
      ops) :
    ∀ x ∈ ((quorum F D cr cb).run { peer := { manager := s } } ops).1.awarded,
      Endorsed cr ((quorum F D cr cb).run { peer := { manager := s } } ops).1.received x := by
  have hinit : QuorumInv cr ({ peer := { manager := s } } : Quorum F) :=
    ⟨fun x hx => absurd hx List.not_mem_nil, boxInv_empty cr,
      fun v hv => absurd hv List.not_mem_nil⟩
  refine (Machine.run_state_invariant (quorum F D cr cb) (I := QuorumInv cr) hinit ?_ hv).endorsed
  intro w op h hop
  cases op with
  | message now msg => exact h.message hop
  | block ctx clock => exact h.block hop
  | boundary ctx now => exact ⟨h.endorsed, h.box, h.votes⟩
  | propose now key sign height period activeNodeCount awards =>
    have hsub : w.received ⊆
        w.received ++ (ownVote key sign height period activeNodeCount awards).badgeAwards :=
      List.subset_append_left _ _
    have hheight : ∀ a ∈ (ownVote key sign height period activeNodeCount awards).badgeAwards,
        a.awardedHeight = height := by
      intro a ha
      obtain ⟨y, -, rfl⟩ := List.mem_map.1 ha
      rfl
    obtain ⟨hbox, hvotes⟩ := h.vote cb now (fun _ => hheight) hop hsub
      (fun a ha => List.mem_append_right _ ha)
    exact ⟨fun x hx => (h.endorsed x hx).mono hsub, hbox, hvotes⟩
  | prune now => exact ⟨h.endorsed, h.box.prune now, h.votes⟩

end

/-! ### A single proposer -/

/-- The message with the vote of a key for the snapshot of height 240. -/
def voteMessage (key : UInt8) : SnapshotMessage where
  height := 240
  period := 1
  snapshotExtra := (buildSnapshotExtra (heightVote 240 1 1 key)).getD []
  proposerPubkey := Pod32.single key

/-- The peer, with an apply function that succeeds. -/
def quorumPeer : Machine (Quorum ℚ) QuorumOp Empty :=
  quorum ℚ ℚ sevenCurve.crypto { apply := some fun _ => true }

/-- One message. -/
def loneMessage : List QuorumOp := [.message 1000 (voteMessage 2)]

/-- One payload. -/
def lonePayload : List QuorumOp :=
  [.block (carrierBlock 0xA2 (Snapshot.codec.write (heightVote 240 1 1 2)) 241) (stillClock 1000)]

/-- A registered node with a badge. -/
def honouredState : Manager ℚ :=
  { victimState with
    badges := victimState.badges.awardBadge (Pod32.single 9) (.ofUInt8 1) 200 [] 900 }

/-- Two peers vote for a badge that the node has; a penalty takes it away, a third vote brings it
back. -/
def completedQuorum : List QuorumOp :=
  [.message 1000 (voteMessage 2), .message 1001 (voteMessage 3),
    .block (carrierBlock 0xA4 (Penalty.codec.write { strangerBan 9 1 with opType := 0 }) 241)
      (stillClock 1002),
    .message 1003 (voteMessage 4)]

/-- A badge that came of messages of a single proposer is not endorsed. -/
theorem not_endorsed_of_single {ops : List QuorumOp} (key : PublicKey)
    (hne : (quorumPeer.run { peer := { manager := {} } } ops).1.awarded ≠ [])
    (hsingle : ∀ a ∈ (quorumPeer.run { peer := { manager := {} } } ops).1.received,
      a.proposerPubkey = key) :
    ¬ ∀ x ∈ (quorumPeer.run { peer := { manager := {} } } ops).1.awarded,
      Endorsed sevenCurve.crypto
        (quorumPeer.run { peer := { manager := {} } } ops).1.received x := by
  intro h
  obtain ⟨x, hx⟩ := List.exists_mem_of_ne_nil _ hne
  obtain ⟨keys, hnodup, hlen, hsigned⟩ := h x hx
  -- all the keys are the same
  have hkeys : keys ⊆ [key] := by
    intro k hk
    obtain ⟨a, ha, -, -, -, hkey, -⟩ := hsigned k hk
    rw [← hkey, hsingle a ha]
    exact List.mem_cons_self
  have hle := (List.subperm_of_subset hnodup hkeys).length_le
  have hone : quorumThreshold ≤ 1 := Nat.le_trans hlen hle
  exact absurd hone (by decide)

/-- **One proposer is enough**, in a message and in a payload. -/
theorem badge_of_single_proposer :
    (¬ ∀ x ∈ (quorumPeer.run { peer := { manager := {} } } loneMessage).1.awarded,
        Endorsed sevenCurve.crypto
          (quorumPeer.run { peer := { manager := {} } } loneMessage).1.received x) ∧
      ¬ ∀ x ∈ (quorumPeer.run { peer := { manager := {} } } lonePayload).1.awarded,
        Endorsed sevenCurve.crypto
          (quorumPeer.run { peer := { manager := {} } } lonePayload).1.received x :=
  ⟨not_endorsed_of_single (Pod32.single 2) (by decide +kernel) (by decide +kernel),
    not_endorsed_of_single (Pod32.single 2) (by decide +kernel) (by decide +kernel)⟩

/-- The message that completes the quorum brings the badge, endorsed by three. -/
theorem completed_quorum_endorsed :
    (∀ x ∈ (quorumPeer.run { peer := { manager := honouredState } } completedQuorum).1.awarded,
        Endorsed sevenCurve.crypto
          (quorumPeer.run { peer := { manager := honouredState } } completedQuorum).1.received x) ∧
      (quorumPeer.run { peer := { manager := honouredState } } completedQuorum).1.awarded.length =
        1 := by
  refine ⟨?_, by decide +kernel⟩
  rw [quorumPeer]
  exact badges_endorsed (by decide +kernel)

end Mevacoin.Trust
