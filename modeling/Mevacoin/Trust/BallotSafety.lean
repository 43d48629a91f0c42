import Mevacoin.Trust.BallotBox

/-!
# Are ballots exact?

The signatures of a vote cover another height than the ballot's and no period, and a final ballot is
forgotten by the next pruning.
-/

namespace Mevacoin.Trust

open Lib Std

/-! ### Runs -/

/-- What may happen to the ballots. -/
inductive BallotOp where
  | receive (now : UInt64) (v : Snapshot)
  | propose (now height : UInt64) (period activeNodeCount : UInt32) (awards : List (Hash × UInt8))
      (sign : Hash → UInt8 → Signature)
  | prune (now : UInt64)

/-- The ballots, the votes whose signatures hold and the snapshots applied so far. -/
structure Ballots where
  box : BallotBox := ∅
  votes : List Snapshot := []
  applied : List Snapshot := []

section

variable (cr : Crypto) (cb : Callbacks) (key : Option PublicKey)

/-- The vote an operation submits. -/
def BallotOp.vote : BallotOp → Option Snapshot
  | receive _ v => some v
  | propose _ height period activeNodeCount awards sign =>
    if awards = [] then none
    else key.map fun k => ownVote k sign height period activeNodeCount awards
  | prune _ => none

/-- The broadcaster at work. -/
def ballots : Machine Ballots BallotOp Empty where
  step w op :=
    let out := match op with
      | .receive now v => onReceiveVote cr cb now v w.box
      | .propose now height period activeNodeCount awards sign =>
        proposeSnapshot cr cb now key sign height period activeNodeCount awards w.box
      | .prune now => (pruneExpiredBallots now w.box, [], true)
    ({ box := out.1
       votes := w.votes ++ (op.vote key).toList.filter (verifySingleVote cr)
       applied := w.applied ++ out.2.1 }, [])

end

/-! ### Exact ballots -/

/-- The period of a height, `height / m_period_length`. -/
def snapshotPeriod (height : UInt64) : UInt32 := (height / periodLength).toUInt32

/-- The key signed the award for the height: what the signature covers. -/
def BadgeAward.SignedBy (cr : Crypto) (a : BadgeAward) (k : PublicKey) (height : UInt64) : Prop :=
  a.proposerPubkey = k ∧ a.awardedHeight = height ∧ verifyBadgeAward cr a = true

/-- The key voted for the snapshot: in a vote of its height and period, it signed every award for
it. -/
def VotedFor (cr : Crypto) (votes : List Snapshot) (snap : Snapshot) (k : PublicKey) : Prop :=
  ∃ v ∈ votes, v.height = snap.height ∧ v.period = snap.period ∧
    snap.period = snapshotPeriod snap.height ∧
    ∀ x ∈ snap.subjects, ∃ a ∈ v.badgeAwards, a.subject = x ∧ a.SignedBy cr k snap.height

/-- **Exact**: three distinct keys voted for every snapshot that was applied, and no two of these
are the same. -/
structure BallotsExact (cr : Crypto) (w : Ballots) : Prop where
  quorum : ∀ snap ∈ w.applied, ∃ keys : List PublicKey, keys.Nodup ∧ quorumThreshold ≤ keys.length ∧
    ∀ k ∈ keys, VotedFor cr w.votes snap k
  once : w.applied.Pairwise fun snap snap' => ¬ snap.Same snap'

/-- **A sound vote**: for the height it is signed for and the period of that height, with every
award once; it collides with no earlier vote; and if its snapshot was applied, the ballot is still
there. -/
structure SoundVote (cr : Crypto) (w : Ballots) (v : Snapshot) : Prop where
  period : v.period = snapshotPeriod v.height
  height : ∀ a ∈ v.badgeAwards, a.awardedHeight = v.height
  nodup : v.subjects.Nodup
  collision : NoCollision cr w.votes v
  kept : ∀ snap ∈ w.applied, snap.Same v → makeBallotKey cr v ∈ w.box

instance (cr : Crypto) (w : Ballots) (v : Snapshot) : Decidable (SoundVote cr w v) :=
  decidable_of_iff (v.period = snapshotPeriod v.height ∧
      (∀ a ∈ v.badgeAwards, a.awardedHeight = v.height) ∧ v.subjects.Nodup ∧
      NoCollision cr w.votes v ∧
      ∀ snap ∈ w.applied, snap.Same v → makeBallotKey cr v ∈ w.box)
    ⟨fun ⟨hp, hh, hn, hc, hk⟩ => ⟨hp, hh, hn, hc, hk⟩,
      fun h => ⟨h.period, h.height, h.nodup, h.collision, h.kept⟩⟩

/-! ### The invariant -/

/-- A vote in order, whatever the ballots are. -/
structure Orderly (v : Snapshot) : Prop where
  period : v.period = snapshotPeriod v.height
  height : ∀ a ∈ v.badgeAwards, a.awardedHeight = v.height
  nodup : v.subjects.Nodup

/-- The ballots are exact, the box stands for the votes so far, and nothing like a ballot that is
not final was applied. -/
structure BallotInv (cr : Crypto) (w : Ballots) : Prop where
  exact : BallotsExact cr w
  orderly : ∀ v ∈ w.votes, Orderly v
  box : BoxInv cr w.votes w.box
  fresh : ∀ (k : Hash) (e : BallotEntry), w.box[k]? = some e → e.finalized = false →
    ∀ snap ∈ w.applied, ¬ snap.Same e.snapshot

section

variable {cr : Crypto} {cb : Callbacks} {w : Ballots} {v snap : Snapshot} {k : Hash}
  {e : BallotEntry}

theorem VotedFor.mono {votes votes' : List Snapshot} {pk : PublicKey}
    (h : VotedFor cr votes snap pk) (hsub : votes ⊆ votes') : VotedFor cr votes' snap pk := by
  obtain ⟨v, hv, hrest⟩ := h
  exact ⟨v, hsub hv, hrest⟩

/-- **The proposers of a ballot voted for it.** -/
theorem Backed.votedFor {votes : List Snapshot} (hinv : ∀ v ∈ votes, Orderly v)
    (h : Backed cr votes k e) {pk : PublicKey} (hpk : pk ∈ e.proposers) :
    VotedFor cr votes e.snapshot pk := by
  obtain ⟨v, hv, hkey, hpks⟩ := h.voted pk hpk
  obtain ⟨hheight, hperiod, hsubjects⟩ := h.same v hv hkey
  have horderly := hinv v hv
  refine ⟨v, hv, hheight.symm, hperiod.symm, by rw [hperiod, hheight, horderly.period], ?_⟩
  intro x hx
  obtain ⟨a, ha, rfl⟩ := List.mem_map.1 ((hsubjects x).1 hx)
  obtain ⟨hproposer, hverified⟩ := hpks a ha
  exact ⟨a, ha, rfl, hproposer, (horderly.height a ha).trans hheight.symm, hverified⟩

/-- Ballots for the same snapshot have the same key. -/
theorem BallotInv.key_eq (h : BallotInv cr w) {k' : Hash} {e' : BallotEntry}
    (hb : Backed cr w.votes k e) (hb' : Backed cr w.votes k' e')
    (hsame : e.snapshot.Same e'.snapshot) : k = k' := by
  obtain ⟨v, hv, rfl⟩ := hb.exists_vote
  obtain ⟨v', hv', rfl⟩ := hb'.exists_vote
  have hvotes : v.Same v' := (hb.same v hv rfl).symm.trans (hsame.trans (hb'.same v' hv' rfl))
  rw [makeBallotKey, makeBallotKey,
    ballotOctets_eq_of_same (h.orderly v hv).nodup (h.orderly v' hv').nodup hvotes]

/-- A sound vote is added to the votes so far. -/
theorem BallotInv.seen (h : BallotInv cr w) (hs : SoundVote cr w v) :
    BallotInv cr { w with votes := w.votes ++ [v] } := by
  refine ⟨⟨fun snap hsnap => ?_, h.exact.once⟩, ?_, h.box.seen hs.collision, h.fresh⟩
  · obtain ⟨keys, hnodup, hlen, hvoted⟩ := h.exact.quorum snap hsnap
    exact ⟨keys, hnodup, hlen, fun k hk => (hvoted k hk).mono (List.subset_append_left _ _)⟩
  · intro v' hv'
    rcases List.mem_append.1 hv' with hv' | hv'
    · exact h.orderly v' hv'
    · rw [List.mem_singleton.1 hv']
      exact ⟨hs.period, hs.height, hs.nodup⟩

/-- **Nothing like the ballot of a vote was applied**, unless it is final. -/
theorem BallotInv.vote_fresh (h : BallotInv cr w) (hv : v ∈ w.votes)
    (hkept : ∀ snap ∈ w.applied, snap.Same v → makeBallotKey cr v ∈ w.box) (now : UInt64)
    (pk : PublicKey)
    (hfinal : ((w.box.getD (makeBallotKey cr v) {}).vote now v pk).finalized = false) :
    ∀ snap ∈ w.applied,
      ¬ snap.Same ((w.box.getD (makeBallotKey cr v) {}).vote now v pk).snapshot := by
  intro snap hsnap hlike
  cases hbox : w.box[makeBallotKey cr v]? with
  | none =>
    -- a snapshot like this one that was applied would have left its ballot
    rw [ExtTreeMap.getD_eq_getD_getElem?, hbox] at hlike
    have hmem := hkept snap hsnap (hlike.trans (vote_first now pk))
    rw [ExtTreeMap.mem_iff_isSome_getElem?, hbox] at hmem
    cases hmem
  | some e =>
    rw [ExtTreeMap.getD_eq_getD_getElem?, hbox] at hlike hfinal
    have hb := h.box.backed _ e hbox
    have hbefore := hb.same v hv rfl
    have hafter := vote_next now pk hb.nonempty hbefore
    refine h.fresh _ e hbox ?_ snap hsnap (hlike.trans (hafter.trans hbefore.symm))
    exact (vote_finalized now pk hb.nonempty).symm.trans hfinal

/-- **A ballot is written**, and its snapshot applied only if it has a quorum, is not final and
becomes so. -/
theorem BallotInv.put (h : BallotInv cr w) (hb : Backed cr w.votes k e)
    (hfresh : e.finalized = false → ∀ snap ∈ w.applied, ¬ snap.Same e.snapshot) {f : Bool}
    {out : List Snapshot} (hout : out = [] ∧ (f = false → e.finalized = false) ∨
      out = [e.snapshot] ∧ quorumThreshold ≤ e.proposers.length ∧ e.finalized = false ∧ f = true) :
    BallotInv cr
      { w with
        box := w.box.insert k { e with finalized := f }
        applied := w.applied ++ out } := by
  refine ⟨?_, h.orderly, h.box.put (hb.finalize f), ?_⟩
  · rcases hout with ⟨rfl, -⟩ | ⟨rfl, hquorum, hfinal, -⟩
    · rw [List.append_nil]
      exact ⟨h.exact.quorum, h.exact.once⟩
    · constructor
      · intro snap hsnap
        rcases List.mem_append.1 hsnap with hsnap | hsnap
        · exact h.exact.quorum snap hsnap
        · rw [List.mem_singleton.1 hsnap]
          exact ⟨e.proposers, hb.nodup, hquorum, fun pk hpk => hb.votedFor h.orderly hpk⟩
      · refine List.pairwise_append.2 ⟨h.exact.once, List.pairwise_singleton _ _, ?_⟩
        intro snap hsnap snap' hsnap'
        rw [List.mem_singleton.1 hsnap']
        exact hfresh hfinal snap hsnap
  · intro k' e' he' hfinal' snap hsnap hlike
    simp only [ExtTreeMap.getElem?_insert, LawfulEqOrd.compare_eq_iff_eq] at he'
    split_ifs at he' with hk
    · obtain rfl := Option.some.inj he'
      rcases hout with ⟨rfl, hf⟩ | ⟨-, -, -, rfl⟩
      · rw [List.append_nil] at hsnap
        exact hfresh (hf hfinal') snap hsnap hlike
      · cases hfinal'
    · rcases List.mem_append.1 hsnap with hsnap | hsnap
      · exact h.fresh k' e' he' hfinal' snap hsnap hlike
      · rcases hout with ⟨rfl, -⟩ | ⟨rfl, -⟩
        · exact absurd hsnap List.not_mem_nil
        · rw [List.mem_singleton.1 hsnap] at hlike
          exact hk (h.key_eq hb (h.box.backed k' e' he') hlike)

/-- What `on_receive_vote` makes of the ballots. -/
def Ballots.submit (cr : Crypto) (cb : Callbacks) (now : UInt64) (v : Snapshot) (w : Ballots) :
    Ballots :=
  let out := onReceiveVote cr cb now v w.box
  { box := out.1
    votes := w.votes ++ [v].filter (verifySingleVote cr)
    applied := w.applied ++ out.2.1 }

/-- **One vote.** -/
theorem BallotInv.submit (h : BallotInv cr w) (now : UInt64)
    (hs : verifySingleVote cr v = true → SoundVote cr w v) :
    BallotInv cr (w.submit cr cb now v) := by
  unfold Ballots.submit
  cases hv : verifySingleVote cr v with
  | false =>
    rw [onReceiveVote_of_not_verified hv]
    simpa [hv] using h
  | true =>
    have hs := hs hv
    have hseen := h.seen hs
    have hmem : v ∈ w.votes ++ [v] := List.mem_append_right _ List.mem_cons_self
    rw [List.filter_cons_of_pos hv]
    obtain ⟨pk, hpks, ⟨-, hout⟩ | ⟨hnew, e, f, out, ok, rfl, hout, hcases⟩⟩ :=
      onReceiveVote_cases hv cb now w.box
    · rw [hout]
      simpa using hseen
    · rw [hout]
      exact hseen.put (hseen.box.vote hmem hpks now hnew)
        (hseen.vote_fresh hmem hs.kept now pk) hcases

/-- **Pruning.** -/
theorem BallotInv.prune (h : BallotInv cr w) (now : UInt64) :
    BallotInv cr { w with box := pruneExpiredBallots now w.box } := by
  refine ⟨⟨h.exact.quorum, h.exact.once⟩, h.orderly, h.box.prune now, ?_⟩
  intro k e he
  rw [pruneExpiredBallots, ExtTreeMap.getElem?_filter'] at he
  exact h.fresh k e (Option.filter_eq_some_iff.1 he).1

theorem ballotInv_empty (cr : Crypto) : BallotInv cr {} := by
  refine ⟨⟨?_, List.Pairwise.nil⟩, ?_, boxInv_empty cr, ?_⟩
  · exact fun snap hsnap => absurd hsnap List.not_mem_nil
  · exact fun v hv => absurd hv List.not_mem_nil
  · intro k e he
    simp at he

/-- The operation submits a sound vote, if one whose signatures hold. -/
def BallotOp.Sound (cr : Crypto) (key : Option PublicKey) (w : Ballots) (op : BallotOp) : Prop :=
  ∀ v ∈ op.vote key, verifySingleVote cr v = true → SoundVote cr w v
deriving Decidable

/-- **One operation.** -/
theorem BallotInv.step {key : Option PublicKey} {op : BallotOp} (h : BallotInv cr w)
    (hs : op.Sound cr key w) : BallotInv cr ((ballots cr cb key).step w op).1 := by
  cases op with
  | receive now v => exact h.submit now (hs v rfl)
  | propose now height period activeNodeCount awards sign =>
    unfold ballots proposeSnapshot
    cases key with
    | none => simpa [BallotOp.vote] using h
    | some pk =>
      by_cases hawards : awards = []
      · simpa [BallotOp.vote, hawards] using h
      · have hvote : BallotOp.vote (some pk)
            (.propose now height period activeNodeCount awards sign) =
              some (ownVote pk sign height period activeNodeCount awards) := if_neg hawards
        have hsub : BallotInv cr (w.submit cr cb now _) := h.submit now (hs _ hvote)
        dsimp only
        rw [if_neg hawards, hvote]
        exact hsub
  | prune now =>
    have hprune := h.prune now
    simpa [ballots, BallotOp.vote] using hprune

/-- **Ballots are exact** in every run of sound votes, at any clock. -/
theorem ballots_exact {key : Option PublicKey} {ops : List BallotOp}
    (hs : (ballots cr cb key).Guarded (fun w op => op.Sound cr key w) {} ops) :
    BallotsExact cr ((ballots cr cb key).run {} ops).1 :=
  (Machine.run_state_invariant (ballots cr cb key) (I := BallotInv cr) (ballotInv_empty cr)
    (fun _ _ h hs => h.step hs) hs).exact

end

/-! ### Votes reused and replayed -/

/-- A vote of a key for a badge of node 9 in the snapshot of height 240, signed for some height. -/
def heightVote (signedFor : UInt64) (challenge r key : UInt8) : Snapshot where
  height := 240
  period := 1
  nodeCount := 1
  badgeAwards :=
    [⟨Pod32.single 9, 1, signedFor, Pod32.single key, ⟨Pod32.single challenge, Pod32.single r⟩⟩]

/-- Three proposers vote, with signatures for height 100. -/
def reusedVotes : List BallotOp := [2, 3, 4].map fun key => .receive 1000 (heightVote 100 6 6 key)

/-- Three proposers vote, with signatures for height 240. -/
def freshVotes : List BallotOp := [2, 3, 4].map fun key => .receive 1000 (heightVote 240 1 1 key)

/-- The ballots with an apply function that succeeds. -/
def applyingBallots : Machine Ballots BallotOp Empty :=
  ballots sevenCurve.crypto { apply := some fun _ => true } none

/-- **Votes are reused and replayed**: signatures for height 100 make the snapshot of height 240
final, and again after a pruning. -/
theorem votes_reused_and_replayed :
    (¬ ∀ (ops : List BallotOp), ∀ snap ∈ (applyingBallots.run {} ops).1.applied,
        ∃ keys : List PublicKey, keys.Nodup ∧ quorumThreshold ≤ keys.length ∧
          ∀ k ∈ keys, VotedFor sevenCurve.crypto (applyingBallots.run {} ops).1.votes snap k) ∧
      ¬ ∀ (ops : List BallotOp), (applyingBallots.run {} ops).1.applied.Pairwise
        fun snap snap' => ¬ snap.Same snap' := by
  constructor
  · intro h
    have hall := h reusedVotes
    generalize hout : (applyingBallots.run {} reusedVotes).1 = w at hall
    have hfacts : (w.applied.map fun snap => (snap.height, snap.subjects)) =
          [(240, [(Pod32.single 9, 1)])] ∧
        ∀ v ∈ w.votes, ∀ a ∈ v.badgeAwards, a.awardedHeight = 100 := by
      rw [← hout]
      decide +kernel
    obtain ⟨happlied, hheights⟩ := hfacts
    obtain ⟨snap, hsnap, hfields⟩ := List.mem_map.1 (happlied ▸ List.mem_cons_self)
    obtain ⟨hheight, hsubjects⟩ := Prod.mk.inj hfields
    obtain ⟨keys, -, hlen, hvoted⟩ := hall snap hsnap
    obtain ⟨k, hk⟩ := List.exists_mem_of_length_pos (Nat.lt_of_lt_of_le (by decide) hlen)
    obtain ⟨v, hv, -, -, -, hsigned⟩ := hvoted k hk
    obtain ⟨a, ha, -, -, haheight, -⟩ := hsigned _ (hsubjects ▸ List.mem_cons_self)
    rw [hheights v hv a ha, hheight] at haheight
    exact absurd haheight (by decide)
  · intro h
    have hall := h (freshVotes ++ [.prune 1001] ++ freshVotes)
    generalize hout : (applyingBallots.run {} (freshVotes ++ [.prune 1001] ++ freshVotes)).1 = w
      at hall
    have happlied : (w.applied.map fun snap => (snap.height, snap.period, snap.subjects)) =
        [(240, 1, [(Pod32.single 9, 1)]), (240, 1, [(Pod32.single 9, 1)])] := by
      rw [← hout]
      decide +kernel
    match hw : w.applied with
    | [snap, snap'] =>
      rw [hw] at hall happlied
      simp only [List.map_cons, List.map_nil, List.cons.injEq, Prod.mk.injEq, and_true] at happlied
      obtain ⟨⟨hh, hp, hs⟩, hh', hp', hs'⟩ := happlied
      refine (List.pairwise_pair.1 hall) ⟨hh.trans hh'.symm, hp.trans hp'.symm, fun x => ?_⟩
      rw [hs, hs']
    | [] => simp [hw] at happlied
    | [_] => simp [hw] at happlied
    | _ :: _ :: _ :: _ => simp [hw] at happlied

/-- Three proposers vote, with signatures for the height of the snapshot: it is applied, exactly. -/
theorem fresh_votes_exact :
    BallotsExact sevenCurve.crypto (applyingBallots.run {} freshVotes).1 ∧
      (applyingBallots.run {} freshVotes).1.applied.length = 1 :=
  ⟨ballots_exact (by decide +kernel), by decide +kernel⟩

end Mevacoin.Trust
