import Mevacoin.Trust.Snapshots

/-!
# What a ballot stands for

As long as no two votes of different content have the same key, every ballot stands for the votes of
its proposers.
-/

namespace Mevacoin.Trust

open Lib Std

/-- The snapshots have the same height, period and set of awards. -/
def Snapshot.Same (v v' : Snapshot) : Prop :=
  v.height = v'.height ∧ v.period = v'.period ∧ ∀ x, x ∈ v.subjects ↔ x ∈ v'.subjects

instance (v v' : Snapshot) : Decidable (v.Same v') :=
  decidable_of_iff (v.height = v'.height ∧ v.period = v'.period ∧
      (∀ x ∈ v.subjects, x ∈ v'.subjects) ∧ ∀ x ∈ v'.subjects, x ∈ v.subjects) (by
    refine and_congr_right' (and_congr_right' ?_)
    exact ⟨fun h x => ⟨h.1 x, h.2 x⟩, fun h => ⟨fun x => (h x).1, fun x => (h x).2⟩⟩)

/-! ### What the key tells -/

section

variable {cr : Crypto} {cb : Callbacks} {v v' snap : Snapshot}

theorem Snapshot.Same.symm (h : v.Same v') : v'.Same v :=
  ⟨h.1.symm, h.2.1.symm, fun x => (h.2.2 x).symm⟩

theorem Snapshot.Same.trans (h : v.Same v') (h' : v'.Same snap) : v.Same snap :=
  ⟨h.1.trans h'.1, h.2.1.trans h'.2.1, fun x => (h.2.2 x).trans (h'.2.2 x)⟩

/-- A subject takes 33 octets. -/
theorem subjectRecord_length (x : Hash × UInt8) : (subjectRecord x).length = 33 := by
  rw [subjectRecord, List.length_append, x.1.size_eq]
  rfl

/-- The octets tell a subject. -/
theorem subjectRecord_injective : Function.Injective subjectRecord := by
  rintro ⟨n, t⟩ ⟨n', t'⟩ h
  obtain ⟨hn, ht⟩ := List.append_inj h (n.size_eq.trans n'.size_eq.symm)
  exact Prod.ext (Pod32.ext hn) (List.singleton_inj.1 ht)

/-- The octets tell the height, the period and the awards. -/
theorem same_of_ballotOctets_eq (h : v.ballotOctets = v'.ballotOctets) : v.Same v' := by
  obtain ⟨hhead, hrecords⟩ := List.append_inj h (by simp)
  obtain ⟨hheight, hperiod⟩ := List.append_inj hhead (by simp)
  have hperm := perm_of_canonical_eq (n := 33) (by decide)
    (fun r hr => by
      obtain ⟨x, -, rfl⟩ := List.mem_map.1 hr
      exact subjectRecord_length x)
    (fun r hr => by
      obtain ⟨x, -, rfl⟩ := List.mem_map.1 hr
      exact subjectRecord_length x) hrecords
  refine ⟨?_, ?_, fun x => ?_⟩
  · exact UInt64.toNat_inj.1 (leBytes_inj v.height.toNat_lt v'.height.toNat_lt hheight)
  · exact UInt32.toNat_inj.1 (leBytes_inj v.period.toNat_lt v'.period.toNat_lt hperiod)
  · rw [← List.mem_map_of_injective subjectRecord_injective, hperm.mem_iff,
      List.mem_map_of_injective subjectRecord_injective]

/-- Snapshots with every award once that are the same have the same octets. -/
theorem ballotOctets_eq_of_same (hv : v.subjects.Nodup) (hv' : v'.subjects.Nodup)
    (h : v.Same v') : v.ballotOctets = v'.ballotOctets := by
  obtain ⟨hheight, hperiod, hsubjects⟩ := h
  unfold Snapshot.ballotOctets
  rw [hheight, hperiod, canonical_perm (((List.perm_ext_iff_of_nodup hv hv').2 hsubjects).map _)]

/-! ### What a vote does to its ballot -/

/-- The awards of a vote are verified. -/
theorem verifyBadgeAward_of_vote {first : BadgeAward} {rest : List BadgeAward}
    (hv : verifySingleVote cr v = true) (hfirst : v.badgeAwards = first :: rest) :
    ∀ a ∈ v.badgeAwards,
      a.proposerPubkey = first.proposerPubkey ∧ verifyBadgeAward cr a = true := by
  intro a ha
  unfold verifySingleVote at hv
  rw [hfirst] at hv
  have := List.all_eq_true.1 hv a (hfirst ▸ ha)
  simpa using this

/-- What has been accumulated. -/
theorem mem_accumulate {known new : List BadgeAward} {x : Hash × UInt8} :
    x ∈ (accumulate known new).map (·.subject) ↔
      x ∈ known.map (·.subject) ∨ x ∈ new.map (·.subject) := by
  induction new generalizing known with
  | nil => simp [accumulate]
  | cons a new ih =>
    rw [accumulate, List.foldl_cons, ← accumulate, ih, List.map_cons, List.mem_cons]
    split_ifs with hin
    · obtain ⟨b, hb, hsame⟩ := List.any_eq_true.1 hin
      have hknown : a.subject ∈ known.map (·.subject) :=
        List.mem_map.2 ⟨b, hb, of_decide_eq_true hsame⟩
      constructor
      · exact fun h => h.imp_right .inr
      · rintro (h | rfl | h)
        · exact .inl h
        · exact .inl hknown
        · exact .inr h
    · rw [List.map_append, List.mem_append, List.map_singleton, List.mem_singleton, or_assoc]

/-- The ballot of a first vote is its own. -/
theorem vote_first (now : UInt64) (k : PublicKey) :
    (({} : BallotEntry).vote now v k).snapshot.Same v := by
  refine ⟨rfl, rfl, fun x => ?_⟩
  show x ∈ (accumulate [] v.badgeAwards).map (·.subject) ↔ x ∈ v.subjects
  rw [mem_accumulate]
  simp [Snapshot.subjects]

/-- A further vote for the same snapshot leaves the ballot the same. -/
theorem vote_next {e : BallotEntry} (now : UInt64) (k : PublicKey) (he : e.proposers ≠ [])
    (hsame : e.snapshot.Same v) : (e.vote now v k).snapshot.Same v := by
  unfold BallotEntry.vote
  rw [if_neg he]
  refine ⟨hsame.1, hsame.2.1, fun x => ?_⟩
  show x ∈ (accumulate e.snapshot.badgeAwards v.badgeAwards).map (·.subject) ↔ x ∈ v.subjects
  rw [mem_accumulate]
  have hx := hsame.2.2 x
  exact ⟨fun h => h.elim hx.1 id, .inr⟩

/-- A vote adds its proposer. -/
theorem vote_proposers (e : BallotEntry) (now : UInt64) (k : PublicKey) :
    (e.vote now v k).proposers = e.proposers ++ [k] := by
  unfold BallotEntry.vote
  split_ifs with h
  · rfl
  · rfl

/-- A later vote finalizes nothing. -/
theorem vote_finalized {e : BallotEntry} (now : UInt64) (k : PublicKey) (he : e.proposers ≠ []) :
    (e.vote now v k).finalized = e.finalized := by
  unfold BallotEntry.vote
  rw [if_neg he]

end

/-! ### What a vote can do -/

section

variable {cr : Crypto} {v : Snapshot}

/-- **What `on_receive_vote` can do** with a valid vote: nothing, if the proposer voted before; or
write the ballot, and apply its snapshot only if it has a quorum and becomes final. -/
theorem onReceiveVote_cases (hv : verifySingleVote cr v = true) (cb : Callbacks) (now : UInt64)
    (box : BallotBox) :
    ∃ pk, (∀ a ∈ v.badgeAwards, a.proposerPubkey = pk ∧ verifyBadgeAward cr a = true) ∧
      ((pk ∈ (box.getD (makeBallotKey cr v) {}).proposers ∧
          onReceiveVote cr cb now v box = (box, [], true)) ∨
        pk ∉ (box.getD (makeBallotKey cr v) {}).proposers ∧
          ∃ e f out ok, e = (box.getD (makeBallotKey cr v) {}).vote now v pk ∧
            onReceiveVote cr cb now v box =
              (box.insert (makeBallotKey cr v) { e with finalized := f }, out, ok) ∧
            (out = [] ∧ (f = false → e.finalized = false) ∨
              out = [e.snapshot] ∧ quorumThreshold ≤ e.proposers.length ∧ e.finalized = false ∧
                f = true)) := by
  unfold onReceiveVote
  cases hfirst : v.badgeAwards with
  | nil => simp [verifySingleVote, hfirst] at hv
  | cons first rest =>
    refine ⟨first.proposerPubkey, hfirst ▸ verifyBadgeAward_of_vote hv hfirst, ?_⟩
    rw [if_neg (by rw [hv]; decide)]
    dsimp only
    by_cases hold : first.proposerPubkey ∈ (box.getD (makeBallotKey cr v) {}).proposers
    · exact .inl ⟨hold, if_pos hold⟩
    refine .inr ⟨hold, ?_⟩
    rw [if_neg hold]
    generalize (box.getD (makeBallotKey cr v) {}).vote now v first.proposerPubkey = e
    split
    · rename_i hquorum
      unfold tryFinalize
      cases cb.apply with
      | none => exact ⟨e, true, [], true, rfl, rfl, .inl ⟨rfl, fun h => by cases h⟩⟩
      | some apply =>
        exact ⟨e, true, [e.snapshot], apply e.snapshot, rfl, rfl,
          .inr ⟨rfl, hquorum.1, hquorum.2, rfl⟩⟩
    · exact ⟨e, e.finalized, [], true, rfl, rfl, .inl ⟨rfl, id⟩⟩

/-- Bad votes are dropped. -/
theorem onReceiveVote_of_not_verified (hv : verifySingleVote cr v = false) (cb : Callbacks)
    (now : UInt64) (box : BallotBox) : onReceiveVote cr cb now v box = (box, [], false) := by
  unfold onReceiveVote
  rw [hv]
  rfl

end

/-! ### Ballots and votes -/

/-- A ballot stands for the votes of its proposers. -/
structure Backed (cr : Crypto) (votes : List Snapshot) (k : Hash) (e : BallotEntry) : Prop where
  nonempty : e.proposers ≠ []
  nodup : e.proposers.Nodup
  voted : ∀ pk ∈ e.proposers, ∃ v ∈ votes, makeBallotKey cr v = k ∧
    ∀ a ∈ v.badgeAwards, a.proposerPubkey = pk ∧ verifyBadgeAward cr a = true
  same : ∀ v ∈ votes, makeBallotKey cr v = k → e.snapshot.Same v

/-- The vote has the key of an earlier vote only if it has its content. -/
def NoCollision (cr : Crypto) (votes : List Snapshot) (v : Snapshot) : Prop :=
  ∀ v' ∈ votes, makeBallotKey cr v' = makeBallotKey cr v → v'.ballotOctets = v.ballotOctets
deriving Decidable

/-- **The box stands for the votes so far.** -/
structure BoxInv (cr : Crypto) (votes : List Snapshot) (box : BallotBox) : Prop where
  octets : ∀ v ∈ votes, NoCollision cr votes v
  backed : ∀ (k : Hash) (e : BallotEntry), box[k]? = some e → Backed cr votes k e

/-- An empty box. -/
theorem boxInv_empty (cr : Crypto) : BoxInv cr [] ∅ := by
  refine ⟨fun v hv => absurd hv List.not_mem_nil, ?_⟩
  intro k e he
  simp at he

section

variable {cr : Crypto} {cb : Callbacks} {votes : List Snapshot} {box : BallotBox} {v : Snapshot}
  {k : Hash} {e : BallotEntry}

/-- Some vote is of the ballot. -/
theorem Backed.exists_vote (h : Backed cr votes k e) : ∃ v ∈ votes, makeBallotKey cr v = k := by
  obtain ⟨pk, hpk⟩ := List.exists_mem_of_ne_nil _ h.nonempty
  obtain ⟨v, hv, hkey, -⟩ := h.voted pk hpk
  exact ⟨v, hv, hkey⟩

theorem Backed.finalize (h : Backed cr votes k e) (f : Bool) :
    Backed cr votes k { e with finalized := f } := ⟨h.nonempty, h.nodup, h.voted, h.same⟩

/-- A vote is added to the votes so far. -/
theorem BoxInv.seen (h : BoxInv cr votes box) (hc : NoCollision cr votes v) :
    BoxInv cr (votes ++ [v]) box := by
  constructor
  · intro v₂ hv₂ v₁ hv₁ hkey
    rcases List.mem_append.1 hv₁ with hv₁ | hv₁
    · rcases List.mem_append.1 hv₂ with hv₂ | hv₂
      · exact h.octets v₂ hv₂ v₁ hv₁ hkey
      · rw [List.mem_singleton.1 hv₂] at hkey ⊢
        exact hc v₁ hv₁ hkey
    · rw [List.mem_singleton.1 hv₁] at hkey ⊢
      rcases List.mem_append.1 hv₂ with hv₂ | hv₂
      · exact (hc v₂ hv₂ hkey.symm).symm
      · rw [List.mem_singleton.1 hv₂]
  · intro k e he
    have hb := h.backed k e he
    refine ⟨hb.nonempty, hb.nodup, ?_, ?_⟩
    · intro pk hpk
      obtain ⟨v', hv', hrest⟩ := hb.voted pk hpk
      exact ⟨v', List.mem_append_left _ hv', hrest⟩
    · intro v' hv' hkey
      rcases List.mem_append.1 hv' with hv' | hv'
      · exact hb.same v' hv' hkey
      · -- some earlier vote is of this ballot, and this one is like it
        rw [List.mem_singleton.1 hv'] at hkey ⊢
        obtain ⟨v₀, hv₀, hkey₀⟩ := hb.exists_vote
        exact (hb.same v₀ hv₀ hkey₀).trans
          (same_of_ballotOctets_eq (hc v₀ hv₀ (hkey₀.trans hkey.symm)))

/-- **The ballot of a vote of a new proposer is backed.** -/
theorem BoxInv.vote (h : BoxInv cr votes box) (hv : v ∈ votes) {pk : PublicKey}
    (hpks : ∀ a ∈ v.badgeAwards, a.proposerPubkey = pk ∧ verifyBadgeAward cr a = true)
    (now : UInt64) (hnew : pk ∉ (box.getD (makeBallotKey cr v) {}).proposers) :
    Backed cr votes (makeBallotKey cr v) ((box.getD (makeBallotKey cr v) {}).vote now v pk) := by
  have hall : ∀ {snap : Snapshot}, snap.Same v → ∀ v' ∈ votes,
      makeBallotKey cr v' = makeBallotKey cr v → snap.Same v' := fun hsame v' hv' hkey =>
    hsame.trans (same_of_ballotOctets_eq (h.octets v hv v' hv' hkey)).symm
  cases hbox : box[makeBallotKey cr v]? with
  | none =>
    rw [ExtTreeMap.getD_eq_getD_getElem?, hbox]
    refine ⟨?_, ?_, ?_, hall (vote_first now pk)⟩
    · exact List.cons_ne_nil _ _
    · exact List.nodup_singleton _
    · intro pk' hpk'
      rw [List.mem_singleton.1 hpk']
      exact ⟨v, hv, rfl, hpks⟩
  | some e =>
    rw [ExtTreeMap.getD_eq_getD_getElem?, hbox] at hnew ⊢
    have hb := h.backed _ e hbox
    refine ⟨?_, ?_, ?_, hall (vote_next now pk hb.nonempty (hb.same v hv rfl))⟩
    · rw [vote_proposers]
      exact List.append_ne_nil_of_left_ne_nil hb.nonempty _
    · rw [vote_proposers]
      refine List.nodup_append.2 ⟨hb.nodup, List.nodup_singleton _, fun a ha b hbm => ?_⟩
      rw [List.mem_singleton.1 hbm]
      exact fun heq => hnew (heq ▸ ha)
    · intro pk' hpk'
      rw [vote_proposers] at hpk'
      rcases List.mem_append.1 hpk' with hpk' | hpk'
      · exact hb.voted pk' hpk'
      · rw [List.mem_singleton.1 hpk']
        exact ⟨v, hv, rfl, hpks⟩

/-- A ballot that is backed is written. -/
theorem BoxInv.put (h : BoxInv cr votes box) (hb : Backed cr votes k e) :
    BoxInv cr votes (box.insert k e) := by
  refine ⟨h.octets, ?_⟩
  intro k' e' he'
  simp only [ExtTreeMap.getElem?_insert, LawfulEqOrd.compare_eq_iff_eq] at he'
  split_ifs at he' with hk
  · subst hk
    obtain rfl := Option.some.inj he'
    exact hb
  · exact h.backed k' e' he'

/-- **A vote.** -/
theorem BoxInv.onReceiveVote (h : BoxInv cr votes box) (now : UInt64)
    (hc : verifySingleVote cr v = true → NoCollision cr votes v) :
    BoxInv cr (votes ++ [v].filter (verifySingleVote cr))
      (Trust.onReceiveVote cr cb now v box).1 := by
  cases hv : verifySingleVote cr v with
  | false =>
    rw [onReceiveVote_of_not_verified hv]
    simpa [hv] using h
  | true =>
    have hseen := h.seen (hc hv)
    have hmem : v ∈ votes ++ [v] := List.mem_append_right _ List.mem_cons_self
    rw [List.filter_cons_of_pos hv]
    obtain ⟨pk, hpks, ⟨-, hout⟩ | ⟨hnew, e, f, out, ok, rfl, hout, -⟩⟩ :=
      onReceiveVote_cases hv cb now box
    · rw [hout]
      exact hseen
    · rw [hout]
      exact hseen.put ((hseen.vote hmem hpks now hnew).finalize f)

/-- **A pruning.** -/
theorem BoxInv.prune (h : BoxInv cr votes box) (now : UInt64) :
    BoxInv cr votes (pruneExpiredBallots now box) := by
  refine ⟨h.octets, ?_⟩
  intro k e he
  rw [pruneExpiredBallots, ExtTreeMap.getElem?_filter'] at he
  exact h.backed k e (Option.filter_eq_some_iff.1 he).1

end

end Mevacoin.Trust
