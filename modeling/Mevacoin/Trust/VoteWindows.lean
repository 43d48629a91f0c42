import Mevacoin.Trust.CircleQuorum

/-!
# The window of a vote

`finalize_vote` does not decide before the window of a proposal is over (`VOTE_WINDOW_BLOCKS`), but
`cast_vote` takes votes until somebody asks for a decision.
-/

namespace Mevacoin.Trust

open Lib Std

/-! ### Runs -/

/-- The circles, and the height that was reached. -/
structure VoteState where
  circles : CircleRegistry := {}
  height : UInt64 := 0

/-- The calls of a vote. -/
inductive VoteCall where
  | propose (cid : Hash) (proposer target : PublicKey) (height : UInt64)
  | cast (pid : Hash) (voter : PublicKey) (voteYes : Bool) (height : UInt64)
  | finalize (pid : Hash) (height now : UInt64)
  /-- Between the calls the circles change in some way. -/
  | edit (circles : ExtTreeMap Hash CircleEntry)

/-- A proposal when it is decided, and the votes that are counted. -/
structure VoteDecision where
  proposal : ProposalEntry
  votes : List VoteEntry
deriving DecidableEq

/-- The length of the window. -/
def ProposalEntry.window (p : ProposalEntry) : ℕ := if p.convocation = 0 then 10080 else 20160

/-- The vote was cast in the window of the proposal. -/
def VoteEntry.Within (v : VoteEntry) (p : ProposalEntry) : Prop :=
  p.createdHeight.toNat ≤ v.height.toNat ∧ v.height.toNat ≤ p.createdHeight.toNat + p.window
deriving Decidable

section

variable (D : Type) [FloatArith D]

/-- What `finalize_vote` decides: an open proposal, for which it returns 2 or 3. -/
def CircleRegistry.decisions (c : CircleRegistry) (pid : Hash) (height now : UInt64) :
    List VoteDecision :=
  match c.proposals[pid]? with
  | none => []
  | some p =>
    if p.isOpen ∧ (c.finalizeVote D pid height now).2 ∈ [2, 3] then [⟨p, c.votesOn pid⟩] else []

/-- One call, and the decisions it makes. -/
def VoteCall.step (cr : Crypto) (s : VoteState) : VoteCall → VoteState × List VoteDecision
  | propose cid proposer target height =>
    (⟨(s.circles.createProposal cr cid proposer target height).1, height⟩, [])
  | cast pid voter voteYes height =>
    (⟨(s.circles.castVote pid voter voteYes height).getD s.circles, height⟩, [])
  | finalize pid height now =>
    (⟨(s.circles.finalizeVote D pid height now).1, height⟩, s.circles.decisions D pid height now)
  | edit circles => ({ s with circles.circles := circles }, [])

/-- The machine of the calls. -/
def votingMachine (cr : Crypto) : Machine VoteState VoteCall VoteDecision := ⟨VoteCall.step D cr⟩

end

/-- **A timely call**: heights do not decrease, a vote is cast in the window, and a new proposal
does not get the identity of one of another height. -/
def VoteCall.Timely (cr : Crypto) (s : VoteState) : VoteCall → Prop
  | propose cid _ target height => s.height ≤ height ∧
      ∀ q ∈ s.circles.proposals[cr.cnFastHash (cid.data ++ target.data ++
        leBytes 8 height.toNat)]?, q.createdHeight = height
  | cast pid _ _ height => s.height ≤ height ∧
      ∀ p ∈ s.circles.proposals[pid]?, p.isOpen = true →
        height.toNat ≤ p.createdHeight.toNat + p.window
  | finalize _ height _ => s.height ≤ height
  | edit _ => True

instance (cr : Crypto) (s : VoteState) (c : VoteCall) : Decidable (c.Timely cr s) := by
  cases c <;> (unfold VoteCall.Timely; infer_instance)

/-! ### Votes and proposals that fit -/

/-- Proposals are as old as the run, decided ones older than the window, and every vote is on a
proposal, in its window and under its own key. -/
structure VoteState.Fits (s : VoteState) : Prop where
  proposals : ∀ (pid : Hash) p, s.circles.proposals[pid]? = some p → p.createdHeight ≤ s.height ∧
    (p.isOpen = false → p.createdHeight.toNat + 10080 ≤ s.height.toNat)
  votes : ∀ (k : Bytes) v, s.circles.votes[k]? = some v →
    k = CircleRegistry.voteKey v.proposalId v.voterPk ∧ v.height ≤ s.height ∧
      ∃ p, s.circles.proposals[v.proposalId]? = some p ∧ v.Within p

theorem take_voteKey (pid : Hash) (k : PublicKey) :
    (CircleRegistry.voteKey pid k).take 32 = pid.data := List.take_left' pid.size_eq

theorem voteKey_inj {pid pid' : Hash} {k k' : PublicKey}
    (h : CircleRegistry.voteKey pid k = CircleRegistry.voteKey pid' k') : pid = pid' ∧ k = k' := by
  obtain ⟨hpid, hk⟩ := List.append_inj h (pid.size_eq.trans pid'.size_eq.symm)
  exact ⟨Pod32.ext hpid, Pod32.ext hk⟩

section

variable {s : VoteState} {pid : Hash} {p : ProposalEntry} {v : VoteEntry}

theorem VoteState.Fits.mem_votesOn (hs : s.Fits) :
    v ∈ s.circles.votesOn pid ↔
      v.proposalId = pid ∧ s.circles.votes[CircleRegistry.voteKey pid v.voterPk]? = some v := by
  unfold CircleRegistry.votesOn
  simp only [List.mem_map, List.mem_filter, decide_eq_true_eq, Prod.exists, exists_eq_right,
    ExtTreeMap.mem_toList_iff_getElem?_eq_some]
  constructor
  · rintro ⟨k, hk, hpid⟩
    obtain ⟨rfl, -⟩ := hs.votes k v hk
    rw [take_voteKey] at hpid
    obtain rfl := Pod32.ext hpid
    exact ⟨rfl, hk⟩
  · rintro ⟨rfl, hk⟩
    exact ⟨_, hk, take_voteKey _ _⟩

/-- **What a decision counts**: votes of the window, one of each voter. -/
theorem VoteState.Fits.votesOn (hs : s.Fits) (hp : s.circles.proposals[pid]? = some p) :
    (∀ v ∈ s.circles.votesOn pid, v.Within p) ∧
      ((s.circles.votesOn pid).map (·.voterPk)).Nodup := by
  constructor
  · intro v hv
    obtain ⟨rfl, hv⟩ := hs.mem_votesOn.mp hv
    obtain ⟨-, -, q, hq, hwithin⟩ := hs.votes _ v hv
    rwa [Option.some.inj (hp.symm.trans hq)]
  · unfold CircleRegistry.votesOn
    rw [List.map_map]
    refine List.pairwise_map.mpr ((ExtTreeMap.distinct_keys_toList.filter _).imp_of_mem ?_)
    rintro ⟨k, v⟩ ⟨k', v'⟩ hkv hkv' hne heq
    -- two votes of one voter on one proposal have one key
    obtain ⟨hkv, hpid⟩ := List.mem_filter.mp hkv
    obtain ⟨hkv', hpid'⟩ := List.mem_filter.mp hkv'
    obtain ⟨rfl, -⟩ := hs.votes k v (ExtTreeMap.mem_toList_iff_getElem?_eq_some.mp hkv)
    obtain ⟨rfl, -⟩ := hs.votes k' v' (ExtTreeMap.mem_toList_iff_getElem?_eq_some.mp hkv')
    have hsame : v.proposalId.data = v'.proposalId.data := by
      rw [← take_voteKey v.proposalId v.voterPk, ← take_voteKey v'.proposalId v'.voterPk,
        of_decide_eq_true hpid, of_decide_eq_true hpid']
    refine hne (LawfulEqCmp.compare_eq_iff_eq.mpr ?_)
    dsimp only [Function.comp] at heq ⊢
    rw [Pod32.ext hsame, heq]

/-! ### One call -/

variable {c : CircleRegistry} {height : UInt64}

theorem VoteState.Fits.idle (hs : s.Fits) (hle : s.height ≤ height)
    (hproposals : c.proposals = s.circles.proposals) (hvotes : c.votes = s.circles.votes) :
    (⟨c, height⟩ : VoteState).Fits where
  proposals pid p hp := by
    obtain ⟨hage, hclosed⟩ := hs.proposals pid p (hproposals ▸ hp)
    exact ⟨UInt64.le_trans hage hle, fun h => (hclosed h).trans (UInt64.le_iff_toNat_le.mp hle)⟩
  votes k v hv := by
    obtain ⟨hkey, hage, hon⟩ := hs.votes k v (hvotes ▸ hv)
    exact ⟨hkey, UInt64.le_trans hage hle, hproposals ▸ hon⟩

/-- A proposal is written, with a window that the votes on the old one lie in. -/
theorem VoteState.Fits.set (hs : s.Fits) (hle : s.height ≤ height)
    (hproposals : c.proposals = s.circles.proposals.insert pid p)
    (hvotes : c.votes = s.circles.votes) (hage : p.createdHeight ≤ height)
    (hclosed : p.isOpen = false → p.createdHeight.toNat + 10080 ≤ height.toNat)
    (hwithin : ∀ q, s.circles.proposals[pid]? = some q → ∀ v : VoteEntry, v.height ≤ s.height →
      v.Within q → v.Within p) : (⟨c, height⟩ : VoteState).Fits where
  proposals i q hq := by
    by_cases hi : pid = i
    · subst hi
      rw [hproposals, ExtTreeMap.getElem?_insert_self] at hq
      obtain rfl := Option.some.inj hq
      exact ⟨hage, hclosed⟩
    · rw [hproposals, getElem?_insert_of_ne hi] at hq
      obtain ⟨hage, hclosed⟩ := hs.proposals i q hq
      exact ⟨UInt64.le_trans hage hle, fun h => (hclosed h).trans (UInt64.le_iff_toNat_le.mp hle)⟩
  votes k v hv := by
    obtain ⟨hkey, hage, q, hq, hv⟩ := hs.votes k v (hvotes ▸ hv)
    refine ⟨hkey, UInt64.le_trans hage hle, ?_⟩
    by_cases hi : pid = v.proposalId
    · subst hi
      exact ⟨p, by rw [hproposals, ExtTreeMap.getElem?_insert_self], hwithin q hq v hage hv⟩
    · exact ⟨q, by rwa [hproposals, getElem?_insert_of_ne hi], hv⟩

/-- A call that is over the window is late by as much. -/
theorem ProposalEntry.window_le_of_not_pending (hage : p.createdHeight ≤ height)
    (hover : ¬ p.Pending height) : p.createdHeight.toNat + p.window ≤ height.toNat := by
  have hsub := UInt64.toNat_sub_of_le _ _ hage
  unfold Pending at hover
  unfold window
  split_ifs at hover ⊢
  · rw [UInt64.lt_iff_toNat_lt] at hover
    simp only [voteWindowBlocks, UInt64.reduceToNat] at hover
    omega
  · rw [UInt64.lt_iff_toNat_lt] at hover
    simp only [voteWindowBlocks, UInt64.reduceToNat, UInt64.reduceMul] at hover
    omega

variable {D : Type} [FloatArith D] {cr : Crypto} {call : VoteCall}

/-- **A timely call keeps the votes in order.** -/
theorem VoteState.Fits.step (hs : s.Fits) (h : call.Timely cr s) : (call.step D cr s).1.Fits := by
  cases call with
  | propose cid proposer target height =>
    obtain ⟨hle, hid⟩ := h
    dsimp only [VoteCall.step]
    obtain hsame | ⟨p, hpid, hcreated, hopen, hfirst, hset⟩ :=
      createProposal_cases s.circles cr cid proposer target height
    · rw [hsame]
      exact hs.idle hle rfl rfl
    · rw [hset]
      refine hs.set hle rfl rfl (hcreated ▸ UInt64.le_refl _) ?_ ?_
      · simp [ProposalEntry.isOpen, hopen]
      · -- votes on a proposal that is written over were cast at the same height
        intro q hq v hv hwithin
        have hsame := hid q (hpid ▸ hq)
        have hnow := UInt64.le_iff_toNat_le.mp (UInt64.le_trans hv hle)
        unfold VoteEntry.Within at hwithin ⊢
        rw [hsame] at hwithin
        rw [hcreated]
        exact ⟨hwithin.1, hnow.trans (Nat.le_add_right _ _)⟩
  | cast pid voter voteYes height =>
    obtain ⟨hle, htime⟩ := h
    dsimp only [VoteCall.step]
    cases hcast : s.circles.castVote pid voter voteYes height with
    | none => exact hs.idle hle rfl rfl
    | some c' =>
      obtain ⟨⟨p, e, hp, hopen, -, -⟩, -, rfl⟩ := castVote_eq_some_iff.mp hcast
      have hidle := hs.idle (c := s.circles) hle rfl rfl
      refine ⟨hidle.proposals, fun k v hv => ?_⟩
      rw [Option.getD_some, ExtTreeMap.getElem?_insert] at hv
      split_ifs at hv with hk
      · obtain rfl := Option.some.inj hv
        have hage := UInt64.le_trans (hs.proposals pid p hp).1 hle
        exact ⟨(LawfulEqCmp.eq_of_compare hk).symm, UInt64.le_refl _, p, hp,
          UInt64.le_iff_toNat_le.mp hage, htime p hp hopen⟩
      · exact hidle.votes k v hv
  | finalize pid height now =>
    have hle : s.height ≤ height := h
    dsimp only [VoteCall.step]
    have hclosing := voteClosing D s.circles pid height now
    generalize s.circles.finalizeVote D pid height now = out at hclosing ⊢
    -- a proposal that is closed keeps its age, and its window does not shrink
    have hset : ∀ {p p' : ProposalEntry} {c' : CircleRegistry},
        s.circles.proposals[pid]? = some p → ¬ p.Pending height →
        c'.proposals = s.circles.proposals.insert pid p' → c'.votes = s.circles.votes →
        p'.createdHeight = p.createdHeight → p.window ≤ p'.window →
        (⟨c', height⟩ : VoteState).Fits := by
      intro p p' c' hp hpending hproposals hvotes hcreated hwindow
      have hage := UInt64.le_trans (hs.proposals pid p hp).1 hle
      have hlate := ProposalEntry.window_le_of_not_pending hage hpending
      refine hs.set hle hproposals hvotes (hcreated ▸ hage) (fun _ => ?_) ?_
      · rw [hcreated]
        refine Nat.le_trans (Nat.add_le_add_left ?_ _) hlate
        unfold ProposalEntry.window
        split_ifs <;> decide
      · rintro q hq v - ⟨hfrom, hto⟩
        obtain rfl := Option.some.inj (hp.symm.trans hq)
        unfold VoteEntry.Within
        rw [hcreated]
        exact ⟨hfrom, hto.trans (Nat.add_le_add_left hwindow _)⟩
    cases hclosing with
    | idle => exact hs.idle hle rfl rfl
    | lost _ hp _ hpending
    | carried hp _ hpending => exact hset hp hpending rfl rfl rfl (Nat.le_refl _)
    | recalled hp _ hpending _ hfirst =>
      refine hset hp hpending rfl rfl rfl ?_
      rw [ProposalEntry.window, if_pos hfirst]
      exact (by decide : 10080 ≤ 20160)
  | edit circles => exact hs.idle (UInt64.le_refl _) rfl rfl

/-- **A timely call leaves a decided proposal alone**, and the votes on it. -/
theorem VoteState.Fits.kept (hs : s.Fits) (h : call.Timely cr s)
    (hp : s.circles.proposals[pid]? = some p) (hclosed : p.isOpen = false) :
    (call.step D cr s).1.circles.proposals[pid]? = some p ∧
      ∀ v, v ∈ (call.step D cr s).1.circles.votesOn pid ↔ v ∈ s.circles.votesOn pid := by
  have hs' := hs.step (D := D) h
  simp only [hs'.mem_votesOn, hs.mem_votesOn]
  cases call with
  | propose cid proposer target height =>
    obtain ⟨hle, hid⟩ := h
    dsimp only [VoteCall.step]
    obtain hsame | ⟨q, hpid, -, -, -, hset⟩ :=
      createProposal_cases s.circles cr cid proposer target height
    · rw [hsame]
      exact ⟨hp, fun v => Iff.rfl⟩
    · rw [hset]
      refine ⟨(getElem?_insert_of_ne ?_ _).trans hp, fun v => Iff.rfl⟩
      -- the window of a decided proposal is over
      rintro rfl
      have hlate := (hs.proposals _ p hp).2 hclosed
      rw [hid p (hpid ▸ hp)] at hlate
      have := UInt64.le_iff_toNat_le.mp hle
      omega
  | cast pid' voter voteYes height =>
    dsimp only [VoteCall.step]
    cases hcast : s.circles.castVote pid' voter voteYes height with
    | none => exact ⟨hp, fun v => Iff.rfl⟩
    | some c' =>
      obtain ⟨⟨q, e, hq, hopen, -, -⟩, -, rfl⟩ := castVote_eq_some_iff.mp hcast
      refine ⟨hp, fun v => and_congr_right fun _ => ?_⟩
      dsimp only [Option.getD_some]
      rw [getElem?_insert_of_ne]
      intro hkey
      obtain rfl := (voteKey_inj hkey).1
      rw [Option.some.inj (hp.symm.trans hq), hopen] at hclosed
      cases hclosed
  | finalize pid' height now =>
    dsimp only [VoteCall.step]
    have hclosing := voteClosing D s.circles pid' height now
    generalize s.circles.finalizeVote D pid' height now = out at hclosing ⊢
    have hne : ∀ {q : ProposalEntry}, s.circles.proposals[pid']? = some q → q.isOpen = true →
        pid' ≠ pid := by
      rintro q hq hopen rfl
      rw [Option.some.inj (hp.symm.trans hq), hopen] at hclosed
      cases hclosed
    cases hclosing with
    | idle => exact ⟨hp, fun v => Iff.rfl⟩
    | lost _ hq hopen | carried hq hopen | recalled hq hopen =>
      exact ⟨(getElem?_insert_of_ne (hne hq hopen) _).trans hp, fun v => Iff.rfl⟩
  | edit circles => exact ⟨hp, fun v => Iff.rfl⟩

/-- **A decision counts votes of the window**, one of each voter. -/
theorem VoteState.Fits.decides (hs : s.Fits) :
    ∀ d ∈ (call.step D cr s).2,
      (∀ v ∈ d.votes, v.Within d.proposal) ∧ (d.votes.map (·.voterPk)).Nodup := by
  intro d hd
  cases call with
  | propose | cast | edit => exact absurd hd List.not_mem_nil
  | finalize pid height now =>
    dsimp only [VoteCall.step, CircleRegistry.decisions] at hd
    cases hp : s.circles.proposals[pid]? with
    | none => simp [hp] at hd
    | some p =>
      simp only [hp] at hd
      split_ifs at hd
      · rw [List.mem_singleton.mp hd]
        exact hs.votesOn hp
      · exact absurd hd List.not_mem_nil

end

/-! ### All calls -/

section

variable {D : Type} [FloatArith D] {cr : Crypto} {s : VoteState} {calls : List VoteCall}

theorem VoteState.Fits.run (hs : s.Fits)
    (h : (votingMachine D cr).Guarded (VoteCall.Timely cr) s calls) :
    ((votingMachine D cr).run s calls).1.Fits :=
  Machine.run_state_invariant _ (I := VoteState.Fits) hs (fun _ _ hs h => hs.step h) h

/-- A decided proposal stays as it is to the end of the run. -/
theorem VoteState.Fits.run_kept (hs : s.Fits)
    (h : (votingMachine D cr).Guarded (VoteCall.Timely cr) s calls) {pid : Hash} {p : ProposalEntry}
    (hp : s.circles.proposals[pid]? = some p) (hclosed : p.isOpen = false) :
    ((votingMachine D cr).run s calls).1.circles.proposals[pid]? = some p ∧
      ∀ v, v ∈ ((votingMachine D cr).run s calls).1.circles.votesOn pid ↔
        v ∈ s.circles.votesOn pid := by
  induction calls generalizing s with
  | nil => exact ⟨hp, fun v => Iff.rfl⟩
  | cons call calls ih =>
    obtain ⟨hp', hvotes⟩ := hs.kept (D := D) h.1 hp hclosed
    obtain ⟨hend, hvotes'⟩ := ih (hs.step h.1) h.2 hp'
    exact ⟨hend, fun v => (hvotes' v).trans (hvotes v)⟩

end

/-- **Votes are cast in the window and decisions are final**, in every run of timely calls: a
decision counts votes of its window and of different voters, and is the same after all further
calls. -/
theorem votes_in_window (D : Type) [FloatArith D] (cr : Crypto) (calls : List VoteCall)
    (h : (votingMachine D cr).Guarded (VoteCall.Timely cr) {} calls) :
    (∀ d ∈ ((votingMachine D cr).run {} calls).2,
        (∀ v ∈ d.votes, v.Within d.proposal) ∧ (d.votes.map (·.voterPk)).Nodup) ∧
      ∀ before after, calls = before ++ after → ∀ (pid : Hash) p,
        ((votingMachine D cr).run {} before).1.circles.proposals[pid]? = some p →
        p.isOpen = false →
        ((votingMachine D cr).run {} calls).1.circles.proposals[pid]? = some p ∧
          ∀ v, v ∈ ((votingMachine D cr).run {} calls).1.circles.votesOn pid ↔
            v ∈ ((votingMachine D cr).run {} before).1.circles.votesOn pid := by
  have hinit : VoteState.Fits {} := ⟨fun pid p hp => by simp at hp, fun k v hv => by simp at hv⟩
  constructor
  · refine (Machine.run_invariant (votingMachine D cr)
      (I := fun s evs => s.Fits ∧ ∀ d ∈ evs, (∀ v ∈ d.votes, v.Within d.proposal) ∧
        (d.votes.map (·.voterPk)).Nodup) ⟨hinit, by simp⟩ ?_ h).2
    rintro s evs call ⟨hs, hevs⟩ hcall
    exact ⟨hs.step hcall, List.forall_mem_append.mpr ⟨hevs, hs.decides⟩⟩
  · rintro before after rfl pid p hp hclosed
    obtain ⟨hbefore, hafter⟩ := (Machine.guarded_append _).mp h
    rw [Machine.run_append]
    exact (hinit.run hbefore).run_kept hafter hp hclosed

/-- A circle of three; key 2 is proposed at height 200, and keys 2 and 3 vote before the
decision. -/
def votesForTwo (height : UInt64) : List VoteCall :=
  [.edit (ExtTreeMap.insert ∅ (Pod32.fill 1) ⟨.fill 1, asciiBytes "club", .fill 1,
      [.fill 1, .fill 2, .fill 3], 100, 1000, 1000⟩),
    .propose (.fill 1) (.fill 1) (.fill 2) 200, .cast (.fill 1) (.fill 2) true 300,
    .cast (.fill 1) (.fill 3) true height, .finalize (.fill 1) (height + 1) 2000]

/-- Two votes of the first week, counted in the second. -/
theorem votes_in_window_of_two :
    (((votingMachine ℚ oneHash).run {} (votesForTwo 10280)).2.map fun d => d.votes.length) = [2] ∧
      ∀ d ∈ ((votingMachine ℚ oneHash).run {} (votesForTwo 10280)).2,
        ∀ v ∈ d.votes, v.Within d.proposal :=
  ⟨by decide +kernel,
    fun d hd => ((votes_in_window ℚ oneHash _ (by decide +kernel)).1 d hd).1⟩

/-- **A vote after the window is counted**: key 3 votes two weeks after the proposal. -/
theorem late_vote_counted :
    (((votingMachine ℚ oneHash).run {} (votesForTwo 20000)).2.map fun d =>
        (d.proposal.convocation, d.proposal.createdHeight, d.votes.map (·.height))) =
        [(0, 200, [300, 20000])] ∧
      ¬ ∀ d ∈ ((votingMachine ℚ oneHash).run {} (votesForTwo 20000)).2,
        ∀ v ∈ d.votes, v.Within d.proposal := by
  decide +kernel

end Mevacoin.Trust
