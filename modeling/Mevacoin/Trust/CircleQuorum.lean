import Mevacoin.Trust.CircleIntegrity

/-!
# The quorum of a circle

`finalize_vote` (`src/cryptonote_core/mevatrust/circle_registry.cpp`) rounds its threshold to the
nearest integer and counts also the votes of people who have left.  The quorum constants are read as
exact fractions.
-/

namespace Mevacoin.Trust

open Lib Std

/-! ### The threshold -/

/-- The threshold is the fraction, rounded to the nearest integer and up from the middle. -/
theorem toNat_quorumThreshold {k n : ℕ} (hk : k ≤ 2) (hn : n ≤ maxCircleMembers) :
    (CircleRegistry.quorumThreshold ℚ k n).toNat = (2 * (k * n) + 3) / 6 := by
  have hfloor : ⌊(n : ℚ) * ((k : ℚ) / 3) + 1 / 2⌋ = (((2 * (k * n) + 3) / 6 : ℕ) : ℤ) := by
    have hsum : (n : ℚ) * ((k : ℚ) / 3) + 1 / 2 = ((2 * (k * n) + 3 : ℕ) : ℚ) / (6 : ℕ) := by
      push_cast
      ring
    rw [hsum, Rat.floor_natCast_div_natCast]
    exact (Int.natCast_div _ _).symm
  have hbound : (2 * (k * n) + 3) / 6 < 2 ^ 64 := by
    have := Nat.mul_le_mul hk hn
    simp only [maxCircleMembers] at this
    omega
  show (UInt64.ofNat ⌊(n : ℚ) * ((k : ℚ) / 3) + 1 / 2⌋.toNat).toNat = _
  rw [hfloor, Int.toNat_natCast, UInt64.toNat_ofNat_of_lt' hbound]

/-! ### Approvals -/

/-- An approval: the thirds asked for, the members, and how many of them voted and voted yes. -/
structure Approval where
  thirds : ℕ
  members : ℕ
  cast : ℕ
  yes : ℕ
deriving DecidableEq

/-- The members who have voted are the quorum, and more than half of them say yes. -/
def Approval.Proper (a : Approval) : Prop := a.thirds * a.members ≤ 3 * a.cast ∧ a.cast < 2 * a.yes
deriving Decidable

/-- The thirds of the members that a proposal needs. -/
def ProposalEntry.thirds (p : ProposalEntry) : ℕ := if p.convocation = 0 then 2 else 1

namespace CircleRegistry

/-- The votes on a proposal by those who are members now. -/
def memberVotes (c : CircleRegistry) (pid : Hash) (e : CircleEntry) : List VoteEntry :=
  (c.votesOn pid).filter (·.voterPk ∈ e.members)

/-- How the members have voted. -/
def tally (c : CircleRegistry) (pid : Hash) (p : ProposalEntry) (e : CircleEntry) : Approval where
  thirds := p.thirds
  members := e.members.length
  cast := (c.memberVotes pid e).length
  yes := (c.memberVotes pid e).countP (·.voteYes)

/-- What `finalize_vote` approves: an open proposal, for which it returns 2. -/
def approvals (c : CircleRegistry) (pid : Hash) (height now : UInt64) : List Approval :=
  match c.proposals[pid]? with
  | none => []
  | some p =>
    match c.circles[p.circleId]? with
    | none => []
    | some e =>
      if p.isOpen ∧ (c.finalizeVote ℚ pid height now).2 = 2 then [c.tally pid p e] else []

/-- Everybody who has voted on the proposal is a member, and the rounding does not let through one
vote too few. -/
def Undistorted (c : CircleRegistry) (pid : Hash) : Prop :=
  ∀ p ∈ c.proposals[pid]?, ∀ e ∈ c.circles[p.circleId]?, p.isOpen = true →
    (∀ v ∈ c.votesOn pid, v.voterPk ∈ e.members) ∧
      ¬ (p.thirds * e.members.length % 3 = 1 ∧
        (c.votesOn pid).length = p.thirds * e.members.length / 3)
deriving Decidable

section

variable {c : CircleRegistry} {pid : Hash} {p : ProposalEntry} {e : CircleEntry}
  {height now : UInt64}

/-- What is approved is carried by the votes that are stored. -/
theorem carried_of_finalizeVote (hp : c.proposals[pid]? = some p)
    (he : c.circles[p.circleId]? = some e) (hopen : p.isOpen = true)
    (h : (c.finalizeVote ℚ pid height now).2 = 2) : c.Carried ℚ pid p e := by
  have hclosing := voteClosing ℚ c pid height now
  generalize c.finalizeVote ℚ pid height now = out at hclosing h
  cases hclosing with
  | idle hidle => exact absurd h (hidle p hp hopen).2
  | lost | recalled => cases h
  | carried hp' _ _ he' hcarried =>
    obtain rfl := Option.some.inj (hp.symm.trans hp')
    rwa [Option.some.inj (he.symm.trans he')]

/-- **When a carried vote is proper**, if all who voted are members. -/
theorem tally_proper_iff (hsize : e.members.length ≤ maxCircleMembers)
    (hmembers : ∀ v ∈ c.votesOn pid, v.voterPk ∈ e.members) (hcarried : c.Carried ℚ pid p e) :
    (c.tally pid p e).Proper ↔
      ¬ (p.thirds * e.members.length % 3 = 1 ∧
        (c.votesOn pid).length = p.thirds * e.members.length / 3) := by
  have hall : c.memberVotes pid e = c.votesOn pid :=
    List.filter_eq_self.mpr fun v hv => by simpa using hmembers v hv
  obtain ⟨hquorum, hmajority⟩ := hcarried
  have hthirds : (if p.convocation = 0 then (2 : ℚ) else 1) = (p.thirds : ℕ) := by
    unfold ProposalEntry.thirds
    split_ifs <;> rfl
  have hle : p.thirds ≤ 2 := by
    unfold ProposalEntry.thirds
    split_ifs <;> omega
  rw [hthirds, toNat_quorumThreshold hle hsize] at hquorum
  unfold Approval.Proper tally
  simp only [hall]
  constructor
  · omega
  · intro hround
    constructor
    · by_contra hfew
      exact hround (by omega)
    · omega

theorem approvals_proper_of_undistorted
    (hsize : ∀ (cid : Hash) (e : CircleEntry), c.circles[cid]? = some e →
      e.members.length ≤ maxCircleMembers)
    (h : c.Undistorted pid) : ∀ a ∈ c.approvals pid height now, a.Proper := by
  intro a ha
  unfold approvals at ha
  cases hp : c.proposals[pid]? with
  | none => simp [hp] at ha
  | some p =>
    cases he : c.circles[p.circleId]? with
    | none => simp [hp, he] at ha
    | some e =>
      simp only [hp, he] at ha
      split_ifs at ha with hap
      · obtain ⟨hopen, htwo⟩ := hap
        obtain ⟨hmembers, hround⟩ := h p hp e he hopen
        rw [List.mem_singleton.mp ha]
        exact (tally_proper_iff (hsize _ e he) hmembers
          (carried_of_finalizeVote hp he hopen htwo)).mpr hround
      · exact absurd ha List.not_mem_nil

end

end CircleRegistry

/-! ### Runs -/

/-- The operations on the circles, with what they read from the clock. -/
inductive CircleCall where
  | create (name : Bytes) (admin : PublicKey) (height now : UInt64)
  | addMember (cid : Hash) (member caller : PublicKey) (now : UInt64)
  | removeMember (cid : Hash) (member caller : PublicKey) (now : UInt64)
  | changeAdmin (cid : Hash) (newAdmin caller : PublicKey) (now : UInt64)
  | disband (cid : Hash) (caller : PublicKey)
  | propose (cid : Hash) (proposer target : PublicKey) (height : UInt64)
  | cast (pid : Hash) (voter : PublicKey) (voteYes : Bool) (height : UInt64)
  | finalize (pid : Hash) (height now : UInt64)
  /-- `set_admin`, when a block is popped. -/
  | setAdmin (cid : Hash) (newAdmin : PublicKey) (now : UInt64)
  /-- `restore_circle`, with a circle as it was before it was disbanded. -/
  | restore (e : { e : CircleEntry // e.members.length ≤ maxCircleMembers })

/-- One operation, and the approvals it brings about. -/
def CircleCall.step (cr : Crypto) (c : CircleRegistry) : CircleCall → CircleRegistry × List Approval
  | create name admin height now => ((c.createCircle cr name admin height now).1, [])
  | addMember cid member caller now => ((c.addMember cid member caller now).getD c, [])
  | removeMember cid member caller now => ((c.removeMember cid member caller now).getD c, [])
  | changeAdmin cid newAdmin caller now => ((c.changeAdmin cid newAdmin caller now).getD c, [])
  | disband cid caller => ((c.disbandCircle cid caller).getD c, [])
  | propose cid proposer target height =>
    ((c.createProposal cr cid proposer target height).1, [])
  | cast pid voter voteYes height => ((c.castVote pid voter voteYes height).getD c, [])
  | finalize pid height now =>
    ((c.finalizeVote ℚ pid height now).1, c.approvals pid height now)
  | setAdmin cid newAdmin now => ((c.setAdmin cid newAdmin now).getD c, [])
  | restore e => (c.restoreCircle e.1, [])

/-- The machine of the operations. -/
def circleCalls (cr : Crypto) : Machine CircleRegistry CircleCall Approval := ⟨CircleCall.step cr⟩

/-- What a call needs: the votes that `finalize_vote` counts are undistorted. -/
def CircleCall.Fair (c : CircleRegistry) : CircleCall → Prop
  | finalize pid _ _ => c.Undistorted pid
  | _ => True

instance (c : CircleRegistry) (a : CircleCall) : Decidable (a.Fair c) := by
  cases a <;> (unfold CircleCall.Fair; infer_instance)

/-- No circle has more than 1000 members. -/
def CircleRegistry.Capped (c : CircleRegistry) : Prop :=
  ∀ (cid : Hash) (e : CircleEntry), c.circles[cid]? = some e → e.members.length ≤ maxCircleMembers

namespace CircleRegistry.Capped

variable {c : CircleRegistry}

theorem insert (h : c.Capped) (cid : Hash) {e : CircleEntry}
    (he : e.members.length ≤ maxCircleMembers) {c' : CircleRegistry}
    (hc : c'.circles = c.circles.insert cid e) : c'.Capped := by
  intro i w hw
  rw [hc, ExtTreeMap.getElem?_insert] at hw
  split_ifs at hw
  · rwa [← Option.some.inj hw]
  · exact h i w hw

/-- A change of one circle that does not make it too large. -/
theorem modify (h : c.Capped) (cid : Hash) {f : CircleEntry → Option CircleEntry}
    (hf : ∀ e e', f e = some e' → e.members.length ≤ maxCircleMembers →
      e'.members.length ≤ maxCircleMembers) : ((c.modify cid f).getD c).Capped := by
  cases hc : c.modify cid f with
  | none => exact h
  | some c' =>
    obtain ⟨e, e', he, he', rfl⟩ := modify_eq_some hc
    exact h.insert cid (hf e e' he' (h cid e he)) rfl

theorem of_circles_eq (h : c.Capped) {c' : CircleRegistry} (hc : c'.circles = c.circles) :
    c'.Capped := by
  intro cid e he
  rw [hc] at he
  exact h cid e he

/-- `finalize_vote` keeps the cap. -/
theorem finalizeVote (h : c.Capped) (pid : Hash) (height now : UInt64) :
    (c.finalizeVote ℚ pid height now).1.Capped := by
  have hclosing := voteClosing ℚ c pid height now
  generalize c.finalizeVote ℚ pid height now = out at hclosing ⊢
  cases hclosing with
  | idle => exact h
  | lost | recalled => exact h.of_circles_eq rfl
  | @carried p e _ _ _ he =>
    exact h.insert p.circleId (e := { e with adminPubkey := p.targetPk, updatedAt := now })
      (h _ e he) rfl

/-- `disband_circle` keeps the cap. -/
theorem disbandCircle (h : c.Capped) (cid : Hash) (caller : PublicKey) :
    ((c.disbandCircle cid caller).getD c).Capped := by
  cases hc : c.disbandCircle cid caller with
  | none => exact h
  | some c' =>
    obtain ⟨e, -, -, rfl⟩ := disbandCircle_eq_some hc
    intro i w hw
    rw [Option.getD_some, ExtTreeMap.getElem?_erase] at hw
    split_ifs at hw
    exact h i w hw

/-- `create_proposal` keeps the cap. -/
theorem createProposal (h : c.Capped) (cr : Crypto) (cid : Hash) (proposer target : PublicKey)
    (height : UInt64) : (c.createProposal cr cid proposer target height).1.Capped := by
  obtain hsame | ⟨p, -, -, -, -, hset⟩ := createProposal_cases c cr cid proposer target height
  · rwa [hsame]
  · rw [hset]
    exact h.of_circles_eq rfl

/-- `cast_vote` keeps the cap. -/
theorem castVote (h : c.Capped) (pid : Hash) (voter : PublicKey) (voteYes : Bool)
    (height : UInt64) : ((c.castVote pid voter voteYes height).getD c).Capped := by
  cases hc : c.castVote pid voter voteYes height with
  | none => exact h
  | some c' =>
    obtain ⟨-, -, rfl⟩ := castVote_eq_some_iff.1 hc
    exact h.of_circles_eq rfl

/-- One operation keeps the circles small. -/
theorem step (h : c.Capped) (cr : Crypto) (a : CircleCall) : (a.step cr c).1.Capped := by
  cases a with
  | create name admin height now =>
    unfold CircleCall.step createCircle
    dsimp only
    split_ifs
    · exact h
    · exact h
    · have hone : [admin].length ≤ maxCircleMembers := by simp [maxCircleMembers]
      exact h.insert _ hone rfl
  | addMember cid member caller now =>
    refine h.modify cid fun e e' he hsize => ?_
    split_ifs at he with h1 h2 h3
    rw [← Option.some.inj he]
    rw [List.length_append, List.length_singleton]
    omega
  | removeMember cid member caller now =>
    refine h.modify cid fun e e' he hsize => ?_
    split_ifs at he
    rw [← Option.some.inj he]
    exact (List.length_filter_le _ _).trans hsize
  | changeAdmin cid newAdmin caller now =>
    refine h.modify cid fun e e' he hsize => ?_
    split_ifs at he
    rw [← Option.some.inj he]
    exact hsize
  | disband cid caller => exact h.disbandCircle cid caller
  | propose cid proposer target height => exact h.createProposal cr cid proposer target height
  | cast pid voter voteYes height => exact h.castVote pid voter voteYes height
  | finalize pid height now => exact h.finalizeVote pid height now
  | setAdmin cid newAdmin now =>
    refine h.modify cid fun e e' he hsize => ?_
    rw [← Option.some.inj he]
    exact hsize
  | restore e => exact h.insert _ e.2 rfl

end CircleRegistry.Capped

/-- **Approvals have their quorum** and majority among the members, in every run in which the
counted votes are the members' and the rounding makes no difference. -/
theorem approvals_proper (cr : Crypto) (calls : List CircleCall)
    (hfair : (circleCalls cr).Guarded CircleCall.Fair {} calls) :
    ∀ a ∈ ((circleCalls cr).run {} calls).2, a.Proper := by
  refine ((circleCalls cr).run_invariant
    (I := fun c evs => c.Capped ∧ ∀ a ∈ evs, Approval.Proper a) ⟨?_, by simp⟩ ?_ hfair).2
  · intro cid e he
    simp at he
  · rintro c evs call ⟨hcapped, hproper⟩ hcall
    refine ⟨hcapped.step cr call, fun a ha => ?_⟩
    rcases List.mem_append.mp ha with ha | ha
    · exact hproper a ha
    · cases call with
      | finalize pid height now =>
        exact CircleRegistry.approvals_proper_of_undistorted hcapped hcall a ha
      | _ => exact absurd ha List.not_mem_nil

/-- A hash with one value, for the runs below: a circle and a proposal. -/
def oneHash : Crypto := ⟨fun _ => .fill 1, fun _ _ _ => false⟩

/-- Key 1 founds a circle and takes in key 2 and key 3; key 2 is proposed as administrator. -/
def foundedCircle (members : List PublicKey) : List CircleCall :=
  .create (asciiBytes "club") (.fill 1) 100 1000 ::
    (members.map fun k => .addMember (.fill 1) k (.fill 1) 1000) ++
    [.propose (.fill 1) (.fill 1) (.fill 2) 200]

/-- Three members, all of whom vote, two of them yes. -/
theorem approvals_proper_of_three :
    ((circleCalls oneHash).run {} (foundedCircle [.fill 2, .fill 3] ++
        [.cast (.fill 1) (.fill 1) false 300, .cast (.fill 1) (.fill 2) true 300,
          .cast (.fill 1) (.fill 3) true 300, .finalize (.fill 1) 20000 2000])).2 = [⟨2, 3, 3, 2⟩] ∧
      ∀ a ∈ ((circleCalls oneHash).run {} (foundedCircle [.fill 2, .fill 3] ++
        [.cast (.fill 1) (.fill 1) false 300, .cast (.fill 1) (.fill 2) true 300,
          .cast (.fill 1) (.fill 3) true 300, .finalize (.fill 1) 20000 2000])).2, a.Proper :=
  ⟨by decide +kernel, approvals_proper _ _ (by decide +kernel)⟩

/-- **Approvals without a quorum.**  In a circle of two, key 2 alone makes itself administrator; in
a circle of three, keys 2 and 3 vote and leave, and no member's vote carries the proposal. -/
theorem approvals_without_quorum :
    ((circleCalls oneHash).run {} (foundedCircle [.fill 2] ++
        [.cast (.fill 1) (.fill 2) true 300, .finalize (.fill 1) 20000 2000])).2 = [⟨2, 2, 1, 1⟩] ∧
    ((circleCalls oneHash).run {} (foundedCircle [.fill 2, .fill 3] ++
        [.cast (.fill 1) (.fill 2) true 300, .cast (.fill 1) (.fill 3) true 300,
          .removeMember (.fill 1) (.fill 2) (.fill 2) 1500,
          .removeMember (.fill 1) (.fill 3) (.fill 3) 1500,
          .finalize (.fill 1) 20000 2000])).2 = [⟨2, 1, 0, 0⟩] ∧
    ¬ Approval.Proper ⟨2, 2, 1, 1⟩ ∧ ¬ Approval.Proper ⟨2, 1, 0, 0⟩ := by
  decide +kernel

end Mevacoin.Trust
