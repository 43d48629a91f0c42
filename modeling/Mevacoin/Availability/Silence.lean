import Mevacoin.Availability.Engine

/-!
# A node that does not answer

`get_nodes_due_for_challenge` passes over a node for which a challenge is pending, and a challenge
stays pending when its time is over.
-/

namespace Mevacoin.Availability

open Lib Std Trust

section

variable {F : Type}

/-- The challenger: its engine and the registry of nodes it asks. -/
structure Challenger (F : Type) where
  engine : AvailabilityEngine
  registry : NodeRegistry F

/-- The calls that reach the challenger. -/
inductive Call (F : Type) where
  /-- `send_challenge`. -/
  | send (target : Hash) (height nowMs : UInt64) (route : Option Bool)
  /-- `process_challenge_response`. -/
  | respond (rsp : AvailabilityResponse)
  /-- `schedule_period_challenges`. -/
  | schedule (nowMs : UInt64) (clock : UInt32 → UInt64)
  /-- The rest of the program changes the registry. -/
  | registry (r : NodeRegistry F)

/-- The life of a challenge. -/
inductive Mark where
  | opened (n id : Hash)
  | closed (n id : Hash)
deriving DecidableEq

/-- One call. -/
def Challenger.step (cr : Crypto) (it : PendingOrder) (s : Challenger F) :
    Call F → Challenger F × List Mark
  | .send target height nowMs route =>
    let id := computeChallengeId cr target nowMs .blockHash
    ({ s with engine := (s.engine.sendChallenge cr target height nowMs route).1 },
      .opened target id :: if route = some false then [.closed target id] else [])
  | .respond rsp =>
    ({ s with engine := (s.engine.processChallengeResponse it rsp).1 },
      ((s.engine.getChallenge it rsp.challengeId).map
        fun ch => Mark.closed ch.nodeId ch.challengeId).toList)
  | .schedule nowMs clock =>
    ({ s with registry := (s.engine.schedulePeriodChallenges s.registry nowMs clock).1 }, [])
  | .registry r => ({ s with registry := r }, [])

/-- The machine of the calls. -/
def challengerMachine (cr : Crypto) (it : PendingOrder) : Machine (Challenger F) (Call F) Mark :=
  ⟨Challenger.step cr it⟩

/-- A challenger that was just started: what was pending before is not saved. -/
def Challenger.started (eng : AvailabilityEngine) (r : NodeRegistry F) : Challenger F :=
  ⟨{ eng with pending := .empty }, r⟩

/-! ### Challenges that have begun and not ended -/

/-- The challenge was opened and not closed since. -/
def Unsettled (marks : List Mark) (n id : Hash) : Prop :=
  ∃ pre post, marks = pre ++ .opened n id :: post ∧ Mark.closed n id ∉ post

/-- At first nothing is open. -/
@[simp] theorem not_unsettled_nil (n id : Hash) : ¬ Unsettled [] n id := by
  rintro ⟨pre, post, hsplit, -⟩
  simp at hsplit

variable {marks : List Mark} {m i : Hash} {eng eng' : AvailabilityEngine} (cr : Crypto)
  (it : PendingOrder)

/-- What is open after an opening. -/
theorem unsettled_opened {n id : Hash} :
    Unsettled (marks ++ [.opened m i]) n id ↔ Unsettled marks n id ∨ (m = n ∧ i = id) := by
  constructor
  · rintro ⟨pre, post, hsplit, hopen⟩
    rcases List.eq_nil_or_concat post with rfl | ⟨post, last, rfl⟩
    · obtain ⟨-, hlast⟩ := List.append_inj' hsplit rfl
      simp only [List.cons.injEq, Mark.opened.injEq, and_true] at hlast
      exact Or.inr hlast
    · rw [List.concat_eq_append, ← List.cons_append, ← List.append_assoc] at hsplit
      obtain ⟨hinit, -⟩ := List.append_inj' hsplit rfl
      exact Or.inl ⟨pre, post, hinit, fun hc => hopen (by simp [hc])⟩
  · rintro (⟨pre, post, rfl, hopen⟩ | ⟨rfl, rfl⟩)
    · exact ⟨pre, post ++ [.opened m i], by simp, by simpa using hopen⟩
    · exact ⟨marks, [], rfl, List.not_mem_nil⟩

/-- What is open after a closing. -/
theorem unsettled_closed {n id : Hash} :
    Unsettled (marks ++ [.closed m i]) n id ↔ Unsettled marks n id ∧ ¬ (m = n ∧ i = id) := by
  constructor
  · rintro ⟨pre, post, hsplit, hopen⟩
    rcases List.eq_nil_or_concat post with rfl | ⟨post, last, rfl⟩
    · obtain ⟨-, hlast⟩ := List.append_inj' hsplit rfl
      simp at hlast
    · rw [List.concat_eq_append, ← List.cons_append, ← List.append_assoc] at hsplit
      obtain ⟨hinit, hlast⟩ := List.append_inj' hsplit rfl
      rw [← List.singleton_inj.mp hlast] at hopen
      refine ⟨⟨pre, post, hinit, fun hc => hopen (by simp [hc])⟩, ?_⟩
      rintro ⟨rfl, rfl⟩
      exact hopen (by simp)
  · rintro ⟨⟨pre, post, rfl, hopen⟩, hne⟩
    refine ⟨pre, post ++ [.closed m i], by simp, ?_⟩
    rintro hmem
    rcases List.mem_append.mp hmem with hmem | hmem
    · exact hopen hmem
    · obtain ⟨rfl, rfl⟩ : n = m ∧ id = i := by simpa using hmem
      exact hne ⟨rfl, rfl⟩

/-! ### The table and the marks -/

/-- A challenge is awaited. -/
theorem AvailabilityEngine.awaits_push {ch : AvailabilityChallenge}
    (h : eng'.pending = eng.pending.push ch) (n id : Hash) :
    eng'.Awaits n id ↔ eng.Awaits n id ∨ (ch.nodeId = n ∧ ch.challengeId = id) := by
  unfold AvailabilityEngine.Awaits
  rw [h, PendingTable.of_push]
  split_ifs with hn
  · simp [hn]
  · simp [hn]

/-- A challenge is not awaited any more. -/
theorem AvailabilityEngine.awaits_discard (h : eng'.pending = eng.pending.discard m i)
    (n id : Hash) : eng'.Awaits n id ↔ eng.Awaits n id ∧ ¬ (m = n ∧ i = id) := by
  unfold AvailabilityEngine.Awaits
  rw [h, PendingTable.of_discard]
  split_ifs with hn
  · constructor
    · rintro ⟨c, hc, rfl⟩
      obtain ⟨hold, hne⟩ := List.mem_filter.mp hc
      exact ⟨⟨c, hold, rfl⟩, fun heq => of_decide_eq_true hne heq.2.symm⟩
    · rintro ⟨⟨c, hc, rfl⟩, hne⟩
      exact ⟨c, List.mem_filter.mpr ⟨hc, decide_eq_true fun heq => hne ⟨hn, heq.symm⟩⟩, rfl⟩
  · simp [hn]

/-- One call keeps the table and the marks in step. -/
theorem Challenger.step_awaits (s : Challenger F) (marks : List Mark) (c : Call F)
    (h : ∀ n id, s.engine.Awaits n id ↔ Unsettled marks n id) (n id : Hash) :
    (s.step cr it c).1.engine.Awaits n id ↔ Unsettled (marks ++ (s.step cr it c).2) n id := by
  cases c with
  | send target height nowMs route =>
    let ch := s.engine.generateChallenge cr target height nowMs
    have hpush :
        AvailabilityEngine.Awaits { s.engine with pending := s.engine.pending.push ch } n id ↔
          s.engine.Awaits n id ∨ (ch.nodeId = n ∧ ch.challengeId = id) :=
      AvailabilityEngine.awaits_push rfl n id
    rcases route with _ | (_ | _)
    · show AvailabilityEngine.Awaits _ n id ↔ Unsettled (marks ++ [_]) n id
      rw [unsettled_opened, ← h]
      exact hpush
    · show AvailabilityEngine.Awaits _ n id ↔ Unsettled (marks ++ ([_] ++ [_])) n id
      rw [← List.append_assoc, unsettled_closed, unsettled_opened, ← h]
      exact (AvailabilityEngine.awaits_discard rfl n id).trans (and_congr_left' hpush)
    · show AvailabilityEngine.Awaits _ n id ↔ Unsettled (marks ++ [_]) n id
      rw [unsettled_opened, ← h]
      exact hpush
  | respond rsp =>
    rcases s.engine.processChallengeResponse_cases it rsp with ⟨hnone, hsame⟩ | ⟨ch, hfind, hfiles⟩
    · simp only [Challenger.step, hnone, hsame, Option.map_none, Option.toList_none,
        List.append_nil]
      exact h n id
    · simp only [Challenger.step, hfind, Option.map_some, Option.toList_some]
      rw [unsettled_closed, ← h]
      exact AvailabilityEngine.awaits_discard hfiles.pending n id
  | schedule nowMs clock | registry r =>
    rw [Challenger.step, List.append_nil]
    exact h n id

/-- **What is pending after a run**: what has begun in it and not ended. -/
theorem Challenger.awaits_iff_unsettled (eng : AvailabilityEngine) (r : NodeRegistry F)
    (calls : List (Call F)) (n id : Hash) :
    ((challengerMachine cr it).run (.started eng r) calls).1.engine.Awaits n id ↔
      Unsettled ((challengerMachine cr it).run (.started eng r) calls).2 n id := by
  refine (challengerMachine cr it).run_invariant (P := fun _ _ => True)
    (I := fun s marks => ∀ n id, s.engine.Awaits n id ↔ Unsettled marks n id) ?_ ?_ ?_ n id
  · simp [Challenger.started, AvailabilityEngine.Awaits]
  · intro s marks c h _
    exact Challenger.step_awaits cr it s marks c h
  · exact (challengerMachine cr it).guarded_of_forall (fun _ _ _ => trivial) _

/-! ### Who is due -/

/-- Who is due: active, unchallenged and on time. -/
theorem mem_getNodesDueForChallenge {r : NodeRegistry F} {t : UInt64} {n : Hash} :
    n ∈ eng.getNodesDueForChallenge r t ↔ (∀ id, ¬ eng.Awaits n id) ∧
      ∃ e ∈ r.getNodesByStatus .active, e.nodeId = n ∧
        (e.nextChallengeTime = 0 ∨ e.nextChallengeTime ≤ t) := by
  have hrow : eng.pending.of n = [] ↔ ∀ id, ¬ eng.Awaits n id := by
    simp [AvailabilityEngine.Awaits, List.eq_nil_iff_forall_not_mem]
  simp only [AvailabilityEngine.getNodesDueForChallenge, List.mem_map, List.mem_filter,
    Bool.and_eq_true, decide_eq_true_eq, Bool.or_eq_true, ← hrow]
  constructor
  · rintro ⟨e, ⟨he, hempty, hnext⟩, rfl⟩
    exact ⟨hempty, e, he, rfl, hnext⟩
  · rintro ⟨hempty, e, he, rfl, hnext⟩
    exact ⟨e, ⟨he, hempty, hnext⟩, rfl⟩

/-- The node is active, its next challenge is due, and all challenges pending for it have timed
out. -/
def Challenger.TimedOut (s : Challenger F) (t : UInt64) (e : NodeRegistryEntry F) : Prop :=
  e ∈ s.registry.getNodesByStatus .active ∧ e.nextChallengeTime ≤ t ∧
    ∀ ch ∈ s.engine.pending.of e.nodeId, ch.sentTimestamp.toNat + ch.timeoutMs.toNat < t.toNat

/-- Silence does not grant immunity: a node whose challenges have timed out is due. -/
def Challenger.NotImmune (s : Challenger F) (t : UInt64) : Prop :=
  ∀ e, s.TimedOut t e → e.nodeId ∈ s.engine.getNodesDueForChallenge s.registry t

/-- **Who is asked again**: the nodes whose challenges have timed out are due if and only if every
challenge that was opened for one of them has been closed since. -/
theorem not_immune_iff (cr : Crypto) (it : PendingOrder) (eng : AvailabilityEngine)
    (r : NodeRegistry F) (calls : List (Call F)) (t : UInt64) :
    ((challengerMachine cr it).run (.started eng r) calls).1.NotImmune t ↔
      ∀ e, ((challengerMachine cr it).run (.started eng r) calls).1.TimedOut t e →
        ∀ pre id post, ((challengerMachine cr it).run (.started eng r) calls).2 =
          pre ++ .opened e.nodeId id :: post → Mark.closed e.nodeId id ∈ post := by
  refine forall₂_congr fun e he => ?_
  rw [mem_getNodesDueForChallenge]
  simp only [Challenger.awaits_iff_unsettled]
  constructor
  · rintro ⟨hsettled, -⟩ pre id post hsplit
    by_contra hopen
    exact hsettled id ⟨pre, post, hsplit, hopen⟩
  · intro hclosed
    refine ⟨?_, e, he.1, rfl, Or.inr he.2.1⟩
    rintro id ⟨pre, post, hsplit, hopen⟩
    exact hopen (hclosed pre id post hsplit)

end

/-- Node 9, active and never asked. -/
def nodeNine : NodeRegistryEntry ℚ where
  nodeId := .fill 9
  walletAddress := []
  walletPubkey := .fill 2
  nodePubkey := .fill 3
  registeredHeight := 1
  registeredTimestamp := 1
  registrationSignature := ⟨.null, .null⟩
  port := 0
  lastSeenTimestamp := 1
  status := .active
  lastSyncHeight := 1
  reputationScore := 1
  createdAt := 1
  updatedAt := 1

/-- A registry with that node alone. -/
def nineActive : NodeRegistry ℚ where
  nodes := (∅ : ExtTreeMap Hash (NodeRegistryEntry ℚ)).insert (.fill 9) nodeNine

/-- Node 9 was asked at 1000000 with two seconds to answer, and kept silent.  It is not due at
90000000, a day later. -/
theorem silent_node_immune :
    ¬ ((challengerMachine ⟨fun _ => .fill 1, fun _ _ _ => false⟩ (.byKey _ _)).run
        (.started {} nineActive)
        [.send (.fill 9) 5 1000000 (some true)]).1.NotImmune 90000000 := by
  intro h
  have hdue := h nodeNine ⟨by decide, by decide, by decide⟩
  revert hdue
  decide

end Mevacoin.Availability
