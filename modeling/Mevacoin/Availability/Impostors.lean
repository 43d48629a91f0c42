import Mevacoin.Availability.Engine
import Mevacoin.Lib.TwoRuns

/-!
# Responses in another node's name

`process_challenge_response` files any response that has the number of a pending challenge;
`node_signature` is never set or checked.
-/

namespace Mevacoin.Availability

open Lib Std

variable {it : PendingOrder} {eng : AvailabilityEngine} {n : Hash} {rsp : AvailabilityResponse}

/-- `handle_NOTIFY_MEVATRUST_RESPONSE`: the response is judged and filed. -/
def receive (it : PendingOrder) (rsp : AvailabilityResponse) (eng : AvailabilityEngine) :
    AvailabilityEngine :=
  (eng.processChallengeResponse it rsp).1

/-- What is on record for a node: its challenge history and its response times. -/
def AvailabilityEngine.record (eng : AvailabilityEngine) (n : Hash) :
    List AvailabilityChallenge × List UInt32 :=
  (eng.history n, eng.times n)

/-- Two sequences of responses that agree on those of the node lead to the same record of it. -/
def Undisturbed (it : PendingOrder) (eng : AvailabilityEngine) (n : Hash) : Prop :=
  ∀ rs rs' : List AvailabilityResponse,
    rs.filter (·.nodeId = n) = rs'.filter (·.nodeId = n) →
      (runs (receive it) rs eng).record n = (runs (receive it) rs' eng).record n

/-! ### Nothing is pending -/

/-- A response leaves a node alone for which nothing is pending. -/
theorem receive_of_nothing_pending (it : PendingOrder) (rsp : AvailabilityResponse)
    (h : eng.pending.of n = []) :
    (receive it rsp eng).record n = eng.record n ∧ (receive it rsp eng).pending.of n = [] := by
  rcases eng.processChallengeResponse_cases it rsp with ⟨-, hsame⟩ | ⟨ch, hfind, hfiles⟩
  · rw [receive, hsame]
    exact ⟨rfl, h⟩
  · have hne : ch.nodeId ≠ n := by
      rintro rfl
      have hmem := (AvailabilityEngine.getChallenge_eq_some hfind).1
      rw [h] at hmem
      exact List.not_mem_nil hmem
    rw [receive, AvailabilityEngine.record, hfiles.history, hfiles.times, hfiles.pending,
      PendingTable.of_discard, if_neg hne, if_neg hne, if_neg hne]
    exact ⟨rfl, h⟩

theorem runs_of_nothing_pending (rs : List AvailabilityResponse) (h : eng.pending.of n = []) :
    (runs (receive it) rs eng).record n = eng.record n := by
  induction rs generalizing eng with
  | nil => rfl
  | cons rsp rs ih =>
    obtain ⟨hrecord, hpending⟩ := receive_of_nothing_pending it rsp h
    rw [runs_cons, ih hpending, hrecord]

/-! ### A stranger answers -/

/-- A response that finds another node's challenge takes its number out of that node's row only. -/
theorem receive_of_other {ch : AvailabilityChallenge}
    (hfind : eng.getChallenge it rsp.challengeId = some ch) (hne : ch.nodeId ≠ n) :
    (receive it rsp eng).history n = eng.history n ∧
      (eng.Awaits n rsp.challengeId → (receive it rsp eng).Awaits n rsp.challengeId) ∧
      ∀ m, (receive it rsp eng).Awaits m rsp.challengeId →
        eng.Awaits m rsp.challengeId ∧ m ≠ ch.nodeId := by
  obtain ⟨-, hid⟩ := AvailabilityEngine.getChallenge_eq_some hfind
  rcases eng.processChallengeResponse_cases it rsp with ⟨hnone, -⟩ | ⟨ch', hfind', hfiles⟩
  · rw [hnone] at hfind
    exact absurd hfind (by simp)
  obtain rfl : ch = ch' := Option.some.inj (hfind.symm.trans hfind')
  refine ⟨?_, ?_, ?_⟩
  · rw [receive, hfiles.history, if_neg hne]
  · rintro ⟨c, hc, hcid⟩
    refine ⟨c, ?_, hcid⟩
    rw [receive, hfiles.pending, PendingTable.of_discard, if_neg hne]
    exact hc
  · rintro m ⟨c, hc, hcid⟩
    rw [receive, hfiles.pending, PendingTable.of_discard] at hc
    split_ifs at hc with hm
    · -- what is left in that row has another number
      have hleft := (List.mem_filter.mp hc).2
      rw [hid, hcid] at hleft
      simp at hleft
    · exact ⟨⟨c, hc, hcid⟩, fun heq => hm heq.symm⟩

/-- Enough copies of a response reach the node, by induction on the rows that may hold the
number. -/
theorem exists_copies_filed (it : PendingOrder) (rsp : AvailabilityResponse) (rows : List Hash)
    (hrows : ∀ m, eng.Awaits m rsp.challengeId → m ∈ rows) (hn : eng.Awaits n rsp.challengeId) :
    ∃ k, (runs (receive it) (List.replicate k rsp) eng).history n ≠ eng.history n := by
  induction hlen : rows.length using Nat.strong_induction_on generalizing eng rows with
  | _ len ih =>
    obtain ⟨ch, hch, hid⟩ := hn
    obtain ⟨found, hfind⟩ := AvailabilityEngine.exists_getChallenge it hch
    rw [hid] at hfind
    by_cases hfound : found.nodeId = n
    · refine ⟨1, ?_⟩
      rcases eng.processChallengeResponse_cases it rsp with ⟨hnone, -⟩ | ⟨ch', hfind', hfiles⟩
      · rw [hnone] at hfind
        exact absurd hfind (by simp)
      · obtain rfl : found = ch' := Option.some.inj (hfind.symm.trans hfind')
        have hfiled := hfiles.history n
        rw [if_pos hfound] at hfiled
        rw [List.replicate_one, runs_cons, runs_nil, receive, hfiled]
        simp
    · obtain ⟨hhist, hawait, hless⟩ := receive_of_other hfind hfound
      obtain ⟨hmem, hfid⟩ := AvailabilityEngine.getChallenge_eq_some hfind
      have hin : found.nodeId ∈ rows := hrows _ ⟨found, hmem, hfid⟩
      have hshort : (rows.filter (· ≠ found.nodeId)).length < len := by
        rw [← hlen]
        exact List.length_filter_lt_length_iff_exists.mpr ⟨_, hin, by simp⟩
      have hrows' : ∀ m, (receive it rsp eng).Awaits m rsp.challengeId →
          m ∈ rows.filter (· ≠ found.nodeId) := by
        intro m hm
        obtain ⟨hold, hmne⟩ := hless m hm
        exact List.mem_filter.mpr ⟨hrows m hold, by simpa using hmne⟩
      obtain ⟨k, hk⟩ := ih _ hshort _ hrows' (hawait ⟨ch, hch, hid⟩) rfl
      refine ⟨k + 1, ?_⟩
      rwa [hhist] at hk

/-- **The record of a node is safe from the responses of others** if and only if nothing is pending
for it. -/
theorem undisturbed_iff_nothing_pending (it : PendingOrder) (eng : AvailabilityEngine) (n : Hash) :
    Undisturbed it eng n ↔ eng.pending.of n = [] := by
  constructor
  · intro h
    by_contra hne
    obtain ⟨ch, hch⟩ := List.exists_mem_of_ne_nil _ hne
    -- a response in the name of somebody else
    obtain ⟨other, hother⟩ : ∃ m : Hash, m ≠ n := by
      by_cases hzero : n = Pod32.null
      · exact ⟨Pod32.fill 1, by rw [hzero]; decide⟩
      · exact ⟨Pod32.null, fun heq => hzero heq.symm⟩
    let forged : AvailabilityResponse :=
      { challengeId := ch.challengeId, nodeId := other, responseData := [],
        responseTimestamp := 0, processingTimeMs := 0 }
    have hrows : ∀ m, eng.Awaits m forged.challengeId → m ∈ eng.pending.rows.keys := by
      rintro m ⟨c, hc, -⟩
      rw [ExtTreeMap.mem_keys]
      by_contra hm
      rw [PendingTable.of, ExtTreeMap.getD_eq_fallback hm] at hc
      exact List.not_mem_nil hc
    obtain ⟨k, hk⟩ := exists_copies_filed it forged _ hrows ⟨ch, hch, rfl⟩
    have hagree : (List.replicate k forged).filter (·.nodeId = n) =
        ([] : List AvailabilityResponse).filter (·.nodeId = n) := by
      simp [forged, hother]
    exact hk (congrArg Prod.fst (h _ _ hagree))
  · intro h rs rs' _
    rw [runs_of_nothing_pending rs h, runs_of_nothing_pending rs' h]

/-- A challenger that waits for node 9. -/
def waitingForNine : AvailabilityEngine where
  pending := PendingTable.empty.push
    { challengeId := .fill 1, nodeId := .fill 9, challengeType := .blockHash, blockHeight := 5,
      sentTimestamp := 1000000, timeoutMs := 2000 }

/-- Node 8 answers in its own name, and node 9 has a wrong answer on record. -/
theorem stranger_decides_challenge : ¬ Undisturbed (.byKey _ _) waitingForNine (.fill 9) := by
  intro h
  have hrecord := h
    [⟨.fill 1, .fill 8, [0], 1000000, 0⟩] [] (by decide)
  have hfirst := congrArg (fun r => r.1.length) hrecord
  revert hfirst
  decide

end Mevacoin.Availability
