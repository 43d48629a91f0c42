import Mevacoin.Availability.Handler

/-!
# What throttled hosts take from others

A refused challenge has by then been remembered by its number and counted in the global window.
`Watch` keeps what throttled challenges have left there.
-/

namespace Mevacoin.Availability

open Lib Std ChallengeRateLimiter

/-! ### Tables that agree on what is fresh -/

namespace ChallengeRateLimiter

/-- A table that is too large forgets a challenge whose time is not over. -/
def forgetsFresh (it : SeenOrder) (seen : ExtTreeMap Hash UInt64) (now : UInt64) : Bool :=
  dedupMaxSize < seen.size && (oldest it seen).any fun entry => now.toNat < entry.2.toNat + 30000

section

variable {it : SeenOrder} {seen : ExtTreeMap Hash UInt64} {now t : UInt64} {id : Hash}

theorem getElem?_of_evict (h : (evict it seen)[id]? = some t) : seen[id]? = some t := by
  rcases evict_cases it seen with ⟨-, hsame⟩ | ⟨-, i, u, -, -, herase⟩
  · rwa [hsame] at h
  · rw [herase, ExtTreeMap.getElem?_erase] at h
    split_ifs at h
    exact h

/-- Eviction makes room. -/
theorem size_evict_le (h : seen.size ≤ dedupMaxSize + 1) : (evict it seen).size ≤ dedupMaxSize := by
  rcases evict_cases it seen with ⟨hsmall, hsame⟩ | ⟨-, i, u, hi, -, herase⟩
  · rwa [hsame]
  · have hmem : seen.contains i = true := by
      rw [ExtTreeMap.contains_eq_isSome_getElem?, hi]
      rfl
    rw [herase, ExtTreeMap.size_erase, if_pos hmem]
    omega

/-- What is fresh stays, if nothing fresh is forgotten. -/
theorem getElem?_evict_of_fresh (h : forgetsFresh it seen now = false)
    (ht : now.toNat < t.toNat + 30000) : (evict it seen)[id]? = some t ↔ seen[id]? = some t := by
  refine ⟨getElem?_of_evict, fun hentry => ?_⟩
  unfold evict
  split_ifs with hlarge
  · obtain ⟨i, u, hold, hi⟩ := exists_oldest it hlarge
    have hstale : ¬ now.toNat < u.toNat + 30000 := by
      simpa [forgetsFresh, hlarge, hold] using h
    rw [hold]
    rw [ExtTreeMap.getElem?_erase]
    split_ifs with hid
    · rw [LawfulEqOrd.eq_of_compare hid] at hi
      obtain rfl : t = u := Option.some.inj (hentry.symm.trans hi)
      exact absurd ht hstale
    · exact hentry
  · exact hentry

end

end ChallengeRateLimiter

/-- The tables of two runs agree on the fresh numbers, but for the tainted ones, which only the
first run holds. -/
structure TablesAgree (full kept : ExtTreeMap Hash UInt64) (tainted : List Hash) (clock : UInt64) :
    Prop where
  full_le : ∀ (id : Hash) (t : UInt64), full[id]? = some t → t.toNat ≤ clock.toNat
  kept_le : ∀ (id : Hash) (t : UInt64), kept[id]? = some t → t.toNat ≤ clock.toNat
  fresh : ∀ (id : Hash) (t : UInt64), clock.toNat < t.toNat + 30000 → id ∉ tainted →
    (full[id]? = some t ↔ kept[id]? = some t)
  stale : ∀ id ∈ tainted, ∀ t : UInt64, kept[id]? = some t → t.toNat + 30000 ≤ clock.toNat

section

variable {full kept : ExtTreeMap Hash UInt64} {tainted : List Hash} {clock now : UInt64}
  {cid : Hash} {it : SeenOrder}

theorem TablesAgree.refl (h : ∀ (id : Hash) (t : UInt64), full[id]? = some t →
    t.toNat ≤ clock.toNat) : TablesAgree full full [] clock :=
  ⟨h, h, fun _ _ _ _ => Iff.rfl, by simp⟩

/-- Time passes. -/
theorem TablesAgree.later (h : TablesAgree full kept tainted clock)
    (hclock : clock.toNat ≤ now.toNat) : TablesAgree full kept tainted now := by
  constructor
  · exact fun id t ht => (h.full_le id t ht).trans hclock
  · exact fun id t ht => (h.kept_le id t ht).trans hclock
  · exact fun id t ht => h.fresh id t (by omega)
  · exact fun id hid t ht => (h.stale id hid t ht).trans hclock

/-- A number that is not tainted is fresh in both tables or in none; a tainted one is not fresh in
the second. -/
theorem TablesAgree.isFresh_eq (h : TablesAgree full kept tainted clock)
    (hclock : clock.toNat ≤ now.toNat) (hcid : isFresh full cid now = true → cid ∉ tainted) :
    isFresh kept cid now = isFresh full cid now := by
  have hnow := h.later hclock
  have hfull := isFresh_iff fun t ht => hnow.full_le cid t ht
  have hkept := isFresh_iff fun t ht => hnow.kept_le cid t ht
  rw [Bool.eq_iff_iff]
  constructor
  · intro hk
    obtain ⟨t, ht, hfresh⟩ := hkept.mp hk
    by_cases htainted : cid ∈ tainted
    · have := hnow.stale cid htainted t ht
      omega
    · exact hfull.mpr ⟨t, (hnow.fresh cid t hfresh htainted).mpr ht, hfresh⟩
  · intro hf
    obtain ⟨t, ht, hfresh⟩ := hfull.mp hf
    exact hkept.mpr ⟨t, (hnow.fresh cid t hfresh (hcid hf)).mp ht, hfresh⟩

/-- Both runs remember the number. -/
theorem TablesAgree.insert_both (h : TablesAgree full kept tainted clock) (cid : Hash)
    (hclock : clock.toNat ≤ now.toNat) :
    TablesAgree (full.insert cid now) (kept.insert cid now) (tainted.filter (· ≠ cid)) now := by
  have hnow := h.later hclock
  constructor
  · exact fun id t => le_of_insert hnow.full_le
  · exact fun id t => le_of_insert hnow.kept_le
  · intro id t ht hclean
    rw [ExtTreeMap.getElem?_insert, ExtTreeMap.getElem?_insert]
    split_ifs with hid
    · exact Iff.rfl
    · refine hnow.fresh id t ht fun hmem => hclean (List.mem_filter.mpr ⟨hmem, ?_⟩)
      exact decide_eq_true fun heq => hid (by rw [heq]; exact ReflCmp.compare_self)
  · intro id hid t ht
    obtain ⟨hmem, hne⟩ := List.mem_filter.mp hid
    rw [ExtTreeMap.getElem?_insert, if_neg fun heq =>
      of_decide_eq_true hne (LawfulEqOrd.eq_of_compare heq).symm] at ht
    exact hnow.stale id hmem t ht

/-- Only the first run remembers the number. -/
theorem TablesAgree.insert_full (h : TablesAgree full kept tainted clock)
    (hclock : clock.toNat ≤ now.toNat) (hstale : isFresh full cid now = false) :
    TablesAgree (full.insert cid now) kept (cid :: tainted) now := by
  have hnow := h.later hclock
  constructor
  · exact fun id t => le_of_insert hnow.full_le
  · exact hnow.kept_le
  · intro id t ht hclean
    rw [List.mem_cons, not_or] at hclean
    rw [ExtTreeMap.getElem?_insert, if_neg fun heq =>
      hclean.1 (LawfulEqOrd.eq_of_compare heq).symm]
    exact hnow.fresh id t ht hclean.2
  · rintro id hid t ht
    rcases List.mem_cons.mp hid with rfl | hid
    · -- a fresh entry of the second run would be one of the first
      by_contra hfresh
      have hkept : isFresh kept id now = true :=
        (isFresh_iff fun t ht => hnow.kept_le id t ht).mpr ⟨t, ht, by omega⟩
      rw [h.isFresh_eq hclock (by simp [hstale]), hstale] at hkept
      cases hkept
    · exact hnow.stale id hid t ht

theorem TablesAgree.evict_full (h : TablesAgree full kept tainted now)
    (hroom : forgetsFresh it full now = false) : TablesAgree (evict it full) kept tainted now := by
  constructor
  · exact fun id t ht => h.full_le id t (getElem?_of_evict ht)
  · exact h.kept_le
  · intro id t ht hclean
    rw [getElem?_evict_of_fresh hroom ht]
    exact h.fresh id t ht hclean
  · exact h.stale

theorem TablesAgree.evict_kept (h : TablesAgree full kept tainted now)
    (hroom : forgetsFresh it kept now = false) : TablesAgree full (evict it kept) tainted now := by
  constructor
  · exact h.full_le
  · exact fun id t ht => h.kept_le id t (getElem?_of_evict ht)
  · intro id t ht hclean
    rw [getElem?_evict_of_fresh hroom ht]
    exact h.fresh id t ht hclean
  · exact fun id hid t ht => h.stale id hid t (getElem?_of_evict ht)

/-- The second run has room when the first has, or the first table would be the same. -/
theorem TablesAgree.forgetsFresh_kept (h : TablesAgree full kept tainted now)
    (hsize : full.size ≤ dedupMaxSize + 1) (hroom : forgetsFresh it full now = false) :
    forgetsFresh it kept now = false := by
  by_contra hcrowded
  rw [Bool.not_eq_false, forgetsFresh, Bool.and_eq_true, decide_eq_true_eq, Option.any_eq_true]
    at hcrowded
  obtain ⟨hlarge, ⟨i, u⟩, hold, hfresh⟩ := hcrowded
  have hall : ∀ (id : Hash) (t : UInt64), kept[id]? = some t →
      now.toNat < t.toNat + 30000 ∧ full[id]? = some t := by
    intro id t ht
    have hle := oldest_le it hold ht
    have hfirst : now.toNat < u.toNat + 30000 := of_decide_eq_true hfresh
    have hage : now.toNat < t.toNat + 30000 := by omega
    refine ⟨hage, (h.fresh id t hage fun htainted => ?_).mpr ht⟩
    have := h.stale id htainted t ht
    omega
  have hsub : kept.keys.toFinset ⊆ full.keys.toFinset := by
    intro id hid
    obtain ⟨t, ht⟩ := mem_keys_toFinset.mp hid
    exact mem_keys_toFinset.mpr ⟨t, (hall id t ht).2⟩
  have heq : kept.keys.toFinset = full.keys.toFinset :=
    Finset.eq_of_subset_of_card_le hsub (by rw [card_keys, card_keys]; omega)
  have hcount : kept.size = full.size := by rw [← card_keys, heq, card_keys]
  -- so the first run forgets a fresh number as well
  have hfull : dedupMaxSize < full.size := by omega
  obtain ⟨id, t, holdest, ht⟩ := exists_oldest it hfull
  obtain ⟨t', ht'⟩ := mem_keys_toFinset.mp (heq ▸ mem_keys_toFinset.mpr ⟨t, ht⟩)
  obtain ⟨hage, hsame⟩ := hall id t' ht'
  obtain rfl : t = t' := Option.some.inj (ht.symm.trans hsame)
  simp [forgetsFresh, hfull, holdest, hage] at hroom

/-- Both runs forget the numbers whose time is over. -/
theorem TablesAgree.cleaned (h : TablesAgree full kept tainted clock)
    (hclock : clock.toNat ≤ now.toNat) :
    TablesAgree (full.filter fun _ t => !(dedupTtlMs < now - t))
      (kept.filter fun _ t => !(dedupTtlMs < now - t)) tainted now := by
  have hnow := h.later hclock
  have hfilter : ∀ (seen : ExtTreeMap Hash UInt64) (id : Hash) (t : UInt64),
      (seen.filter fun _ t => !(dedupTtlMs < now - t))[id]? = some t ↔
        seen[id]? = some t ∧ ¬ dedupTtlMs < now - t := by
    intro seen id t
    simp
  constructor
  · exact fun id t ht => hnow.full_le id t ((hfilter full id t).mp ht).1
  · exact fun id t ht => hnow.kept_le id t ((hfilter kept id t).mp ht).1
  · intro id t ht hclean
    rw [hfilter, hfilter, hnow.fresh id t ht hclean]
  · exact fun id hid t ht => hnow.stale id hid t ((hfilter kept id t).mp ht).1

end

/-! ### What throttled challenges leave behind -/

/-- The node, and what throttled challenges have left in its limiter. -/
structure Watch where
  responder : Responder := {}
  /-- The numbers that were last remembered for a throttled challenge. -/
  tainted : List Hash := []
  /-- How many throttled challenges the global window counts. -/
  borrowed : ℕ := 0
  /-- Whether there was a throttled challenge at all. -/
  throttling : Bool := false

/-- The notes on a challenge, by its verdict. -/
def Watch.note (w : Watch) (cid : Hash) (now : UInt64) : Verdict → Watch
  | .ignored => w
  | .duplicate => w
  | .overGlobal => { w with tainted := w.tainted.filter (· ≠ cid) }
  | .throttled =>
    { w with tainted := cid :: w.tainted, borrowed := w.borrowed + 1, throttling := true }
  | .answered =>
    { w with
      tainted := w.tainted.filter (· ≠ cid)
      borrowed :=
        if windowMs < now - w.responder.limiter.globalWindowStart then 0 else w.borrowed }

/-- One call, with the notes on it. -/
def Watch.step (it : SeenOrder) (w : Watch) : Arrival → Watch × List Handled
  | .challenge myNodeId req host now =>
    let (rl, verdict) := handleChallenge it myNodeId w.responder.limiter req host now
    ({ w.note req.challengeId now verdict with responder := ⟨rl, now⟩ },
      [⟨host, req.challengeId, now, verdict⟩])
  | .idle now => ({ w with responder := ⟨w.responder.limiter.cleanup now, now⟩ }, [])

/-- The machine of the calls with the notes. -/
def watchMachine (it : SeenOrder) : Machine Watch Arrival Handled := ⟨Watch.step it⟩

/-- The verdict does not come from what throttled challenges have left: a duplicate is not tainted,
a full global window counts none of them and is not opened by one, and no fresh number is
forgotten. -/
def Watch.HarmlessVerdict (it : SeenOrder) (w : Watch) (cid : Hash) (now : UInt64)
    (verdict : Verdict) : Prop :=
  (verdict = .duplicate → cid ∉ w.tainted) ∧
    (verdict = .overGlobal → w.borrowed = 0) ∧
    (verdict = .throttled → ¬ windowMs < now - w.responder.limiter.globalWindowStart) ∧
    (w.throttling = true ∨ verdict = .throttled →
      verdict = .overGlobal ∨ verdict = .throttled ∨ verdict = .answered →
        forgetsFresh it (w.responder.limiter.seenChallenges.insert cid now) now = false)
deriving Decidable

/-- The same of a call. -/
def Watch.Harmless (it : SeenOrder) (w : Watch) : Arrival → Prop
  | .challenge myNodeId req host now =>
    w.HarmlessVerdict it req.challengeId now
      (handleChallenge it myNodeId w.responder.limiter req host now).2
  | .idle _ => True

instance (it : SeenOrder) (w : Watch) (a : Arrival) : Decidable (w.Harmless it a) := by
  cases a <;> (unfold Watch.Harmless; infer_instance)

/-! ### The run without the throttled challenges -/

/-- Whether the call is a challenge that is throttled. -/
def Responder.throttles (it : SeenOrder) (s : Responder) (a : Arrival) : Bool :=
  (s.step it a).2.any (·.verdict = .throttled)

/-- The calls without the throttled challenges. -/
def withoutThrottled (it : SeenOrder) : Responder → List Arrival → List Arrival
  | _, [] => []
  | s, a :: as =>
    if s.throttles it a then withoutThrottled it (s.step it a).1 as
    else a :: withoutThrottled it (s.step it a).1 as

/-- Whether the challenge was answered. -/
def Handled.isAnswered (h : Handled) : Bool := h.verdict = .answered

/-- **Throttled hosts do not starve others**: without the throttled challenges the same ones of the
rest are answered. -/
def Unstarved (it : SeenOrder) (arrivals : List Arrival) : Prop :=
  ((responderMachine it).run {} (withoutThrottled it {} arrivals)).2.map Handled.isAnswered =
    (((responderMachine it).run {} arrivals).2.filter (·.verdict ≠ .throttled)).map
      Handled.isAnswered
deriving Decidable

/-- The state of the run without the throttled challenges, against that of the full run. -/
structure Shadows (w : Watch) (s : Responder) : Prop where
  peers : s.limiter.peers = w.responder.limiter.peers
  start : s.limiter.globalWindowStart = w.responder.limiter.globalWindowStart
  count : w.responder.limiter.globalChallengeCount.toNat =
    s.limiter.globalChallengeCount.toNat + w.borrowed
  tables : TablesAgree w.responder.limiter.seenChallenges s.limiter.seenChallenges w.tainted
    w.responder.clock
  size_le : w.responder.limiter.seenChallenges.size ≤ dedupMaxSize
  alike : w.throttling = false → s = w.responder ∧ w.tainted = [] ∧ w.borrowed = 0

section

variable {it : SeenOrder} {w : Watch} {s : Responder} {cid : Hash} {host : Bytes} {now : UInt64}

/-- When the global window is full. -/
theorem isFull_iff {rl : ChallengeRateLimiter} : rl.isFull now = true ↔
    ¬ windowMs < now - rl.globalWindowStart ∧ 60 ≤ rl.globalChallengeCount.toNat := by
  unfold isFull currentGlobal
  rw [decide_eq_true_eq, UInt32.le_iff_toNat_le]
  split_ifs with hnew
  · simp [hnew, globalMaxPerWindow]
  · simp [hnew, globalMaxPerWindow]

theorem currentGlobal_start {rl rl' : ChallengeRateLimiter}
    (h : rl'.globalWindowStart = rl.globalWindowStart) :
    (rl'.currentGlobal now).globalWindowStart = (rl.currentGlobal now).globalWindowStart := by
  unfold currentGlobal
  rw [h]
  split_ifs
  · rfl
  · exact h

/-- The count after a challenge that was counted. -/
theorem toNat_globalCount_succ {rl : ChallengeRateLimiter} (h : rl.isFull now = false) :
    ((rl.currentGlobal now).globalChallengeCount + 1).toNat =
      (if windowMs < now - rl.globalWindowStart then 0 else rl.globalChallengeCount.toNat) + 1 := by
  rw [← Bool.not_eq_true, isFull_iff] at h
  unfold currentGlobal
  split_ifs with hnew
  · rfl
  · rw [UInt32.toNat_add, UInt32.toNat_one]
    have hsmall : rl.globalChallengeCount.toNat < 60 := by
      by_contra hlarge
      exact h ⟨hnew, by omega⟩
    omega

theorem filterChallenge_seen_le {rl : ChallengeRateLimiter} {clock : UInt64}
    (h : ∀ (id : Hash) (t : UInt64), rl.seenChallenges[id]? = some t → t.toNat ≤ clock.toNat)
    (hclock : clock.toNat ≤ now.toNat) (id : Hash) (t : UInt64)
    (ht : (filterChallenge it rl cid host now).1.seenChallenges[id]? = some t) :
    t.toNat ≤ now.toNat := by
  rw [filterChallenge_seen] at ht
  split_ifs at ht
  · exact (h id t ht).trans hclock
  · exact le_of_insert (fun id t ht => (h id t ht).trans hclock) (getElem?_of_evict ht)

/-- The table stays small. -/
theorem filterChallenge_size_le {rl : ChallengeRateLimiter}
    (h : rl.seenChallenges.size ≤ dedupMaxSize) :
    (filterChallenge it rl cid host now).1.seenChallenges.size ≤ dedupMaxSize := by
  rw [filterChallenge_seen]
  split_ifs
  · exact h
  · exact size_evict_le (ExtTreeMap.size_insert_le.trans (by omega))

section

variable (h : Shadows w s) (hclock : w.responder.clock.toNat ≤ now.toNat)
  (hharmless : w.HarmlessVerdict it cid now
    (filterChallenge it w.responder.limiter cid host now).2)
  (hkept : (filterChallenge it w.responder.limiter cid host now).2 ≠ .throttled)

include h hclock hharmless in
/-- Both runs come to the same verdict. -/
theorem Shadows.verdict_eq :
    (filterChallenge it s.limiter cid host now).2 =
      (filterChallenge it w.responder.limiter cid host now).2 := by
  obtain ⟨hdup, hover, -, -⟩ := hharmless
  rw [filterChallenge_eq_duplicate_iff] at hdup
  have hfresh := h.tables.isFresh_eq hclock hdup
  have hbusy : s.limiter.isBusy host now = w.responder.limiter.isBusy host now := by
    rw [isBusy, isBusy, hostState_congr host now h.peers]
  by_cases hf : isFresh w.responder.limiter.seenChallenges cid now = true
  · rw [filterChallenge_eq, filterChallenge_eq, hfresh, if_pos hf, if_pos hf]
  have hfull : s.limiter.isFull now = w.responder.limiter.isFull now := by
    rw [Bool.eq_iff_iff, isFull_iff, isFull_iff, h.start]
    refine and_congr_right fun hopen => ⟨fun hcount => ?_, fun hcount => ?_⟩
    · have := h.count
      omega
    · have hnone := hover (by
        rw [filterChallenge_eq, if_neg hf, if_pos (isFull_iff.mpr ⟨hopen, hcount⟩)])
      have := h.count
      omega
  rw [filterChallenge_eq, filterChallenge_eq, hfresh, hfull, hbusy]
  split_ifs <;> rfl

include h hclock hharmless hkept

/-- The global counts keep their distance when both runs handle the challenge. -/
theorem Shadows.count_kept :
    (filterChallenge it w.responder.limiter cid host now).1.globalChallengeCount.toNat =
      (filterChallenge it s.limiter cid host now).1.globalChallengeCount.toNat +
        (w.note cid now (filterChallenge it w.responder.limiter cid host now).2).borrowed := by
  have hverdict := h.verdict_eq hclock hharmless
  rw [filterChallenge_globalCount, filterChallenge_globalCount, hverdict]
  cases hv : (filterChallenge it w.responder.limiter cid host now).2 with
  | ignored => exact absurd hv (filterChallenge_ne_ignored it _ cid host now)
  | duplicate | overGlobal => simpa [Watch.note] using h.count
  | throttled => exact absurd hv hkept
  | answered =>
    have hw := toNat_globalCount_succ (isFull_of_counted (Or.inr hv))
    have hs := toNat_globalCount_succ (isFull_of_counted (Or.inr (hverdict.trans hv)))
    rw [h.start] at hs
    have hcount := h.count
    simp only [reduceCtorEq, or_self, if_false, Watch.note, hw, hs]
    split_ifs <;> omega

/-- The tables stay in agreement when both runs handle the challenge. -/
theorem Shadows.tables_kept (hthrottling : w.throttling = true) :
    TablesAgree (filterChallenge it w.responder.limiter cid host now).1.seenChallenges
      (filterChallenge it s.limiter cid host now).1.seenChallenges
      (w.note cid now (filterChallenge it w.responder.limiter cid host now).2).tainted now := by
  have hverdict := h.verdict_eq hclock hharmless
  have hboth := h.tables.insert_both cid hclock
  have hsize : (w.responder.limiter.seenChallenges.insert cid now).size ≤ dedupMaxSize + 1 :=
    ExtTreeMap.size_insert_le.trans (by have := h.size_le; omega)
  rw [filterChallenge_seen, filterChallenge_seen, hverdict]
  obtain ⟨-, -, -, hroom⟩ := hharmless
  cases hv : (filterChallenge it w.responder.limiter cid host now).2 with
  | ignored => exact absurd hv (filterChallenge_ne_ignored it _ cid host now)
  | duplicate => exact h.tables.later hclock
  | throttled => exact absurd hv hkept
  | overGlobal | answered =>
    have hfull := hroom (Or.inl hthrottling) (by simp [hv])
    exact (hboth.evict_full hfull).evict_kept (hboth.forgetsFresh_kept hsize hfull)

/-- A challenge that both runs handle. -/
theorem Shadows.kept :
    Shadows
      { w.note cid now (filterChallenge it w.responder.limiter cid host now).2 with
        responder := ⟨(filterChallenge it w.responder.limiter cid host now).1, now⟩ }
      ⟨(filterChallenge it s.limiter cid host now).1, now⟩ := by
  have hverdict := h.verdict_eq hclock hharmless
  have hnote : (w.note cid now (filterChallenge it w.responder.limiter cid host now).2).throttling
      = w.throttling := by
    cases hv : (filterChallenge it w.responder.limiter cid host now).2 with
    | throttled => exact absurd hv hkept
    | _ => rfl
  have halike : w.throttling = false → s = w.responder ∧
      (w.note cid now (filterChallenge it w.responder.limiter cid host now).2).tainted = [] ∧
      (w.note cid now (filterChallenge it w.responder.limiter cid host now).2).borrowed = 0 := by
    intro hquiet
    obtain ⟨hsame, hclean, hnone⟩ := h.alike hquiet
    cases hv : (filterChallenge it w.responder.limiter cid host now).2 with
    | throttled => exact absurd hv hkept
    | _ => simp [Watch.note, hsame, hclean, hnone]
  refine ⟨?_, ?_, h.count_kept hclock hharmless hkept, ?_, filterChallenge_size_le h.size_le, ?_⟩
  · rw [filterChallenge_peers, filterChallenge_peers, hverdict, h.peers,
      hostState_congr host now h.peers]
  · rw [filterChallenge_globalStart, filterChallenge_globalStart, hverdict, h.start,
      currentGlobal_start h.start]
  · cases hthrottling : w.throttling with
    | true => exact h.tables_kept hclock hharmless hkept hthrottling
    | false =>
      obtain ⟨rfl, hclean, -⟩ := halike hthrottling
      rw [hclean]
      exact TablesAgree.refl (filterChallenge_seen_le h.tables.full_le hclock)
  · intro hquiet
    obtain ⟨rfl, hclean, hnone⟩ := halike (hnote ▸ hquiet)
    exact ⟨rfl, hclean, hnone⟩

omit hkept

/-- A throttled challenge, which only the full run sees. -/
theorem Shadows.throttled
    (hthrottled : (filterChallenge it w.responder.limiter cid host now).2 = .throttled) :
    Shadows
      { w.note cid now (filterChallenge it w.responder.limiter cid host now).2 with
        responder := ⟨(filterChallenge it w.responder.limiter cid host now).1, now⟩ } s := by
  obtain ⟨-, -, hopen, hroom⟩ := hharmless
  have hopen := hopen hthrottled
  have hroom := hroom (Or.inr hthrottled) (Or.inr (Or.inl hthrottled))
  have hstale : isFresh w.responder.limiter.seenChallenges cid now = false := by
    rw [← Bool.not_eq_true, ← filterChallenge_eq_duplicate_iff it _ cid host now, hthrottled]
    simp
  refine ⟨?_, ?_, ?_, ?_, filterChallenge_size_le h.size_le, ?_⟩
  · rw [filterChallenge_peers, hthrottled, h.peers]
    rfl
  · rw [filterChallenge_globalStart, hthrottled, h.start, currentGlobal, if_neg hopen]
    rfl
  · have hcount := h.count
    rw [filterChallenge_globalCount, hthrottled, if_neg (by simp),
      toNat_globalCount_succ (isFull_of_counted (Or.inl hthrottled)), if_neg hopen]
    show _ = s.limiter.globalChallengeCount.toNat + (w.borrowed + 1)
    omega
  · rw [filterChallenge_seen, hthrottled]
    exact (h.tables.insert_full hclock hstale).evict_full hroom
  · intro hquiet
    rw [hthrottled] at hquiet
    cases hquiet

end

/-- The notes do not change what the node does. -/
theorem Watch.step_responder (it : SeenOrder) (w : Watch) (a : Arrival) :
    (w.step it a).1.responder = (w.responder.step it a).1 ∧
      (w.step it a).2 = (w.responder.step it a).2 := by
  cases a <;> exact ⟨rfl, rfl⟩

theorem Responder.throttles_filtered {myNodeId : Option Hash} {req : ChallengeRequest}
    (h : myNodeId = some req.targetNodeId) :
    s.throttles it (.challenge myNodeId req host now) =
      decide ((filterChallenge it s.limiter req.challengeId host now).2 = .throttled) := by
  simp [Responder.throttles, Responder.step, handleChallenge, h]

/-- One call: a throttled challenge is skipped, and everything else ends the same way. -/
theorem Shadows.step (h : Shadows w s) (a : Arrival)
    (hclock : w.responder.clock.toNat ≤ a.now.toNat) (hharmless : w.Harmless it a) :
    if w.responder.throttles it a then Shadows (w.step it a).1 s
    else Shadows (w.step it a).1 (s.step it a).1 ∧ (s.step it a).2 = (w.step it a).2 := by
  cases a with
  | idle now =>
    refine ⟨⟨?_, h.start, h.count, h.tables.cleaned hclock, ?_, ?_⟩, rfl⟩
    · show s.limiter.peers.filter _ = w.responder.limiter.peers.filter _
      rw [h.peers]
    · exact (ExtTreeMap.size_filter_le_size).trans h.size_le
    · intro hquiet
      obtain ⟨rfl, hrest⟩ := h.alike hquiet
      exact ⟨rfl, hrest⟩
  | challenge myNodeId req host now =>
    replace hclock : w.responder.clock.toNat ≤ now.toNat := hclock
    by_cases haddressed : myNodeId = some req.targetNodeId
    · have hharmless' : w.HarmlessVerdict it req.challengeId now
          (filterChallenge it w.responder.limiter req.challengeId host now).2 := by
        simpa [Watch.Harmless, handleChallenge, haddressed] using hharmless
      rw [Responder.throttles_filtered haddressed]
      simp only [decide_eq_true_eq, Watch.step, Responder.step, handleChallenge]
      split_ifs with hthrottled
      · exact h.throttled hclock hharmless' hthrottled
      · exact ⟨h.kept hclock hharmless' hthrottled, by rw [h.verdict_eq hclock hharmless']⟩
    · have hthrottles : w.responder.throttles it (.challenge myNodeId req host now) = false := by
        simp [Responder.throttles, Responder.step, handleChallenge, haddressed]
      rw [hthrottles]
      simp only [Watch.step, Responder.step, handleChallenge, haddressed, if_false]
      refine ⟨⟨h.peers, h.start, h.count, h.tables.later hclock, h.size_le, ?_⟩, trivial⟩
      intro hquiet
      obtain ⟨rfl, hrest⟩ := h.alike hquiet
      exact ⟨rfl, hrest⟩

/-- A call is about one challenge at most. -/
theorem Responder.filter_step (it : SeenOrder) (s : Responder) (a : Arrival) :
    (s.step it a).2.filter (·.verdict ≠ .throttled) =
      if s.throttles it a then [] else (s.step it a).2 := by
  cases a with
  | idle now => simp [Responder.step]
  | challenge myNodeId req host now =>
    by_cases hv : (handleChallenge it myNodeId s.limiter req host now).2 = .throttled
    · simp [Responder.throttles, Responder.step, hv]
    · simp [Responder.throttles, Responder.step, hv]

/-- **Two runs**: without the throttled challenges the rest goes as before. -/
theorem Shadows.run {arrivals : List Arrival} (h : Shadows w s)
    (horder : (responderMachine it).Guarded Responder.OnTime w.responder arrivals)
    (hharmless : (watchMachine it).Guarded (Watch.Harmless it) w arrivals) :
    ((responderMachine it).run s (withoutThrottled it w.responder arrivals)).2 =
      ((responderMachine it).run w.responder arrivals).2.filter (·.verdict ≠ .throttled) := by
  induction arrivals generalizing w s with
  | nil => rfl
  | cons a as ih =>
    obtain ⟨hfirst, hrest⟩ := horder
    obtain ⟨hsafe, hmore⟩ := hharmless
    obtain ⟨hresponder, hout⟩ := Watch.step_responder it w a
    have hstep := h.step a hfirst.1 hsafe
    have hnext : (responderMachine it).Guarded Responder.OnTime (w.step it a).1.responder as := by
      rw [hresponder]
      exact hrest
    rw [Machine.run_cons, List.filter_append]
    show _ = (w.responder.step it a).2.filter _ ++
      ((responderMachine it).run (w.responder.step it a).1 as).2.filter _
    rw [Responder.filter_step, withoutThrottled]
    split_ifs at hstep ⊢ with hthrottles
    · rw [← hresponder, ih hstep hnext hmore, List.nil_append]
    · obtain ⟨hshadows, hsame⟩ := hstep
      rw [← hresponder]
      show (s.step it a).2 ++ _ = _
      rw [hsame, hout]
      exact congrArg _ (ih hshadows hnext hmore)

theorem shadows_start : Shadows {} {} := by
  refine ⟨rfl, rfl, rfl, TablesAgree.refl ?_, ?_, fun _ => ⟨rfl, rfl, rfl⟩⟩
  · intro id t ht
    simp at ht
  · simp

end

/-- **When throttled hosts do not starve others**: in every harmless run, the challenges that are
answered are those that would be answered without the throttled ones. -/
theorem unstarved_of_harmless (it : SeenOrder) (arrivals : List Arrival) (horder : InOrder arrivals)
    (hharmless : (watchMachine it).Guarded (Watch.Harmless it) {} arrivals) :
    Unstarved it arrivals := by
  have hrun := shadows_start.run (horder.guarded it fun _ _ => Nat.zero_le _) hharmless
  exact congrArg _ hrun

/-- The second host asks with a number of its own. -/
theorem unstarved_two_hosts :
    Unstarved (.byKey _ _)
      [toNine (.fill 1) "10.0.0.1" 100000, toNine (.fill 2) "10.0.0.1" 100001,
        toNine (.fill 3) "10.0.0.2" 100002] :=
  unstarved_of_harmless _ _ (by decide) (by decide)

/-- **A throttled host takes another one's answer**: the number it sends in vain is a duplicate
then. -/
theorem throttled_host_starves_other :
    ¬ Unstarved (.byKey _ _)
      [toNine (.fill 1) "10.0.0.1" 100000, toNine (.fill 2) "10.0.0.1" 100001,
        toNine (.fill 2) "10.0.0.2" 100002] := by
  decide

end Mevacoin.Availability
