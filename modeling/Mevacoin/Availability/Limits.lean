import Mevacoin.Availability.Handler

/-!
# How often a node answers

The limits that the filters of `handle_NOTIFY_MEVATRUST_CHALLENGE` keep over any sequence of
challenges.
-/

namespace Mevacoin.Availability

open Lib Std ChallengeRateLimiter

/-! ### Hosts -/

theorem makeKey_inj {a b : Bytes} (h : makeKey a Pod32.null = makeKey b Pod32.null) : a = b :=
  List.append_cancel_left h

/-- What the windows of the hosts say about the answers so far. -/
structure HostsSound (peers : ExtTreeMap Bytes PeerState) (clock : UInt64) (evs : List Handled) :
    Prop where
  start_le : ∀ (k : Bytes) (p : PeerState), peers[k]? = some p →
    p.windowStartMs.toNat ≤ clock.toNat
  counted : ∀ (k : Bytes) (p : PeerState), peers[k]? = some p → 1 ≤ p.challengeCount
  window : ∀ h ∈ evs, h.verdict = .answered →
    h.now.toNat + 60000 < clock.toNat ∨
      ∃ p : PeerState, peers[makeKey h.host Pod32.null]? = some p ∧
        h.now.toNat ≤ p.windowStartMs.toNat

section

variable {rl : ChallengeRateLimiter} {peers : ExtTreeMap Bytes PeerState} {clock now : UInt64}
  {evs : List Handled} {host : Bytes}

/-- A host that is let through starts a window. -/
theorem HostsSound.hostState_eq (hs : HostsSound rl.peers clock evs)
    (hclock : clock.toNat ≤ now.toNat) (hnow : 60000 < now.toNat)
    (hbusy : rl.isBusy host now = false) :
    rl.hostState host now = ⟨now, 0⟩ ∧
      ∀ p : PeerState, rl.peers[makeKey host Pod32.null]? = some p →
        p.windowStartMs.toNat + 60000 < now.toNat := by
  have hcount := of_decide_eq_false hbusy
  unfold hostState PeerState.current at hcount ⊢
  rw [ExtTreeMap.getD_eq_getD_getElem?] at hcount ⊢
  cases hentry : rl.peers[makeKey host Pod32.null]? with
  | none =>
    -- a host that was never seen has its window at zero
    have hnew : windowMs < now - 0 := (lt_sub_iff (by simp)).mpr (by simpa [windowMs] using hnow)
    exact ⟨if_pos hnew, by simp⟩
  | some p =>
    have hstart := hs.start_le _ p hentry
    have hnew : windowMs < now - p.windowStartMs := by
      by_contra hold
      rw [hentry, Option.getD_some, if_neg hold] at hcount
      exact hcount (hs.counted _ p hentry)
    refine ⟨if_pos hnew, ?_⟩
    rintro q hq
    obtain rfl : p = q := Option.some.inj hq
    exact (lt_sub_iff (by omega)).mp hnew

/-- **Answers to one host lie more than a window apart.** -/
theorem HostsSound.gap (hs : HostsSound rl.peers clock evs) (hclock : clock.toNat ≤ now.toNat)
    (hnow : 60000 < now.toNat) (hbusy : rl.isBusy host now = false) {a : Handled}
    (ha : a ∈ evs) (haa : a.verdict = .answered) (hhost : a.host = host) :
    a.now.toNat + 60000 < now.toNat := by
  obtain ⟨-, hwindow⟩ := hs.hostState_eq hclock hnow hbusy
  rcases hs.window a ha haa with hover | ⟨p, hp, hle⟩
  · omega
  · rw [hhost] at hp
    have := hwindow p hp
    omega

/-- Time passes, and challenges come that are not answered. -/
theorem HostsSound.later (hs : HostsSound peers clock evs) (hclock : clock.toNat ≤ now.toNat)
    {more : List Handled} (hmore : ∀ h ∈ more, h.verdict ≠ .answered) :
    HostsSound peers now (evs ++ more) := by
  constructor
  · exact fun k p hp => (hs.start_le k p hp).trans hclock
  · exact hs.counted
  · intro h hh hv
    rcases List.mem_append.mp hh with hh | hh
    · exact (hs.window h hh hv).imp_left fun hover => by omega
    · exact absurd hv (hmore h hh)

/-- A host is answered. -/
theorem HostsSound.admitted (hs : HostsSound peers clock evs) (hclock : clock.toNat ≤ now.toNat)
    {h : Handled} (hnow : h.now = now) :
    HostsSound (peers.insert (makeKey h.host Pod32.null) ⟨now, 0 + 1⟩) now (evs ++ [h]) := by
  constructor
  · intro k p hp
    rw [ExtTreeMap.getElem?_insert] at hp
    split_ifs at hp with hk
    · rw [← Option.some.inj hp]
    · exact (hs.start_le k p hp).trans hclock
  · intro k p hp
    rw [ExtTreeMap.getElem?_insert] at hp
    split_ifs at hp with hk
    · rw [← Option.some.inj hp]
      exact UInt32.le_refl _
    · exact hs.counted k p hp
  · intro g hg hv
    rcases List.mem_append.mp hg with hg | hg
    · rcases hs.window g hg hv with hover | ⟨p, hp, hle⟩
      · exact Or.inl (by omega)
      · rw [ExtTreeMap.getElem?_insert]
        split_ifs with hk
        · exact Or.inr ⟨_, rfl, (hle.trans (hs.start_le _ p hp)).trans hclock⟩
        · exact Or.inr ⟨p, hp, hle⟩
    · rw [List.mem_singleton.mp hg, hnow]
      exact Or.inr ⟨_, ExtTreeMap.getElem?_insert_self, Nat.le_refl _⟩

/-- Windows that have long been over are dropped. -/
theorem HostsSound.cleaned (hs : HostsSound peers clock evs) (hclock : clock.toNat ≤ now.toNat) :
    HostsSound (peers.filter fun _ p => !(windowMs * 10 < now - p.windowStartMs)) now evs := by
  have hpeers : ∀ (k : Bytes) (p : PeerState),
      (peers.filter fun _ p => !(windowMs * 10 < now - p.windowStartMs))[k]? = some p ↔
        peers[k]? = some p ∧ ¬ windowMs * 10 < now - p.windowStartMs := by
    intro k p
    simp
  constructor
  · exact fun k p hp => (hs.start_le k p ((hpeers k p).mp hp).1).trans hclock
  · exact fun k p hp => hs.counted k p ((hpeers k p).mp hp).1
  · intro h hh hv
    rcases hs.window h hh hv with hover | ⟨p, hp, hle⟩
    · exact Or.inl (by omega)
    · by_cases hold : windowMs * 10 < now - p.windowStartMs
      · have hspan : p.windowStartMs.toNat + 600000 < now.toNat :=
          (lt_sub_iff ((hs.start_le _ p hp).trans hclock)).mp hold
        exact Or.inl (by omega)
      · exact Or.inr ⟨p, (hpeers _ p).mpr ⟨hp, hold⟩, hle⟩

end

/-! ### Numbers -/

/-- Since the challenge was handled, 5000 other numbers came at its time or later. -/
def Flooded (evs : List Handled) (a : Handled) : Prop :=
  ∃ ids : Finset Hash, 5000 ≤ ids.card ∧ ∀ id ∈ ids, id ≠ a.challengeId ∧
    ∃ h ∈ evs, h.challengeId = id ∧ h.verdict ≠ .ignored ∧ a.now.toNat ≤ h.now.toNat

theorem Flooded.append {evs : List Handled} {a : Handled} (h : Flooded evs a)
    (more : List Handled) : Flooded (evs ++ more) a := by
  obtain ⟨ids, hcard, hids⟩ := h
  refine ⟨ids, hcard, fun id hid => ?_⟩
  obtain ⟨hne, g, hg, hrest⟩ := hids id hid
  exact ⟨hne, g, List.mem_append_left _ hg, hrest⟩

/-- An entry that is dropped for lack of room leaves 5000 others that are not older. -/
theorem flooded_of_evicted {seen : ExtTreeMap Hash UInt64} {evs : List Handled} {a : Handled}
    {t : UInt64} (hlarge : dedupMaxSize < seen.size)
    (hheard : ∀ (id : Hash) (t : UInt64), seen[id]? = some t →
      ∃ h ∈ evs, h.challengeId = id ∧ h.now = t ∧ h.verdict ≠ .ignored)
    (hat : seen[a.challengeId]? = some t) (hle : a.now.toNat ≤ t.toNat)
    (hmin : ∀ (i : Hash) (u : UInt64), seen[i]? = some u → t.toNat ≤ u.toNat) : Flooded evs a := by
  refine ⟨seen.keys.toFinset.erase a.challengeId, ?_, ?_⟩
  · have hmem : a.challengeId ∈ seen.keys.toFinset := mem_keys_toFinset.mpr ⟨t, hat⟩
    rw [Finset.card_erase_of_mem hmem, card_keys]
    simp only [dedupMaxSize] at hlarge
    omega
  · intro id hid
    obtain ⟨hne, hkey⟩ := Finset.mem_erase.mp hid
    obtain ⟨u, hu⟩ := mem_keys_toFinset.mp hkey
    obtain ⟨h, hh, hhid, hhnow, hhv⟩ := hheard id u hu
    refine ⟨hne, h, hh, hhid, hhv, ?_⟩
    rw [hhnow]
    exact hle.trans (hmin id u hu)

/-- What a table of remembered challenges says about the answers so far. -/
structure SeenSound (seen : ExtTreeMap Hash UInt64) (clock : UInt64) (evs : List Handled) :
    Prop where
  le_clock : ∀ (id : Hash) (t : UInt64), seen[id]? = some t → t.toNat ≤ clock.toNat
  heard : ∀ (id : Hash) (t : UInt64), seen[id]? = some t →
    ∃ h ∈ evs, h.challengeId = id ∧ h.now = t ∧ h.verdict ≠ .ignored
  remembered : ∀ h ∈ evs, h.verdict = .answered →
    h.now.toNat + 30000 ≤ clock.toNat ∨
      (∃ t : UInt64, seen[h.challengeId]? = some t ∧ h.now.toNat ≤ t.toNat) ∨ Flooded evs h

section

variable {seen : ExtTreeMap Hash UInt64} {clock now : UInt64} {evs : List Handled}

/-- **Answers to one number lie that far apart, or many others came between.** -/
theorem SeenSound.gap (hs : SeenSound seen clock evs) {cid : Hash}
    (hclock : clock.toNat ≤ now.toNat) (hstale : isFresh seen cid now = false) {a : Handled}
    (ha : a ∈ evs) (haa : a.verdict = .answered) (hid : a.challengeId = cid) :
    a.now.toNat + 30000 ≤ now.toNat ∨ Flooded evs a := by
  rcases hs.remembered a ha haa with hover | ⟨t, ht, hle⟩ | hflood
  · exact Or.inl (by omega)
  · -- an entry that is still fresh would have stopped the second challenge
    by_contra hsoon
    rw [hid] at ht
    have hfresh : isFresh seen cid now = true :=
      (isFresh_iff fun u hu => (hs.le_clock cid u hu).trans hclock).mpr ⟨t, ht, by omega⟩
    rw [hstale] at hfresh
    cases hfresh
  · exact Or.inr hflood

/-- Time passes, and challenges come that are not answered. -/
theorem SeenSound.later (hs : SeenSound seen clock evs) (hclock : clock.toNat ≤ now.toNat)
    {more : List Handled} (hmore : ∀ h ∈ more, h.verdict ≠ .answered) :
    SeenSound seen now (evs ++ more) := by
  constructor
  · exact fun id t ht => (hs.le_clock id t ht).trans hclock
  · intro id t ht
    obtain ⟨h, hh, hrest⟩ := hs.heard id t ht
    exact ⟨h, List.mem_append_left _ hh, hrest⟩
  · intro h hh hv
    rcases List.mem_append.mp hh with hh | hh
    · rcases hs.remembered h hh hv with hover | hentry | hflood
      · exact Or.inl (hover.trans hclock)
      · exact Or.inr (Or.inl hentry)
      · exact Or.inr (Or.inr (hflood.append more))
    · exact absurd hv (hmore h hh)

/-- A challenge is remembered. -/
theorem SeenSound.insert (hs : SeenSound seen clock evs) (hclock : clock.toNat ≤ now.toNat)
    {h : Handled} (hnow : h.now = now) (hv : h.verdict ≠ .ignored) :
    SeenSound (seen.insert h.challengeId now) now (evs ++ [h]) := by
  constructor
  · exact fun id t => le_of_insert fun id t ht => (hs.le_clock id t ht).trans hclock
  · intro id t ht
    rw [ExtTreeMap.getElem?_insert] at ht
    split_ifs at ht with hid
    · exact ⟨h, by simp, LawfulEqOrd.eq_of_compare hid, hnow.trans (Option.some.inj ht), hv⟩
    · obtain ⟨g, hg, hrest⟩ := hs.heard id t ht
      exact ⟨g, List.mem_append_left _ hg, hrest⟩
  · intro g hg hgv
    rcases List.mem_append.mp hg with hg | hg
    · rcases hs.remembered g hg hgv with hover | ⟨t, ht, hle⟩ | hflood
      · exact Or.inl (hover.trans hclock)
      · rw [ExtTreeMap.getElem?_insert]
        split_ifs with hid
        · exact Or.inr (Or.inl ⟨now, rfl, (hle.trans (hs.le_clock _ t ht)).trans hclock⟩)
        · exact Or.inr (Or.inl ⟨t, ht, hle⟩)
      · exact Or.inr (Or.inr (hflood.append _))
    · rw [List.mem_singleton.mp hg, ← hnow]
      exact Or.inr (Or.inl ⟨h.now, ExtTreeMap.getElem?_insert_self, Nat.le_refl _⟩)

/-- The oldest challenge is forgotten. -/
theorem SeenSound.evict (hs : SeenSound seen clock evs) (it : SeenOrder) :
    SeenSound (evict it seen) clock evs := by
  rcases evict_cases it seen with ⟨-, hsame⟩ | ⟨hlarge, id, t, ht, hmin, herase⟩
  · rw [hsame]
    exact hs
  · have hkept : ∀ (i : Hash) (u : UInt64), (seen.erase id)[i]? = some u → seen[i]? = some u := by
      intro i u hu
      rw [ExtTreeMap.getElem?_erase] at hu
      split_ifs at hu with hi
      exact hu
    rw [herase]
    constructor
    · exact fun i u hu => hs.le_clock i u (hkept i u hu)
    · exact fun i u hu => hs.heard i u (hkept i u hu)
    · intro h hh hv
      rcases hs.remembered h hh hv with hover | ⟨u, hu, hle⟩ | hflood
      · exact Or.inl hover
      · rw [ExtTreeMap.getElem?_erase]
        split_ifs with hi
        · -- it was the oldest of more than 5000
          rw [← LawfulEqOrd.eq_of_compare hi] at hu
          obtain rfl : t = u := Option.some.inj (ht.symm.trans hu)
          rw [LawfulEqOrd.eq_of_compare hi] at ht
          exact Or.inr (Or.inr (flooded_of_evicted hlarge hs.heard ht hle hmin))
        · exact Or.inr (Or.inl ⟨u, hu, hle⟩)
      · exact Or.inr (Or.inr hflood)

/-- Challenges whose time is over are forgotten. -/
theorem SeenSound.cleaned (hs : SeenSound seen clock evs) (hclock : clock.toNat ≤ now.toNat) :
    SeenSound (seen.filter fun _ t => !(dedupTtlMs < now - t)) now evs := by
  have hseen : ∀ (i : Hash) (u : UInt64),
      (seen.filter fun _ t => !(dedupTtlMs < now - t))[i]? = some u ↔
        seen[i]? = some u ∧ ¬ dedupTtlMs < now - u := by
    intro i u
    simp
  constructor
  · exact fun i u hu => (hs.le_clock i u ((hseen i u).mp hu).1).trans hclock
  · exact fun i u hu => hs.heard i u ((hseen i u).mp hu).1
  · intro h hh hv
    rcases hs.remembered h hh hv with hover | ⟨u, hu, hle⟩ | hflood
    · exact Or.inl (hover.trans hclock)
    · by_cases hold : dedupTtlMs < now - u
      · have hspan : u.toNat + 30000 < now.toNat :=
          (lt_sub_iff ((hs.le_clock _ u hu).trans hclock)).mp hold
        exact Or.inl (by omega)
      · exact Or.inr (Or.inl ⟨u, (hseen _ u).mpr ⟨hu, hold⟩, hle⟩)
    · exact Or.inr (Or.inr hflood)

end

/-! ### Runs -/

/-- **The limits**: of two answers, those to one host lie more than 60000 milliseconds apart, and
those to one number at least 30000, unless 5000 other numbers came in between. -/
def WithinLimits (evs : List Handled) : Prop :=
  ∀ pre b post, evs = pre ++ b :: post → b.verdict = .answered →
    ∀ a ∈ pre, a.verdict = .answered →
      (a.host = b.host → a.now.toNat + 60000 < b.now.toNat) ∧
        (a.challengeId = b.challengeId → a.now.toNat + 30000 ≤ b.now.toNat ∨ Flooded pre a)

variable {evs : List Handled} {s : Responder} (it : SeenOrder) {i k : ℕ}

theorem WithinLimits.snoc (h : WithinLimits evs) {b : Handled}
    (hb : b.verdict = .answered → ∀ a ∈ evs, a.verdict = .answered →
      (a.host = b.host → a.now.toNat + 60000 < b.now.toNat) ∧
        (a.challengeId = b.challengeId → a.now.toNat + 30000 ≤ b.now.toNat ∨ Flooded evs a)) :
    WithinLimits (evs ++ [b]) := by
  intro pre c post hsplit
  rcases List.eq_nil_or_concat post with rfl | ⟨post, last, rfl⟩
  · obtain ⟨rfl, hlast⟩ := List.append_inj' hsplit rfl
    rw [← List.singleton_inj.mp hlast]
    exact hb
  · rw [List.concat_eq_append, ← List.cons_append, ← List.append_assoc] at hsplit
    obtain ⟨hinit, -⟩ := List.append_inj' hsplit rfl
    exact h pre c post hinit

/-- What holds after every run. -/
structure Responder.Sound (s : Responder) (evs : List Handled) : Prop where
  hosts : HostsSound s.limiter.peers s.clock evs
  seen : SeenSound s.limiter.seenChallenges s.clock evs
  limited : WithinLimits evs

theorem Responder.sound_start : Responder.Sound {} [] := by
  refine ⟨⟨?_, ?_, ?_⟩, ⟨?_, ?_, ?_⟩, ?_⟩
  · intro k p hp
    simp at hp
  · intro k p hp
    simp at hp
  · intro h hh
    simp at hh
  · intro k p hp
    simp at hp
  · intro k p hp
    simp at hp
  · intro h hh
    simp at hh
  · intro pre b post hsplit
    simp at hsplit

/-- A challenge to this node. -/
theorem Responder.Sound.filtered (hs : s.Sound evs) (it : SeenOrder) (cid : Hash) (host : Bytes)
    {now : UInt64} (hclock : s.clock.toNat ≤ now.toNat) (hnow : 60000 < now.toNat) :
    Responder.Sound ⟨(filterChallenge it s.limiter cid host now).1, now⟩
      (evs ++ [⟨host, cid, now, (filterChallenge it s.limiter cid host now).2⟩]) := by
  set verdict := (filterChallenge it s.limiter cid host now).2 with hverdict
  refine ⟨?_, ?_, hs.limited.snoc ?_⟩
  · rw [filterChallenge_peers]
    split_ifs with hanswered
    · rw [(hs.hosts.hostState_eq hclock hnow (isBusy_of_answered hanswered)).1]
      exact hs.hosts.admitted hclock (h := ⟨host, cid, now, verdict⟩) rfl
    · exact hs.hosts.later hclock (by simpa using hanswered)
  · rw [filterChallenge_seen, ← hverdict]
    split_ifs with hduplicate
    · exact hs.seen.later hclock (by simp [hduplicate])
    · exact (hs.seen.insert hclock (h := ⟨host, cid, now, verdict⟩) rfl
        (filterChallenge_ne_ignored it s.limiter cid host now)).evict it
  · intro (hanswered : verdict = .answered) a ha haa
    have hstale : isFresh s.limiter.seenChallenges cid now = false := by
      rw [← Bool.not_eq_true, ← filterChallenge_eq_duplicate_iff it s.limiter cid host now,
        ← hverdict, hanswered]
      simp
    exact ⟨fun hhost => hs.hosts.gap hclock hnow (isBusy_of_answered hanswered) ha haa hhost,
      fun hid => hs.seen.gap hclock hstale ha haa hid⟩

/-- One call. -/
theorem Responder.Sound.step (hs : s.Sound evs) (it : SeenOrder) (a : Arrival) (ha : s.OnTime a) :
    (s.step it a).1.Sound (evs ++ (s.step it a).2) := by
  obtain ⟨hclock, hnow⟩ := ha
  cases a with
  | challenge myNodeId req host now =>
    simp only [Responder.step, handleChallenge]
    split_ifs with haddressed
    · exact hs.filtered it req.challengeId host hclock hnow
    · exact ⟨hs.hosts.later hclock (by simp), hs.seen.later hclock (by simp),
        hs.limited.snoc (by simp)⟩
  | idle now =>
    rw [Responder.step, List.append_nil]
    exact ⟨hs.hosts.cleaned hclock, hs.seen.cleaned hclock, hs.limited⟩

/-- **How often a node answers**, whatever is sent to it, as long as the clock does not run
backwards and is past the first minute. -/
theorem challenge_limits (it : SeenOrder) (arrivals : List Arrival) (horder : InOrder arrivals) :
    WithinLimits ((responderMachine it).run {} arrivals).2 :=
  ((responderMachine it).run_invariant Responder.sound_start
    (fun _ _ a hs ha => hs.step it a ha) (horder.guarded it fun _ _ => Nat.zero_le _)).limited

theorem step_toNine (s : Responder) (cid : Hash) (host : String) (now : UInt64) :
    s.step it (toNine cid host now) =
      (⟨(filterChallenge it s.limiter cid (asciiBytes host) now).1, now⟩,
        [⟨asciiBytes host, cid, now,
          (filterChallenge it s.limiter cid (asciiBytes host) now).2⟩]) := by
  simp only [toNine, Responder.step, handleChallenge, if_true]

/-- Two hosts and two challenges: one answer each, a duplicate and a host held back, and an answer
again when the minute is over. -/
theorem challenge_limits_two_hosts :
    ((responderMachine (.byKey _ _)).run {}
        [toNine (.fill 1) "10.0.0.1" 100000, toNine (.fill 1) "10.0.0.2" 100001,
          toNine (.fill 2) "10.0.0.1" 100002, toNine (.fill 3) "10.0.0.1" 160001]).2.map
        (·.verdict) = [.answered, .duplicate, .throttled, .answered] ∧
      WithinLimits ((responderMachine (.byKey _ _)).run {}
        [toNine (.fill 1) "10.0.0.1" 100000, toNine (.fill 1) "10.0.0.2" 100001,
          toNine (.fill 2) "10.0.0.1" 100002, toNine (.fill 3) "10.0.0.1" 160001]).2 :=
  ⟨by decide, challenge_limits _ _ (by decide)⟩

/-! ### A flood -/

/-- The number that is answered twice. -/
def repeatedId : Hash := .fill 255

/-- The numbers of the flood. -/
def floodId (i : ℕ) : Hash := ⟨leBytes 32 i, leBytes_length 32 i⟩

/-- The flood: a host that sends one number after the other in the same millisecond. -/
def flood (i : ℕ) : Arrival := toNine (floodId i) "10.0.0.4" 140001

/-- The number of a flooding id. -/
theorem ofLeBytes_floodId (hi : i < 5000) : ofLeBytes (floodId i).data = i := by
  show ofLeBytes (leBytes 32 i) = i
  rw [ofLeBytes_leBytes, Nat.mod_eq_of_lt (hi.trans (by norm_num))]

/-- Flooding ids differ. -/
theorem floodId_inj {j : ℕ} (hi : i < 5000) (hj : j < 5000) (h : floodId i = floodId j) :
    i = j := by
  rw [← ofLeBytes_floodId hi, h, ofLeBytes_floodId hj]

theorem floodId_ne_repeatedId (hi : i < 5000) : floodId i ≠ repeatedId := by
  intro h
  have hvalue := ofLeBytes_floodId hi
  rw [h, show ofLeBytes repeatedId.data = 256 ^ 32 - 1 by decide] at hvalue
  omega

/-- The node after `k` numbers of the flood: it still remembers the answer of 140000. -/
structure Flooding (s : Responder) (k : ℕ) : Prop where
  global : s.limiter.globalWindowStart = 100000
  stranger : s.limiter.peers[makeKey (asciiBytes "10.0.0.3") Pod32.null]? = none
  entries : ∀ (id : Hash) (t : UInt64), s.limiter.seenChallenges[id]? = some t ↔
    id = repeatedId ∧ t = 140000 ∨ t = 140001 ∧ ∃ i < k, id = floodId i
  size : s.limiter.seenChallenges.size = k + 1

/-- One more number is remembered; the global window and the stranger's are not touched. -/
theorem Flooding.step_eq (hs : Flooding s k) (hk : k < 5000) (it : SeenOrder) :
    (s.step it (flood k)).1.limiter.seenChallenges =
        evict it (s.limiter.seenChallenges.insert (floodId k) 140001) ∧
      (s.limiter.seenChallenges.insert (floodId k) 140001).size = k + 2 ∧
      (s.step it (flood k)).1.limiter.globalWindowStart = 100000 ∧
      (s.step it (flood k)).1.limiter.peers[makeKey (asciiBytes "10.0.0.3") Pod32.null]? =
        none := by
  have hnew : s.limiter.seenChallenges[floodId k]? = none := by
    rw [Option.eq_none_iff_forall_ne_some]
    intro t ht
    rcases (hs.entries _ t).mp ht with ⟨hid, -⟩ | ⟨-, i, hi, hid⟩
    · exact floodId_ne_repeatedId hk hid
    · have := floodId_inj hk (by omega) hid
      omega
  have hstale : (filterChallenge it s.limiter (floodId k) (asciiBytes "10.0.0.4") 140001).2 ≠
      .duplicate := by
    rw [Ne, filterChallenge_eq_duplicate_iff, isFresh, hnew]
    simp
  rw [flood, step_toNine]
  refine ⟨?_, ?_, ?_, ?_⟩
  · rw [filterChallenge_seen, if_neg hstale]
  · rw [ExtTreeMap.size_insert, hs.size]
    rw [ExtTreeMap.contains_eq_isSome_getElem?, hnew]
    simp
  · have hspan : ¬ windowMs < 140001 - s.limiter.globalWindowStart := by
      rw [hs.global]
      decide
    rw [filterChallenge_globalStart, currentGlobal, if_neg hspan, ite_self]
    exact hs.global
  · rw [filterChallenge_peers]
    split_ifs
    · have hother : asciiBytes "10.0.0.4" ≠ asciiBytes "10.0.0.3" := by decide
      rw [ExtTreeMap.getElem?_insert, if_neg fun h =>
        hother (makeKey_inj (LawfulEqOrd.eq_of_compare h))]
      exact hs.stranger
    · exact hs.stranger

/-- While there is room, the flood is remembered beside the rest. -/
theorem Flooding.step (hs : Flooding s k) (hk : k < 4999) (it : SeenOrder) :
    Flooding (s.step it (flood k)).1 (k + 1) := by
  obtain ⟨hseen, hsize, hglobal, hstranger⟩ := hs.step_eq (by omega) it
  rcases evict_cases it (s.limiter.seenChallenges.insert (floodId k) 140001) with
    ⟨-, hsame⟩ | ⟨hlarge, -⟩
  · rw [hsame] at hseen
    refine ⟨hglobal, hstranger, fun id t => ?_, by rw [hseen, hsize]⟩
    rw [hseen, ExtTreeMap.getElem?_insert]
    split_ifs with hid
    · obtain rfl : floodId k = id := LawfulEqOrd.eq_of_compare hid
      constructor
      · intro ht
        exact Or.inr ⟨(Option.some.inj ht).symm, k, by omega, rfl⟩
      · rintro (⟨hrep, -⟩ | ⟨rfl, -⟩)
        · exact absurd hrep (floodId_ne_repeatedId (by omega))
        · rfl
    · have hne : id ≠ floodId k := fun h => hid (by rw [h]; exact ReflCmp.compare_self)
      rw [hs.entries]
      refine or_congr_right (and_congr_right fun _ => ⟨?_, ?_⟩)
      · rintro ⟨i, hi, rfl⟩
        exact ⟨i, by omega, rfl⟩
      · rintro ⟨i, hi, rfl⟩
        rcases Nat.lt_succ_iff_lt_or_eq.mp hi with hi | rfl
        · exact ⟨i, hi, rfl⟩
        · exact absurd rfl hne
  · simp only [dedupMaxSize] at hlarge
    omega

/-- The last number of the flood pushes the answered one out. -/
theorem Flooding.forgotten (hs : Flooding s 4999) (it : SeenOrder) :
    (s.step it (flood 4999)).1.limiter.seenChallenges[repeatedId]? = none := by
  obtain ⟨hseen, hsize, -, -⟩ := hs.step_eq (by omega) it
  rcases evict_cases it (s.limiter.seenChallenges.insert (floodId 4999) 140001) with
    ⟨hsmall, -⟩ | ⟨-, id, t, ht, hmin, herase⟩
  · simp only [dedupMaxSize] at hsmall
    omega
  · -- it is the only one that is older than the flood
    have hrepeated : (s.limiter.seenChallenges.insert (floodId 4999) 140001)[repeatedId]? =
        some 140000 := by
      rw [ExtTreeMap.getElem?_insert, if_neg fun h =>
        floodId_ne_repeatedId (by omega) (LawfulEqOrd.eq_of_compare h)]
      exact (hs.entries _ _).mpr (Or.inl ⟨rfl, rfl⟩)
    have hle : t.toNat ≤ 140000 := hmin _ _ hrepeated
    have hid : id = repeatedId := by
      rw [ExtTreeMap.getElem?_insert] at ht
      split_ifs at ht with hnow
      · rw [← Option.some.inj ht] at hle
        exact absurd hle (by decide)
      · rcases (hs.entries _ t).mp ht with ⟨hid, -⟩ | ⟨rfl, -⟩
        · exact hid
        · exact absurd hle (by decide)
    rw [hseen, herase, hid, ExtTreeMap.getElem?_erase_self]

/-- Two answers to one number, long enough apart. -/
def beforeFlood : List Arrival :=
  [toNine repeatedId "10.0.0.1" 100000, toNine repeatedId "10.0.0.2" 140000]

theorem flooding_start : Flooding ((responderMachine (.byKey _ _)).run {} beforeFlood).1 0 := by
  have hseen : ((responderMachine (.byKey _ _)).run {} beforeFlood).1.limiter.seenChallenges =
      (∅ : ExtTreeMap Hash UInt64).insert repeatedId 140000 := by decide
  refine ⟨by decide, by decide, fun id t => ?_, ?_⟩
  · rw [hseen, ExtTreeMap.getElem?_insert]
    split_ifs with hid
    · simp [LawfulEqOrd.eq_of_compare hid, eq_comm]
    · have hne : id ≠ repeatedId := fun h => hid (by rw [h]; exact ReflCmp.compare_self)
      simp [hne]
  · rw [hseen]
    simp [ExtTreeMap.size_insert]

/-- The node along the flood. -/
theorem flooding_run (hs : Flooding s 0) (hk : k ≤ 4999) :
    Flooding ((responderMachine it).run s ((List.range k).map flood)).1 k := by
  induction k with
  | zero => exact hs
  | succ k ih =>
    rw [List.range_succ, List.map_append, Machine.run_append]
    exact (ih (by omega)).step (by omega) it

/-- The whole run: two answers, the flood, and the number once more from a third host. -/
def floodRun : List Arrival :=
  beforeFlood ++ ((List.range 4999).map flood ++
    [flood 4999, toNine repeatedId "10.0.0.3" 160001])

theorem now_of_mem_flood {a : Arrival} (ha : a ∈ (List.range k).map flood) : a.now = 140001 := by
  obtain ⟨i, -, rfl⟩ := List.mem_map.mp ha
  rfl

theorem inOrder_floodRun : InOrder floodRun := by
  have hends : ∀ b ∈ [flood 4999, toNine repeatedId "10.0.0.3" 160001],
      (140001 : UInt64).toNat ≤ b.now.toNat := by decide
  constructor
  · refine List.pairwise_append.mpr ⟨by decide, List.pairwise_append.mpr ⟨?_, by decide, ?_⟩, ?_⟩
    · exact List.pairwise_map.mpr
        (List.Pairwise.imp (fun _ => Nat.le_refl _) List.pairwise_lt_range)
    · intro a ha b hb
      rw [now_of_mem_flood ha]
      exact hends b hb
    · intro a ha b hb
      have hfirst : ∀ a ∈ beforeFlood, a.now.toNat ≤ (140001 : UInt64).toNat := by decide
      rcases List.mem_append.mp hb with hb | hb
      · rw [now_of_mem_flood hb]
        exact hfirst a ha
      · exact (hfirst a ha).trans (hends b hb)
  · intro a ha
    rcases List.mem_append.mp ha with ha | ha
    · have hlate : ∀ a ∈ beforeFlood, 60000 < a.now.toNat := by decide
      exact hlate a ha
    · rcases List.mem_append.mp ha with ha | ha
      · rw [now_of_mem_flood ha]
        decide
      · exact Nat.lt_of_lt_of_le (by decide) (hends a ha)

/-- A number that has just been forgotten is answered again, in a new global window. -/
theorem Flooding.answered (hs : Flooding s 4999) (it : SeenOrder) :
    (filterChallenge it (s.step it (flood 4999)).1.limiter repeatedId (asciiBytes "10.0.0.3")
      160001).2 = .answered := by
  obtain ⟨-, -, hglobal, hstranger⟩ := hs.step_eq (by omega) it
  have hstale : isFresh (s.step it (flood 4999)).1.limiter.seenChallenges repeatedId 160001 =
      false := by
    rw [isFresh, hs.forgotten it]
    rfl
  have hroom : (s.step it (flood 4999)).1.limiter.isFull 160001 = false := by
    have hspan : windowMs < 160001 - (s.step it (flood 4999)).1.limiter.globalWindowStart := by
      rw [hglobal]
      decide
    rw [isFull, currentGlobal, if_pos hspan]
    show decide (globalMaxPerWindow ≤ 0) = false
    decide
  have hidle : (s.step it (flood 4999)).1.limiter.isBusy (asciiBytes "10.0.0.3") 160001 =
      false := by
    rw [isBusy, hostState, ExtTreeMap.getD_eq_getD_getElem?, hstranger]
    decide
  rw [filterChallenge_eq, hstale, hroom, hidle]
  simp

theorem Flooding.mem_run (hs : Flooding s 4999) (it : SeenOrder) :
    ⟨asciiBytes "10.0.0.3", repeatedId, 160001, .answered⟩ ∈
      ((responderMachine it).run s [flood 4999, toNine repeatedId "10.0.0.3" 160001]).2 := by
  have hlast := step_toNine it (s.step it (flood 4999)).1 repeatedId "10.0.0.3" 160001
  rw [hs.answered it] at hlast
  refine List.mem_append_right _ (List.mem_append_left _ ?_)
  simp only [responderMachine]
  rw [hlast]
  exact List.mem_singleton.mpr rfl

/-- **A number is answered twice within 20001 milliseconds**, at 140000 and at 160001. -/
theorem flooded_challenge_answered_twice :
    InOrder floodRun ∧
      ⟨asciiBytes "10.0.0.2", repeatedId, 140000, .answered⟩ ∈
        ((responderMachine (.byKey _ _)).run {} floodRun).2 ∧
      ⟨asciiBytes "10.0.0.3", repeatedId, 160001, .answered⟩ ∈
        ((responderMachine (.byKey _ _)).run {} floodRun).2 := by
  have hflood := flooding_run (.byKey _ _) flooding_start (Nat.le_refl 4999)
  refine ⟨inOrder_floodRun, ?_, ?_⟩
  · rw [floodRun, Machine.run_append]
    exact List.mem_append_left _ (by decide)
  · rw [floodRun, Machine.run_append, Machine.run_append]
    exact List.mem_append_right _ (List.mem_append_right _ (hflood.mem_run _))

end Mevacoin.Availability
