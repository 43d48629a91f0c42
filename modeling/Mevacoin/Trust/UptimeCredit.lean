import Mevacoin.Lib.Series
import Mevacoin.Trust.Engine

/-!
# What the uptime credit measures

`compute_uptime_standing` (`mevatrust_engine.cpp`) credits the seconds by which the timestamp rises
between neighbouring samples, up to twelve hours, and takes nothing back when it falls.
-/

namespace Mevacoin.Trust

open Lib Std

namespace Engine

/-! ### The samples in the window -/

/-- The samples of a list that the window ending at `height` reaches. -/
def windowSamples (height : UInt64) (l : List ChainUptimeSample) : List ChainUptimeSample :=
  l.filter fun s => height - uptimeWindowBlocks ≤ s.height && s.height ≤ height

/-- The block timestamps of a node's samples in the window, in order. -/
def windowTimes (eng : Engine) (n : Hash) (height : UInt64) : List ℕ :=
  (windowSamples height (eng.chainUptimeSamples.getD n [])).map (·.blockTs.toNat)

/-- Samples at strictly increasing heights, as blocks bring them. -/
def Increasing {α : Type} (heightOf : α → UInt64) (l : List α) : Prop :=
  l.Pairwise fun a b => heightOf a < heightOf b
deriving Decidable

variable {height : UInt64} {l : List ChainUptimeSample}

theorem mem_windowSamples {s : ChainUptimeSample} : s ∈ windowSamples height l ↔
    s ∈ l ∧ height - uptimeWindowBlocks ≤ s.height ∧ s.height ≤ height := by
  simp [windowSamples]

/-- One sample makes no pair. -/
theorem creditPairs_of_short {ws : UInt64} (h : l.length < 2) :
    creditPairs ws height l = (0, 0) := by
  cases l with
  | nil => rfl
  | cons s rest =>
    cases rest with
    | nil => rfl
    | cons t rest =>
      rw [List.length_cons, List.length_cons] at h
      omega

/-- The loop skips what lies before the window and stops at what lies after it. -/
theorem creditPairs_window (hl : Increasing ChainUptimeSample.height l) :
    creditPairs (height - uptimeWindowBlocks) height l =
      creditPairs (height - uptimeWindowBlocks) height (windowSamples height l) := by
  induction l with
  | nil => rfl
  | cons prev l ih =>
    have hlater : ∀ s ∈ l, prev.height < s.height := fun s hs => List.rel_of_pairwise_cons hl hs
    have hrest : Increasing ChainUptimeSample.height l := List.Pairwise.of_cons hl
    have hone : (windowSamples height [prev]).length < 2 :=
      Nat.lt_succ_of_le (List.length_filter_le _ [prev])
    by_cases hprev : prev.height < height - uptimeWindowBlocks
    · have hdrop : windowSamples height (prev :: l) = windowSamples height l :=
        List.filter_cons_of_neg (by simp [hprev])
      rw [hdrop, ← ih hrest]
      cases l with
      | nil => rfl
      | cons cur rest => rw [creditPairs, if_pos hprev]
    · cases l with
      | nil => exact (creditPairs_of_short (by simp)).trans (creditPairs_of_short hone).symm
      | cons cur rest =>
        have hcur : prev.height < cur.height := hlater cur List.mem_cons_self
        by_cases hover : height < cur.height
        · -- everything from `cur` on lies beyond the window
          have hnone : windowSamples height (cur :: rest) = [] := by
            refine List.filter_eq_nil_iff.mpr fun s hs => ?_
            have hs' : height < s.height := by
              obtain rfl | hs := List.mem_cons.mp hs
              · exact hover
              · exact UInt64.lt_trans hover (List.rel_of_pairwise_cons hrest hs)
            simp [hs']
          rw [creditPairs, if_neg hprev, if_pos hover]
          have hsplit : windowSamples height (prev :: cur :: rest) =
              windowSamples height [prev] ++ windowSamples height (cur :: rest) :=
            List.filter_append [prev] (cur :: rest)
          rw [hsplit, hnone, List.append_nil, creditPairs_of_short hone]
        · have hcurLe : cur.height ≤ height := UInt64.not_lt.mp hover
          have hprevGe : height - uptimeWindowBlocks ≤ prev.height := UInt64.not_lt.mp hprev
          have hkeepPrev : windowSamples height (prev :: cur :: rest) =
              prev :: windowSamples height (cur :: rest) :=
            List.filter_cons_of_pos
              (by simp [hprevGe, UInt64.le_trans (UInt64.le_of_lt hcur) hcurLe])
          have hkeepCur : windowSamples height (cur :: rest) = cur :: windowSamples height rest :=
            List.filter_cons_of_pos
              (by simp [UInt64.le_trans hprevGe (UInt64.le_of_lt hcur), hcurLe])
          rw [hkeepPrev, creditPairs, if_neg hprev, ih hrest, hkeepCur, creditPairs,
            if_neg hprev]

/-- One pair is worth the rise of the timestamp, up to twelve hours. -/
theorem toNat_pairCredit (prev cur : ChainUptimeSample) : (pairCredit prev cur).toNat =
    cappedRise 43200 prev.blockTs.toNat cur.blockTs.toNat := by
  have hcap : maxUptimeCreditGapSeconds.toNat = 43200 := rfl
  unfold pairCredit cappedRise
  by_cases hrise : prev.blockTs < cur.blockTs
  · have hgap : (cur.blockTs - prev.blockTs).toNat = cur.blockTs.toNat - prev.blockTs.toNat :=
      UInt64.toNat_sub_of_le _ _ (UInt64.le_of_lt hrise)
    rw [if_pos hrise]
    by_cases hlong : maxUptimeCreditGapSeconds < cur.blockTs - prev.blockTs
    · have hlong' := UInt64.lt_iff_toNat_lt.mp hlong
      rw [if_pos hlong]
      omega
    · have hshort := UInt64.le_iff_toNat_le.mp (UInt64.not_lt.mp hlong)
      rw [if_neg hlong]
      omega
  · have hfall := UInt64.le_iff_toNat_le.mp (UInt64.not_lt.mp hrise)
    rw [if_neg hrise]
    show (0 : ℕ) = _
    omega

/-- Over samples in the window the loop adds up every pair. -/
theorem creditPairs_inside (hmem : ∀ s ∈ l, height - uptimeWindowBlocks ≤ s.height ∧
    s.height ≤ height) :
    (creditPairs (height - uptimeWindowBlocks) height l).1.toNat =
        pairSum (cappedRise 43200) (l.map (·.blockTs.toNat)) % 2 ^ 64 ∧
      (creditPairs (height - uptimeWindowBlocks) height l).2.toNat = (l.length - 1) % 2 ^ 32 := by
  induction l with
  | nil => exact ⟨rfl, rfl⟩
  | cons prev l ih =>
    cases l with
    | nil => exact ⟨rfl, rfl⟩
    | cons cur rest =>
      have hprev := UInt64.not_lt.mpr (hmem prev List.mem_cons_self).1
      have hcur := UInt64.not_lt.mpr (hmem cur (by simp)).2
      obtain ⟨hcredit, hcount⟩ := ih fun s hs => hmem s (List.mem_cons_of_mem prev hs)
      rw [creditPairs, if_neg hprev, if_neg hcur]
      constructor
      · rw [UInt64.toNat_add, hcredit, toNat_pairCredit]
        simp only [List.map_cons, pairSum_cons_cons, Nat.add_mod_mod]
      · rw [UInt32.toNat_add, hcount]
        simp only [List.length_cons, Nat.add_sub_cancel, Nat.add_mod_mod]
        rw [show UInt32.toNat 1 = 1 from rfl, Nat.add_comm]

/-- Samples at increasing heights in the window are at most one for each of its blocks. -/
theorem length_windowSamples_le (hheight : uptimeWindowBlocks ≤ height)
    (hl : Increasing ChainUptimeSample.height l) : (windowSamples height l).length ≤ 43201 := by
  have hwindow : uptimeWindowBlocks.toNat = 43200 := rfl
  have hstart := UInt64.toNat_sub_of_le _ _ hheight
  have hincr : ((windowSamples height l).map (·.height.toNat)).Pairwise (· < ·) := by
    refine List.pairwise_map.mpr ((List.Pairwise.filter _ hl).imp fun h => ?_)
    exact UInt64.lt_iff_toNat_lt.mp h
  have hbounds : ∀ x ∈ (windowSamples height l).map (·.height.toNat),
      height.toNat - 43200 ≤ x ∧ x ≤ height.toNat := by
    intro x hx
    obtain ⟨s, hs, rfl⟩ := List.mem_map.mp hx
    have hin := (mem_windowSamples.mp hs).2
    have hlow := UInt64.le_iff_toNat_le.mp hin.1
    have hhigh := UInt64.le_iff_toNat_le.mp hin.2
    exact ⟨by omega, hhigh⟩
  have hlen := length_le_of_increasing hincr hbounds
  rw [List.length_map] at hlen
  omega

/-- **The loop in the naturals**: the sum over the neighbours in the window, and their number. -/
theorem toNat_creditPairs (hheight : uptimeWindowBlocks ≤ height)
    (hl : Increasing ChainUptimeSample.height l) :
    (creditPairs (height - uptimeWindowBlocks) height l).1.toNat =
        pairSum (cappedRise 43200) ((windowSamples height l).map (·.blockTs.toNat)) ∧
      (creditPairs (height - uptimeWindowBlocks) height l).2.toNat =
        (windowSamples height l).length - 1 := by
  have hlen := length_windowSamples_le hheight hl
  have hsum := pairSum_le_mul (cappedRise_le 43200)
    ((windowSamples height l).map (·.blockTs.toNat))
  rw [List.length_map] at hsum
  have hmem : ∀ s ∈ windowSamples height l,
      height - uptimeWindowBlocks ≤ s.height ∧ s.height ≤ height :=
    fun s hs => (mem_windowSamples.mp hs).2
  obtain ⟨hcredit, hcount⟩ := creditPairs_inside hmem
  rw [creditPairs_window hl]
  exact ⟨hcredit.trans (Nat.mod_eq_of_lt (by omega)), hcount.trans (Nat.mod_eq_of_lt (by omega))⟩

/-! ### The standing -/

variable {D : Type} [FloatArith D] (eng : Engine) (n : Hash)

/-- Below the first full window nothing is credited. -/
theorem standing_early (h : height < uptimeWindowBlocks) :
    (eng.computeUptimeStanding D n height).creditedSeconds = 0 ∧
      (eng.computeUptimeStanding D n height).samples = 0 ∧
      (eng.computeUptimeStanding D n height).eligible = false := by
  unfold computeUptimeStanding
  rw [if_pos (Or.inl h)]
  exact ⟨rfl, rfl, rfl⟩

/-- From there on the standing is read off the loop, also with fewer than two samples. -/
theorem standing_credit (h : ¬ height < uptimeWindowBlocks) :
    let credit := creditPairs (height - uptimeWindowBlocks) height
      (eng.chainUptimeSamples.getD n [])
    (eng.computeUptimeStanding D n height).creditedSeconds = credit.1 ∧
      (eng.computeUptimeStanding D n height).samples = credit.2 ∧
      (eng.computeUptimeStanding D n height).eligible =
        decide (minEligibleUptimeSeconds ≤ credit.1) := by
  unfold computeUptimeStanding
  by_cases hfew : (eng.chainUptimeSamples.getD n []).length < 2
  · rw [if_pos (Or.inr hfew), creditPairs_of_short hfew]
    exact ⟨rfl, rfl, rfl⟩
  · rw [if_neg (not_or.mpr ⟨h, hfew⟩)]
    by_cases hcredit : (creditPairs (height - uptimeWindowBlocks) height
        (eng.chainUptimeSamples.getD n [])).1 < minEligibleUptimeSeconds
    · rw [if_pos hcredit]
      exact ⟨rfl, rfl, (decide_eq_false (UInt64.not_le.mpr hcredit)).symm⟩
    · rw [if_neg hcredit]
      exact ⟨rfl, rfl, (decide_eq_true (UInt64.not_lt.mp hcredit)).symm⟩

/-- The credited seconds in the naturals. -/
theorem toNat_creditedSeconds (h : ¬ height < uptimeWindowBlocks)
    (hl : Increasing ChainUptimeSample.height (eng.chainUptimeSamples.getD n [])) :
    (eng.computeUptimeStanding D n height).creditedSeconds.toNat =
      pairSum (cappedRise 43200) (eng.windowTimes n height) := by
  rw [(standing_credit eng n h).1]
  exact (toNat_creditPairs (UInt64.not_lt.mp h) hl).1

/-! ### Results -/

/-- **The credit stays within the time the samples span** exactly if the timestamps of the window
never fall by more than is made up for, as when they do not fall at all
(`Lib.fallsMadeUp_of_sorted`). -/
theorem credit_le_span_iff
    (hl : Increasing ChainUptimeSample.height (eng.chainUptimeSamples.getD n [])) :
    (eng.computeUptimeStanding D n height).creditedSeconds.toNat ≤
        spread (eng.windowTimes n height) ↔
      height < uptimeWindowBlocks ∨ FallsMadeUp 43200 (eng.windowTimes n height) := by
  by_cases h : height < uptimeWindowBlocks
  · rw [(standing_early eng n h).1]
    exact iff_of_true (Nat.zero_le _) (Or.inl h)
  · rw [toNat_creditedSeconds eng n h hl, pairSum_cappedRise_le_spread_iff]
    exact (or_iff_right h).symm

/-- A node with samples at four heights and the given timestamps. -/
def fourSamples (t₁ t₂ t₃ t₄ : UInt64) : Engine :=
  [(100, t₁), (200, t₂), (300, t₃), (400, t₄)].foldl
    (fun eng s => eng.recordChainUptimeSample (Pod32.single 1) s.1 s.2) {}

/-- A block may carry an earlier timestamp than the one before, and the same minute is credited
twice. -/
theorem sameMinute_creditedTwice :
    Increasing ChainUptimeSample.height
        ((fourSamples 600 660 600 660).chainUptimeSamples.getD (Pod32.single 1) []) ∧
      ((fourSamples 600 660 600 660).computeUptimeStanding ℚ (Pod32.single 1)
        43200).creditedSeconds = 120 ∧
      spread ((fourSamples 600 660 600 660).windowTimes (Pod32.single 1) 43200) = 60 := by
  decide +kernel

theorem risingSamples_within_span :
    Increasing ChainUptimeSample.height
        ((fourSamples 600 660 720 99999).chainUptimeSamples.getD (Pod32.single 1) []) ∧
      ((fourSamples 600 660 720 99999).computeUptimeStanding ℚ (Pod32.single 1)
          43200).creditedSeconds.toNat ≤
        spread ((fourSamples 600 660 720 99999).windowTimes (Pod32.single 1) 43200) :=
  ⟨by decide +kernel, (credit_le_span_iff _ _ (by decide +kernel)).mpr
    (Or.inr (fallsMadeUp_of_sorted _ (by decide +kernel)))⟩

/-- **More samples never cost credit.**  If the samples of one engine are among those of another,
and the first in the window is the same, the second credits at least as much: the cap of twelve
hours obeys the triangle inequality. -/
theorem credit_le_of_more_samples (eng₁ eng₂ : Engine)
    (h₂ : Increasing ChainUptimeSample.height (eng₂.chainUptimeSamples.getD n []))
    (hsub : (eng₁.chainUptimeSamples.getD n []).Sublist (eng₂.chainUptimeSamples.getD n []))
    (hfirst : (windowSamples height (eng₁.chainUptimeSamples.getD n [])).head? =
      (windowSamples height (eng₂.chainUptimeSamples.getD n [])).head?) :
    (eng₁.computeUptimeStanding D n height).creditedSeconds ≤
      (eng₂.computeUptimeStanding D n height).creditedSeconds := by
  by_cases h : height < uptimeWindowBlocks
  · rw [(standing_early eng₁ n h).1]
    exact UInt64.zero_le
  rw [UInt64.le_iff_toNat_le, toNat_creditedSeconds eng₁ n h (List.Pairwise.sublist hsub h₂),
    toNat_creditedSeconds eng₂ n h h₂]
  have hwindow : (windowSamples height (eng₁.chainUptimeSamples.getD n [])).Sublist
      (windowSamples height (eng₂.chainUptimeSamples.getD n [])) := hsub.filter _
  unfold windowTimes
  cases hw₁ : windowSamples height (eng₁.chainUptimeSamples.getD n []) with
  | nil => exact Nat.zero_le _
  | cons a l₁ =>
    cases hw₂ : windowSamples height (eng₂.chainUptimeSamples.getD n []) with
    | nil =>
      rw [hw₁, hw₂] at hfirst
      cases hfirst
    | cons b l₂ =>
      rw [hw₁, hw₂] at hfirst hwindow
      obtain rfl : a = b := Option.some.inj hfirst
      exact pairSum_le_of_sublist (cappedRise_triangle 43200)
        ((List.cons_sublist_cons.mp hwindow).map _)

/-- The same node with the first and the last of the four samples only. -/
def twoSamples (t₁ t₄ : UInt64) : Engine :=
  (({} : Engine).recordChainUptimeSample (Pod32.single 1) 100 t₁).recordChainUptimeSample
    (Pod32.single 1) 400 t₄

theorem samplesBetween_cost_nothing :
    ((twoSamples 600 99999).computeUptimeStanding ℚ (Pod32.single 1) 43200).creditedSeconds ≤
      ((fourSamples 600 660 43260 99999).computeUptimeStanding ℚ (Pod32.single 1)
        43200).creditedSeconds :=
  credit_le_of_more_samples _ _ _ (by decide +kernel) (by decide +kernel) (by decide +kernel)

end Engine

end Mevacoin.Trust
