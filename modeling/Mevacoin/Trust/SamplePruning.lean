import Mevacoin.Trust.UptimeCredit

/-!
# Pruned and full sample lists

A query computes the lower end of its window by a subtraction, a recording compares after an
addition, `front.height + window <= height`, in 64 bits.
-/

namespace Mevacoin.Trust

open Lib Std

namespace Engine

/-! ### The two engines -/

/-- A call of `record_chain_uptime_sample` or of `record_chain_proof_sample`. -/
inductive SampleCall where
  | uptime (node : Hash) (sample : ChainUptimeSample)
  | proof (node : Hash) (sample : ChainProofSample)

/-- The height a call passes. -/
def SampleCall.height : SampleCall → UInt64
  | uptime _ s => s.height
  | proof _ s => s.height

/-- The engine after a call. -/
def SampleCall.run (eng : Engine) : SampleCall → Engine
  | uptime n s => eng.recordChainUptimeSample n s.height s.blockTs
  | proof n s => eng.recordChainProofSample n s.height s.targetHeight

/-- A call that stores the sample by a rule of its own. -/
def SampleCall.runWith (append : {α : Type} → (α → UInt64) → α → List α → List α)
    (eng : Engine) : SampleCall → Engine
  | uptime n s =>
    { eng with
      chainUptimeSamples := eng.chainUptimeSamples.insert n
        (append ChainUptimeSample.height s (eng.chainUptimeSamples.getD n [])) }
  | proof n s =>
    { eng with
      chainProofSamples := eng.chainProofSamples.insert n
        (append ChainProofSample.height s (eng.chainProofSamples.getD n [])) }

/-- The engine after a call, if nothing is ever dropped. -/
def SampleCall.keep (eng : Engine) (c : SampleCall) : Engine :=
  c.runWith (fun _ s l => l ++ [s]) eng

/-- The uptime samples that the calls bring for a node. -/
def uptimeSamples (n : Hash) (calls : List SampleCall) : List ChainUptimeSample :=
  calls.filterMap fun
    | .uptime m s => if m = n then some s else none
    | .proof _ _ => none

/-- The proofs that the calls bring for a node. -/
def proofSamples (n : Hash) (calls : List SampleCall) : List ChainProofSample :=
  calls.filterMap fun
    | .uptime _ _ => none
    | .proof m s => if m = n then some s else none

/-- The uptime standing of the node is the same in both engines. -/
structure SameStanding (D : Type) [FloatArith D] (eng₁ eng₂ : Engine) (n : Hash)
    (height : UInt64) : Prop where
  credited : (eng₁.computeUptimeStanding D n height).creditedSeconds =
    (eng₂.computeUptimeStanding D n height).creditedSeconds
  samples : (eng₁.computeUptimeStanding D n height).samples =
    (eng₂.computeUptimeStanding D n height).samples
  eligible : (eng₁.computeUptimeStanding D n height).eligible =
    (eng₂.computeUptimeStanding D n height).eligible

/-- The verdict on the node's chain proof is the same in both engines. -/
def SameProofVerdict (eng₁ eng₂ : Engine) (n : Hash) (height : UInt64) : Prop :=
  eng₁.hasRecentChainProof n height = eng₂.hasRecentChainProof n height

/-- Some sample is in the window of every recording so far, and the end of its own window is a
64-bit number. -/
def SomeLasts {α : Type} (heightOf : α → UInt64) (l : List α) : Prop :=
  ∃ s ∈ l, (∀ t ∈ l, (heightOf t).toNat < (heightOf s).toNat + uptimeWindowBlocks.toNat) ∧
    (heightOf s).toNat + uptimeWindowBlocks.toNat < 2 ^ 64
deriving Decidable

/-- The same rule for both kinds: append, then prune at the sample's height. -/
theorem SampleCall.run_eq_runWith (eng : Engine) (c : SampleCall) :
    c.run eng = c.runWith
      (fun heightOf s => appendSample heightOf uptimeWindowBlocks (heightOf s) s) eng := by
  cases c with
  | uptime | proof => rfl

section

variable (append : {α : Type} → (α → UInt64) → α → List α → List α)

/-- The list of a node after the calls is its own samples appended one by one. -/
theorem getD_foldl_uptime (eng : Engine) (n : Hash) (calls : List SampleCall) :
    (calls.foldl (SampleCall.runWith append) eng).chainUptimeSamples.getD n [] =
      (uptimeSamples n calls).foldl (fun l s => append ChainUptimeSample.height s l)
        (eng.chainUptimeSamples.getD n []) := by
  rw [uptimeSamples, List.foldl_filterMap]
  refine (List.foldl_hom (fun eng : Engine => eng.chainUptimeSamples.getD n [])
    fun eng c => ?_).symm
  cases c with
  | uptime m s =>
    simp only [SampleCall.runWith, ExtTreeMap.getD_insert]
    by_cases hm : m = n <;> simp [hm]
  | proof m s => rfl

@[inherit_doc getD_foldl_uptime]
theorem getD_foldl_proof (eng : Engine) (n : Hash) (calls : List SampleCall) :
    (calls.foldl (SampleCall.runWith append) eng).chainProofSamples.getD n [] =
      (proofSamples n calls).foldl (fun l s => append ChainProofSample.height s l)
        (eng.chainProofSamples.getD n []) := by
  rw [proofSamples, List.foldl_filterMap]
  refine (List.foldl_hom (fun eng : Engine => eng.chainProofSamples.getD n [])
    fun eng c => ?_).symm
  cases c with
  | uptime m s => rfl
  | proof m s =>
    simp only [SampleCall.runWith, ExtTreeMap.getD_insert]
    by_cases hm : m = n <;> simp [hm]

end

/-! ### What pruning leaves -/

section

variable {α : Type} {heightOf : α → UInt64} {height : UInt64} {l : List α}

/-- The sample is in the window that ends at the height. -/
def Within (heightOf : α → UInt64) (height : UInt64) (s : α) : Bool :=
  height.toNat < (heightOf s).toNat + uptimeWindowBlocks.toNat

/-- The samples that are left after the last recording. -/
def remaining (heightOf : α → UInt64) (l : List α) : List α :=
  match l.getLast? with
  | none => []
  | some last => if SomeLasts heightOf l then l.filter (Within heightOf (heightOf last)) else []

/-- The test that drops a sample: its window has ended, or the end of it wraps. -/
theorem dropTest_eq_false_iff {s : α} (hs : heightOf s ≤ height) :
    (uptimeWindowBlocks ≤ height && heightOf s + uptimeWindowBlocks ≤ height) = false ↔
      Within heightOf height s = true ∧
        (heightOf s).toNat + uptimeWindowBlocks.toNat < 2 ^ 64 := by
  have hwindow : uptimeWindowBlocks.toNat = 43200 := rfl
  have hs' := UInt64.le_iff_toNat_le.mp hs
  simp only [Within, Bool.and_eq_false_iff, decide_eq_false_iff_not, decide_eq_true_eq,
    UInt64.le_iff_toNat_le, UInt64.toNat_add]
  omega

/-- **What one pruning leaves**: the samples in the window, unless the end of the window wraps
for each of them. -/
theorem pruneSamples_eq (hl : Increasing heightOf l) (hle : ∀ s ∈ l, heightOf s ≤ height) :
    pruneSamples heightOf uptimeWindowBlocks height l =
      if ∃ s ∈ l, Within heightOf height s = true ∧
        (heightOf s).toNat + uptimeWindowBlocks.toNat < 2 ^ 64
      then l.filter (Within heightOf height) else [] := by
  unfold pruneSamples
  split_ifs with hkept
  · obtain ⟨s, hs, hlasts⟩ := hkept
    refine dropWhile_eq_filter ⟨s, hs, (dropTest_eq_false_iff (hle s hs)).mpr hlasts⟩
      (fun t ht hp => ((dropTest_eq_false_iff (hle t ht)).mp hp).1) ?_ ?_
    · refine hl.imp_of_mem fun {x y} hx hy hxy hpy hpx => ?_
      have hylasts := (dropTest_eq_false_iff (hle y hy)).mp hpy
      have hxlasts := (not_congr (dropTest_eq_false_iff (hle x hx))).mp (by simp [hpx])
      have hxy' := UInt64.lt_iff_toNat_lt.mp hxy
      refine Bool.eq_false_iff.mpr fun hin => hxlasts ⟨hin, ?_⟩
      omega
    · refine hl.imp_of_mem fun {x y} hx _ hxy hpx => ?_
      have hxin := ((dropTest_eq_false_iff (hle x hx)).mp hpx).1
      have hxy' := UInt64.lt_iff_toNat_lt.mp hxy
      simp only [Within, decide_eq_true_eq] at hxin ⊢
      omega
  · rw [List.dropWhile_eq_nil_iff]
    intro s hs
    refine Bool.not_eq_false _ ▸ fun hp => hkept ⟨s, hs, ?_⟩
    exact (dropTest_eq_false_iff (hle s hs)).mp hp

theorem Increasing.le_last (hl : Increasing heightOf l) {last s : α}
    (hlast : l.getLast? = some last) (hs : s ∈ l) : heightOf s ≤ heightOf last := by
  obtain ⟨front, rfl⟩ := List.getLast?_eq_some_iff.mp hlast
  obtain hs | hs := List.mem_append.mp hs
  · exact UInt64.le_of_lt
      ((List.pairwise_append.mp hl).2.2 s hs last (List.mem_singleton_self last))
  · rw [List.mem_singleton.mp hs]
    exact UInt64.le_refl _

/-- It is enough to look at the last recording. -/
theorem someLasts_iff (hl : Increasing heightOf l) {last : α} (hlast : l.getLast? = some last) :
    SomeLasts heightOf l ↔ ∃ s ∈ l, Within heightOf (heightOf last) s = true ∧
      (heightOf s).toNat + uptimeWindowBlocks.toNat < 2 ^ 64 := by
  refine exists_congr fun s => and_congr_right fun _ => and_congr_left fun _ => ?_
  simp only [Within, decide_eq_true_eq]
  constructor
  · intro h
    exact h last (List.mem_of_getLast? hlast)
  · intro h t ht
    exact Nat.lt_of_le_of_lt (UInt64.le_iff_toNat_le.mp (hl.le_last hlast ht)) h

theorem remaining_sublist (heightOf : α → UInt64) (l : List α) :
    (remaining heightOf l).Sublist l := by
  unfold remaining
  split
  · exact List.nil_sublist l
  · split_ifs
    · exact List.filter_sublist
    · exact List.nil_sublist l

theorem remaining_of_lasts {last : α} (hlast : l.getLast? = some last) (h : SomeLasts heightOf l) :
    remaining heightOf l = l.filter (Within heightOf (heightOf last)) := by
  simp only [remaining, hlast]
  exact if_pos h

theorem remaining_of_not_lasts (h : ¬ SomeLasts heightOf l) : remaining heightOf l = [] := by
  unfold remaining
  split
  · rfl
  · exact if_neg h

theorem exists_getLast? (hne : l ≠ []) : ∃ last, l.getLast? = some last :=
  ⟨l.getLast hne, List.getLast?_eq_some_getLast hne⟩

/-- A sample in the window of a later height lasts, if its own window does not wrap. -/
theorem someLasts_of_within {s : α} (hs : s ∈ l) (hlater : ∀ t ∈ l, heightOf t < height)
    (hin : Within heightOf height s = true)
    (hfit : (heightOf s).toNat + uptimeWindowBlocks.toNat < 2 ^ 64) : SomeLasts heightOf l := by
  refine ⟨s, hs, fun t ht => ?_, hfit⟩
  have hlt := UInt64.lt_iff_toNat_lt.mp (hlater t ht)
  simp only [Within, decide_eq_true_eq] at hin
  omega

/-- To a test that only samples in the window pass, what is left is as good as all, if some last. -/
theorem filter_remaining {p : α → Bool} (hp : ∀ s ∈ l, p s = true → ∀ t ∈ l,
      (heightOf t).toNat < (heightOf s).toNat + uptimeWindowBlocks.toNat)
    (hlasts : SomeLasts heightOf l) : (remaining heightOf l).filter p = l.filter p := by
  obtain ⟨s, hs, -⟩ := id hlasts
  obtain ⟨last, hlast⟩ := exists_getLast? (List.ne_nil_of_mem hs)
  rw [remaining_of_lasts hlast hlasts, List.filter_filter]
  refine List.filter_congr fun t ht => ?_
  cases hpt : p t with
  | false => rfl
  | true =>
    exact decide_eq_true (hp t ht hpt last (List.mem_of_getLast? hlast))

/-- The newest sample is never the one that is dropped, if some sample lasts. -/
theorem getLast?_remaining (hlasts : SomeLasts heightOf l) :
    (remaining heightOf l).getLast? = l.getLast? := by
  have hwindow : uptimeWindowBlocks.toNat = 43200 := rfl
  obtain ⟨s, hs, -⟩ := id hlasts
  obtain ⟨last, hlast⟩ := exists_getLast? (List.ne_nil_of_mem hs)
  obtain ⟨front, hsplit⟩ := List.getLast?_eq_some_iff.mp hlast
  have hself : Within heightOf (heightOf last) last = true :=
    decide_eq_true (by omega)
  rw [remaining_of_lasts hlast hlasts, hlast]
  rw [hsplit, List.filter_append, List.filter_cons_of_pos hself, List.filter_nil,
    List.getLast?_concat]

/-- The newest sample lasts, if its window does not wrap. -/
theorem someLasts_of_last (hl : Increasing heightOf l) {last : α} (hlast : l.getLast? = some last)
    (hfit : (heightOf last).toNat + uptimeWindowBlocks.toNat < 2 ^ 64) : SomeLasts heightOf l := by
  have hwindow : uptimeWindowBlocks.toNat = 43200 := rfl
  refine (someLasts_iff hl hlast).mpr ⟨last, List.mem_of_getLast? hlast, ?_, hfit⟩
  exact decide_eq_true (by omega)

/-- Before a recording whose window does not wrap, no window of the samples wraps. -/
theorem someLasts_of_fit (hl : Increasing heightOf l) (hne : l ≠ [])
    (hlater : ∀ t ∈ l, heightOf t < height)
    (hfit : height.toNat + uptimeWindowBlocks.toNat < 2 ^ 64) : SomeLasts heightOf l := by
  obtain ⟨last, hlast⟩ := exists_getLast? hne
  have hlt := UInt64.lt_iff_toNat_lt.mp (hlater last (List.mem_of_getLast? hlast))
  exact someLasts_of_last hl hlast (by omega)

/-- **What a whole history leaves.**  The samples in the window of the last recording, or
nothing. -/
theorem foldl_appendSample (hl : Increasing heightOf l) :
    l.foldl (fun acc s => appendSample heightOf uptimeWindowBlocks (heightOf s) s acc) [] =
      remaining heightOf l := by
  induction l using List.reverseRecOn with
  | nil => rfl
  | append_singleton l s ih =>
    obtain ⟨hfront, -, hcross⟩ := List.pairwise_append.mp hl
    have hlater : ∀ t ∈ l, heightOf t < heightOf s := fun t ht =>
      hcross t ht s (List.mem_singleton_self s)
    have hsub : (remaining heightOf l ++ [s]).Sublist (l ++ [s]) :=
      (remaining_sublist heightOf l).append_right [s]
    have hle : ∀ t ∈ remaining heightOf l ++ [s], heightOf t ≤ heightOf s := fun t ht =>
      hl.le_last List.getLast?_concat (hsub.subset ht)
    have hnew : (remaining heightOf l).getLast?.any (fun last => heightOf s ≤ heightOf last) =
        false := by
      cases hr : (remaining heightOf l).getLast? with
      | none => rfl
      | some t =>
        have hmem := (remaining_sublist heightOf l).subset (List.mem_of_getLast? hr)
        exact decide_eq_false (UInt64.not_le.mpr (hlater t hmem))
    have hlast : (l ++ [s]).getLast? = some s := List.getLast?_concat
    rw [List.foldl_append, ih hfront, List.foldl_cons, List.foldl_nil, appendSample, hnew,
      if_neg Bool.false_ne_true, pruneSamples_eq (List.Pairwise.sublist hsub hl) hle]
    by_cases h : SomeLasts heightOf (l ++ [s])
    · obtain ⟨t, ht, hin, hfit⟩ := (someLasts_iff hl hlast).mp h
      have hold : l = [] ∨ SomeLasts heightOf l := by
        refine or_iff_not_imp_left.mpr fun hne => ?_
        obtain ht | ht := List.mem_append.mp ht
        · exact someLasts_of_within ht hlater hin hfit
        · rw [List.mem_singleton.mp ht] at hfit
          exact someLasts_of_fit hfront hne hlater hfit
      have hfilter : (remaining heightOf l).filter (Within heightOf (heightOf s)) =
          l.filter (Within heightOf (heightOf s)) := by
        obtain rfl | hold := hold
        · rfl
        · refine filter_remaining (fun t _ ht u hu => ?_) hold
          exact Nat.lt_trans (UInt64.lt_iff_toNat_lt.mp (hlater u hu)) (of_decide_eq_true ht)
      have hfilter' : (remaining heightOf l ++ [s]).filter (Within heightOf (heightOf s)) =
          (l ++ [s]).filter (Within heightOf (heightOf s)) := by
        rw [List.filter_append, hfilter, ← List.filter_append]
      have ht' : t ∈ (remaining heightOf l ++ [s]).filter (Within heightOf (heightOf s)) := by
        rw [hfilter']
        exact List.mem_filter.mpr ⟨ht, hin⟩
      rw [if_pos ⟨t, (List.mem_filter.mp ht').1, hin, hfit⟩, hfilter',
        remaining_of_lasts hlast h]
    · rw [remaining_of_not_lasts h, if_neg]
      rintro ⟨t, ht, hin, hfit⟩
      exact h ((someLasts_iff hl hlast).mpr ⟨t, hsub.subset ht, hin, hfit⟩)

end

/-! ### The queries -/

section Queries

variable {D : Type} [FloatArith D] {eng eng' : Engine} {n : Hash} {height : UInt64}

theorem sameStanding_of_early (h : height < uptimeWindowBlocks) :
    SameStanding D eng eng' n height := by
  obtain ⟨hc, hs, he⟩ := standing_early (D := D) eng n h
  obtain ⟨hc', hs', he'⟩ := standing_early (D := D) eng' n h
  exact ⟨hc.trans hc'.symm, hs.trans hs'.symm, he.trans he'.symm⟩

/-- The standing depends on the samples through the loop alone. -/
theorem sameStanding_iff_creditPairs (h : ¬ height < uptimeWindowBlocks) :
    SameStanding D eng eng' n height ↔
      creditPairs (height - uptimeWindowBlocks) height (eng.chainUptimeSamples.getD n []) =
        creditPairs (height - uptimeWindowBlocks) height (eng'.chainUptimeSamples.getD n []) := by
  obtain ⟨hc, hs, he⟩ := standing_credit (D := D) eng n h
  obtain ⟨hc', hs', he'⟩ := standing_credit (D := D) eng' n h
  constructor
  · rintro ⟨hcredited, hsamples, -⟩
    rw [hc, hc'] at hcredited
    rw [hs, hs'] at hsamples
    exact Prod.ext hcredited hsamples
  · intro heq
    rw [← heq] at hc' hs' he'
    exact ⟨hc.trans hc'.symm, hs.trans hs'.symm, he.trans he'.symm⟩

/-- **The standing on what is left and on the full list** is the same, unless everything was dropped
and the window of the query holds a pair. -/
theorem sameStanding_iff {l : List ChainUptimeSample}
    (hpruned : eng.chainUptimeSamples.getD n [] = remaining ChainUptimeSample.height l)
    (hfull : eng'.chainUptimeSamples.getD n [] = l)
    (hl : Increasing ChainUptimeSample.height l) (hlater : ∀ s ∈ l, s.height < height) :
    SameStanding D eng eng' n height ↔
      (windowSamples height l).length < 2 ∨ SomeLasts ChainUptimeSample.height l := by
  have hwindow : uptimeWindowBlocks.toNat = 43200 := rfl
  by_cases hearly : height < uptimeWindowBlocks
  · refine iff_of_true (sameStanding_of_early hearly) ?_
    by_cases hne : l = []
    · subst hne
      exact Or.inl Nat.zero_lt_two
    · have hlt := UInt64.lt_iff_toNat_lt.mp hearly
      exact Or.inr (someLasts_of_fit hl hne hlater (by omega))
  rw [sameStanding_iff_creditPairs hearly, hpruned, hfull, creditPairs_window hl]
  by_cases hlasts : SomeLasts ChainUptimeSample.height l
  · have hsame : windowSamples height (remaining ChainUptimeSample.height l) =
        windowSamples height l := by
      refine filter_remaining (fun s hs hin t ht => ?_) hlasts
      have hstart := (mem_windowSamples.mp (List.mem_filter.mpr ⟨hs, hin⟩)).2.1
      rw [UInt64.le_iff_toNat_le, UInt64.toNat_sub_of_le _ _ (UInt64.not_lt.mp hearly)] at hstart
      have hlt := UInt64.lt_iff_toNat_lt.mp (hlater t ht)
      omega
    rw [creditPairs_window (List.Pairwise.sublist (remaining_sublist _ l) hl), hsame]
    exact iff_of_true rfl (Or.inr hlasts)
  · rw [remaining_of_not_lasts hlasts, or_iff_left hlasts, ← creditPairs_window hl]
    constructor
    · intro h
      have hcount := (toNat_creditPairs (UInt64.not_lt.mp hearly) hl).2
      rw [← h] at hcount
      have hzero : (0 : ℕ) = (windowSamples height l).length - 1 := hcount
      omega
    · intro hshort
      rw [creditPairs_window hl, creditPairs_of_short hshort]
      rfl

/-- **The verdict on what is left and on the full list** is the same, unless everything was
dropped. -/
theorem sameProofVerdict_iff {l : List ChainProofSample}
    (hpruned : eng.chainProofSamples.getD n [] = remaining ChainProofSample.height l)
    (hfull : eng'.chainProofSamples.getD n [] = l)
    (hl : Increasing ChainProofSample.height l) (hlater : ∀ s ∈ l, s.height < height) :
    SameProofVerdict eng eng' n height ↔ l = [] ∨ SomeLasts ChainProofSample.height l := by
  unfold SameProofVerdict hasRecentChainProof
  rw [hpruned, hfull]
  by_cases hlasts : SomeLasts ChainProofSample.height l
  · rw [getLast?_remaining hlasts]
    exact iff_of_true rfl (Or.inr hlasts)
  rw [remaining_of_not_lasts hlasts, or_iff_left hlasts]
  constructor
  · intro h
    by_contra hne
    obtain ⟨last, hlast⟩ := exists_getLast? hne
    -- the newest proof is so near to `2^64` that no later height is out of its window
    have hover : ¬ last.height.toNat + uptimeWindowBlocks.toNat < 2 ^ 64 :=
      fun hfit => hlasts (someLasts_of_last hl hlast hfit)
    have hlt := hlater last (List.mem_of_getLast? hlast)
    have hstart : (if chainProofValidityBlocks < height then height - chainProofValidityBlocks
        else 0) ≤ last.height := by
      have hbound := height.toNat_lt
      split_ifs with hlong
      · rw [UInt64.le_iff_toNat_le, UInt64.toNat_sub_of_le _ _ (UInt64.le_of_lt hlong)]
        show height.toNat - uptimeWindowBlocks.toNat ≤ last.height.toNat
        omega
      · exact UInt64.zero_le
    rw [hlast] at h
    simp [hstart, UInt64.le_of_lt hlt] at h
  · rintro rfl
    rfl

end Queries

/-! ### Results -/

theorem mem_uptimeSamples {n : Hash} {calls : List SampleCall} {s : ChainUptimeSample}
    (h : s ∈ uptimeSamples n calls) : SampleCall.uptime n s ∈ calls := by
  obtain ⟨c, hc, hs⟩ := List.mem_filterMap.mp h
  cases c with
  | uptime m t =>
    obtain ⟨rfl, rfl⟩ : m = n ∧ t = s := by simpa using hs
    exact hc
  | proof m t => cases hs

theorem mem_proofSamples {n : Hash} {calls : List SampleCall} {s : ChainProofSample}
    (h : s ∈ proofSamples n calls) : SampleCall.proof n s ∈ calls := by
  obtain ⟨c, hc, hs⟩ := List.mem_filterMap.mp h
  cases c with
  | uptime m t => cases hs
  | proof m t =>
    obtain ⟨rfl, rfl⟩ : m = n ∧ t = s := by simpa using hs
    exact hc

theorem foldl_snoc {α : Type} (l : List α) : l.foldl (fun acc s => acc ++ [s]) [] = l := by
  induction l using List.reverseRecOn with
  | nil => rfl
  | append_singleton l s ih => rw [List.foldl_append, ih, List.foldl_cons, List.foldl_nil]

variable {D : Type} [FloatArith D]

/-- A query above all recorded heights does not see the pruning exactly if some uptime sample lasts,
or its window holds no pair of samples; and some proof lasts, or there is none. -/
theorem pruning_invisible_iff (calls : List SampleCall) (n : Hash) (height : UInt64)
    (huptime : Increasing ChainUptimeSample.height (uptimeSamples n calls))
    (hproof : Increasing ChainProofSample.height (proofSamples n calls))
    (hlater : ∀ c ∈ calls, c.height < height) :
    (SameStanding D (calls.foldl SampleCall.run {}) (calls.foldl SampleCall.keep {}) n height ∧
        SameProofVerdict (calls.foldl SampleCall.run {}) (calls.foldl SampleCall.keep {}) n
          height) ↔
      ((windowSamples height (uptimeSamples n calls)).length < 2 ∨
          SomeLasts ChainUptimeSample.height (uptimeSamples n calls)) ∧
        (proofSamples n calls = [] ∨
          SomeLasts ChainProofSample.height (proofSamples n calls)) := by
  have hrun : SampleCall.run = SampleCall.runWith
      (fun heightOf s => appendSample heightOf uptimeWindowBlocks (heightOf s) s) :=
    funext fun eng => funext fun c => SampleCall.run_eq_runWith eng c
  have hkeep : SampleCall.keep = SampleCall.runWith (fun _ s l => l ++ [s]) := rfl
  rw [hrun, hkeep]
  refine and_congr
    (sameStanding_iff ?_ ?_ huptime fun s hs => hlater _ (mem_uptimeSamples hs))
    (sameProofVerdict_iff ?_ ?_ hproof fun s hs => hlater _ (mem_proofSamples hs))
  · exact (getD_foldl_uptime _ _ n calls).trans (foldl_appendSample huptime)
  · exact (getD_foldl_uptime _ _ n calls).trans (foldl_snoc _)
  · exact (getD_foldl_proof _ _ n calls).trans (foldl_appendSample hproof)
  · exact (getD_foldl_proof _ _ n calls).trans (foldl_snoc _)

/-- **Pruning is invisible** to a query above all recorded heights, if these are below `2^64 -
43200`. -/
theorem pruning_invisible (calls : List SampleCall) (n : Hash) (height : UInt64)
    (huptime : Increasing ChainUptimeSample.height (uptimeSamples n calls))
    (hproof : Increasing ChainProofSample.height (proofSamples n calls))
    (hlater : ∀ c ∈ calls, c.height < height)
    (hfit : ∀ c ∈ calls, c.height.toNat < 2 ^ 64 - 43200) :
    SameStanding D (calls.foldl SampleCall.run {}) (calls.foldl SampleCall.keep {}) n height ∧
      SameProofVerdict (calls.foldl SampleCall.run {}) (calls.foldl SampleCall.keep {}) n
        height := by
  have hwindow : uptimeWindowBlocks.toNat = 43200 := rfl
  refine (pruning_invisible_iff calls n height huptime hproof hlater).2 ⟨?_, ?_⟩
  · by_cases hne : uptimeSamples n calls = []
    · exact .inl (by simp [hne, windowSamples])
    · obtain ⟨last, hlast⟩ := exists_getLast? hne
      have hlt := hfit _ (mem_uptimeSamples (List.mem_of_getLast? hlast))
      exact .inr (someLasts_of_last huptime hlast (by rw [hwindow]; exact Nat.add_lt_of_lt_sub hlt))
  · refine or_iff_not_imp_left.2 fun hne => ?_
    obtain ⟨last, hlast⟩ := exists_getLast? hne
    have hlt := hfit _ (mem_proofSamples (List.mem_of_getLast? hlast))
    exact someLasts_of_last hproof hlast (by rw [hwindow]; exact Nat.add_lt_of_lt_sub hlt)

/-- A proof at the first height whose window would end at `2^64`. -/
def lateProof : List SampleCall := [.proof (Pod32.single 1) ⟨18446744073709508416, 0⟩]

/-- It is dropped as soon as it is recorded. -/
theorem lateProof_lost :
    (lateProof.foldl SampleCall.run {}).hasRecentChainProof (Pod32.single 1)
        18446744073709508417 = false ∧
      (lateProof.foldl SampleCall.keep {}).hasRecentChainProof (Pod32.single 1)
        18446744073709508417 = true := by
  decide +kernel

/-- A node whose first sample is pruned when the third is recorded. -/
def earlyCalls : List SampleCall :=
  [.uptime (Pod32.single 1) ⟨100, 600⟩, .uptime (Pod32.single 1) ⟨200, 43800⟩,
    .uptime (Pod32.single 1) ⟨43300, 87000⟩, .proof (Pod32.single 1) ⟨43301, 42000⟩]

/-- The standing and the verdict are those of the full lists. -/
theorem earlyCalls_pruned_unseen :
    ((earlyCalls.foldl SampleCall.run {}).chainUptimeSamples.getD (Pod32.single 1) []).length = 2 ∧
      SameStanding ℚ (earlyCalls.foldl SampleCall.run {}) (earlyCalls.foldl SampleCall.keep {})
        (Pod32.single 1) 43302 ∧
      SameProofVerdict (earlyCalls.foldl SampleCall.run {}) (earlyCalls.foldl SampleCall.keep {})
        (Pod32.single 1) 43302 :=
  ⟨by decide +kernel, pruning_invisible earlyCalls (Pod32.single 1) 43302 (by decide +kernel)
    (by decide +kernel) (by decide +kernel) (by decide +kernel)⟩

end Engine

end Mevacoin.Trust
