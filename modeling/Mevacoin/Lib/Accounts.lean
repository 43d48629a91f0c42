import Mathlib.Algebra.BigOperators.Group.List.Basic
import Mathlib.Algebra.Order.BigOperators.Group.List
import Mathlib.Algebra.Order.Group.Nat
import Mathlib.Data.UInt
import Mathlib.Tactic.TypeStar

/-!
# Sums of amounts

Sums in 64-bit words, shares rounded down, running totals, and limits over sliding windows.
-/

namespace Lib

variable {α : Type*}

/-- A sum of words is the sum of their values, modulo the word size. -/
theorem toNat_sum_mod (f : α → UInt64) (l : List α) :
    (l.map f).sum.toNat = (l.map fun a => (f a).toNat).sum % 2 ^ 64 := by
  induction l with
  | nil => rfl
  | cons a l ih =>
    simp only [List.map_cons, List.sum_cons, UInt64.toNat_add]
    omega

/-- A sum of words, in the naturals. -/
theorem toNat_sum_of_lt {f : α → UInt64} {l : List α}
    (h : (l.map fun a => (f a).toNat).sum < 2 ^ 64) :
    (l.map f).sum.toNat = (l.map fun a => (f a).toNat).sum := by
  rw [toNat_sum_mod, Nat.mod_eq_of_lt h]

/-- What passes a test and what does not make up the whole. -/
theorem sum_filter_add_sum_filter_not (amount : α → ℕ) (p : α → Bool) (l : List α) :
    ((l.filter p).map amount).sum + ((l.filter fun a => !p a).map amount).sum =
      (l.map amount).sum := by
  induction l with
  | nil => rfl
  | cons a l ih =>
    rw [List.filter_cons, List.filter_cons, List.map_cons, List.sum_cons]
    cases p a with
    | true =>
      simp only [if_true, Bool.not_true, Bool.false_eq_true, if_false, List.map_cons, List.sum_cons]
      omega
    | false =>
      simp only [Bool.not_false, if_true, Bool.false_eq_true, if_false, List.map_cons,
        List.sum_cons]
      omega

/-- Leaving out entries of nothing does not change the sum. -/
theorem sum_filter_of_zero {amount : α → ℕ} {p : α → Bool} {l : List α}
    (h : ∀ a ∈ l, p a = false → amount a = 0) :
    ((l.filter p).map amount).sum = (l.map amount).sum := by
  have hrest : ((l.filter fun a => !p a).map amount).sum = 0 := by
    refine List.sum_eq_zero fun n hn => ?_
    obtain ⟨a, ha, rfl⟩ := List.mem_map.mp hn
    obtain ⟨hmem, hp⟩ := List.mem_filter.mp ha
    exact h a hmem (by simpa using hp)
  have hsum := sum_filter_add_sum_filter_not amount p l
  omega

/-! ### Shares in proportion -/

/-- Shares rounded down take no more than their part of the pool. -/
theorem mul_sum_floor_le (pool total : ℕ) (weight : α → ℕ) (l : List α) :
    total * (l.map fun a => pool * weight a / total).sum ≤ pool * (l.map weight).sum := by
  induction l with
  | nil => exact Nat.le_refl 0
  | cons a l ih =>
    simp only [List.map_cons, List.sum_cons, Nat.mul_add]
    exact Nat.add_le_add (Nat.mul_div_le _ _) ih

/-- Something is left for a weight that has not had its share. -/
theorem sum_floor_lt {pool w : ℕ} (hpool : 0 < pool) (hw : 0 < w) (weight : α → ℕ) (l : List α) :
    (l.map fun a => pool * weight a / ((l.map weight).sum + w)).sum < pool := by
  have hfloor := mul_sum_floor_le pool ((l.map weight).sum + w) weight l
  refine Nat.lt_of_mul_lt_mul_left (a := (l.map weight).sum + w) (Nat.lt_of_le_of_lt hfloor ?_)
  rw [Nat.mul_comm _ pool]
  exact Nat.mul_lt_mul_of_pos_left (by omega) hpool

/-- Dividing a number cut to words loses something if anything was cut. -/
theorem mod_div_eq_iff {x d m : ℕ} (hd : 0 < d) (hdm : d ≤ m) : x % m / d = x / d ↔ x < m := by
  constructor
  · intro h
    by_contra hge
    have hle : x % m + d ≤ x := by
      have hsplit := Nat.mod_add_div x m
      have hm : m * 1 ≤ m * (x / m) :=
        Nat.mul_le_mul_left m (Nat.div_pos (Nat.not_lt.mp hge) (by omega))
      omega
    have hlt := Nat.div_le_div_right (c := d) hle
    rw [Nat.add_div_right _ hd] at hlt
    omega
  · intro h
    rw [Nat.mod_eq_of_lt h]

/-- `kept` are the entries of `full`, some of the zero ones left out. -/
def ZerosOmitted (full kept : List (α × ℕ)) : Prop :=
  kept.Sublist full ∧ kept.filter (0 < ·.2) = full.filter (0 < ·.2)

theorem ZerosOmitted.sum_eq {full kept : List (α × ℕ)} (h : ZerosOmitted full kept) :
    (kept.map (·.2)).sum = (full.map (·.2)).sum := by
  have hsum : ∀ l : List (α × ℕ), ((l.filter (0 < ·.2)).map (·.2)).sum = (l.map (·.2)).sum :=
    fun l => sum_filter_of_zero fun a _ ha => by simpa using ha
  rw [← hsum kept, h.2, hsum full]

/-! ### Running totals -/

/-- **Running totals agree exactly when the entries do.** -/
theorem prefixSums_eq_iff (f g : α → ℕ) (l : List α) :
    (∀ n, ((l.take n).map f).sum = ((l.take n).map g).sum) ↔ ∀ x ∈ l, f x = g x := by
  constructor
  · intro h
    induction l with
    | nil => simp
    | cons x l ih =>
      have hx : f x = g x := by simpa using h 1
      refine List.forall_mem_cons.2 ⟨hx, ih fun n => ?_⟩
      have hn := h (n + 1)
      simpa only [List.take_succ_cons, List.map_cons, List.sum_cons, hx, Nat.add_left_cancel_iff]
        using hn
  · intro h n
    rw [List.map_congr_left fun x hx => h x (List.mem_of_mem_take hx)]

/-- A total of differences is the difference of the totals. -/
theorem sum_map_tsub {f g : α → ℕ} {l : List α} (h : ∀ x ∈ l, g x ≤ f x) :
    (l.map fun x => f x - g x).sum = (l.map f).sum - (l.map g).sum := by
  induction l with
  | nil => rfl
  | cons x l ih =>
    rw [List.forall_mem_cons] at h
    have hle : (l.map g).sum ≤ (l.map f).sum := List.sum_le_sum h.2
    simp only [List.map_cons, List.sum_cons, ih h.2]
    omega

theorem sum_take_le (f : α → ℕ) (l : List α) (n : ℕ) : ((l.take n).map f).sum ≤ (l.map f).sum :=
  ((List.take_sublist n l).map f).sum_le_sum fun _ _ => Nat.zero_le _

theorem sum_filter_pos (l : List ℕ) : (l.filter (0 < ·)).sum = l.sum := by
  have h : ((l.filter (0 < ·)).map id).sum = (l.map id).sum :=
    sum_filter_of_zero fun x _ hx => by simpa using hx
  rwa [List.map_id, List.map_id] at h

/-- A list adds up to nothing exactly when it has no positive entry. -/
theorem sum_eq_zero_iff_filter (l : List ℕ) : l.sum = 0 ↔ (l.filter (0 < ·)).length = 0 := by
  rw [List.length_eq_zero_iff, List.sum_eq_zero_iff]
  simp

/-- A list adds up to one of its positive entries exactly when it has no other. -/
theorem sum_eq_iff_filter {l : List ℕ} {x : ℕ} (hx : x ∈ l) (hpos : 0 < x) :
    l.sum = x ↔ (l.filter (0 < ·)).length = 1 := by
  have hmem : x ∈ l.filter (0 < ·) := List.mem_filter.2 ⟨hx, by simpa using hpos⟩
  have hperm := List.perm_cons_erase hmem
  rw [← sum_filter_pos l, hperm.sum_eq, hperm.length_eq, List.sum_cons, List.length_cons]
  have hrest : ((l.filter (0 < ·)).erase x).sum = 0 ↔ ((l.filter (0 < ·)).erase x).length = 0 := by
    rw [sum_eq_zero_iff_filter, List.filter_eq_self.2]
    intro y hy
    exact (List.mem_filter.1 (List.mem_of_mem_erase hy)).2
  omega

/-! ### Spending within a window -/

section

variable {time amount : α → ℕ} {w limit : ℕ}

/-- What the events in the window of width `w` that ends at `h` amount to. -/
def windowSum (time amount : α → ℕ) (w : ℕ) (l : List α) (h : ℕ) : ℕ :=
  ((l.filter fun e => h ≤ time e + w ∧ time e ≤ h).map amount).sum

/-- No window exceeds the limit. -/
def Limited (time amount : α → ℕ) (w limit : ℕ) (l : List α) : Prop :=
  ∀ h, windowSum time amount w l h ≤ limit

theorem limited_nil : Limited time amount w limit [] := fun _ => Nat.zero_le _

theorem windowSum_append (l l' : List α) (h : ℕ) :
    windowSum time amount w (l ++ l') h =
      windowSum time amount w l h + windowSum time amount w l' h := by
  unfold windowSum
  rw [List.filter_append, List.map_append, List.sum_append]

/-- Fewer events amount to less. -/
theorem sum_filter_le_of_imp {p q : α → Bool} {l : List α} (h : ∀ a ∈ l, p a = true → q a = true) :
    ((l.filter p).map amount).sum ≤ ((l.filter q).map amount).sum := by
  refine List.Sublist.sum_le_sum (List.Sublist.map _ ?_) fun _ _ => Nat.zero_le _
  have hpq : l.filter p = (l.filter q).filter p := by
    rw [List.filter_filter]
    refine List.filter_congr fun a ha => ?_
    cases hp : p a with
    | false => rfl
    | true => rw [h a ha hp]; rfl
  rw [hpq]
  exact List.filter_sublist

/-- **The limit is kept** by a new last event that was checked against its own window. -/
theorem Limited.snoc {l : List α} {x : α} (h : Limited time amount w limit l)
    (hlast : ∀ e ∈ l, time e ≤ time x)
    (hcheck : windowSum time amount w l (time x) + amount x ≤ limit) :
    Limited time amount w limit (l ++ [x]) := by
  intro t
  rw [windowSum_append]
  by_cases hx : t ≤ time x + w ∧ time x ≤ t
  · -- the window ends at or after the new event, so it holds no more than the event's own
    have hold : windowSum time amount w l t ≤ windowSum time amount w l (time x) := by
      refine sum_filter_le_of_imp fun e he hin => ?_
      have hin := of_decide_eq_true hin
      exact decide_eq_true ⟨by omega, hlast e he⟩
    have hnew : windowSum time amount w [x] t = amount x := by
      unfold windowSum
      rw [List.filter_singleton, decide_eq_true hx]
      simp
    omega
  · have hnew : windowSum time amount w [x] t = 0 := by
      unfold windowSum
      rw [List.filter_singleton, decide_eq_false hx]
      rfl
    have := h t
    omega

end

end Lib
