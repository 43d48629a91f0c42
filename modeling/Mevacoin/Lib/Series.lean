import Mathlib.Algebra.Order.Group.Nat
import Mathlib.Data.List.TakeWhile
import Mathlib.Order.Interval.Finset.Nat
import Mathlib.Tactic.Linarith
import Mathlib.Tactic.TypeStar

/-!
# Series of records

Distances between neighbours of a list, rises cut off at a limit, and cutting the front of a list.
-/

namespace Lib

variable {α : Type*}

/-! ### Sums over neighbours -/

/-- The sum of `f` over the pairs of neighbours. -/
def pairSum (f : α → α → ℕ) : List α → ℕ
  | a :: b :: rest => f a b + pairSum f (b :: rest)
  | _ => 0

@[simp] theorem pairSum_nil (f : α → α → ℕ) : pairSum f [] = 0 := rfl

@[simp] theorem pairSum_singleton (f : α → α → ℕ) (a : α) : pairSum f [a] = 0 := rfl

@[simp] theorem pairSum_cons_cons (f : α → α → ℕ) (a b : α) (l : List α) :
    pairSum f (a :: b :: l) = f a b + pairSum f (b :: l) := rfl

variable {f : α → α → ℕ} (c : ℕ) {l : List ℕ} {x : ℕ}

/-- A distance that never exceeds `c` sums to at most `c` for each step. -/
theorem pairSum_le_mul {c : ℕ} (h : ∀ a b, f a b ≤ c) (l : List α) :
    pairSum f l ≤ (l.length - 1) * c := by
  induction l with
  | nil => exact Nat.zero_le _
  | cons a l ih =>
    cases l with
    | nil => exact Nat.zero_le _
    | cons b l =>
      have hab := h a b
      have hlen : (a :: b :: l).length - 1 = ((b :: l).length - 1) + 1 := by simp
      rw [pairSum_cons_cons, hlen, Nat.add_mul]
      omega

/-- The sum from `a` on is at most one step and the sum from there on. -/
theorem pairSum_detour (htri : ∀ a b c, f a c ≤ f a b + f b c) (a b : α) (l : List α) :
    pairSum f (a :: l) ≤ f a b + pairSum f (b :: l) := by
  cases l with
  | nil => exact Nat.zero_le _
  | cons c l =>
    have h := htri a b c
    simp only [pairSum_cons_cons]
    omega

/-- **More records never make the sum smaller**, as long as the first one is the same. -/
theorem pairSum_le_of_sublist (htri : ∀ a b c, f a c ≤ f a b + f b c) {a : α} {l₁ l₂ : List α}
    (h : l₁.Sublist l₂) : pairSum f (a :: l₁) ≤ pairSum f (a :: l₂) := by
  induction h generalizing a with
  | slnil => exact le_rfl
  | cons b _ ih =>
    calc pairSum f (a :: _) ≤ f a b + pairSum f (b :: _) := pairSum_detour htri a b _
      _ ≤ f a b + pairSum f (b :: _) := Nat.add_le_add_left ih _
  | cons_cons b _ ih => exact Nat.add_le_add_left ih _

/-! ### Rises and falls -/

/-- A rise, up to a limit. -/
def cappedRise (c a b : ℕ) : ℕ := min c (b - a)

/-- A rise is capped. -/
theorem cappedRise_le (a b : ℕ) : cappedRise c a b ≤ c := Nat.min_le_left _ _

theorem cappedRise_triangle (x y z : ℕ) :
    cappedRise c x z ≤ cappedRise c x y + cappedRise c y z := by
  unfold cappedRise
  omega

/-- What the limit leaves of the rises, what it cuts off them and the falls balance against the
two ends. -/
theorem pairSum_balance (a : ℕ) (l : List ℕ) :
    pairSum (cappedRise c) (a :: l) + pairSum (fun x y => y - x - c) (a :: l) + a =
      (a :: l).getLastD 0 + pairSum (fun x y => x - y) (a :: l) := by
  induction l generalizing a with
  | nil => simp
  | cons b l ih =>
    have h := ih b
    simp only [pairSum_cons_cons, List.getLastD_cons, cappedRise] at h ⊢
    omega

/-- The distance between the largest and the smallest number. -/
def spread (l : List ℕ) : ℕ := l.max?.getD 0 - l.min?.getD 0

/-- The falls are no more than what the limit cuts off the rises together with the distances of the
last number from the largest and of the first from the smallest. -/
def FallsMadeUp (c : ℕ) (l : List ℕ) : Prop :=
  pairSum (fun x y => x - y) l ≤
    pairSum (fun x y => y - x - c) l + (l.max?.getD 0 - l.getLastD 0) + (l.headD 0 - l.min?.getD 0)
deriving Decidable

/-- No entry is below the least. -/
theorem min?_getD_le (hx : x ∈ l) : l.min?.getD 0 ≤ x := by
  obtain ⟨m, hm⟩ := Option.isSome_iff_exists.mp (List.isSome_min?_of_mem hx)
  rw [hm]
  exact (List.min?_eq_some_iff.mp hm).2 x hx

/-- No entry is above the greatest. -/
theorem le_max?_getD (hx : x ∈ l) : x ≤ l.max?.getD 0 := by
  obtain ⟨m, hm⟩ := Option.isSome_iff_exists.mp (List.isSome_max?_of_mem hx)
  rw [hm]
  exact (List.max?_eq_some_iff.mp hm).2 x hx

/-- **The rises stay within the spread** exactly if the falls are made up for. -/
theorem pairSum_cappedRise_le_spread_iff (l : List ℕ) :
    pairSum (cappedRise c) l ≤ spread l ↔ FallsMadeUp c l := by
  cases l with
  | nil => simp [FallsMadeUp]
  | cons a l =>
    have hbalance := pairSum_balance c a l
    have hmin := min?_getD_le (List.mem_cons_self (a := a) (l := l))
    have hlast : (a :: l).getLastD 0 ∈ a :: l := by
      rw [List.getLastD_cons, List.getLastD_eq_getLast?]
      cases h : l.getLast? with
      | none => exact List.mem_cons_self
      | some z => exact List.mem_cons_of_mem a (List.mem_of_getLast? h)
    have hmax := le_max?_getD hlast
    have hminLast := min?_getD_le hlast
    unfold FallsMadeUp spread
    rw [List.headD_cons]
    omega

theorem pairSum_eq_zero {l : List α} (h : l.Pairwise fun a b => f a b = 0) : pairSum f l = 0 := by
  induction l with
  | nil => rfl
  | cons a l ih =>
    cases l with
    | nil => rfl
    | cons b l =>
      rw [pairSum_cons_cons, List.rel_of_pairwise_cons h List.mem_cons_self, ih h.of_cons]

/-- Numbers that never fall have nothing to make up for. -/
theorem fallsMadeUp_of_sorted (h : l.Pairwise (· ≤ ·)) : FallsMadeUp c l := by
  have hfalls : pairSum (fun x y => x - y) l = 0 :=
    pairSum_eq_zero (h.imp fun hab => Nat.sub_eq_zero_of_le hab)
  unfold FallsMadeUp
  omega

/-! ### Cutting a list -/

/-- Dropping from the front is filtering, if some element is kept and the filter agrees around
it. -/
theorem dropWhile_eq_filter {p q : α → Bool} {l : List α} (hkept : ∃ x ∈ l, p x = false)
    (hself : ∀ x ∈ l, p x = false → q x = true)
    (hbefore : l.Pairwise fun x y => p y = false → p x = true → q x = false)
    (hafter : l.Pairwise fun x y => p x = false → q y = true) :
    l.dropWhile p = l.filter q := by
  induction l with
  | nil => rfl
  | cons x l ih =>
    cases hx : p x with
    | false =>
      rw [List.dropWhile_cons_of_neg (by simp [hx]), List.filter_eq_self.mpr]
      intro y hy
      obtain rfl | hy := List.mem_cons.mp hy
      · exact hself y List.mem_cons_self hx
      · exact List.rel_of_pairwise_cons hafter hy hx
    | true =>
      obtain ⟨y, hy, hpy⟩ := hkept
      have hyl : y ∈ l := by
        obtain rfl | h := List.mem_cons.mp hy
        · rw [hx] at hpy
          cases hpy
        · exact h
      have hqx : q x = false := List.rel_of_pairwise_cons hbefore hyl hpy hx
      rw [List.dropWhile_cons_of_pos hx, List.filter_cons_of_neg (by simp [hqx])]
      exact ih ⟨y, hyl, hpy⟩ (fun z hz => hself z (List.mem_cons_of_mem x hz)) hbefore.of_cons
        hafter.of_cons

/-- Increasing numbers between two bounds are no more than the numbers there. -/
theorem length_le_of_increasing {a b : ℕ} (hl : l.Pairwise (· < ·)) (h : ∀ x ∈ l, a ≤ x ∧ x ≤ b) :
    l.length ≤ b + 1 - a := by
  have hnodup : l.Nodup := hl.imp fun h => Nat.ne_of_lt h
  have hsub : l.toFinset ⊆ Finset.Icc a b := fun x hx =>
    Finset.mem_Icc.mpr (h x (List.mem_toFinset.mp hx))
  calc l.length = l.toFinset.card := (List.toFinset_card_of_nodup hnodup).symm
    _ ≤ (Finset.Icc a b).card := Finset.card_le_card hsub
    _ = b + 1 - a := Nat.card_Icc a b

end Lib
