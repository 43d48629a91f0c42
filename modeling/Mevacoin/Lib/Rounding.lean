import Mathlib.Tactic.Linarith
import Mathlib.Tactic.Positivity
import Mevacoin.Lib.FloatArith

/-!
# Rounded arithmetic

Operations that round with a relative error of at most `u`, as those of binary64 do between `1/2`
and `2 ^ 200` for `u = 2 ^ (-53)`.
-/

namespace Lib

/-- The number is `r` up to a relative error of `u`. -/
def Near (u r x : ℚ) : Prop := r * (1 - u) ≤ x ∧ x ≤ r * (1 + u)

/-- The result is one that neither overflows nor underflows. -/
def Ordinary (r : ℚ) : Prop := 1 / 2 ≤ r ∧ r ≤ 2 ^ 200

/-- Rounding with relative error `u`; `val` is the value of what is a positive number. -/
structure FloatArith.Rounds {D : Type*} [FloatArith D] (u : ℚ) (val : D → ℚ) : Prop where
  error_nonneg : 0 ≤ u
  ofNat : ∀ n : ℕ, 0 < n → n < 2 ^ 64 → Near u n (val (FloatArith.ofNat n))
  ofRat : ∀ q : ℚ, Ordinary q → Near u q (val (FloatArith.ofRat q))
  zero_add : ∀ x : D, val (FloatArith.add (FloatArith.ofRat 0) x) = val x
  add : ∀ x y : D, 0 < val x → 0 < val y → Ordinary (val x + val y) →
    Near u (val x + val y) (val (FloatArith.add x y))
  mul : ∀ x y : D, 0 < val x → 0 < val y → Ordinary (val x * val y) →
    Near u (val x * val y) (val (FloatArith.mul x y))
  div : ∀ x y : D, 0 < val x → 0 < val y → Ordinary (val x / val y) →
    Near u (val x / val y) (val (FloatArith.div x y))
  /-- A quotient that underflows is truncated to zero. -/
  trunc_div : ∀ x y : D, 0 < val x → 0 < val y →
    ((FloatArith.trunc (FloatArith.div x y)).toNat : ℚ) ≤ val x / val y * (1 + u)

/-- Exact arithmetic does not round. -/
theorem roundsRat : FloatArith.Rounds 0 (id : ℚ → ℚ) where
  error_nonneg := le_rfl
  ofNat n _ _ := by simp [Near, FloatArith.ofNat]
  ofRat q _ := by simp [Near, FloatArith.ofRat]
  zero_add x := by simp [FloatArith.add, FloatArith.ofRat]
  add x y _ _ _ := by simp [Near, FloatArith.add]
  mul x y _ _ _ := by simp [Near, FloatArith.mul]
  div x y _ _ _ := by simp [Near, FloatArith.div]
  trunc_div x y hx hy := by
    have hfloor : 0 ≤ (x / y).floor := Rat.le_floor_iff.2 (by simpa using (div_pos hx hy).le)
    have hmod : (FloatArith.trunc (FloatArith.div x y)).toNat ≤ (x / y).floor.toNat := by
      simpa [FloatArith.trunc, FloatArith.div] using Nat.mod_le _ _
    calc ((FloatArith.trunc (FloatArith.div x y)).toNat : ℚ) ≤ ((x / y).floor.toNat : ℚ) := by
          exact_mod_cast hmod
      _ = ((x / y).floor : ℚ) := by exact_mod_cast Int.toNat_of_nonneg hfloor
      _ ≤ x / y * (1 + 0) := by simpa using Rat.floor_le (x / y)

namespace FloatArith.Rounds

variable {D : Type*} [FloatArith D] {u : ℚ} {val : D → ℚ} {ws : List D} {b : ℕ}

/-- A weight of ordinary size. -/
def Weight (val : D → ℚ) (w : D) : Prop := 1 ≤ val w ∧ val w ≤ 2 ^ 70

/-- The sum of the weights before any rounding. -/
def exactSum (val : D → ℚ) (ws : List D) : ℚ := (ws.map val).sum

omit [FloatArith D] in
/-- The sum of ordinary weights. -/
theorem exactSum_bounds (hws : ∀ w ∈ ws, Weight val w) :
    (ws.length : ℚ) ≤ exactSum val ws ∧ exactSum val ws ≤ ws.length * 2 ^ 70 := by
  induction ws with
  | nil => simp [exactSum]
  | cons w ws ih =>
    obtain ⟨hlow, hhigh⟩ := hws w List.mem_cons_self
    obtain ⟨ihlow, ihhigh⟩ := ih fun x hx => hws x (List.mem_cons_of_mem w hx)
    have hcons : exactSum val (w :: ws) = val w + exactSum val ws := by simp [exactSum]
    rw [hcons, List.length_cons]
    push_cast
    constructor
    · linarith
    · linarith

variable (hD : Rounds u val)

include hD

/-- The computed sum: each addition costs a relative error of `u` below and at most `2 u` above. -/
theorem fsum_near (hws : ∀ w ∈ ws, Weight val w) (hne : ws ≠ []) (hn : ws.length < 2 ^ 64)
    (hu : 2 * ws.length * u ≤ 1) :
    exactSum val ws * (1 - ws.length * u) ≤ val (fsum ws) ∧
      val (fsum ws) ≤ exactSum val ws * (1 + 2 * ws.length * u) := by
  have hu0 := hD.error_nonneg
  induction ws using List.reverseRecOn with
  | nil => exact absurd rfl hne
  | append_singleton ws w ih =>
    obtain ⟨hlow, hhigh⟩ := hws w (by simp)
    have hsum : exactSum val (ws ++ [w]) = exactSum val ws + val w := by simp [exactSum]
    have hfold : fsum (ws ++ [w]) = FloatArith.add (fsum ws) w := by
      simp [fsum, List.foldl_append]
    have hlen : ((ws ++ [w]).length : ℚ) = ws.length + 1 := by simp
    rw [hlen] at hu ⊢
    rw [hfold, hsum]
    by_cases hnil : ws = []
    · subst hnil
      have hval : val (FloatArith.add (fsum []) w) = val w := hD.zero_add w
      rw [hval]
      simp only [exactSum, List.map_nil, List.sum_nil, List.length_nil, Nat.cast_zero]
      constructor
      · nlinarith
      · nlinarith
    · have hk : (0 : ℚ) ≤ ws.length := Nat.cast_nonneg _
      have hws' : ∀ x ∈ ws, Weight val x := fun x hx => hws x (List.mem_append_left _ hx)
      have hshort : ws.length < 2 ^ 64 := by
        rw [List.length_append] at hn
        omega
      have hcount : (ws.length : ℚ) ≤ 2 ^ 64 := by exact_mod_cast hshort.le
      have hpos : (1 : ℚ) ≤ ws.length := by exact_mod_cast List.length_pos_iff.2 hnil
      obtain ⟨hS, hS'⟩ := exactSum_bounds hws'
      obtain ⟨ihlow, ihhigh⟩ := ih hws' hnil hshort (by nlinarith)
      generalize (ws.length : ℚ) = k at *
      generalize exactSum val ws = S at *
      have hx : 0 < val (fsum ws) := by nlinarith
      have hbig : val (fsum ws) ≤ 2 * (2 ^ 64 * 2 ^ 70) := by nlinarith
      obtain ⟨hge, hle⟩ := hD.add (fsum ws) w hx (by linarith)
        ⟨by linarith, by norm_num at hbig hhigh ⊢; linarith⟩
      -- what the earlier errors leave, rounded once more
      have hweight : 0 ≤ val w * k * u := mul_nonneg (mul_nonneg (by linarith) hk) hu0
      constructor
      · have hstep := mul_le_mul_of_nonneg_right ihlow (show 0 ≤ 1 - u by nlinarith)
        have hsquare : 0 ≤ S * (k * u) * u :=
          mul_nonneg (mul_nonneg (by linarith) (mul_nonneg hk hu0)) hu0
        nlinarith
      · have hstep := mul_le_mul_of_nonneg_right ihhigh (show 0 ≤ 1 + u by linarith)
        have hslack : 0 ≤ S * u * (1 - 2 * k * u) :=
          mul_nonneg (mul_nonneg (by linarith) hu0) (by nlinarith)
        nlinarith

/-- One share, cleared of the division. -/
theorem share_mul_le {w total : D} (hw : Weight val w) (htotal : 0 < val total) (hb : 0 < b)
    (hb64 : b < 2 ^ 64) (hu : u ≤ 1 / 8) :
    ((FloatArith.trunc (FloatArith.div (FloatArith.mul (FloatArith.ofNat b) w) total)).toNat : ℚ) *
        val total ≤ b * (1 + 4 * u) * val w := by
  have hu0 := hD.error_nonneg
  have hbpos : (1 : ℚ) ≤ b := by exact_mod_cast hb
  have hbbig : (b : ℚ) ≤ 2 ^ 64 := by exact_mod_cast hb64.le
  obtain ⟨hlow, hhigh⟩ := hw
  obtain ⟨hB, hB'⟩ := hD.ofNat b hb hb64
  generalize (FloatArith.ofNat b : D) = B at *
  have hBpos : 1 / 2 ≤ val B := by nlinarith
  have hBbig : val B ≤ 2 * 2 ^ 64 := by nlinarith
  obtain ⟨hp, hp'⟩ := hD.mul B w (by linarith) (by linarith) ⟨by nlinarith, by nlinarith⟩
  have hppos : 0 < val (FloatArith.mul B w) := by nlinarith
  have hshare := hD.trunc_div (FloatArith.mul B w) total hppos htotal
  have hclear := (le_div_iff₀ htotal).1 (hshare.trans_eq (div_mul_eq_mul_div ..))
  have hcube : (1 + u) * (1 + u) * (1 + u) ≤ 1 + 4 * u := by
    have hsquare : u * u ≤ 1 / 8 * u := mul_le_mul_of_nonneg_right hu hu0
    nlinarith [mul_le_mul_of_nonneg_right hsquare hu0]
  calc _ ≤ val (FloatArith.mul B w) * (1 + u) := hclear
    _ ≤ val B * val w * (1 + u) * (1 + u) := by gcongr
    _ ≤ b * (1 + u) * val w * (1 + u) * (1 + u) := by gcongr
    _ = b * val w * ((1 + u) * (1 + u) * (1 + u)) := by ring
    _ ≤ b * val w * (1 + 4 * u) := by gcongr
    _ = b * (1 + 4 * u) * val w := by ring

/-- **Truncated shares do not exceed the budget.** -/
theorem sum_shares_le (hws : ∀ w ∈ ws, Weight val w) (hn : ws.length < 2 ^ 64) (hb : 0 < b)
    (hb64 : b < 2 ^ 64) (hu : u * (ws.length + 4) * (b + 1) < 1) :
    (ws.map fun w => (FloatArith.trunc
      (FloatArith.div (FloatArith.mul (FloatArith.ofNat b) w) (fsum ws))).toNat).sum ≤ b := by
  by_cases hne : ws = []
  · simp [hne]
  have hu0 := hD.error_nonneg
  have hk : (1 : ℚ) ≤ ws.length := by exact_mod_cast List.length_pos_iff.2 hne
  have hbpos : (1 : ℚ) ≤ b := by exact_mod_cast hb
  have hsmall : u * (ws.length + 4) * 2 < 1 := by nlinarith
  have hS := (exactSum_bounds hws).1
  have htotal := (hD.fsum_near hws hne hn (by nlinarith)).1
  generalize (ws.length : ℚ) = k at *
  have hleft : 1 / 2 ≤ 1 - k * u := by nlinarith
  have hpos : 0 < val (fsum ws) := by nlinarith
  have hall : ∀ l : List D, (∀ w ∈ l, w ∈ ws) →
      ((l.map fun w => (FloatArith.trunc (FloatArith.div (FloatArith.mul (FloatArith.ofNat b) w)
        (fsum ws))).toNat).sum : ℚ) * val (fsum ws) ≤ b * (1 + 4 * u) * exactSum val l := by
    intro l hl
    induction l with
    | nil => simp [exactSum]
    | cons w l ih =>
      have hhead := hD.share_mul_le (hws w (hl w List.mem_cons_self)) hpos hb hb64 (by nlinarith)
      have htail := ih fun x hx => hl x (List.mem_cons_of_mem w hx)
      simp only [exactSum, List.map_cons, List.sum_cons, Nat.cast_add, add_mul, mul_add]
        at htail hhead ⊢
      linarith
  have hsum := hall ws fun _ h => h
  by_contra hover
  have hone : (b + 1 : ℚ) ≤ ((ws.map fun w => (FloatArith.trunc (FloatArith.div
      (FloatArith.mul (FloatArith.ofNat b) w) (fsum ws))).toNat).sum : ℕ) := by
    exact_mod_cast Nat.lt_of_not_le hover
  have hlost : (b : ℚ) * (1 + 4 * u) < (b + 1) * (1 - k * u) := by nlinarith
  have hcontra : (b + 1) * (exactSum val ws * (1 - k * u)) ≤ b * (1 + 4 * u) * exactSum val ws :=
    calc (b + 1) * (exactSum val ws * (1 - k * u)) ≤ (b + 1) * val (fsum ws) := by gcongr
      _ ≤ _ := mul_le_mul_of_nonneg_right hone hpos.le
      _ ≤ _ := hsum
  have hSpos : 0 < exactSum val ws := by linarith
  nlinarith [mul_lt_mul_of_pos_right hlost hSpos]

end FloatArith.Rounds

end Lib
