import Mathlib.LinearAlgebra.Lagrange

/-!
# Interpolation at zero from a list of nodes

The weights with which the values of a polynomial at a list of nodes give its value at zero.  A list
may repeat a node; the inverse of zero is zero.
-/

namespace Lib

open Polynomial

variable {F : Type*} [Field F]

/-- The weight at zero of the node `x` at position `k`. -/
def weightAtZero (xs : List F) (k : ℕ) (x : F) : F :=
  ((xs.eraseIdx k).map fun y => -y).prod * ((xs.eraseIdx k).map fun y => x - y).prod⁻¹

/-- The weighted sum of values at the nodes. -/
def interpolateAtZero (xs : List F) (r : F → F) : F :=
  (xs.mapIdx fun k x => weightAtZero xs k x * r x).sum

variable {xs : List F}

/-- At a distinct node the weight is the value at zero of the node's basis polynomial. -/
theorem weightAtZero_eq_eval [DecidableEq F] (hnd : xs.Nodup) {k : ℕ} (hk : k < xs.length) :
    weightAtZero xs k xs[k] = (Lagrange.basis xs.toFinset id xs[k]).eval 0 := by
  have hother : (xs.erase xs[k]).toFinset = xs.toFinset.erase xs[k] := by
    ext y
    simp [hnd.mem_erase_iff]
  have hprod : ∀ g : F → F, ((xs.eraseIdx k).map g).prod = ∏ y ∈ xs.toFinset.erase xs[k], g y :=
    fun g => by
      rw [← hnd.erase_getElem k hk, ← hother, List.prod_toFinset g (hnd.erase _)]
  rw [weightAtZero, hprod, hprod, Lagrange.basis, eval_prod, ← Finset.prod_inv_distrib,
    ← Finset.prod_mul_distrib]
  simp [Lagrange.basisDivisor, mul_comm]

/-- **Distinct nodes interpolate** a polynomial of degree below their number at zero. -/
theorem interpolateAtZero_eq_eval (hnd : xs.Nodup) {f : F[X]} (hdeg : f.degree < xs.length) :
    interpolateAtZero xs (fun x => f.eval x) = f.eval 0 := by
  classical
  have hcard : xs.toFinset.card = xs.length := List.toFinset_card_of_nodup hnd
  have hf := Lagrange.eq_interpolate_of_eval_eq (s := xs.toFinset) (v := id)
    (r := fun x => f.eval x) (Function.injective_id.injOn) (by rwa [hcard]) fun _ _ => rfl
  have hmap : (xs.mapIdx fun k x => weightAtZero xs k x * f.eval x) =
      xs.map fun x => (Lagrange.basis xs.toFinset id x).eval 0 * f.eval x := by
    refine List.ext_getElem (by simp) fun k hk _ => ?_
    rw [List.length_mapIdx] at hk
    rw [List.getElem_mapIdx, List.getElem_map, weightAtZero_eq_eval hnd hk]
  calc interpolateAtZero xs (fun x => f.eval x)
      = ∑ x ∈ xs.toFinset, (Lagrange.basis xs.toFinset id x).eval 0 * f.eval x := by
        rw [interpolateAtZero, hmap, List.sum_toFinset _ hnd]
    _ = (Lagrange.interpolate xs.toFinset id fun x => f.eval x).eval 0 := by
        rw [Lagrange.interpolate_apply, eval_finsetSum]
        exact Finset.sum_congr rfl fun x _ => by rw [eval_mul, eval_C, mul_comm]
    _ = f.eval 0 := by rw [← hf]

end Lib
