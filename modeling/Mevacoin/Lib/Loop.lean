import Mathlib.Tactic.TypeStar

/-!
# While loops

A loop that runs forever loops to nothing, so statements about `LoopsTo` contain termination.
-/

namespace Lib

variable {σ : Type*} {guard : σ → Prop} {body : σ → σ}

/-- The loop started in the first state ends in the second. -/
inductive LoopsTo (guard : σ → Prop) (body : σ → σ) : σ → σ → Prop
  | done {s : σ} : ¬ guard s → LoopsTo guard body s s
  | next {s s' : σ} : guard s → LoopsTo guard body (body s) s' → LoopsTo guard body s s'

/-- A loop ends where its guard fails. -/
theorem LoopsTo.exit {s s' : σ} (h : LoopsTo guard body s s') : ¬ guard s' := by
  induction h with
  | done hg => exact hg
  | next _ _ ih => exact ih

/-- What the body keeps under the guard holds at the end. -/
theorem LoopsTo.invariant {I : σ → Prop} (hbody : ∀ s, guard s → I s → I (body s)) {s s' : σ}
    (h : LoopsTo guard body s s') (hs : I s) : I s' := by
  induction h with
  | done _ => exact hs
  | next hg _ ih => exact ih (hbody _ hg hs)

end Lib
