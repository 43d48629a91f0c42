import Mathlib.Data.List.Basic
import Mathlib.Tactic.TypeStar

/-!
# Loop bodies made of stages

The body of a loop as a sequence of stages each of which may `continue`.
-/

namespace Lib

/-- How a stage ends: on to the next one, or `continue`. -/
inductive Flow (σ : Type*) where
  | next (s : σ)
  | skip (s : σ)

namespace Flow

variable {σ τ : Type*}

/-- The state a stage ends with. -/
def state : Flow σ → σ
  | next s => s
  | skip s => s

/-- The stage fell through. -/
def isNext : Flow σ → Bool
  | next _ => true
  | skip _ => false

/-- Project the state. -/
def map (f : σ → τ) : Flow σ → Flow τ
  | next s => next (f s)
  | skip s => skip (f s)

/-- Go on with another stage, unless this one left the body. -/
def bind (f : σ → Flow σ) : Flow σ → Flow σ
  | next s => f s
  | skip s => skip s

/-- Run the stages in order until one of them leaves the body. -/
def stages : List (σ → Flow σ) → σ → Flow σ
  | [], s => next s
  | f :: fs, s => (f s).bind (stages fs)

@[simp] theorem state_next (s : σ) : (next s).state = s := rfl

/-- States are mapped. -/
@[simp] theorem state_map (f : σ → τ) (x : Flow σ) : (x.map f).state = f x.state := by
  cases x <;> rfl

theorem stages_cons (f : σ → Flow σ) (fs : List (σ → Flow σ)) (s : σ) :
    stages (f :: fs) s = (f s).bind (stages fs) := rfl

@[simp] theorem bind_next (f : σ → Flow σ) (s : σ) : (next s).bind f = f s := rfl

/-- A body in two parts: the second runs when the first falls through. -/
theorem stages_append (fs gs : List (σ → Flow σ)) (s : σ) :
    stages (fs ++ gs) s = (stages fs s).bind (stages gs) := by
  induction fs generalizing s with
  | nil => rfl
  | cons f fs ih =>
    rw [List.cons_append, stages_cons, stages_cons]
    cases f s with
    | next t => exact ih t
    | skip t => rfl

/-- **Two-run rule.**  Corresponding stages that keep projections equal give bodies that do. -/
theorem stages_congr {c : σ → τ} {fs gs : List (σ → Flow σ)}
    (h : List.Forall₂ (fun f g => ∀ s t, c s = c t → (f s).map c = (g t).map c) fs gs)
    {s t : σ} (hst : c s = c t) : (stages fs s).map c = (stages gs t).map c := by
  induction h generalizing s t with
  | nil => exact congrArg next hst
  | @cons f g fs gs hfg _ ih =>
    have heq := hfg s t hst
    rw [stages_cons, stages_cons]
    cases hf : f s with
    | next s' =>
      cases hg : g t with
      | next t' =>
        rw [hf, hg] at heq
        exact ih (next.inj heq)
      | skip t' => simp [hf, hg, map] at heq
    | skip s' =>
      cases hg : g t with
      | next t' => simp [hf, hg, map] at heq
      | skip t' => rwa [hf, hg] at heq

end Flow

end Lib
