import Mathlib.Data.List.Basic
import Mathlib.Tactic.TypeStar

/-!
# Comparing two runs

A program that reads a clock is compared with itself under another reading.
-/

namespace Lib

open Std

section

variable {σ τ α : Type*} {f g : α → σ → σ} {ok : α → σ → σ → Prop}

/-- Run a list of inputs. -/
def runs (f : α → σ → σ) (as : List α) (s : σ) : σ := as.foldl (fun s a => f a s) s

@[simp] theorem runs_nil (s : σ) : runs f [] s = s := rfl

@[simp] theorem runs_cons (a : α) (as : List α) (s : σ) :
    runs f (a :: as) s = runs f as (f a s) := rfl

/-- One list after another. -/
theorem runs_append (as bs : List α) (s : σ) :
    runs f (as ++ bs) s = runs f bs (runs f as s) := List.foldl_append

/-- Every input meets the condition in the two states it is fed to, one run by `f`, one by `g`. -/
def Lockstep (f g : α → σ → σ) (ok : α → σ → σ → Prop) : List α → σ → σ → Prop
  | [], _, _ => True
  | a :: as, s, t => ok a s t ∧ Lockstep f g ok as (f a s) (g a t)

instance decidableLockstep [∀ a s t, Decidable (ok a s t)] :
    ∀ (as : List α) (s t : σ), Decidable (Lockstep f g ok as s t)
  | [], _, _ => inferInstanceAs (Decidable True)
  | a :: as, s, t =>
    have := decidableLockstep as (f a s) (g a t)
    inferInstanceAs (Decidable (ok a s t ∧ Lockstep f g ok as (f a s) (g a t)))

/-- **Two-run rule.**  Steps that keep projections equal where the condition holds give runs that
do. -/
theorem Lockstep.run_congr {c : σ → τ}
    (hstep : ∀ a s t, ok a s t → c s = c t → c (f a s) = c (g a t))
    {as : List α} {s t : σ} (h : Lockstep f g ok as s t) (hst : c s = c t) :
    c (runs f as s) = c (runs g as t) := by
  induction as generalizing s t with
  | nil => exact hst
  | cons a as ih => exact ih h.2 (hstep a s t h.1 hst)

/-- Two loops over lists that look alike, whose bodies keep the projections equal. -/
theorem foldl_congr_of_map_eq {β : Type*} {d : α → β} {c : σ → τ} {f g : σ → α → σ}
    {as bs : List α} (hd : as.map d = bs.map d)
    (hstep : ∀ a ∈ as, ∀ b ∈ bs, d a = d b → ∀ s t, c s = c t → c (f s a) = c (g t b))
    {s t : σ} (hst : c s = c t) : c (as.foldl f s) = c (bs.foldl g t) := by
  induction as generalizing bs s t with
  | nil =>
    obtain rfl : bs = [] := List.map_eq_nil_iff.1 hd.symm
    exact hst
  | cons a as ih =>
    cases bs with
    | nil => simp at hd
    | cons b bs =>
      rw [List.map_cons, List.map_cons, List.cons.injEq] at hd
      exact ih hd.2
        (fun x hx y hy => hstep x (List.mem_cons_of_mem _ hx) y (List.mem_cons_of_mem _ hy))
        (hstep a List.mem_cons_self b List.mem_cons_self hd.1 s t hst)

end

/-! ### Maps, entry by entry -/

/-- Two optional values with one projection: both missing, or both there. -/
theorem option_map_eq_cases {β γ : Type*} {f : β → γ} {a b : Option β} (h : a.map f = b.map f) :
    a = none ∧ b = none ∨ ∃ x y, a = some x ∧ b = some y ∧ f x = f y := by
  cases a with
  | none =>
    cases b with
    | none => exact Or.inl ⟨rfl, rfl⟩
    | some y => simp at h
  | some x =>
    cases b with
    | none => simp at h
    | some y => exact Or.inr ⟨x, y, rfl, rfl, Option.some.inj h⟩

section

variable {κ β γ : Type*} [Ord κ] [TransOrd κ] [LawfulEqOrd κ]

/-- Mapping what was inserted. -/
theorem map_insert_eq (f : β → γ) (m : ExtTreeMap κ β) (k : κ) (v : β) :
    (m.insert k v).map (fun _ => f) = (m.map fun _ => f).insert k (f v) := by
  ext i w
  simp only [ExtTreeMap.getElem?_map, ExtTreeMap.getElem?_insert]
  split_ifs <;> simp

/-- Mapping what is left. -/
theorem map_erase_eq (f : β → γ) (m : ExtTreeMap κ β) (k : κ) :
    (m.erase k).map (fun _ => f) = (m.map fun _ => f).erase k := by
  ext i w
  simp only [ExtTreeMap.getElem?_map, ExtTreeMap.getElem?_erase]
  split_ifs <;> simp

end

end Lib
