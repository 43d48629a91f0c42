import Mathlib.Data.List.Basic
import Mathlib.Tactic.TypeStar

/-!
# Machines: runs, guarded runs and their induction rules

A machine is a total step function on a state that also emits events; a run feeds it a list of
inputs.
-/

namespace Lib

/-- A deterministic machine with states `σ`, inputs `α` and emitted events `ε`. -/
structure Machine (σ α ε : Type*) where
  /-- One step: the next state and the events it emits, in order. -/
  step : σ → α → σ × List ε

namespace Machine

variable {σ α ε : Type*}

variable (M : Machine σ α ε) {P : σ → α → Prop} {s : σ} {as : List α} {Q : σ → α → Prop}
  {I : σ → List ε → Prop}

/-- Feed a list of inputs, collecting the emitted events. -/
def run (M : Machine σ α ε) : σ → List α → σ × List ε
  | s, [] => (s, [])
  | s, a :: as =>
    let next := M.step s a
    let rest := M.run next.1 as
    (rest.1, next.2 ++ rest.2)

/-- Every input of the run meets the guard `P` in the state it is fed to. -/
def Guarded (M : Machine σ α ε) (P : σ → α → Prop) : σ → List α → Prop
  | _, [] => True
  | s, a :: as => P s a ∧ M.Guarded P (M.step s a).1 as

instance decidableGuarded (M : Machine σ α ε) (P : σ → α → Prop) [∀ s a, Decidable (P s a)] :
    ∀ (s : σ) (as : List α), Decidable (M.Guarded P s as)
  | _, [] => inferInstanceAs (Decidable True)
  | s, a :: as =>
    have := decidableGuarded M P (M.step s a).1 as
    inferInstanceAs (Decidable (P s a ∧ M.Guarded P (M.step s a).1 as))

@[simp] theorem run_nil (s : σ) : M.run s [] = (s, []) := rfl

theorem run_cons (s : σ) (a : α) (as : List α) :
    M.run s (a :: as) =
      ((M.run (M.step s a).1 as).1, (M.step s a).2 ++ (M.run (M.step s a).1 as).2) := rfl

theorem run_append (s : σ) (as bs : List α) :
    M.run s (as ++ bs) =
      ((M.run (M.run s as).1 bs).1, (M.run s as).2 ++ (M.run (M.run s as).1 bs).2) := by
  induction as generalizing s with
  | nil => rfl
  | cons a as ih => rw [List.cons_append, run_cons, ih, run_cons, List.append_assoc]

/-- A guarded run in two parts. -/
theorem guarded_append {bs : List α} :
    M.Guarded P s (as ++ bs) ↔ M.Guarded P s as ∧ M.Guarded P (M.run s as).1 bs := by
  induction as generalizing s with
  | nil => exact (iff_of_eq (true_and _)).symm
  | cons a as ih =>
    show P s a ∧ M.Guarded P _ (as ++ bs) ↔ (P s a ∧ M.Guarded P _ as) ∧ _
    rw [ih, and_assoc]
    rfl

theorem Guarded.mono {M : Machine σ α ε} (h : ∀ s a, P s a → Q s a) (hg : M.Guarded P s as) :
    M.Guarded Q s as := by
  induction as generalizing s with
  | nil => exact trivial
  | cons a as ih => exact ⟨h s a hg.1, ih hg.2⟩

theorem Guarded.and {M : Machine σ α ε} (hp : M.Guarded P s as) (hq : M.Guarded Q s as) :
    M.Guarded (fun s a => P s a ∧ Q s a) s as := by
  induction as generalizing s with
  | nil => exact trivial
  | cons a as ih => exact ⟨⟨hp.1, hq.1⟩, ih hp.2 hq.2⟩

/-- A guard that does not look at the state. -/
theorem guarded_of_forall (h : ∀ s, ∀ a ∈ as, P s a) (s : σ) : M.Guarded P s as := by
  induction as generalizing s with
  | nil => exact trivial
  | cons a as ih =>
    exact ⟨h s a List.mem_cons_self, ih (fun s b hb => h s b (List.mem_cons_of_mem _ hb)) _⟩

/-- A guard that every input meets after the inputs before it. -/
theorem guarded_of_prefixes (h : ∀ pre a post, as = pre ++ a :: post → P (M.run s pre).1 a) :
    M.Guarded P s as := by
  induction as generalizing s with
  | nil => exact trivial
  | cons a as ih =>
    refine ⟨h [] a as rfl, ih fun pre b post hsplit => ?_⟩
    exact h (a :: pre) b post (by rw [hsplit, List.cons_append])

/-- Every input of a guarded run meets the guard in some state. -/
theorem Guarded.of_mem {M : Machine σ α ε} (hg : M.Guarded P s as) {a : α} (ha : a ∈ as) :
    ∃ s', P s' a := by
  induction as generalizing s with
  | nil => exact absurd ha List.not_mem_nil
  | cons b as ih =>
    rcases List.mem_cons.1 ha with rfl | ha
    · exact ⟨s, hg.1⟩
    · exact ih hg.2 ha

/-- What a guarded run emits, one of its steps emits. -/
theorem Guarded.exists_of_mem {M : Machine σ α ε} (hg : M.Guarded P s as) {e : ε}
    (he : e ∈ (M.run s as).2) : ∃ s' a, P s' a ∧ e ∈ (M.step s' a).2 := by
  induction as generalizing s with
  | nil => exact absurd he List.not_mem_nil
  | cons a as ih =>
    rcases List.mem_append.1 he with he | he
    · exact ⟨s, a, hg.1, he⟩
    · exact ih hg.2 he

/-- A run emits only what has a property if and only if each of its steps does. -/
theorem forall_run_iff {Q : ε → Prop} :
    (∀ e ∈ (M.run s as).2, Q e) ↔ M.Guarded (fun s a => ∀ e ∈ (M.step s a).2, Q e) s as := by
  induction as generalizing s with
  | nil => simp [Guarded]
  | cons a as ih => rw [run_cons, List.forall_mem_append, ih, Guarded]

/-- Steps that do nothing make a run that does nothing. -/
theorem run_eq_self (h : ∀ a ∈ as, M.step s a = (s, [])) : M.run s as = (s, []) := by
  induction as with
  | nil => rfl
  | cons a as ih =>
    rw [run_cons, h a List.mem_cons_self, ih fun b hb => h b (List.mem_cons_of_mem _ hb)]
    rfl

/-- A run that emits nothing does nothing, if no step changes the state in silence. -/
theorem step_eq_self_of_run (hM : ∀ s a, (M.step s a).2 = [] → (M.step s a).1 = s)
    (h : (M.run s as).2 = []) : ∀ a ∈ as, M.step s a = (s, []) := by
  induction as with
  | nil => exact fun a ha => absurd ha List.not_mem_nil
  | cons a as ih =>
    obtain ⟨hfirst, hrest⟩ := List.append_eq_nil_iff.1 h
    have hstep : M.step s a = (s, []) := Prod.ext (hM s a hfirst) hfirst
    rw [hstep] at hrest
    rintro b (_ | ⟨_, hb⟩)
    · exact hstep
    · exact ih hrest b hb

/-- Two runs of the same inputs, whose steps keep the states related. -/
theorem run_related {R : σ → σ → Prop} (hstep : ∀ s t a, R s t → R (M.step s a).1 (M.step t a).1)
    {t : σ} (hst : R s t) (as : List α) : R (M.run s as).1 (M.run t as).1 := by
  induction as generalizing s t with
  | nil => exact hst
  | cons a as ih => exact ih (hstep s t a hst)

/-- A run continued from any events `pre` already emitted. -/
theorem run_invariant_from
    (hstep : ∀ s evs a, I s evs → P s a → I (M.step s a).1 (evs ++ (M.step s a).2)) :
    ∀ (as : List α) (s : σ) (pre : List ε), I s pre → M.Guarded P s as →
      I (M.run s as).1 (pre ++ (M.run s as).2) := by
  intro as
  induction as with
  | nil => intro s pre h _; simpa using h
  | cons a as ih =>
    intro s pre h hg
    have := ih _ _ (hstep s pre a h hg.1) hg.2
    simpa [run_cons] using this

/-- **Invariant rule.**  What every guarded step keeps of the state and of what was emitted holds at
the end of every guarded run. -/
theorem run_invariant (hinit : I s [])
    (hstep : ∀ s evs a, I s evs → P s a → I (M.step s a).1 (evs ++ (M.step s a).2))
    (hg : M.Guarded P s as) : I (M.run s as).1 (M.run s as).2 := by
  simpa using run_invariant_from M hstep as s [] hinit hg

/-- The rule for an invariant of the state alone. -/
theorem run_state_invariant {I : σ → Prop} (hinit : I s)
    (hstep : ∀ s a, I s → P s a → I (M.step s a).1) (hg : M.Guarded P s as) : I (M.run s as).1 := by
  induction as generalizing s with
  | nil => exact hinit
  | cons a as ih => exact ih (hstep s a hinit hg.1) hg.2

end Machine

end Lib
