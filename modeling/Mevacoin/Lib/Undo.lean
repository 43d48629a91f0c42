import Mevacoin.Lib.Machine
import Mevacoin.Lib.Stages

/-!
# Rolling a machine back

A machine whose events are the entries of a log is rolled back by undoing them, the latest first.
-/

namespace Lib

open Std

variable {σ τ α β ε : Type*}

/-- Undo the entries of a log, the latest first. -/
def undoAll (undo : σ → ε → σ) (ops : List ε) (s : σ) : σ := ops.foldr (fun o s => undo s o) s

@[simp] theorem undoAll_nil (undo : σ → ε → σ) (s : σ) : undoAll undo [] s = s := rfl

theorem undoAll_cons (undo : σ → ε → σ) (o : ε) (ops : List ε) (s : σ) :
    undoAll undo (o :: ops) s = undo (undoAll undo ops s) o := rfl

theorem undoAll_append (undo : σ → ε → σ) (ops ops' : List ε) (s : σ) :
    undoAll undo (ops ++ ops') s = undoAll undo ops (undoAll undo ops' s) := List.foldr_append

variable {undo : σ → ε → σ}

/-- Undoing, seen through a projection. -/
theorem undoAll_project {undo' : τ → ε → τ} {p : σ → τ} (h : ∀ s o, p (undo s o) = undo' (p s) o)
    (ops : List ε) (s : σ) : p (undoAll undo ops s) = undoAll undo' ops (p s) := by
  induction ops with
  | nil => rfl
  | cons o ops ih => rw [undoAll_cons, undoAll_cons, h, ih]

/-- Entries that undo nothing may be left out. -/
theorem undoAll_filter {k : ε → Bool} (h : ∀ s o, k o = false → undo s o = s) (ops : List ε)
    (s : σ) : undoAll undo (ops.filter k) s = undoAll undo ops s := by
  induction ops with
  | nil => rfl
  | cons o ops ih =>
    cases hk : k o with
    | false => rw [List.filter_cons_of_neg (by simp [hk]), ih, undoAll_cons, h _ _ hk]
    | true => rw [List.filter_cons_of_pos hk, undoAll_cons, undoAll_cons, ih]

/-- `P` holds of every entry in the state that it is undone in. -/
def UndoGuarded (undo : σ → ε → σ) (P : σ → ε → Prop) : List ε → σ → Prop
  | [], _ => True
  | o :: ops, s => UndoGuarded undo P ops s ∧ P (undoAll undo ops s) o

instance decidableUndoGuarded (undo : σ → ε → σ) (P : σ → ε → Prop)
    [∀ s o, Decidable (P s o)] : ∀ (ops : List ε) (s : σ), Decidable (UndoGuarded undo P ops s)
  | [], _ => .isTrue trivial
  | o :: ops, s =>
    have := decidableUndoGuarded undo P ops s
    inferInstanceAs (Decidable (UndoGuarded undo P ops s ∧ P (undoAll undo ops s) o))

/-- An invariant that undoing a guarded entry keeps. -/
theorem undoAll_invariant {P : σ → ε → Prop} {I : σ → Prop} {ops : List ε} {s : σ}
    (hstep : ∀ s, ∀ o ∈ ops, I s → P s o → I (undo s o)) (hs : I s)
    (hg : UndoGuarded undo P ops s) : I (undoAll undo ops s) := by
  induction ops with
  | nil => exact hs
  | cons o ops ih =>
    exact hstep _ o List.mem_cons_self
      (ih (fun s o ho => hstep s o (List.mem_cons_of_mem _ ho)) hg.1) hg.2

/-- A way to compare states that undoing respects. -/
structure UndoCongruence (undo : σ → ε → σ) (R : σ → σ → Prop) : Prop where
  refl : ∀ s, R s s
  trans : ∀ {s t u}, R s t → R t u → R s u
  undo : ∀ {s t}, R s t → ∀ o, R (undo s o) (undo t o)

theorem UndoCongruence.undoAll {R : σ → σ → Prop} (C : UndoCongruence undo R) {s t : σ} (h : R s t)
    (ops : List ε) : R (undoAll undo ops s) (Lib.undoAll undo ops t) := by
  induction ops with
  | nil => exact h
  | cons o ops ih => exact C.undo ih o

namespace Machine

variable {P : σ → α → Prop} {s : σ} {as : List α} {M : Machine σ α ε} {N : Machine τ β ε}
  {p : σ → τ} {f : α → Option β} {k : ε → Bool}

/-- A run and the undoing of everything it logged. -/
def rollback (M : Machine σ α ε) (undo : σ → ε → σ) (s : σ) (as : List α) : σ :=
  undoAll undo (M.run s as).2 (M.run s as).1

/-- **Rollback rule.**  Where every single step can be undone in the state it is taken in, the
whole run can. -/
theorem rollback_related (M : Machine σ α ε) {undo : σ → ε → σ} {R : σ → σ → Prop}
    (C : UndoCongruence undo R)
    (hstep : ∀ s a, P s a → R (undoAll undo (M.step s a).2 (M.step s a).1) s)
    (hg : M.Guarded P s as) : R (M.rollback undo s as) s := by
  induction as generalizing s with
  | nil => exact C.refl s
  | cons a as ih =>
    have hrest := C.undoAll (ih hg.2) (M.step s a).2
    rw [rollback, run_cons, undoAll_append]
    exact C.trans hrest (hstep s a hg.1)

/-- **Projection rule.**  If `N`, fed with what `f` sees, does what `M` shows through `p` and logs
what `k` keeps, so do whole runs. -/
theorem run_project
    (h : ∀ s a, N.run (p s) (f a).toList = (p (M.step s a).1, (M.step s a).2.filter k)) (s : σ)
    (as : List α) : N.run (p s) (as.filterMap f) = (p (M.run s as).1, (M.run s as).2.filter k) := by
  induction as generalizing s with
  | nil => rfl
  | cons a as ih =>
    have ha := h s a
    rw [run_cons, List.filter_append]
    cases hf : f a with
    | none =>
      rw [hf] at ha
      simp only [Option.toList_none, run_nil, Prod.mk.injEq] at ha
      rw [List.filterMap_cons_none hf, ← ha.2, ha.1]
      exact ih _
    | some b =>
      rw [hf] at ha
      simp only [Option.toList_some, run_cons, run_nil, List.append_nil, Prod.mk.injEq] at ha
      rw [List.filterMap_cons_some hf, run_cons, ha.1, ha.2, ih]

/-- A guarded run, seen through a projection. -/
theorem Guarded.project
    (h : ∀ s a, N.run (p s) (f a).toList = (p (M.step s a).1, (M.step s a).2.filter k))
    {Q : τ → β → Prop} (hPQ : ∀ s a, P s a → ∀ b ∈ f a, Q (p s) b) (hg : M.Guarded P s as) :
    N.Guarded Q (p s) (as.filterMap f) := by
  induction as generalizing s with
  | nil => exact trivial
  | cons a as ih =>
    have ha := h s a
    have hrest := ih hg.2
    cases hf : f a with
    | none =>
      rw [hf] at ha
      rw [List.filterMap_cons_none hf, show p s = p (M.step s a).1 from congrArg Prod.fst ha]
      exact hrest
    | some b =>
      rw [hf] at ha
      rw [List.filterMap_cons_some hf]
      refine ⟨hPQ s a hg.1 b hf, ?_⟩
      rw [show (N.step (p s) b).1 = p (M.step s a).1 from congrArg Prod.fst ha]
      exact hrest

end Machine

variable {M : Machine σ α ε} (fs : List ((σ → Flow σ) × (σ → List α)))

/-- What the stages of a body do, each stage given with the inputs it amounts to. -/
def Flow.performed : List ((σ → Flow σ) × (σ → List α)) → σ → List α
  | [], _ => []
  | (f, acts) :: fs, s =>
    acts s ++
      match f s with
      | .next s' => performed fs s'
      | .skip _ => []

/-- A body whose stages are runs of a machine is a run of the machine. -/
theorem Flow.stages_eq_run (h : ∀ x ∈ fs, ∀ s, (x.1 s).state = (M.run s (x.2 s)).1) (s : σ) :
    (Flow.stages (fs.map Prod.fst) s).state = (M.run s (Flow.performed fs s)).1 := by
  induction fs generalizing s with
  | nil => rfl
  | cons x fs ih =>
    obtain ⟨f, acts⟩ := x
    have hf := h (f, acts) List.mem_cons_self s
    rw [List.map_cons, Flow.stages_cons, performed, Machine.run_append]
    dsimp only at hf ⊢
    rw [← hf]
    cases f s with
    | next s' => exact ih (fun y hy => h y (List.mem_cons_of_mem _ hy)) s'
    | skip s' => rfl

/-- Where every stage performs guarded runs, so does the body. -/
theorem Flow.performed_guarded {P : σ → α → Prop}
    (h : ∀ x ∈ fs, ∀ s, (x.1 s).state = (M.run s (x.2 s)).1)
    (hg : ∀ x ∈ fs, ∀ s, M.Guarded P s (x.2 s)) (s : σ) : M.Guarded P s (Flow.performed fs s) := by
  induction fs generalizing s with
  | nil => exact trivial
  | cons x fs ih =>
    obtain ⟨f, acts⟩ := x
    have hf := h (f, acts) List.mem_cons_self s
    rw [performed, Machine.guarded_append]
    refine ⟨hg (f, acts) List.mem_cons_self s, ?_⟩
    dsimp only at hf ⊢
    rw [← hf]
    cases f s with
    | next s' =>
      exact ih (fun y hy => h y (List.mem_cons_of_mem _ hy))
        (fun y hy => hg y (List.mem_cons_of_mem _ hy)) s'
    | skip s' => exact trivial

/-- What a body in two parts performs. -/
theorem Flow.performed_append (gs : List ((σ → Flow σ) × (σ → List α))) (s : σ) :
    Flow.performed (fs ++ gs) s = Flow.performed fs s ++
      match Flow.stages (fs.map Prod.fst) s with
      | .next s' => Flow.performed gs s'
      | .skip _ => [] := by
  induction fs generalizing s with
  | nil => rfl
  | cons x fs ih =>
    obtain ⟨f, acts⟩ := x
    rw [List.cons_append, performed, performed, List.map_cons, Flow.stages_cons,
      List.append_assoc]
    dsimp only
    cases f s with
    | next s' => exact congrArg (acts s ++ ·) (ih s')
    | skip s' => rfl

/-- **Two-run rule.**  If related states let the same inputs through every stage and steps keep them
related, the body performs the same. -/
theorem Flow.performed_congr {R : σ → σ → Prop} {fs : List ((σ → Flow σ) × (σ → List α))}
    (hrun : ∀ x ∈ fs, ∀ s, (x.1 s).state = (M.run s (x.2 s)).1)
    (hstep : ∀ s t a, R s t → R (M.step s a).1 (M.step t a).1)
    (h : ∀ x ∈ fs, ∀ s t, R s t → x.2 s = x.2 t ∧ (x.1 s).isNext = (x.1 t).isNext) {s t : σ}
    (hst : R s t) : Flow.performed fs s = Flow.performed fs t := by
  induction fs generalizing s t with
  | nil => rfl
  | cons x fs ih =>
    obtain ⟨f, acts⟩ := x
    obtain ⟨hacts, hnext⟩ := h (f, acts) List.mem_cons_self s t hst
    have hstate : R (f s).state (f t).state := by
      rw [hrun (f, acts) List.mem_cons_self s, hrun (f, acts) List.mem_cons_self t]
      rw [hacts]
      exact M.run_related hstep hst (acts t)
    dsimp only at hacts hnext
    rw [performed, performed, hacts]
    cases hs : f s with
    | next s' =>
      cases ht : f t with
      | next t' =>
        rw [hs, ht] at hstate
        exact congrArg (acts t ++ ·) (ih (fun y hy => hrun y (List.mem_cons_of_mem _ hy))
          (fun y hy => h y (List.mem_cons_of_mem _ hy)) hstate)
      | skip t' =>
        rw [hs, ht] at hnext
        cases hnext
    | skip s' =>
      cases ht : f t with
      | next t' =>
        rw [hs, ht] at hnext
        cases hnext
      | skip t' => rfl

/-- Where what every stage performs is found in a list, what the body performs is found in all of
them together. -/
theorem Flow.performed_filterMap_sublist {β : Type*} {g : α → Option β}
    {fs : List ((σ → Flow σ) × (σ → List α))} {ls : List (List β)}
    (h : List.Forall₂ (fun x l => ∀ s, ((x.2 s).filterMap g).Sublist l) fs ls) (s : σ) :
    ((Flow.performed fs s).filterMap g).Sublist ls.flatten := by
  induction h generalizing s with
  | nil => exact List.Sublist.refl _
  | cons hx _ ih =>
    rw [performed, List.filterMap_append]
    refine List.Sublist.append (hx s) ?_
    split
    · exact ih _
    · exact List.nil_sublist _

/-- Where what a stage performs has the label of the stage, what the body performs has one of the
labels. -/
theorem Flow.performed_label {β : Type*} {f : α → β} {fs : List ((σ → Flow σ) × (σ → List α))}
    {ls : List β} (h : List.Forall₂ (fun x l => ∀ s, ∀ a ∈ x.2 s, f a = l) fs ls) (s : σ) :
    ∀ a ∈ Flow.performed fs s, f a ∈ ls := by
  induction h generalizing s with
  | nil => exact fun a ha => absurd ha List.not_mem_nil
  | cons hx _ ih =>
    intro a ha
    rw [performed, List.mem_append] at ha
    rcases ha with ha | ha
    · exact hx s a ha ▸ List.mem_cons_self
    · split at ha
      · exact List.mem_cons_of_mem _ (ih _ a ha)
      · exact absurd ha List.not_mem_nil

/-! ### Edits of a map -/

theorem optionRel_refl {α : Type*} {R : α → α → Prop} (h : ∀ a, R a a) :
    ∀ o : Option α, Option.Rel R o o
  | none => .none
  | some a => .some (h a)

theorem optionRel_trans {α : Type*} {R : α → α → Prop} (h : ∀ {a b c}, R a b → R b c → R a c)
    {o o' o'' : Option α} : Option.Rel R o o' → Option.Rel R o' o'' → Option.Rel R o o''
  | .none, .none => .none
  | .some hab, .some hbc => .some (h hab hbc)

theorem optionRel_mono {α : Type*} {R S : α → α → Prop} (h : ∀ {a b}, R a b → S a b)
    {o o' : Option α} : Option.Rel R o o' → Option.Rel S o o'
  | .none => .none
  | .some hab => .some (h hab)

section

variable {κ υ : Type*} [Ord κ] [TransOrd κ] [LawfulEqOrd κ]

variable {m : ExtTreeMap κ υ} {k : κ}

/-- Erasing takes back an insertion under a key that was not there. -/
theorem erase_insert_of_absent (h : m[k]? = none) (v : υ) : (m.insert k v).erase k = m := by
  ext i w
  rw [ExtTreeMap.getElem?_erase, ExtTreeMap.getElem?_insert]
  by_cases hi : k = i
  · subst hi
    simp [h]
  · simp [hi]

/-- Inserting takes back the erasure of what was there. -/
theorem insert_erase_of_present {v : υ} (h : m[k]? = some v) : (m.erase k).insert k v = m := by
  ext i w
  rw [ExtTreeMap.getElem?_insert, ExtTreeMap.getElem?_erase]
  by_cases hi : k = i
  · subst hi
    simp [h]
  · simp [hi]

/-- Inserting what is there changes nothing. -/
theorem insert_of_present {v : υ} (h : m[k]? = some v) : m.insert k v = m := by
  ext i w
  rw [ExtTreeMap.getElem?_insert]
  by_cases hi : k = i
  · subst hi
    simp [h]
  · simp [hi]

theorem insert_insert_self (m : ExtTreeMap κ υ) (k : κ) (v w : υ) :
    (m.insert k v).insert k w = m.insert k w := by
  ext i u
  rw [ExtTreeMap.getElem?_insert, ExtTreeMap.getElem?_insert, ExtTreeMap.getElem?_insert]
  split
  · rfl
  · rfl

end

end Lib
