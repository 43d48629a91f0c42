import Mathlib.Data.List.Basic

/-!
# Collecting the results of a partial function over a list

`l.mapM f` in `Option`: the loop that looks every element up and gives up at the first miss.
-/

namespace Lib

variable {α β : Type*} {f : α → Option β} {l : List α} {ys : List β}

theorem mapM_cons_eq_some {a : α} (h : (a :: l).mapM f = some ys) :
    ∃ y ys', f a = some y ∧ l.mapM f = some ys' ∧ ys = y :: ys' := by
  simp only [List.mapM_cons, Option.bind_eq_bind, Option.pure_def, Option.bind_eq_some_iff,
    Option.some.injEq] at h
  obtain ⟨y, ha, ys', hl, rfl⟩ := h
  exact ⟨y, ys', ha, hl, rfl⟩

/-- There are as many results as inputs. -/
theorem length_of_mapM (h : l.mapM f = some ys) : ys.length = l.length := by
  induction l generalizing ys with
  | nil => simp_all
  | cons a l ih =>
    obtain ⟨y, ys', -, hl, rfl⟩ := mapM_cons_eq_some h
    simp [ih hl]

/-- The `i`-th result is `f` of the `i`-th input. -/
theorem getElem?_of_mapM (h : l.mapM f = some ys) (i : ℕ) : ys[i]? = l[i]?.bind f := by
  induction l generalizing ys i with
  | nil => simp_all
  | cons a l ih =>
    obtain ⟨y, ys', ha, hl, rfl⟩ := mapM_cons_eq_some h
    cases i with
    | zero => simp [ha]
    | succ i => simpa using ih hl i

/-- Every input of a success has a result. -/
theorem isSome_of_mapM (h : l.mapM f = some ys) {a : α} (ha : a ∈ l) : (f a).isSome = true := by
  obtain ⟨i, hi, rfl⟩ := List.getElem_of_mem ha
  have hres := getElem?_of_mapM h i
  rw [List.getElem?_eq_getElem hi, Option.bind_some] at hres
  rw [← hres, List.getElem?_eq_getElem (by rwa [length_of_mapM h])]
  rfl

/-- When nothing fails, skipping the failures collects everything. -/
theorem mapM_eq_filterMap (h : ∀ a ∈ l, (f a).isSome = true) : l.mapM f = some (l.filterMap f) := by
  induction l with
  | nil => rfl
  | cons a l ih =>
    obtain ⟨y, hy⟩ := Option.isSome_iff_exists.1 (h a (List.mem_cons_self ..))
    rw [List.mapM_cons, ih fun b hb => h b (List.mem_cons_of_mem _ hb),
      List.filterMap_cons_some hy, hy]
    rfl

/-- Two lookups that agree on the list collect the same. -/
theorem mapM_congr {g : α → Option β} (h : ∀ a ∈ l, f a = g a) : l.mapM f = l.mapM g := by
  induction l with
  | nil => rfl
  | cons a l ih =>
    rw [List.mapM_cons, List.mapM_cons, h a (List.mem_cons_self ..),
      ih fun b hb => h b (List.mem_cons_of_mem _ hb)]

/-- The map succeeds if no element fails, and then it collects all results. -/
theorem mapM_eq_ite (f : α → Option β) (l : List α) :
    l.mapM f = if ∀ a ∈ l, (f a).isSome = true then some (l.filterMap f) else none := by
  split_ifs with h
  · exact mapM_eq_filterMap h
  · cases hm : l.mapM f with
    | none => rfl
    | some ys => exact absurd (fun a ha => isSome_of_mapM hm ha) h

/-- Forgetting the errors of a fallible map. -/
theorem toOption_mapM {α β ε : Type} (f : α → Except ε β) (l : List α) :
    (l.mapM f).toOption = l.mapM fun a => (f a).toOption := by
  induction l with
  | nil => rfl
  | cons a l ih =>
    rw [List.mapM_cons, List.mapM_cons, ← ih]
    cases ha : f a with
    | error e => rfl
    | ok b =>
      cases hl : l.mapM f with
      | error | ok => rfl

/-- What a fallible map collects comes from the list it maps. -/
theorem mem_of_mapM_ok {α β ε : Type} {f : α → Except ε β} {l : List α} {l' : List β}
    (h : l.mapM f = .ok l') {b : β} (hb : b ∈ l') : ∃ a ∈ l, f a = .ok b := by
  induction l generalizing l' with
  | nil =>
    obtain rfl : [] = l' := by simpa [pure, Except.pure] using h
    simp at hb
  | cons a l ih =>
    cases ha : f a with
    | error e => simp [ha, bind, Except.bind] at h
    | ok b₀ =>
      cases hl : l.mapM f with
      | error e => simp [ha, hl, bind, Except.bind] at h
      | ok t =>
        obtain rfl : b₀ :: t = l' := by simpa [ha, hl, bind, Except.bind, pure, Except.pure] using h
        rcases List.mem_cons.1 hb with rfl | hb
        · exact ⟨a, by simp, ha⟩
        · obtain ⟨a', ha', hf⟩ := ih hl hb
          exact ⟨a', by simp [ha'], hf⟩

end Lib
