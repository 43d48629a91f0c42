import Mathlib.Data.List.Basic
import Mathlib.Tactic.TypeStar

/-!
# Deleting under a cursor

A loop over a table that deletes some of the rows it stands on sees every row once.
-/

namespace Lib

open Std

variable {κ υ σ : Type*} [Ord κ] [TransOrd κ]

/-- The key lies after the cursor. -/
def isAfter (pos : Option κ) (k : κ) : Bool := pos.all fun p => (compare p k).isLT

/-- The row the cursor goes to next. -/
def rowAfter (t : ExtTreeMap κ υ) (pos : Option κ) : Option (κ × υ) :=
  t.toList.find? fun row => isAfter pos row.1

/-- A table, the cursor on it, and what was collected so far. -/
structure CursorState (κ υ σ : Type*) [Ord κ] where
  table : ExtTreeMap κ υ
  pos : Option κ
  collected : σ

/-- Delete and collect the rows that are selected, for as many steps as given. -/
def takeRows (sel : υ → Bool) (collect : σ → κ × υ → σ) : ℕ → CursorState κ υ σ → CursorState κ υ σ
  | 0, c => c
  | n + 1, c =>
    match rowAfter c.table c.pos with
    | none => c
    | some row =>
      if sel row.2 then
        takeRows sel collect n ⟨c.table.erase row.1, some row.1, collect c.collected row⟩
      else takeRows sel collect n ⟨c.table, some row.1, c.collected⟩

variable [LawfulEqOrd κ]

theorem getElem?_filter_value (t : ExtTreeMap κ υ) (p : υ → Bool) (k : κ) :
    (t.filter fun _ v => p v)[k]? = t[k]?.filter p := by
  refine Option.ext fun v => ?_
  rw [← ExtTreeMap.mem_toList_iff_getElem?_eq_some, ExtTreeMap.toList_filter, List.mem_filter,
    ExtTreeMap.mem_toList_iff_getElem?_eq_some, Option.filter_eq_some_iff]

theorem toList_erase (t : ExtTreeMap κ υ) (k : κ) :
    (t.erase k).toList = t.toList.filter fun row => !(compare k row.1).isEq := by
  have herase : t.erase k = t.filter fun k' _ => !(compare k k').isEq := by
    refine ExtTreeMap.ext_getElem? fun k' => Option.ext fun v => ?_
    rw [← ExtTreeMap.mem_toList_iff_getElem?_eq_some (t := t.filter _), ExtTreeMap.toList_filter,
      List.mem_filter, ExtTreeMap.getElem?_erase]
    cases hc : compare k k' <;> simp [Ordering.isEq]
  rw [herase, ExtTreeMap.toList_filter]

omit [LawfulEqOrd κ] in
/-- The rows before a row of the table, and those behind it. -/
theorem compare_around {t : ExtTreeMap κ υ} {row : κ × υ} {kept rest : List (κ × υ)}
    (h : t.toList = kept ++ row :: rest) :
    (∀ a ∈ kept, compare a.1 row.1 = .lt) ∧ ∀ a ∈ rest, compare row.1 a.1 = .lt := by
  have hordered : (kept ++ row :: rest).Pairwise fun a b => compare a.1 b.1 = .lt :=
    h ▸ ExtTreeMap.ordered_keys_toList
  obtain ⟨-, hrow, hcross⟩ := List.pairwise_append.mp hordered
  exact ⟨fun a ha => hcross a ha row List.mem_cons_self,
    fun a ha => List.rel_of_pairwise_cons hrow ha⟩

/-- Erasing the row between two runs of rows. -/
theorem toList_erase_between {t : ExtTreeMap κ υ} {row : κ × υ} {kept rest : List (κ × υ)}
    (h : t.toList = kept ++ row :: rest) : (t.erase row.1).toList = kept ++ rest := by
  obtain ⟨hbefore, hbehind⟩ := compare_around h
  rw [toList_erase, h, List.filter_append, List.filter_cons_of_neg (by simp [compare_self])]
  congr 1
  · refine List.filter_eq_self.mpr fun a ha => ?_
    rw [OrientedCmp.gt_of_lt (hbefore a ha)]
    rfl
  · refine List.filter_eq_self.mpr fun a ha => ?_
    rw [hbehind a ha]
    rfl

omit [LawfulEqOrd κ] in
/-- The cursor goes to the first row it has not passed. -/
theorem rowAfter_eq_some {t : ExtTreeMap κ υ} {pos : Option κ} {row : κ × υ}
    {kept rest : List (κ × υ)} (h : t.toList = kept ++ row :: rest)
    (hkept : ∀ a ∈ kept, isAfter pos a.1 = false) (hrow : isAfter pos row.1 = true) :
    rowAfter t pos = some row := by
  have hnone : kept.find? (fun a => isAfter pos a.1) = none := by
    refine List.find?_eq_none.mpr fun a ha => ?_
    simp [hkept a ha]
  rw [rowAfter, h, List.find?_append, hnone, Option.none_or]
  exact List.find?_cons_of_pos hrow

variable {sel : υ → Bool} {collect : σ → κ × υ → σ}

/-- The loop from a cursor that has passed the rows `kept` and has `rest` before it. -/
theorem takeRows_spec {kept rest : List (κ × υ)} {c : CursorState κ υ σ}
    (htable : c.table.toList = kept ++ rest) (hkept : ∀ row ∈ kept, isAfter c.pos row.1 = false)
    (hrest : ∀ row ∈ rest, isAfter c.pos row.1 = true) :
    (takeRows sel collect rest.length c).table.toList =
        kept ++ rest.filter (fun row => !sel row.2) ∧
      (takeRows sel collect rest.length c).collected =
        (rest.filter fun row => sel row.2).foldl collect c.collected ∧
      rowAfter (takeRows sel collect rest.length c).table
        (takeRows sel collect rest.length c).pos = none := by
  induction rest generalizing kept c with
  | nil =>
    rw [List.append_nil] at htable
    refine ⟨by simpa [takeRows] using htable, rfl, ?_⟩
    rw [List.length_nil, takeRows, rowAfter, htable, List.find?_eq_none]
    intro row hrow
    simp [hkept row hrow]
  | cons row rest ih =>
    obtain ⟨hbefore, hbehind⟩ := compare_around htable
    have hnext := rowAfter_eq_some htable hkept (hrest row List.mem_cons_self)
    have hpassed : ∀ a ∈ kept, isAfter (some row.1) a.1 = false := by
      intro a ha
      simp [isAfter, OrientedCmp.gt_of_lt (hbefore a ha)]
    have hahead : ∀ a ∈ rest, isAfter (some row.1) a.1 = true := by
      intro a ha
      simp [isAfter, hbehind a ha]
    rw [List.length_cons, takeRows, hnext]
    dsimp only
    cases hsel : sel row.2 with
    | true =>
      rw [List.filter_cons_of_neg (by simp [hsel]),
        List.filter_cons_of_pos (by simp [hsel])]
      exact ih (c := ⟨c.table.erase row.1, some row.1, collect c.collected row⟩)
        (toList_erase_between htable) hpassed hahead
    | false =>
      rw [List.filter_cons_of_pos (by simp [hsel]),
        List.filter_cons_of_neg (by simp [hsel]), List.append_cons]
      refine ih (c := ⟨c.table, some row.1, c.collected⟩) (by rw [htable, List.append_cons]) ?_
        hahead
      intro a ha
      obtain ha | ha := List.mem_append.mp ha
      · exact hpassed a ha
      · rw [List.mem_singleton.mp ha]
        simp [isAfter]

/-- **The loop over a whole table** deletes the selected rows, collects them in the order of their
keys, and has come to the end. -/
theorem takeRows_size (t : ExtTreeMap κ υ) (s : σ) :
    (takeRows sel collect t.size ⟨t, none, s⟩).table = t.filter (fun _ v => !sel v) ∧
      (takeRows sel collect t.size ⟨t, none, s⟩).collected =
        (t.toList.filter fun row => sel row.2).foldl collect s ∧
      rowAfter (takeRows sel collect t.size ⟨t, none, s⟩).table
        (takeRows sel collect t.size ⟨t, none, s⟩).pos = none := by
  have h : (takeRows sel collect t.toList.length ⟨t, none, s⟩).table.toList =
        [] ++ t.toList.filter (fun row => !sel row.2) ∧ _ ∧ _ :=
    takeRows_spec rfl (fun _ h => nomatch h) (fun _ _ => rfl)
  rw [ExtTreeMap.length_toList, List.nil_append,
    ← ExtTreeMap.toList_filter (f := fun _ v => !sel v), ExtTreeMap.toList_inj] at h
  exact h

end Lib
