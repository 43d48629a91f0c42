import Mathlib.Data.Finset.Card
import Mathlib.Data.List.Perm.Basic

/-!
# Maps that are iterated in an order nobody fixes

What is proved for every `Iteration` holds of whatever order a hash map is walked in.
-/

namespace Lib

open Std

/-- An order in which a map is walked through, for every content. -/
structure Iteration (κ υ : Type) [Ord κ] [TransOrd κ] where
  /-- The entries in the order of the walk. -/
  order : ExtTreeMap κ υ → List (κ × υ)
  /-- Each entry is met once. -/
  perm : ∀ m, (order m).Perm m.toList

namespace Iteration

variable {κ υ : Type} [Ord κ] [TransOrd κ]

/-- The order of the keys. -/
def byKey (κ υ : Type) [Ord κ] [TransOrd κ] : Iteration κ υ := ⟨ExtTreeMap.toList, fun _ => .rfl⟩

variable [LawfulEqOrd κ] (it : Iteration κ υ)

/-- Any order has all entries. -/
theorem mem_order {m : ExtTreeMap κ υ} {k : κ} {v : υ} : (k, v) ∈ it.order m ↔ m[k]? = some v := by
  rw [(it.perm m).mem_iff, ExtTreeMap.mem_toList_iff_getElem?_eq_some]

end Iteration

/-! ### Keys -/

section

variable {κ υ : Type} [Ord κ] [TransOrd κ] [LawfulEqOrd κ] [DecidableEq κ]

/-- The keys have entries. -/
theorem mem_keys_toFinset {m : ExtTreeMap κ υ} {k : κ} :
    k ∈ m.keys.toFinset ↔ ∃ v, m[k]? = some v := by
  rw [List.mem_toFinset, ExtTreeMap.mem_keys, ExtTreeMap.mem_iff_isSome_getElem?,
    Option.isSome_iff_exists]

omit [LawfulEqOrd κ] in
/-- One key for each entry. -/
theorem card_keys (m : ExtTreeMap κ υ) : m.keys.toFinset.card = m.size := by
  rw [List.toFinset_card_of_nodup ExtTreeMap.nodup_keys, ExtTreeMap.length_keys]

end

/-! ### Maps made from their entries -/

section

variable {κ υ : Type} [Ord κ] [TransOrd κ] [LawfulEqOrd κ]

/-- An entry of a map that was filled up was there or has been filled in. -/
theorem getElem?_insertMany_cases {rows : List (κ × υ)} {m : ExtTreeMap κ υ} {k : κ} {v : υ}
    (h : (m.insertMany rows)[k]? = some v) : m[k]? = some v ∨ (k, v) ∈ rows := by
  induction rows generalizing m with
  | nil => exact .inl (by simpa using h)
  | cons r rows ih =>
    rw [ExtTreeMap.insertMany_cons] at h
    rcases ih h with hm | hm
    · rw [ExtTreeMap.getElem?_insert] at hm
      split_ifs at hm with hk
      · obtain rfl := LawfulEqOrd.eq_of_compare hk
        obtain rfl := Option.some.inj hm
        exact .inr (List.mem_cons_self ..)
      · exact .inl hm
    · exact .inr (List.mem_cons_of_mem _ hm)

/-- An entry of the map made from a list stands in the list. -/
theorem mem_of_getElem?_ofList {rows : List (κ × υ)} {k : κ} {v : υ}
    (h : (ExtTreeMap.ofList rows compare)[k]? = some v) : (k, v) ∈ rows := by
  rw [ExtTreeMap.ofList_eq_insertMany_empty] at h
  rcases getElem?_insertMany_cases h with h | h
  · simp at h
  · exact h

end

end Lib
