import Mathlib.Data.List.Basic
import Mathlib.Data.List.Perm.Subperm
import Mathlib.Tactic.TypeStar

/-!
# The keys whose values have a property

How many values of a map have a property is the number of their keys.
-/

namespace Lib

open Std

section

variable {κ υ : Type*} [Ord κ] [TransOrd κ] [LawfulEqOrd κ] {m : ExtTreeMap κ υ} {p : υ → Bool}

/-- The keys under which a value with the property is stored. -/
def holders (m : ExtTreeMap κ υ) (p : υ → Bool) : List κ :=
  (m.toList.filter fun kv => p kv.2).map (·.1)

/-- Who holds. -/
theorem mem_holders {k : κ} : k ∈ holders m p ↔ ∃ v, m[k]? = some v ∧ p v = true := by
  unfold holders
  simp only [List.mem_map, List.mem_filter, Prod.exists, exists_and_right, exists_eq_right,
    ExtTreeMap.mem_toList_iff_getElem?_eq_some]

omit [LawfulEqOrd κ] in
/-- No key holds twice. -/
theorem nodup_holders (m : ExtTreeMap κ υ) (p : υ → Bool) : (holders m p).Nodup := by
  have hkeys : (m.toList.map (·.1)).Nodup := by
    rw [ExtTreeMap.map_fst_toList_eq_keys]
    exact ExtTreeMap.nodup_keys
  exact hkeys.sublist (List.filter_sublist.map _)

omit [LawfulEqOrd κ] in
/-- Counting values counts keys. -/
theorem countP_values (m : ExtTreeMap κ υ) (p : υ → Bool) :
    (m.toList.map (·.2)).countP p = (holders m p).length := by
  unfold holders
  rw [List.countP_map, List.length_map, ← List.countP_eq_length_filter]
  rfl

/-- **A list with all the holders is as long as their number.** -/
theorem countP_values_le {l : List κ} (h : ∀ k v, m[k]? = some v → p v = true → k ∈ l) :
    (m.toList.map (·.2)).countP p ≤ l.length := by
  rw [countP_values]
  refine ((nodup_holders m p).subperm ?_).length_le
  intro k hk
  obtain ⟨v, hv, hp⟩ := mem_holders.1 hk
  exact h k v hv hp

end

end Lib
