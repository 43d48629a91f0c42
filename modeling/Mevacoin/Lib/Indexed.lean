import Mathlib.Data.List.Basic
import Mathlib.Tactic.TypeStar

/-!
# A map with an index

Records under their identities, and a second map from names to identities.
-/

namespace Lib

open Std

section Lookup

variable {κ υ : Type*} [Ord κ] [TransOrd κ] [LawfulEqOrd κ] {m : ExtTreeMap κ υ} {k k' : κ}

theorem getElem?_insert_of_ne (h : k ≠ k') (v : υ) : (m.insert k v)[k']? = m[k']? := by
  rw [ExtTreeMap.getElem?_insert, if_neg fun hc => h (LawfulEqCmp.eq_of_compare hc)]

theorem getElem?_erase_of_ne (h : k ≠ k') : (m.erase k)[k']? = m[k']? := by
  rw [ExtTreeMap.getElem?_erase, if_neg fun hc => h (LawfulEqCmp.eq_of_compare hc)]

end Lookup

variable {κ ν υ : Type*} [Ord κ] [TransOrd κ] [Ord ν] [TransOrd ν] {m : ExtTreeMap κ υ}
  {ix : ExtTreeMap ν κ} {name : υ → ν}

/-- The index leads from the names of the records to their identities, and nowhere else. -/
structure Indexed (m : ExtTreeMap κ υ) (ix : ExtTreeMap ν κ) (name : υ → ν) : Prop where
  indexed : ∀ (k : κ) v, m[k]? = some v → ix[name v]? = some k
  named : ∀ (n : ν) k, ix[n]? = some k → ∃ v, m[k]? = some v ∧ name v = n

theorem Indexed.empty (name : υ → ν) : Indexed (∅ : ExtTreeMap κ υ) ∅ name :=
  ⟨fun _ _ h => by simp at h, fun _ _ h => by simp at h⟩

namespace Indexed

variable [LawfulEqOrd κ]

/-- A record can be replaced by one of the same name. -/
theorem replace (h : Indexed m ix name) {k : κ} {v v' : υ} (hk : m[k]? = some v)
    (hname : name v' = name v) : Indexed (m.insert k v') ix name where
  indexed k' w hw := by
    by_cases hkk : k = k'
    · subst hkk
      rw [ExtTreeMap.getElem?_insert_self] at hw
      rw [← Option.some.inj hw, hname]
      exact h.indexed k v hk
    · rw [getElem?_insert_of_ne hkk] at hw
      exact h.indexed k' w hw
  named n k' hn := by
    obtain ⟨w, hw, rfl⟩ := h.named n k' hn
    by_cases hkk : k = k'
    · subst hkk
      obtain rfl := Option.some.inj (hk.symm.trans hw)
      exact ⟨v', ExtTreeMap.getElem?_insert_self, hname⟩
    · exact ⟨w, (getElem?_insert_of_ne hkk v').trans hw, rfl⟩

variable [LawfulEqOrd ν]

/-- A record can be put under an identity and a name that are free or its own. -/
theorem insert (h : Indexed m ix name) {k : κ} {v : υ}
    (hk : ∀ w, m[k]? = some w → name w = name v) (hn : ∀ k', ix[name v]? = some k' → k' = k) :
    Indexed (m.insert k v) (ix.insert (name v) k) name where
  indexed k' w hw := by
    by_cases hkk : k = k'
    · subst hkk
      rw [ExtTreeMap.getElem?_insert_self] at hw
      rw [← Option.some.inj hw, ExtTreeMap.getElem?_insert_self]
    · rw [getElem?_insert_of_ne hkk] at hw
      have hold := h.indexed k' w hw
      have hnn : name v ≠ name w := fun hnn => hkk (hn k' (hnn ▸ hold)).symm
      rw [getElem?_insert_of_ne hnn, hold]
  named n k' hix := by
    by_cases hnn : name v = n
    · subst hnn
      rw [ExtTreeMap.getElem?_insert_self] at hix
      obtain rfl := Option.some.inj hix
      exact ⟨v, ExtTreeMap.getElem?_insert_self, rfl⟩
    · rw [getElem?_insert_of_ne hnn] at hix
      obtain ⟨w, hw, rfl⟩ := h.named n k' hix
      have hkk : k ≠ k' := by
        rintro rfl
        exact hnn (hk w hw).symm
      exact ⟨w, (getElem?_insert_of_ne hkk v).trans hw, rfl⟩

/-- A record can be erased together with its name. -/
theorem erase (h : Indexed m ix name) {k : κ} {v : υ} (hk : m[k]? = some v) :
    Indexed (m.erase k) (ix.erase (name v)) name where
  indexed k' w hw := by
    by_cases hkk : k = k'
    · subst hkk
      rw [ExtTreeMap.getElem?_erase_self] at hw
      cases hw
    · rw [getElem?_erase_of_ne hkk] at hw
      have hold := h.indexed k' w hw
      have hnn : name v ≠ name w := fun hnn =>
        hkk (Option.some.inj ((h.indexed k v hk).symm.trans (hnn ▸ hold)))
      rw [getElem?_erase_of_ne hnn, hold]
  named n k' hix := by
    by_cases hnn : name v = n
    · subst hnn
      rw [ExtTreeMap.getElem?_erase_self] at hix
      cases hix
    · rw [getElem?_erase_of_ne hnn] at hix
      obtain ⟨w, hw, rfl⟩ := h.named n k' hix
      have hkk : k ≠ k' := by
        rintro rfl
        exact hnn (congrArg name (Option.some.inj (hk.symm.trans hw)))
      exact ⟨w, (getElem?_erase_of_ne hkk).trans hw, rfl⟩

end Indexed

end Lib
