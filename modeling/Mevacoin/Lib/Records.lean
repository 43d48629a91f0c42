import Mathlib.Data.List.Sort
import Mevacoin.Lib.Bytes

/-!
# Collections of records in a canonical order

Records of one size are sorted and written one after another.
-/

namespace Lib

open Std

section Sorting

variable {α : Type*} {r : α → α → Prop} [DecidableRel r] [Std.Total r] [IsTrans α r]

/-- Sorting forgets the order in which the elements came, if no two different ones are tied. -/
theorem insertionSort_eq_of_perm {l l' : List α} (h : l.Perm l')
    (hties : ∀ a ∈ l, ∀ b ∈ l, r a b → r b a → a = b) : l.insertionSort r = l'.insertionSort r := by
  refine List.Perm.eq_of_pairwise (fun a b ha hb => hties a ?_ b ?_)
    (List.pairwise_insertionSort r l) (List.pairwise_insertionSort r l')
    ((List.perm_insertionSort r l).trans (h.trans (List.perm_insertionSort r l').symm))
  · exact (List.mem_insertionSort r).mp ha
  · exact h.mem_iff.mpr ((List.mem_insertionSort r).mp hb)

omit [Std.Total r] [IsTrans α r] in
/-- Elements that are tied keep the order in which they came. -/
theorem filter_insertionSort {p : α → Bool} (htied : ∀ a b, p a = true → p b = true → r a b)
    (l : List α) : (l.insertionSort r).filter p = l.filter p := by
  have hsorted : (l.filter p).Pairwise r :=
    List.Pairwise.imp_of_mem (fun ha hb _ => htied _ _ (List.mem_filter.mp ha).2
      (List.mem_filter.mp hb).2) (List.pairwise_of_forall fun _ _ => trivial)
  have hsub : (l.filter p).Sublist ((l.insertionSort r).filter p) := by
    have h := (List.sublist_insertionSort hsorted List.filter_sublist).filter p
    rwa [List.filter_filter, show (fun a => p a && p a) = p from funext fun a => Bool.and_self _]
      at h
  exact (hsub.eq_of_length ((List.perm_insertionSort r l).filter p).length_eq.symm).symm

end Sorting

/-- `memcmp` puts the first record no later than the second. -/
def recordLe (a b : Bytes) : Prop := (compare a b).isLE = true
deriving Decidable

theorem compare_swap (a b : Bytes) : compare b a = (compare a b).swap := OrientedCmp.eq_swap

instance : Std.Total recordLe :=
  ⟨fun a b => by
    unfold recordLe
    rw [compare_swap a b]
    cases compare a b <;> simp⟩

instance : IsTrans Bytes recordLe := ⟨fun _ _ _ hab hbc => TransCmp.isLE_trans hab hbc⟩

instance : Std.Antisymm recordLe :=
  ⟨fun a b hab hba => by
    unfold recordLe at hab hba
    rw [compare_swap a b] at hba
    have heq : compare a b = .eq := by
      cases hc : compare a b <;> simp_all
    exact LawfulEqCmp.eq_of_compare heq⟩

/-- The records in order, one after another. -/
def canonical (rs : List Bytes) : Bytes := (rs.insertionSort recordLe).flatten

/-- The order in which the records come does not matter. -/
theorem canonical_perm {rs rs' : List Bytes} (h : rs.Perm rs') : canonical rs = canonical rs' := by
  unfold canonical
  rw [insertionSort_eq_of_perm h fun a _ b _ => Std.Antisymm.antisymm a b]

/-- Records of one size are told apart. -/
theorem flatten_inj {α : Type*} {n : ℕ} (hn : 0 < n) {l l' : List (List α)}
    (h : ∀ r ∈ l, r.length = n) (h' : ∀ r ∈ l', r.length = n) (heq : l.flatten = l'.flatten) :
    l = l' := by
  induction l generalizing l' with
  | nil =>
    cases l' with
    | nil => rfl
    | cons r' l' =>
      have hlen := congrArg List.length heq
      rw [List.flatten_cons, List.length_append, h' r' List.mem_cons_self] at hlen
      simp at hlen
      omega
  | cons r l ih =>
    cases l' with
    | nil =>
      have hlen := congrArg List.length heq
      rw [List.flatten_cons, List.length_append, h r List.mem_cons_self] at hlen
      simp at hlen
      omega
    | cons r' l' =>
      have hsize : r.length = r'.length :=
        (h r List.mem_cons_self).trans (h' r' List.mem_cons_self).symm
      obtain ⟨hr, hrest⟩ := List.append_inj heq hsize
      rw [hr, ih (fun x hx => h x (List.mem_cons_of_mem _ hx))
        (fun x hx => h' x (List.mem_cons_of_mem _ hx)) hrest]

/-- The octets tell the collection. -/
theorem perm_of_canonical_eq {n : ℕ} (hn : 0 < n) {rs rs' : List Bytes}
    (h : ∀ r ∈ rs, r.length = n) (h' : ∀ r ∈ rs', r.length = n)
    (heq : canonical rs = canonical rs') : rs.Perm rs' := by
  have hsorted := flatten_inj hn
    (fun r hr => h r ((List.perm_insertionSort recordLe rs).subset hr))
    (fun r hr => h' r ((List.perm_insertionSort recordLe rs').subset hr)) heq
  have hperm := List.perm_insertionSort recordLe rs
  rw [hsorted] at hperm
  exact hperm.symm.trans (List.perm_insertionSort _ rs')

/-! ### Records under their identities -/

section Keyed

variable {κ υ γ : Type*} [Ord κ] [TransOrd κ] [LawfulEqOrd κ] {key : υ → κ}
  {m m' : ExtTreeMap κ υ}

/-- Every record is kept under its own identity. -/
def KeyedBy (m : ExtTreeMap κ υ) (key : υ → κ) : Prop := ∀ (k : κ) v, m[k]? = some v → key v = k

/-- The records in the order of their identities. -/
def recordsOf (m : ExtTreeMap κ υ) : List υ := m.toList.map (·.2)

theorem KeyedBy.map_recordsOf (h : KeyedBy m key) (f : υ → γ) :
    (recordsOf m).map (fun v => (key v, f v)) = m.toList.map fun kv => (kv.1, f kv.2) := by
  rw [recordsOf, List.map_map]
  refine List.map_congr_left fun kv hkv => ?_
  rw [Function.comp_apply, h kv.1 kv.2 (ExtTreeMap.mem_toList_iff_getElem?_eq_some.1 hkv)]

/-- The list is in order already. -/
theorem KeyedBy.pairwise (h : KeyedBy m key) :
    (recordsOf m).Pairwise fun a b => (compare (key a) (key b)).isLE = true := by
  refine List.pairwise_map.2 (ExtTreeMap.ordered_keys_toList.imp_of_mem fun ha hb hlt => ?_)
  rw [h _ _ (ExtTreeMap.mem_toList_iff_getElem?_eq_some.1 ha),
    h _ _ (ExtTreeMap.mem_toList_iff_getElem?_eq_some.1 hb), hlt]
  rfl

/-- **Two maps show the same under every identity exactly when their lists do.** -/
theorem KeyedBy.lookups_eq_iff (h : KeyedBy m key) (h' : KeyedBy m' key) (f : υ → γ) :
    (∀ k : κ, (m[k]?).map f = (m'[k]?).map f) ↔
      (recordsOf m).map (fun v => (key v, f v)) = (recordsOf m').map fun v => (key v, f v) := by
  rw [h.map_recordsOf, h'.map_recordsOf,
    ← ExtTreeMap.toList_map (t := m) (f := fun _ => f),
    ← ExtTreeMap.toList_map (t := m') (f := fun _ => f), ExtTreeMap.toList_inj]
  constructor
  · intro hall
    refine ExtTreeMap.ext_getElem? fun k => ?_
    rw [ExtTreeMap.getElem?_map, ExtTreeMap.getElem?_map, hall k]
  · intro heq k
    rw [← ExtTreeMap.getElem?_map (f := fun _ => f), heq, ExtTreeMap.getElem?_map]

end Keyed

/-- What can be told from `f` is the same in two lists on which `f` agrees. -/
theorem map_eq_of_map_eq {α β γ : Type*} {f : α → β} {g : α → γ} (h : ∀ x y, f x = f y → g x = g y)
    {l l' : List α} (heq : l.map f = l'.map f) : l.map g = l'.map g := by
  induction l generalizing l' with
  | nil =>
    cases l' with
    | nil => rfl
    | cons y l' => simp at heq
  | cons x l ih =>
    cases l' with
    | nil => simp at heq
    | cons y l' =>
      simp only [List.map_cons, List.cons.injEq] at heq ⊢
      exact ⟨h x y heq.1, ih heq.2⟩

end Lib
