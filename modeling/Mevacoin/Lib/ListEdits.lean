import Mathlib.Data.List.Nodup
import Mathlib.Data.List.Sublists
import Mathlib.Data.Multiset.ZeroCons
import Mathlib.Tactic.TypeStar

/-!
# Editing a list by index

Edits append some elements and erase the one at an index, chosen by looking at the first list.
-/

namespace Lib

variable {α : Type*}

/-- Append, then erase. -/
structure ListEdit (α : Type*) where
  added : List α
  removed : Option ℕ

/-- The list after one edit. -/
def ListEdit.apply (e : ListEdit α) (m : List α) : List α :=
  match e.removed with
  | none => m ++ e.added
  | some i => (m ++ e.added).eraseIdx i

/-- Every edit of a sequence that starts at `m` erases the element that stands at its index
in `l`. -/
def InPlace (l : List α) : List α → List (ListEdit α) → Prop
  | _, [] => True
  | m, e :: es =>
    (∀ i, e.removed = some i → i < l.length ∧ (m ++ e.added)[i]? = l[i]?) ∧ InPlace l (e.apply m) es

/-! ### Decreasing indices are enough -/

variable {e : ListEdit α} {m : List α} {i : ℕ} {l : List α} {es : List (ListEdit α)} {x : α} {j : ℕ}
  {a l' : List α}

/-- An index below the erased one keeps its element. -/
theorem ListEdit.getElem?_apply (hi : i < m.length) (h : ∀ j, e.removed = some j → i < j) :
    (e.apply m)[i]? = m[i]? := by
  unfold ListEdit.apply
  cases hr : e.removed with
  | none => exact List.getElem?_append_left hi
  | some j =>
    rw [List.getElem?_eraseIdx_of_lt (h j hr), List.getElem?_append_left hi]

theorem lt_length_of_getElem?_eq (hi : i < l.length) (h : m[i]? = l[i]?) : i < m.length := by
  rw [List.getElem?_eq_getElem hi] at h
  exact (List.getElem?_eq_some_iff.1 h).1

/-- **Decreasing indices erase in place**, from any list that agrees with `l` below the first
index. -/
theorem inPlace_of_decreasing (hdec : (es.filterMap (·.removed)).Pairwise (· > ·))
    (hlt : ∀ i ∈ es.filterMap (·.removed), i < l.length ∧ m[i]? = l[i]?) : InPlace l m es := by
  induction es generalizing m with
  | nil => trivial
  | cons e es ih =>
    have hhead (i : ℕ) (hr : e.removed = some i) : i ∈ (e :: es).filterMap (·.removed) := by
      rw [List.filterMap_cons_some hr]
      exact List.mem_cons_self ..
    have htail {i : ℕ} (h : i ∈ es.filterMap (·.removed)) :
        i ∈ (e :: es).filterMap (·.removed) := by
      rw [List.filterMap_cons]
      cases e.removed with
      | none => exact h
      | some j => exact List.mem_cons_of_mem _ h
    have hbelow (i : ℕ) (h : i ∈ es.filterMap (·.removed)) (j : ℕ) (hr : e.removed = some j) :
        i < j := by
      rw [List.filterMap_cons_some hr, List.pairwise_cons] at hdec
      exact hdec.1 i h
    refine ⟨fun i hr => ?_, ih ?_ fun i h => ?_⟩
    · obtain ⟨hi, hsame⟩ := hlt i (hhead i hr)
      exact ⟨hi, by rw [List.getElem?_append_left (lt_length_of_getElem?_eq hi hsame), hsame]⟩
    · refine hdec.sublist ?_
      rw [List.filterMap_cons]
      cases e.removed with
      | none => exact List.Sublist.refl _
      | some j => exact List.sublist_cons_self ..
    · obtain ⟨hi, hsame⟩ := hlt i (htail h)
      exact ⟨hi, by rw [e.getElem?_apply (lt_length_of_getElem?_eq hi hsame) (hbelow i h), hsame]⟩

/-! ### And necessary -/

/-- Lists that differ by erasing one element tell which element it was. -/
theorem getElem?_eq_of_eraseIdx_eq {y : α} (hx : m[i]? = some x) (hy : m[j]? = some y)
    (h : m.eraseIdx i = m.eraseIdx j) : x = y := by
  obtain ⟨hi, rfl⟩ := List.getElem?_eq_some_iff.1 hx
  obtain ⟨hj, rfl⟩ := List.getElem?_eq_some_iff.1 hy
  have hperm : (m[i] :: m.eraseIdx i).Perm (m[j] :: m.eraseIdx j) :=
    (List.getElem_cons_eraseIdx_perm hi).trans (List.getElem_cons_eraseIdx_perm hj).symm
  rw [h] at hperm
  exact (Multiset.cons_inj_left (m.eraseIdx j : Multiset α)).1 (Multiset.coe_eq_coe.2 hperm)

/-- In a sublist an element stands no later. -/
theorem index_le_of_sublist (h : a.Sublist l) (hl : l.Nodup) {p q : ℕ} (hp : a[p]? = some x)
    (hq : l[q]? = some x) : p ≤ q := by
  induction h generalizing p q with
  | slnil => simp at hp
  | @cons a l y h ih =>
    rw [List.nodup_cons] at hl
    cases q with
    | zero =>
      obtain rfl : y = x := by simpa using hq
      exact absurd (h.subset (List.mem_of_getElem? hp)) hl.1
    | succ q => exact (ih hl.2 hp (by simpa using hq)).trans (Nat.le_succ q)
  | @cons_cons a l y h ih =>
    rw [List.nodup_cons] at hl
    cases p with
    | zero => exact Nat.zero_le q
    | succ p =>
      cases q with
      | zero =>
        obtain rfl : y = x := by simpa using hq
        exact absurd (h.subset (List.mem_of_getElem? hp)) hl.1
      | succ q => exact Nat.succ_le_succ (ih hl.2 hp (by simpa using hq))

/-- Erasing an element that stands at one index in both keeps a sublist. -/
theorem sublist_eraseIdx (h : a.Sublist l) (hl : l.Nodup) (ha : a[i]? = some x)
    (hx : l[i]? = some x) : (a.eraseIdx i).Sublist (l.eraseIdx i) := by
  induction h generalizing i with
  | slnil => simp at ha
  | @cons a l y h ih =>
    rw [List.nodup_cons] at hl
    cases i with
    | zero =>
      obtain rfl : y = x := by simpa using hx
      exact absurd (h.subset (List.mem_of_getElem? ha)) hl.1
    | succ i =>
      have := index_le_of_sublist h hl.2 ha (by simpa using hx)
      omega
  | @cons_cons a l y h ih =>
    rw [List.nodup_cons] at hl
    cases i with
    | zero => exact h
    | succ i => exact (ih hl.2 (by simpa using ha) (by simpa using hx)).cons_cons y

/-- What is left of `l` in an edited list: a sublist of `l'` first, then elements that are not
in `l`. -/
def Remains (l l' m : List α) : Prop :=
  ∃ a b, m = a ++ b ∧ a.Sublist l' ∧ ∀ x ∈ b, x ∉ l

theorem Remains.append {new : List α} (h : Remains l l' m) (hnew : ∀ x ∈ new, x ∉ l) :
    Remains l l' (m ++ new) := by
  obtain ⟨a, b, rfl, ha, hb⟩ := h
  refine ⟨a, b ++ new, List.append_assoc .., ha, fun x hx => ?_⟩
  rcases List.mem_append.1 hx with hx | hx
  · exact hb x hx
  · exact hnew x hx

theorem Remains.eraseIdx (h : Remains l l' m) (i : ℕ) : Remains l l' (m.eraseIdx i) := by
  obtain ⟨a, b, rfl, ha, hb⟩ := h
  rcases lt_or_ge i a.length with hi | hi
  · rw [List.eraseIdx_append_of_lt_length hi]
    exact ⟨_, b, rfl, (List.eraseIdx_sublist ..).trans ha, hb⟩
  · rw [List.eraseIdx_append_of_length_le hi]
    exact ⟨a, _, rfl, ha, fun x hx => hb x ((List.eraseIdx_sublist ..).subset hx)⟩

theorem Remains.apply (h : Remains l l' m) (hnew : ∀ x ∈ e.added, x ∉ l) :
    Remains l l' (e.apply m) := by
  unfold ListEdit.apply
  cases e.removed with
  | none => exact h.append hnew
  | some i => exact (h.append hnew).eraseIdx i

/-- An element of `l` stands in the first part. -/
theorem Remains.getElem? (h : Remains l l' m) (hx : x ∈ l) (hi : m[i]? = some x) :
    ∃ a b, m = a ++ b ∧ a.Sublist l' ∧ (∀ y ∈ b, y ∉ l) ∧ a[i]? = some x := by
  obtain ⟨a, b, rfl, ha, hb⟩ := h
  rcases lt_or_ge i a.length with hlt | hge
  · rw [List.getElem?_append_left hlt] at hi
    exact ⟨a, b, rfl, ha, hb, hi⟩
  · rw [List.getElem?_append_right hge] at hi
    exact absurd hx (hb x (List.mem_of_getElem? hi))

/-- What was erased in place is gone from what is left. -/
theorem Remains.erased (hl : l.Nodup) (h : Remains l l m) (hi : i < l.length)
    (hsame : m[i]? = l[i]?) : Remains l (l.eraseIdx i) (m.eraseIdx i) := by
  have hx : l[i]? = some l[i] := List.getElem?_eq_getElem hi
  obtain ⟨a, b, rfl, ha, hb, hai⟩ := h.getElem? (List.getElem_mem hi) (hsame.trans hx)
  have hlt : i < a.length := (List.getElem?_eq_some_iff.1 hai).1
  rw [List.eraseIdx_append_of_lt_length hlt]
  exact ⟨_, b, rfl, sublist_eraseIdx ha hl hai hx, hb⟩

/-- After an erasure at `j`, no later one can be in place at or above `j`. -/
theorem Remains.lt_of_inPlace (hl : l.Nodup) (h : Remains l (l.eraseIdx j) m) (hi : i < l.length)
    (hsame : m[i]? = l[i]?) : i < j := by
  have hx : l[i]? = some l[i] := List.getElem?_eq_getElem hi
  obtain ⟨a, b, rfl, ha, -, hai⟩ := h.getElem? (List.getElem_mem hi) (hsame.trans hx)
  have hsub : (l.eraseIdx j).Nodup := hl.sublist (List.eraseIdx_sublist ..)
  obtain ⟨q, hq, hqx⟩ := List.mem_iff_getElem.1 (ha.subset (List.mem_of_getElem? hai))
  have hle := index_le_of_sublist ha hsub hai (by rw [List.getElem?_eq_getElem hq, hqx])
  -- an element at or above the erased index has moved down
  rw [List.getElem_eraseIdx] at hqx
  split_ifs at hqx with hqj
  · omega
  · have := (hl.getElem_inj_iff).1 hqx
    omega

/-- Every later erasure that is in place lies below `j`. -/
theorem lt_of_inPlace_of_remains (hl : l.Nodup) (h : Remains l (l.eraseIdx j) m)
    (hin : InPlace l m es) (hnew : ∀ e ∈ es, ∀ x ∈ e.added, x ∉ l) :
    ∀ i ∈ es.filterMap (·.removed), i < j := by
  induction es generalizing m with
  | nil => simp
  | cons e es ih =>
    have hnew' := hnew e (List.mem_cons_self ..)
    have htail := ih (h.apply hnew') hin.2 fun e' he' => hnew e' (List.mem_cons_of_mem _ he')
    rw [List.filterMap_cons]
    cases hr : e.removed with
    | none => exact htail
    | some i =>
      obtain ⟨hi, hsame⟩ := hin.1 i hr
      rintro k (_ | ⟨_, hk⟩)
      · exact (h.append hnew').lt_of_inPlace hl hi hsame
      · exact htail k hk

/-- **Erasing in place takes decreasing indices**, for a list without duplicates to which only
new elements are appended. -/
theorem decreasing_of_inPlace (hl : l.Nodup) (h : Remains l l m) (hin : InPlace l m es)
    (hnew : ∀ e ∈ es, ∀ x ∈ e.added, x ∉ l) : (es.filterMap (·.removed)).Pairwise (· > ·) := by
  induction es generalizing m with
  | nil => exact List.Pairwise.nil
  | cons e es ih =>
    have hnew' := hnew e (List.mem_cons_self ..)
    have hrest : ∀ e' ∈ es, ∀ x ∈ e'.added, x ∉ l := fun e' he' =>
      hnew e' (List.mem_cons_of_mem _ he')
    have htail := ih (h.apply hnew') hin.2 hrest
    rw [List.filterMap_cons]
    cases hr : e.removed with
    | none => exact htail
    | some j =>
      obtain ⟨hj, hsame⟩ := hin.1 j hr
      have hafter : e.apply m = (m ++ e.added).eraseIdx j := by
        unfold ListEdit.apply
        rw [hr]
      have herased := (h.append hnew').erased hl hj hsame
      rw [← hafter] at herased
      exact List.pairwise_cons.2 ⟨lt_of_inPlace_of_remains hl herased hin.2 hrest, htail⟩

end Lib
