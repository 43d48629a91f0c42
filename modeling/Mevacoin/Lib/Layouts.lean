import Mathlib.Algebra.BigOperators.Group.List.Basic
import Mevacoin.Lib.Bytes

/-!
# Messages put together from parts

Signed records: fields of fixed width are told apart by their place; strings are not, unless their
lengths are written too.
-/

namespace Lib

/-- A record as the parts that are written. -/
structure Layout (ρ : Type*) where
  /-- The parts, in order. -/
  parts : ρ → List Bytes
  /-- The lengths of the strings among them. -/
  lengths : ρ → List ℕ
  /-- The octets of the other parts. -/
  fixed : ℕ
  /-- A record with strings of the same lengths and all octets zero. -/
  blank : ρ → ρ
  sizes_eq : ∀ {s t}, lengths s = lengths t →
    (parts s).map List.length = (parts t).map List.length
  length_parts : ∀ s, (parts s).flatten.length = fixed + (lengths s).sum
  lengths_of_parts : ∀ {s t}, parts s = parts t → lengths s = lengths t
  lengths_blank : ∀ s, lengths (blank s) = lengths s
  blank_zero : ∀ s, ∀ part ∈ parts (blank s), ∀ b ∈ part, b = 0

/-- The strings have the same lengths one by one, or not even together. -/
def LengthsTell (a b : List ℕ) : Prop := a = b ∨ a.sum ≠ b.sum
deriving Decidable

/-- A single string is told by the length of the whole. -/
theorem lengthsTell_singleton (m n : ℕ) : LengthsTell [m] [n] := by
  by_cases h : m = n
  · exact Or.inl (by rw [h])
  · exact Or.inr (by simpa using h)

namespace Layout

variable {ρ : Type*} (L : Layout ρ)

/-- The octets. -/
def message (s : ρ) : Bytes := (L.parts s).flatten

theorem length_message (s : ρ) : (L.message s).length = L.fixed + (L.lengths s).sum :=
  L.length_parts s

theorem message_blank (s : ρ) :
    L.message (L.blank s) = List.replicate (L.fixed + (L.lengths s).sum) 0 := by
  rw [List.eq_replicate_iff]
  constructor
  · rw [length_message, L.lengths_blank]
  · intro b hb
    obtain ⟨part, hpart, hb⟩ := List.mem_flatten.mp hb
    exact L.blank_zero s part hpart b hb

variable {L} {s t : ρ}

/-- Where the lengths tell, the octets determine the parts. -/
theorem parts_eq_of_message_eq (h : LengthsTell (L.lengths s) (L.lengths t))
    (heq : L.message s = L.message t) : L.parts s = L.parts t := by
  obtain hsame | hsum := h
  · exact List.eq_iff_flatten_eq.mpr ⟨heq, L.sizes_eq hsame⟩
  · have hlen := congrArg List.length heq
    rw [length_message, length_message] at hlen
    exact absurd (Nat.add_left_cancel hlen) hsum

/-- **The octets tell the parts of all records with strings of these lengths** exactly if the
lengths do. -/
theorem told_apart_iff (s t : ρ) :
    (∀ s' t', L.lengths s' = L.lengths s → L.lengths t' = L.lengths t →
        L.message s' = L.message t' → L.parts s' = L.parts t') ↔
      LengthsTell (L.lengths s) (L.lengths t) := by
  constructor
  · intro h
    by_cases hsum : (L.lengths s).sum = (L.lengths t).sum
    · have hparts := h (L.blank s) (L.blank t) (L.lengths_blank s) (L.lengths_blank t)
        (by rw [message_blank, message_blank, hsum])
      have hlengths := L.lengths_of_parts hparts
      rw [L.lengths_blank, L.lengths_blank] at hlengths
      exact Or.inl hlengths
    · exact Or.inr hsum
  · intro h s' t' hs ht
    exact parts_eq_of_message_eq (by rwa [hs, ht])

end Layout

end Lib
