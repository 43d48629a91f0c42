import Mathlib.Algebra.Order.Floor.Ring
import Mathlib.Data.Rat.Floor
import Mevacoin.Lib.Bytes

/-!
# Arithmetic of a floating-point type

The operations a program uses on `float` or `double`, with no laws, so that what is proved holds
whatever the rounding.
-/

namespace Lib

/-- The operations of a floating-point type. -/
class FloatArith (F : Type*) where
  /-- The value of a decimal literal. -/
  ofRat : ℚ → F
  /-- Conversion from an unsigned integer. -/
  ofNat : ℕ → F
  add : F → F → F
  sub : F → F → F
  mul : F → F → F
  div : F → F → F
  lt : F → F → Bool
  le : F → F → Bool
  /-- Conversion to a 64-bit integer, towards zero. -/
  trunc : F → UInt64
  /-- The octets in memory. -/
  octets : F → Bytes

/-- A value takes `n` octets in memory, and they tell which value it is. -/
structure FloatArith.Stored (F : Type*) [FloatArith F] (n : ℕ) : Prop where
  length_octets : ∀ x : F, (FloatArith.octets x).length = n
  octets_inj : Function.Injective (FloatArith.octets : F → Bytes)

/-- Conversion of a narrower floating-point type into a wider one. -/
class FloatWiden (F D : Type*) where
  widen : F → D

instance : FloatArith ℚ where
  ofRat q := q
  ofNat n := n
  add := (· + ·)
  sub := (· - ·)
  mul := (· * ·)
  div := (· / ·)
  lt a b := decide (a < b)
  le a b := decide (a ≤ b)
  trunc q := UInt64.ofNat q.floor.toNat
  octets q := leBytes 4 q.num.natAbs

instance : FloatWiden ℚ ℚ where
  widen q := q

section

variable {F : Type*} [FloatArith F]

/-- `std::min(a, b)`. -/
def fmin (a b : F) : F := if FloatArith.lt b a then b else a

/-- `std::max(a, b)`. -/
def fmax (a b : F) : F := if FloatArith.lt a b then b else a

/-- The sum of a list from the left, starting at zero. -/
def fsum (l : List F) : F := l.foldl FloatArith.add (FloatArith.ofRat 0)

end

end Lib
