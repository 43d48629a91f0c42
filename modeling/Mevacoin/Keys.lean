import Mathlib.Data.List.Sort
import Mevacoin.Lib.Bytes

/-!
# The 32-byte values of the code base

The plain old data of `src/crypto/crypto.h` and `src/crypto/hash.h`: `Pod32` has its length as a
field.
-/

namespace Mevacoin

open Lib

/-- A plain 32-octet value. -/
structure Pod32 where
  /-- The octets. -/
  data : Bytes
  /-- There are 32 of them. -/
  size_eq : data.length = 32
deriving DecidableEq

namespace Pod32

/-- Pods are their octets. -/
@[ext] theorem ext {a b : Pod32} (h : a.data = b.data) : a = b := by
  cases a; simp_all

/-- The value all of whose octets are `b`. -/
def fill (b : UInt8) : Pod32 := ⟨List.replicate 32 b, by simp⟩

/-- The zero value: `crypto::null_hash`, `crypto::null_pkey`, and what `T{}` gives. -/
def null : Pod32 := fill 0

/-- The value whose first octet is `b` and whose other octets are zero. -/
def single (b : UInt8) : Pod32 := ⟨b :: List.replicate 31 0, by simp⟩

instance : Inhabited Pod32 := ⟨null⟩

/-- `memcmp` over the 32 octets. -/
instance : Ord Pod32 := ⟨fun a b => compare a.data b.data⟩

/-- Pods are ordered by octets. -/
theorem compare_def (a b : Pod32) : compare a b = compare a.data b.data := rfl

instance : Std.TransOrd Pod32 where
  eq_swap := by intros; simp only [compare_def]; exact Std.OrientedCmp.eq_swap
  isLE_trans := by
    intro a b c hab hbc
    simp only [compare_def] at *
    exact Std.TransCmp.isLE_trans hab hbc

instance : Std.LawfulEqOrd Pod32 where
  compare_self := by intro a; rw [compare_def]; exact Std.ReflCmp.compare_self
  eq_of_compare h := by
    rw [compare_def] at h
    exact Pod32.ext (Std.LawfulEqCmp.eq_of_compare h)

end Pod32

/-- `crypto::hash`. -/
abbrev Hash := Pod32

/-- `crypto::public_key`. -/
abbrev PublicKey := Pod32

/-- `crypto::key_image`. -/
abbrev KeyImage := Pod32

/-- `crypto::signature` is the pair `(c, r)` of two scalars. -/
structure Signature where
  /-- The challenge. -/
  c : Pod32
  /-- The response. -/
  r : Pod32
deriving DecidableEq

end Mevacoin
