import Mathlib.Data.List.Basic
import Mathlib.Data.UInt
import Mathlib.Tactic.Ring

/-!
# Byte strings

Fixed-width little-endian integers, ASCII literals and hexadecimal forms over lists of octets.
-/

namespace Lib

/-- A byte string. -/
abbrev Bytes := List UInt8

/-- The octets of an ASCII literal. -/
def asciiBytes (s : String) : Bytes := s.toList.map fun c => UInt8.ofNat c.toNat

/-- The low `w` octets of `n`, least significant first. -/
def leBytes : ℕ → ℕ → Bytes
  | 0, _ => []
  | w + 1, n => UInt8.ofNat n :: leBytes w (n / 256)

/-- The number whose little-endian octets are given. -/
def ofLeBytes : Bytes → ℕ
  | [] => 0
  | b :: bs => b.toNat + 256 * ofLeBytes bs

/-- The width is the length. -/
@[simp] theorem leBytes_length (w n : ℕ) : (leBytes w n).length = w := by
  induction w generalizing n with
  | zero => rfl
  | succ w ih => simp [leBytes, ih]

/-- Reading back the low `w` octets of `n` gives `n` reduced to `w` octets. -/
theorem ofLeBytes_leBytes (w n : ℕ) : ofLeBytes (leBytes w n) = n % 256 ^ w := by
  induction w generalizing n with
  | zero => simp [leBytes, ofLeBytes, Nat.mod_one]
  | succ w ih =>
    have hb : (UInt8.ofNat n).toNat = n % 256 := by simp [UInt8.toNat_ofNat']
    rw [leBytes, ofLeBytes, ih, hb, pow_succ', Nat.mod_mul]

/-- Little-endian encoding is injective on numbers that fit. -/
theorem leBytes_inj {w n m : ℕ} (hn : n < 256 ^ w) (hm : m < 256 ^ w)
    (h : leBytes w n = leBytes w m) : n = m := by
  have := congrArg ofLeBytes h
  rwa [ofLeBytes_leBytes, ofLeBytes_leBytes, Nat.mod_eq_of_lt hn, Nat.mod_eq_of_lt hm] at this

/-- A number of `n` octets. -/
theorem ofLeBytes_lt (bs : Bytes) : ofLeBytes bs < 256 ^ bs.length := by
  induction bs with
  | nil => simp [ofLeBytes]
  | cons b bs ih =>
    have hb : b.toNat < 256 := b.toNat_lt
    rw [ofLeBytes, List.length_cons]
    omega

/-- The number whose `w` little-endian octets stand at offset `o`. -/
def leAt (w o : ℕ) (b : Bytes) : ℕ := ofLeBytes ((b.drop o).take w)

/-- Reading a number where it was written. -/
theorem leAt_append {pre : Bytes} {o : ℕ} (h : pre.length = o) (w n : ℕ) (post : Bytes) :
    leAt w o (pre ++ (leBytes w n ++ post)) = n % 256 ^ w := by
  rw [leAt, List.drop_left' h, List.take_left' (leBytes_length w n), ofLeBytes_leBytes]

theorem leAt_zero (w n : ℕ) (post : Bytes) : leAt w 0 (leBytes w n ++ post) = n % 256 ^ w :=
  leAt_append (show ([] : Bytes).length = 0 from rfl) w n post

/-- A 64-bit number is read back whole. -/
theorem toNat_mod_octets (n : UInt64) : n.toNat % 256 ^ 8 = n.toNat :=
  Nat.mod_eq_of_lt (by have := n.toNat_lt; omega)

/-! ### Hexadecimal -/

/-- The lower-case digit of a number below 16. -/
def hexDigit (n : ℕ) : UInt8 := (asciiBytes "0123456789abcdef").getD n 0

/-- Two digits for each octet, the high one first. -/
def toHex (b : Bytes) : Bytes :=
  b.flatMap fun o => [hexDigit (o.toNat / 16), hexDigit (o.toNat % 16)]

@[simp] theorem toHex_nil : toHex [] = [] := rfl

@[simp] theorem toHex_cons (o : UInt8) (b : Bytes) :
    toHex (o :: b) = hexDigit (o.toNat / 16) :: hexDigit (o.toNat % 16) :: toHex b := rfl

/-- Two digits for each octet. -/
@[simp] theorem length_toHex (b : Bytes) : (toHex b).length = 2 * b.length := by
  induction b with
  | nil => rfl
  | cons o b ih =>
    rw [toHex_cons, List.length_cons, List.length_cons, List.length_cons]
    omega

/-- The digits at an even and at the next place. -/
theorem getElem?_toHex (b : Bytes) (i : ℕ) :
    (toHex b)[2 * i]? = b[i]?.map (fun o => hexDigit (o.toNat / 16)) ∧
      (toHex b)[2 * i + 1]? = b[i]?.map (fun o => hexDigit (o.toNat % 16)) := by
  induction b generalizing i with
  | nil => simp
  | cons o b ih =>
    cases i with
    | zero => simp
    | succ i =>
      rw [show 2 * (i + 1) = 2 * i + 1 + 1 by omega]
      simpa using ih i

/-- A digit tells its value. -/
theorem hexDigit_inj {m n : ℕ} (hm : m < 16) (hn : n < 16) (h : hexDigit m = hexDigit n) :
    m = n := by
  have hall : ∀ a < 16, ∀ b < 16, hexDigit a = hexDigit b → a = b := by decide
  exact hall m hm n hn h

/-- The digits tell the octets. -/
theorem toHex_injective : Function.Injective toHex := by
  intro a b h
  induction a generalizing b with
  | nil =>
    cases b with
    | nil => rfl
    | cons o b => simp at h
  | cons o a ih =>
    cases b with
    | nil => simp at h
    | cons p b =>
      rw [toHex_cons, toHex_cons, List.cons.injEq, List.cons.injEq] at h
      have ho := o.toNat_lt
      have hp := p.toNat_lt
      have hhigh := hexDigit_inj (by omega) (by omega) h.1
      have hlow := hexDigit_inj (by omega) (by omega) h.2.1
      have hoctet : o = p := UInt8.toNat_inj.mp (by omega)
      rw [hoctet, ih h.2.2]

end Lib
