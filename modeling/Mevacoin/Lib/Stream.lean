import Mevacoin.Lib.Bytes

/-!
# Input streams that are never tested

A program that reads a file and never tests the stream goes on after the end: short reads leave
zeros, and every read after that does nothing.
-/

namespace Lib

/-- An input stream. -/
structure InStream where
  /-- The octets not read yet. -/
  left : Bytes
  /-- A read came up short, or the reader has set the failure bit. -/
  failed : Bool := false
deriving DecidableEq

namespace InStream

/-- Read `n` octets into a buffer of zeros. -/
def read (n : ℕ) : StateM InStream Bytes := fun s =>
  if s.failed then (List.replicate n 0, s)
  else if n ≤ s.left.length then (s.left.take n, { s with left := s.left.drop n })
  else (s.left ++ List.replicate (n - s.left.length) 0, ⟨[], true⟩)

/-- Set the failure bit. -/
def fail : StateM InStream Unit := fun s => ((), { s with failed := true })

/-- Read an unsigned integer of `w` octets. -/
def readLe (w : ℕ) : StateM InStream ℕ := do
  let b ← read w
  return ofLeBytes b

/-- Read `n` values one after the other. -/
def readMany {α : Type} (r : StateM InStream α) : ℕ → StateM InStream (List α)
  | 0 => return []
  | n + 1 => do
    let a ← r
    let l ← readMany r n
    return a :: l

end InStream

open InStream

variable {α β : Type}

/-! ### Reading what was written -/

/-- The reader takes exactly the octets `b`, and gives `a`. -/
def Reads (r : StateM InStream α) (b : Bytes) (a : α) : Prop :=
  ∀ rest, r ⟨b ++ rest, false⟩ = (a, ⟨rest, false⟩)

namespace Reads

theorem pure (a : α) : Reads (pure a) [] a := fun _ => rfl

theorem bind {r : StateM InStream α} {f : α → StateM InStream β} {b c : Bytes} {a : α} {d : β}
    (hr : Reads r b a) (hf : Reads (f a) c d) : Reads (r >>= f) (b ++ c) d := by
  intro rest
  have hstep : (r >>= f) ⟨b ++ c ++ rest, false⟩
      = f (r ⟨b ++ c ++ rest, false⟩).1 (r ⟨b ++ c ++ rest, false⟩).2 := rfl
  rw [hstep, List.append_assoc, hr, hf]

/-- What follows the last read computes with the value and reads nothing. -/
theorem map {r : StateM InStream α} {b : Bytes} {a : α} (hr : Reads r b a) (f : α → β) :
    Reads (r >>= fun x => Pure.pure (f x)) b (f a) := by
  have h : Reads (r >>= fun x => Pure.pure (f x)) (b ++ []) (f a) := hr.bind (pure (f a))
  rwa [List.append_nil] at h

theorem read {b : Bytes} {n : ℕ} (h : b.length = n) : Reads (InStream.read n) b b := by
  intro rest
  have hle : n ≤ (b ++ rest).length := by rw [List.length_append]; omega
  simp only [InStream.read, Bool.false_eq_true, if_false, if_pos hle, List.take_left' h,
    List.drop_left' h]

/-- Integers wrap. -/
theorem readLe (w n : ℕ) : Reads (InStream.readLe w) (leBytes w n) (n % 256 ^ w) := by
  rw [← ofLeBytes_leBytes]
  exact (read (leBytes_length w n)).map ofLeBytes

/-- Integers that fit. -/
theorem readLe_of_lt {w n : ℕ} (h : n < 256 ^ w) : Reads (InStream.readLe w) (leBytes w n) n := by
  have hread := readLe w n
  rwa [Nat.mod_eq_of_lt h] at hread

/-- One after the other. -/
theorem readMany {r : StateM InStream α} {write : α → Bytes} {l : List α}
    (h : ∀ a ∈ l, Reads r (write a) a) :
    Reads (InStream.readMany r l.length) (l.flatMap write) l := by
  induction l with
  | nil => exact pure []
  | cons a l ih =>
    rw [List.forall_mem_cons] at h
    exact h.1.bind ((ih h.2).map (a :: ·))

end Reads

/-! ### Reading after a failure -/

/-- On a stream that has failed, the reader gives `a`. -/
def Blank (r : StateM InStream α) (a : α) : Prop := ∀ s : InStream, s.failed = true → r s = (a, s)

namespace Blank

theorem pure (a : α) : Blank (pure a) a := fun _ _ => rfl

theorem bind {r : StateM InStream α} {f : α → StateM InStream β} {a : α} {d : β}
    (hr : Blank r a) (hf : Blank (f a) d) : Blank (r >>= f) d := by
  intro s hs
  have hstep : (r >>= f) s = f (r s).1 (r s).2 := rfl
  rw [hstep, hr s hs, hf s hs]

theorem read (n : ℕ) : Blank (InStream.read n) (List.replicate n 0) := by
  intro s hs
  simp [InStream.read, hs]

theorem readLe (w : ℕ) : Blank (InStream.readLe w) 0 := by
  have hzero : ofLeBytes (List.replicate w 0) = 0 := by
    induction w with
    | zero => rfl
    | succ w ih => simp [List.replicate_succ, ofLeBytes, ih]
  rw [← hzero]
  exact (read w).bind (pure _)

end Blank

/-! ### Reading across the end -/

/-- The octets a short read leaves out count as zeros. -/
theorem ofLeBytes_append_zeros (b : Bytes) (k : ℕ) :
    ofLeBytes (b ++ List.replicate k 0) = ofLeBytes b := by
  induction b with
  | nil =>
    induction k with
    | zero => rfl
    | succ k ih => simpa [List.replicate_succ, ofLeBytes] using ih
  | cons o b ih => simp [ofLeBytes, ih]

/-- An integer cut short: the octets that are there, and the stream has failed. -/
theorem readLe_short {w : ℕ} {b : Bytes} (h : b.length < w) :
    readLe w ⟨b, false⟩ = (ofLeBytes b, ⟨[], true⟩) := by
  have hread : InStream.read w ⟨b, false⟩
      = (b ++ List.replicate (w - b.length) 0, ⟨[], true⟩) := by
    simp [InStream.read, Nat.not_le.mpr h]
  have hstep : readLe w ⟨b, false⟩
      = (ofLeBytes (InStream.read w ⟨b, false⟩).1, (InStream.read w ⟨b, false⟩).2) := rfl
  rw [hstep, hread, ofLeBytes_append_zeros]

/-- At the end of the file the reader gives `a`, and the stream fails. -/
def AtEnd (r : StateM InStream α) (a : α) : Prop := r ⟨[], false⟩ = (a, ⟨[], true⟩)

namespace AtEnd

theorem readLe {w : ℕ} (h : w ≠ 0) : AtEnd (InStream.readLe w) 0 :=
  readLe_short (Nat.pos_of_ne_zero h)

/-- The first read fails, and the others find a stream that has failed. -/
theorem bind {r : StateM InStream α} {f : α → StateM InStream β} {a : α} {d : β}
    (hr : AtEnd r a) (hf : Blank (f a) d) : AtEnd (r >>= f) d := by
  have hstep : (r >>= f) ⟨[], false⟩ = f (r ⟨[], false⟩).1 (r ⟨[], false⟩).2 := rfl
  have hfirst : r ⟨[], false⟩ = (a, ⟨[], true⟩) := hr
  rw [AtEnd, hstep, hfirst, hf _ rfl]

end AtEnd

end Lib
