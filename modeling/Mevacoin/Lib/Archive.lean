import Mathlib.Data.Nat.Log
import Mevacoin.Lib.Bytes

/-!
# Binary archives

Serialisers in the manner of a binary archive, with varints and counted containers.  The reader is
not exact: a varint that meets the end of the buffer gives the value read so far.
-/

namespace Lib

/-- A serialiser: how a value is written, and how it is read from the front of a buffer. -/
structure Codec (α : Type) where
  /-- The octets of a value. -/
  write : α → Bytes
  /-- A value and the octets that follow it. -/
  read : Bytes → Option (α × Bytes)

/-! ### Varints -/

/-- Read a varint of at most `bits` bits, `shift` of which are already read. -/
def readVarint (bits : ℕ) : ℕ → Bytes → Option (ℕ × Bytes)
  | _, [] => some (0, [])
  | shift, b :: rest =>
    if bits ≤ shift + 7 ∧ 2 ^ (bits - shift) ≤ b.toNat then none
    else if b = 0 ∧ shift ≠ 0 then none
    else if b.toNat < 128 then some (b.toNat, rest)
    else (readVarint bits (shift + 7) rest).map fun r => (b.toNat - 128 + 128 * r.1, r.2)

/-- Write a varint of at most `k + 1` octets. -/
def writeVarint : ℕ → ℕ → Bytes
  | 0, n => [UInt8.ofNat n]
  | k + 1, n =>
    if n < 128 then [UInt8.ofNat n] else UInt8.ofNat (n % 128 + 128) :: writeVarint k (n / 128)

/-- The number of octets of the varint of `n`. -/
def varintSize (n : ℕ) : ℕ := Nat.log 128 n + 1

/-- A varint has the size of its number. -/
theorem writeVarint_length {k n : ℕ} (hn : n < 128 ^ (k + 1)) :
    (writeVarint k n).length = varintSize n := by
  induction k generalizing n with
  | zero => simp [writeVarint, varintSize, Nat.log_of_lt (by simpa using hn)]
  | succ k ih =>
    unfold writeVarint
    split_ifs with h
    · simp [varintSize, Nat.log_of_lt h]
    · have hq : n / 128 < 128 ^ (k + 1) := by
        rw [Nat.div_lt_iff_lt_mul (by decide)]
        exact hn
      have hlog : Nat.log 128 n = Nat.log 128 (n / 128) + 1 :=
        Nat.log_of_one_lt_of_le (by decide) (by omega)
      rw [List.length_cons, ih hq, varintSize, varintSize, hlog]

/-- A varint of `k + 1` groups is no longer than that. -/
theorem writeVarint_length_le (k n : ℕ) : (writeVarint k n).length ≤ k + 1 := by
  induction k generalizing n with
  | zero => simp [writeVarint]
  | succ k ih =>
    rw [writeVarint]
    split_ifs
    · simp
    · simpa using ih (n / 128)

/-- A varint has an octet. -/
theorem writeVarint_ne_nil (k n : ℕ) : writeVarint k n ≠ [] := by
  cases k with
  | zero => simp [writeVarint]
  | succ k => unfold writeVarint; split_ifs <;> simp

/-- A number below 128 is its own varint. -/
theorem writeVarint_of_lt (k : ℕ) {n : ℕ} (hn : n < 128) : writeVarint k n = [UInt8.ofNat n] := by
  cases k with
  | zero => rfl
  | succ k => rw [writeVarint, if_pos hn]

/-- The last octet of a varint. -/
theorem readVarint_octet {bits shift n : ℕ} (hbits : n < 2 ^ (bits - shift)) (hn : n < 128)
    (hz : shift ≠ 0 → n ≠ 0) (rest : Bytes) :
    readVarint bits shift (UInt8.ofNat n :: rest) = some (n, rest) := by
  have hb : (UInt8.ofNat n).toNat = n := by rw [UInt8.toNat_ofNat']; omega
  have hzero : ¬ (UInt8.ofNat n = 0 ∧ shift ≠ 0) := by
    rintro ⟨h0, hs⟩
    refine hz hs ?_
    rw [← hb, h0]
    rfl
  rw [readVarint, if_neg (by omega), if_neg hzero, if_pos (by omega), hb]

/-- Reading a varint undoes writing it. -/
theorem readVarint_writeVarint {bits k shift n : ℕ} (hbits : n < 2 ^ (bits - shift))
    (hk : n < 128 ^ (k + 1)) (hz : shift ≠ 0 → n ≠ 0) (rest : Bytes) :
    readVarint bits shift (writeVarint k n ++ rest) = some (n, rest) := by
  induction k generalizing n shift with
  | zero => exact readVarint_octet hbits (by simpa using hk) hz rest
  | succ k ih =>
    unfold writeVarint
    split_ifs with h
    · exact readVarint_octet hbits h hz rest
    · have hb : (UInt8.ofNat (n % 128 + 128)).toNat = n % 128 + 128 := by
        rw [UInt8.toNat_ofNat']; omega
      have hne : ¬ (UInt8.ofNat (n % 128 + 128) = 0 ∧ shift ≠ 0) := by
        rintro ⟨h0, -⟩
        rw [h0] at hb
        simp at hb
      -- a value of two octets or more has more than seven bits
      have hshift : ¬ bits ≤ shift + 7 := by
        intro hle
        have : 2 ^ (bits - shift) ≤ 2 ^ 7 := Nat.pow_le_pow_right (by decide) (by omega)
        omega
      have hq : n / 128 < 2 ^ (bits - (shift + 7)) := by
        have : 2 ^ (bits - (shift + 7)) * 128 = 2 ^ (bits - shift) := by
          rw [show (128 : ℕ) = 2 ^ 7 by rfl, ← pow_add, show bits - (shift + 7) + 7 = bits - shift
            by omega]
        omega
      have hqk : n / 128 < 128 ^ (k + 1) := by
        rw [Nat.div_lt_iff_lt_mul (by decide)]
        exact hk
      rw [List.cons_append, readVarint, if_neg (by tauto), if_neg hne, if_neg (by omega),
        ih hq hqk (by omega), Option.map_some]
      simp only [Option.some.injEq, Prod.mk.injEq, and_true]
      omega

/-- What a varint reader accepts, short of the end of the buffer, is what the writer writes
for a value that fits. -/
theorem readVarint_exact {bits k shift v : ℕ} {b rest : Bytes} (hk : bits - shift ≤ 7 * (k + 1))
    (h : readVarint bits shift b = some (v, rest)) (hrest : rest ≠ []) :
    b = writeVarint k v ++ rest ∧ v < 2 ^ (bits - shift) ∧ (shift ≠ 0 → v ≠ 0) := by
  induction k generalizing shift v b with
  | zero =>
    cases b with
    | nil => simp_all [readVarint]
    | cons o b =>
      have hpow : 2 ^ (bits - shift) ≤ 2 ^ 7 := Nat.pow_le_pow_right (by decide) (by omega)
      unfold readVarint at h
      split_ifs at h with hov hzero hlast
      · obtain ⟨rfl, rfl⟩ : o.toNat = v ∧ b = rest := by simpa using h
        have hne : shift ≠ 0 → o.toNat ≠ 0 := fun hs h0 => hzero ⟨UInt8.toNat_inj.mp h0, hs⟩
        exact ⟨by simp [writeVarint], by omega, hne⟩
      · omega
  | succ k ih =>
    cases b with
    | nil => simp_all [readVarint]
    | cons o b =>
      have ho : o.toNat < 256 := o.toNat_lt
      unfold readVarint at h
      split_ifs at h with hov hzero hlast
      · obtain ⟨rfl, rfl⟩ : o.toNat = v ∧ b = rest := by simpa using h
        have hne : shift ≠ 0 → o.toNat ≠ 0 := fun hs h0 => hzero ⟨UInt8.toNat_inj.mp h0, hs⟩
        refine ⟨by simp [writeVarint, hlast], ?_, hne⟩
        by_cases hle : bits ≤ shift + 7
        · omega
        · have : 2 ^ 7 ≤ 2 ^ (bits - shift) := Nat.pow_le_pow_right (by decide) (by omega)
          omega
      · obtain ⟨⟨w, r⟩, hr, hw⟩ := Option.map_eq_some_iff.1 h
        obtain ⟨rfl, rfl⟩ : o.toNat - 128 + 128 * w = v ∧ r = rest := by simpa using hw
        obtain ⟨rfl, hlt, hw0⟩ := ih (by omega) hr
        have hle : shift + 7 < bits := by
          by_contra hle
          rw [show bits - (shift + 7) = 0 by omega] at hlt
          omega
        have hpow : 2 ^ (bits - (shift + 7)) * 128 = 2 ^ (bits - shift) := by
          rw [show (128 : ℕ) = 2 ^ 7 by rfl, ← pow_add, show bits - (shift + 7) + 7 = bits - shift
            by omega]
        have hdiv : (o.toNat - 128 + 128 * w) / 128 = w := by omega
        have hmod : UInt8.ofNat ((o.toNat - 128 + 128 * w) % 128 + 128) = o := by
          apply UInt8.toNat_inj.mp
          rw [UInt8.toNat_ofNat']
          omega
        refine ⟨?_, by omega, by omega⟩
        rw [writeVarint, if_neg (by omega), hdiv, hmod, List.cons_append]

/-- A varint takes no more octets than its bits need. -/
theorem readVarint_length_le {bits k shift v : ℕ} {b rest : Bytes}
    (hk : bits - shift ≤ 7 * (k + 1)) (h : readVarint bits shift b = some (v, rest)) :
    b.length ≤ rest.length + (k + 1) := by
  induction k generalizing shift v b with
  | zero =>
    cases b with
    | nil => simp
    | cons o b =>
      have hpow : 2 ^ (bits - shift) ≤ 2 ^ 7 := Nat.pow_le_pow_right (by decide) (by omega)
      unfold readVarint at h
      split_ifs at h with hov hzero hlast
      · obtain ⟨-, rfl⟩ : o.toNat = v ∧ b = rest := by simpa using h
        simp
      · omega
  | succ k ih =>
    cases b with
    | nil => simp
    | cons o b =>
      unfold readVarint at h
      split_ifs at h with hov hzero hlast
      · obtain ⟨-, rfl⟩ : o.toNat = v ∧ b = rest := by simpa using h
        simp
      · obtain ⟨⟨w, r⟩, hr, hw⟩ := Option.map_eq_some_iff.1 h
        obtain ⟨-, rfl⟩ : o.toNat - 128 + 128 * w = v ∧ r = rest := by simpa using hw
        have := ih (by omega) hr
        rw [List.length_cons]
        omega

/-! ### Serialisers and their laws -/

namespace Codec

variable {α β : Type}

variable {c : Codec α} {P : α → Prop} {a : α} {b : Bytes} {d : Codec β} {rest : Bytes}
  {Q : β → Prop} {f : α → β} {g : β → α} {n : ℕ} {s : Bytes} {l : List α}

/-- Read a buffer that holds one value and nothing else. -/
def parse (c : Codec α) (b : Bytes) : Option α :=
  match c.read b with
  | some (a, []) => some a
  | _ => none

/-- Reading undoes writing for the values that satisfy `P`. -/
def RoundTrips (c : Codec α) (P : α → Prop) : Prop :=
  ∀ a, P a → ∀ rest, c.read (c.write a ++ rest) = some (a, rest)

/-- What was read is what the writer writes. -/
def Exact (c : Codec α) : Prop :=
  ∀ b a rest, c.read b = some (a, rest) → b = c.write a ++ rest

/-- What was read is what the writer writes, as long as input is left. -/
def ExactBeforeEnd (c : Codec α) : Prop :=
  ∀ b a rest, c.read b = some (a, rest) → rest ≠ [] → b = c.write a ++ rest

/-- Exact, and never writes the empty string. -/
structure Strict (c : Codec α) : Prop where
  exact : c.Exact
  write_ne_nil : ∀ a, c.write a ≠ []

/-- Exact is exact before the end. -/
theorem Exact.beforeEnd (h : c.Exact) : c.ExactBeforeEnd :=
  fun b a rest hr _ => h b a rest hr

/-- What was written is parsed. -/
theorem RoundTrips.parse_write (h : c.RoundTrips P) (ha : P a) : c.parse (c.write a) = some a := by
  have := h a ha []
  rw [List.append_nil] at this
  rw [parse, this]

/-- What is parsed was written. -/
theorem Exact.eq_write_of_parse (h : c.Exact) (hp : c.parse b = some a) : b = c.write a := by
  unfold parse at hp
  split at hp
  · next a' hr =>
    obtain rfl := Option.some.inj hp
    simpa using h b a' [] hr
  · simp at hp

/-- Two values in sequence. -/
def prod (c : Codec α) (d : Codec β) : Codec (α × β) where
  write x := c.write x.1 ++ d.write x.2
  read b := do
    let (x, b) ← c.read b
    let (y, b) ← d.read b
    return ((x, y), b)

/-- A reader of a sequence that succeeded read both parts. -/
theorem prod_read {x : α × β} (h : (c.prod d).read b = some (x, rest)) :
    ∃ mid, c.read b = some (x.1, mid) ∧ d.read mid = some (x.2, rest) := by
  simp only [prod, Option.bind_eq_bind, Option.bind_eq_some_iff, Prod.exists] at h
  obtain ⟨a, mid, hc, y, rest', hd, he⟩ := h
  obtain ⟨rfl, rfl⟩ : (a, y) = x ∧ rest' = rest := by simpa using he
  exact ⟨mid, hc, hd⟩

/-- Sequences round-trip. -/
theorem RoundTrips.prod (hc : c.RoundTrips P) (hd : d.RoundTrips Q) :
    (c.prod d).RoundTrips fun x => P x.1 ∧ Q x.2 := by
  rintro ⟨x, y⟩ ⟨hx, hy⟩ rest
  simp [Codec.prod, hc x hx, hd y hy]

/-- Sequences are exact before the end. -/
theorem ExactBeforeEnd.prod (hc : c.ExactBeforeEnd) (hd : d.ExactBeforeEnd) :
    (c.prod d).ExactBeforeEnd := by
  intro b x rest h hrest
  obtain ⟨mid, h₁, h₂⟩ := prod_read h
  have hmid := hd _ _ _ h₂ hrest
  have hne : mid ≠ [] := by
    rw [hmid]
    exact List.append_ne_nil_of_right_ne_nil _ hrest
  rw [hc _ _ _ h₁ hne, hmid]
  simp [Codec.prod]

/-- A sequence is strict if its last part is. -/
theorem ExactBeforeEnd.prod_strict (hc : c.ExactBeforeEnd) (hd : d.Strict) : (c.prod d).Strict where
  exact := by
    intro b x rest h
    obtain ⟨mid, h₁, h₂⟩ := prod_read h
    have hmid := hd.exact _ _ _ h₂
    have hne : mid ≠ [] := by
      rw [hmid]
      exact List.append_ne_nil_of_left_ne_nil (hd.write_ne_nil _) _
    rw [hc _ _ _ h₁ hne, hmid]
    simp [Codec.prod]
  write_ne_nil x := List.append_ne_nil_of_right_ne_nil _ (hd.write_ne_nil x.2)

/-- The same octets for another type: `f` rebuilds a value, `g` takes it apart. -/
def imap (c : Codec α) (f : α → β) (g : β → α) : Codec β where
  write y := c.write (g y)
  read b := (c.read b).map fun r => (f r.1, r.2)

/-- Round trips through an inverse pair. -/
theorem RoundTrips.imap (hc : c.RoundTrips P) (hfg : ∀ y, f (g y) = y) :
    (c.imap f g).RoundTrips fun y => P (g y) := by
  intro y hy rest
  simp [Codec.imap, hc (g y) hy, hfg]

/-- What a mapped reader has read. -/
theorem imap_read {y : β} (h : (c.imap f g).read b = some (y, rest)) :
    ∃ x, c.read b = some (x, rest) ∧ f x = y := by
  simpa [Codec.imap] using h

/-- Strictness through an inverse pair. -/
theorem Strict.imap (hc : c.Strict) (hgf : ∀ x, g (f x) = x) : (c.imap f g).Strict where
  exact := by
    intro b y rest h
    obtain ⟨x, hx, rfl⟩ := imap_read h
    simpa [Codec.imap, hgf] using hc.exact _ _ _ hx
  write_ne_nil y := hc.write_ne_nil (g y)

/-! ### The basic serialisers -/

/-- A varint of `bits` bits. -/
def varint (bits : ℕ) : Codec ℕ where
  write n := writeVarint (bits / 7) n
  read b := readVarint bits 0 b

/-- An unsigned 64-bit field. -/
def varint64 : Codec UInt64 := (varint 64).imap UInt64.ofNat UInt64.toNat

/-- An unsigned 32-bit field. -/
def varint32 : Codec UInt32 := (varint 32).imap UInt32.ofNat UInt32.toNat

/-- An unsigned 8-bit field written as a varint. -/
def varint8 : Codec UInt8 := (varint 8).imap UInt8.ofNat UInt8.toNat

/-- Varints round-trip. -/
theorem varint_roundTrips (bits : ℕ) : (varint bits).RoundTrips (· < 2 ^ bits) := by
  intro n hn rest
  have hk : n < 128 ^ (bits / 7 + 1) := by
    refine hn.trans_le ?_
    rw [show (128 : ℕ) = 2 ^ 7 by rfl, ← pow_mul]
    exact Nat.pow_le_pow_right (by decide) (by omega)
  exact readVarint_writeVarint (by simpa using hn) hk (by simp) rest

/-- A fixed-width view of a varint is exact where the width covers its bits. -/
theorem varint_imap_beforeEnd {bits : ℕ} {f : ℕ → β} {g : β → ℕ}
    (hgf : ∀ n < 2 ^ bits, g (f n) = n) : ((varint bits).imap f g).ExactBeforeEnd := by
  intro b y rest h hrest
  obtain ⟨n, hn, rfl⟩ := imap_read h
  obtain ⟨hb, hlt, -⟩ :=
    readVarint_exact (k := bits / 7) (by omega) hn hrest
  simp only [imap, hgf n (by simpa using hlt)]
  exact hb

/-- 64-bit varints round-trip. -/
theorem varint64_roundTrips : varint64.RoundTrips fun _ => True :=
  fun n _ => (varint_roundTrips 64).imap (fun _ => UInt64.ofNat_toNat) n n.toNat_lt

/-- 32-bit varints round-trip. -/
theorem varint32_roundTrips : varint32.RoundTrips fun _ => True :=
  fun n _ => (varint_roundTrips 32).imap (fun _ => UInt32.ofNat_toNat) n n.toNat_lt

/-- 64-bit varints are exact before the end. -/
theorem varint64_beforeEnd : varint64.ExactBeforeEnd :=
  varint_imap_beforeEnd fun n hn => by simpa using hn

/-- 32-bit varints are exact before the end. -/
theorem varint32_beforeEnd : varint32.ExactBeforeEnd :=
  varint_imap_beforeEnd fun n hn => by simpa using hn

/-- The size of a 64-bit varint. -/
theorem varint64_write_length (n : UInt64) : (varint64.write n).length = varintSize n.toNat :=
  writeVarint_length (n.toNat_lt.trans_le (by decide))

/-- The size of a 32-bit varint. -/
theorem varint32_write_length (n : UInt32) : (varint32.write n).length = varintSize n.toNat :=
  writeVarint_length (n.toNat_lt.trans_le (by decide))

/-- A blob of `n` octets. -/
def blob (n : ℕ) : Codec {b : Bytes // b.length = n} where
  write b := b.1
  read b := if h : (b.take n).length = n then some (⟨b.take n, h⟩, b.drop n) else none

/-- Blobs round-trip. -/
theorem blob_roundTrips (n : ℕ) : (blob n).RoundTrips fun _ => True := by
  rintro ⟨b, rfl⟩ - rest
  simp [blob]

/-- A blob with an octet is strict. -/
theorem blob_strict (hn : 0 < n) : (blob n).Strict where
  exact := by
    intro b a rest h
    simp only [blob] at h
    split_ifs at h
    obtain ⟨rfl, rfl⟩ : (⟨b.take n, by assumption⟩ : {b : Bytes // b.length = n}) = a ∧
        b.drop n = rest := by simpa using h
    simp [blob]
  write_ne_nil a := List.ne_nil_of_length_pos (by rw [show (blob n).write a = a.1 from rfl]; omega)

/-- A truth value: one octet, any but zero read as true. -/
def bool : Codec Bool where
  write b := [if b then 1 else 0]
  read
    | [] => none
    | o :: rest => some (o != 0, rest)

/-- A string: its length and its octets. -/
def str : Codec Bytes where
  write s := varint64.write (UInt64.ofNat s.length) ++ s
  read b := do
    let (n, b) ← varint64.read b
    if b.length < n.toNat then none else return (b.take n.toNat, b.drop n.toNat)

/-- Strings round-trip. -/
theorem str_roundTrips : str.RoundTrips (·.length < 2 ^ 64) := by
  intro s hs rest
  have hn : (UInt64.ofNat s.length).toNat = s.length := by simpa using hs
  have hcount := varint64_roundTrips (UInt64.ofNat s.length) trivial (s ++ rest)
  simp [str, hcount, hn]

/-- A string of less than 128 octets has a one-octet length. -/
theorem str_write_of_lt (hs : s.length < 128) : str.write s = UInt8.ofNat s.length :: s := by
  have hn : (UInt64.ofNat s.length).toNat = s.length := by simp; omega
  have hw : varint64.write (UInt64.ofNat s.length) = [UInt8.ofNat s.length] := by
    show writeVarint (64 / 7) (UInt64.ofNat s.length).toNat = _
    rw [hn]
    exact writeVarint_of_lt _ hs
  simp only [str, hw, List.singleton_append]

/-- An octet with the continuation bit in front of as many octets as it counts is no string. -/
theorem str_read_eq_none (hlow : 128 ≤ s.length) (hhigh : s.length < 256) :
    str.read (UInt8.ofNat s.length :: s) = none := by
  have hb : (UInt8.ofNat s.length).toNat = s.length := by rw [UInt8.toNat_ofNat']; omega
  have hne : UInt8.ofNat s.length ≠ 0 := by
    intro h0
    rw [h0] at hb
    simp at hb
    omega
  cases hr : readVarint 64 7 s with
  | none => simp [str, varint64, imap, varint, readVarint, hb, hr, Nat.not_lt.2 hlow]
  | some r =>
    obtain ⟨w, rest⟩ := r
    have hlen := readVarint_length_le (k := 8) (by omega) hr
    have hrest : rest ≠ [] := by
      rintro rfl
      simp at hlen
      omega
    obtain ⟨hs, hw, hw0⟩ := readVarint_exact (k := 8) (by omega) hr hrest
    have hpos := List.length_pos_iff.2 (writeVarint_ne_nil 8 w)
    have hlt : rest.length < s.length := by
      rw [hs, List.length_append]
      omega
    simp [str, varint64, imap, varint, readVarint, hb, hr, Nat.not_lt.2 hlow]
    omega

/-- Read `n` values. -/
def readN (c : Codec α) : ℕ → Bytes → Option (List α × Bytes)
  | 0, b => some ([], b)
  | n + 1, b => do
    let (a, b) ← c.read b
    let (l, b) ← readN c n b
    return (a :: l, b)

/-- A container: the count, which the octets left must reach, and the elements. -/
def list (c : Codec α) : Codec (List α) where
  write l := varint64.write (UInt64.ofNat l.length) ++ l.flatMap c.write
  read b := do
    let (n, b) ← varint64.read b
    if b.length < n.toNat then none else readN c n.toNat b

/-- Reading as many as were written. -/
theorem readN_flatMap_write (hc : c.RoundTrips P) (hl : ∀ a ∈ l, P a) (rest : Bytes) :
    readN c l.length (l.flatMap c.write ++ rest) = some (l, rest) := by
  induction l with
  | nil => rfl
  | cons a l ih =>
    have ha := hc a (hl a (by simp))
    have ih := ih fun x hx => hl x (by simp [hx])
    simp [readN, ha, ih]

/-- Each element takes an octet. -/
theorem length_le_flatMap_write (hne : ∀ a ∈ l, c.write a ≠ []) :
    l.length ≤ (l.flatMap c.write).length := by
  induction l with
  | nil => simp
  | cons a l ih =>
    have ha := List.length_pos_iff.2 (hne a (by simp))
    have ih := ih fun x hx => hne x (by simp [hx])
    simp only [List.length_cons, List.flatMap_cons, List.length_append]
    omega

/-- Lists round-trip. -/
theorem RoundTrips.list (hc : c.RoundTrips P) (hne : ∀ a, P a → c.write a ≠ []) :
    c.list.RoundTrips fun l => l.length < 2 ^ 64 ∧ ∀ a ∈ l, P a := by
  rintro l ⟨hlen, hl⟩ rest
  have hn : (UInt64.ofNat l.length).toNat = l.length := by simpa using hlen
  have hle : l.length ≤ (l.flatMap c.write ++ rest).length := by
    rw [List.length_append]
    exact (length_le_flatMap_write fun a ha => hne a (hl a ha)).trans (Nat.le_add_right _ _)
  have hcount := varint64_roundTrips (UInt64.ofNat l.length) trivial (l.flatMap c.write ++ rest)
  simp only [Codec.list, List.append_assoc, hcount, Option.bind_eq_bind, Option.bind_some, hn,
    if_neg (Nat.not_lt.2 hle)]
  exact readN_flatMap_write hc hl rest

/-- As many are read as were written, before the end. -/
theorem readN_beforeEnd (hc : c.ExactBeforeEnd) (h : readN c n b = some (l, rest))
    (hrest : rest ≠ []) : b = l.flatMap c.write ++ rest ∧ l.length = n := by
  induction n generalizing b l with
  | zero =>
    obtain ⟨rfl, rfl⟩ : [] = l ∧ b = rest := by simpa [readN] using h
    simp
  | succ n ih =>
    simp only [readN, Option.bind_eq_bind, Option.bind_eq_some_iff, Prod.exists] at h
    obtain ⟨a, mid, ha, l', rest', hl, he⟩ := h
    obtain ⟨rfl, rfl⟩ : a :: l' = l ∧ rest' = rest := by simpa using he
    obtain ⟨hmid, hlen⟩ := ih hl
    have hne : mid ≠ [] := by
      rw [hmid]
      exact List.append_ne_nil_of_right_ne_nil _ hrest
    rw [hc _ _ _ ha hne, hmid]
    simp [hlen]

/-- Lists are exact before the end. -/
theorem ExactBeforeEnd.list (hc : c.ExactBeforeEnd) : c.list.ExactBeforeEnd := by
  intro b l rest h hrest
  simp only [Codec.list, Option.bind_eq_bind, Option.bind_eq_some_iff, Prod.exists] at h
  obtain ⟨n, mid, hn, h⟩ := h
  split_ifs at h
  obtain ⟨hmid, hlen⟩ := readN_beforeEnd hc h hrest
  have hne : mid ≠ [] := by
    rw [hmid]
    exact List.append_ne_nil_of_right_ne_nil _ hrest
  have hcount : UInt64.ofNat l.length = n := by rw [hlen]; exact UInt64.ofNat_toNat
  rw [varint64_beforeEnd _ _ _ hn hne, hmid]
  simp [Codec.list, hcount]

/-- A pair is written as a container of two. -/
def pair (c : Codec α) (d : Codec β) : Codec (α × β) where
  write x := varint64.write 2 ++ (c.prod d).write x
  read b := do
    let (n, b) ← varint64.read b
    if n ≠ 2 then none else (c.prod d).read b

/-- Pairs round-trip. -/
theorem RoundTrips.pair (hc : c.RoundTrips P) (hd : d.RoundTrips Q) :
    (c.pair d).RoundTrips fun x => P x.1 ∧ Q x.2 := by
  intro x hx rest
  have hcount := varint64_roundTrips 2 trivial ((c.prod d).write x ++ rest)
  simp only [Codec.pair, List.append_assoc, hcount]
  simpa using (hc.prod hd) x hx rest

/-- Pairs are exact before the end. -/
theorem ExactBeforeEnd.pair (hc : c.ExactBeforeEnd) (hd : d.ExactBeforeEnd) :
    (c.pair d).ExactBeforeEnd := by
  intro b x rest h hrest
  simp only [Codec.pair, Option.bind_eq_bind, Option.bind_eq_some_iff, Prod.exists] at h
  obtain ⟨n, mid, hn, h⟩ := h
  split_ifs at h with htwo
  obtain rfl : n = 2 := by simpa using htwo
  have hmid := hc.prod hd _ _ _ h hrest
  have hne : mid ≠ [] := by
    rw [hmid]
    exact List.append_ne_nil_of_right_ne_nil _ hrest
  rw [varint64_beforeEnd _ _ _ hn hne, hmid]
  simp [Codec.pair]

end Codec

end Lib
