import Mathlib.Algebra.Module.Basic
import Mathlib.Data.Set.Function
import Mathlib.Data.ZMod.Basic
import Mevacoin.Keys

/-!
# Curve, hash and the Schnorr signature check

What the vendored `src/crypto` supplies: a group of order `ℓ` with a base point, the codec of its
points, the hashes, and `crypto_ops::check_signature`.
-/

namespace Mevacoin

open Lib

/-- What the vendored curve arithmetic and hash functions supply. -/
structure Curve (ℓ : ℕ) (G : Type) [AddCommGroup G] [Module (ZMod ℓ) G] where
  /-- The base point. -/
  base : G
  /-- `ge_p3_tobytes`. -/
  pointToBytes : G → PublicKey
  /-- `ge_frombytes_vartime`; `none` when the octets are no point. -/
  pointFromBytes : PublicKey → Option G
  /-- `cn_fast_hash`. -/
  cnFastHash : Bytes → Hash
  /-- `hash_to_scalar`. -/
  hashToScalar : Bytes → ZMod ℓ
  /-- The order has 253 bits. -/
  order_lt : ℓ < 2 ^ 253

/-- What the payload checks use: the hash and the signature check. -/
structure Crypto where
  /-- `cn_fast_hash`. -/
  cnFastHash : Bytes → Hash
  /-- `check_signature`. -/
  checkSignature : Hash → PublicKey → Signature → Bool

section

variable {ℓ : ℕ} {G : Type} [AddCommGroup G] [Module (ZMod ℓ) G] (cv : Curve ℓ G)

/-- The octets of the point at infinity, which `check_signature` refuses as a
commitment. -/
def infinityBytes : PublicKey := Pod32.single 1

/-- The commitment `c·P + r·G` that a signature stands for. -/
def Curve.commitment (P : G) (sig : Signature) : PublicKey :=
  cv.pointToBytes ((ofLeBytes sig.c.data : ZMod ℓ) • P + (ofLeBytes sig.r.data : ZMod ℓ) • cv.base)

/-- The buffer whose scalar hash is the challenge: message, key, commitment. -/
def Curve.challengeBuffer (prefixHash : Hash) (pub : PublicKey) (P : G) (sig : Signature) : Bytes :=
  prefixHash.data ++ pub.data ++ (cv.commitment P sig).data

/-- `crypto_ops::check_signature`. -/
def Curve.checkSignature (prefixHash : Hash) (pub : PublicKey) (sig : Signature) : Bool :=
  match cv.pointFromBytes pub with
  | none => false
  | some P =>
    let c := ofLeBytes sig.c.data
    let r := ofLeBytes sig.r.data
    -- `sc_check` accepts reduced scalars only
    if ℓ ≤ c ∨ ℓ ≤ r ∨ c = 0 then false
    else if cv.commitment P sig = infinityBytes then false
    else cv.hashToScalar (cv.challengeBuffer prefixHash pub P sig) = (c : ZMod ℓ)

/-- The hash and the signature check of a curve. -/
def Curve.crypto : Crypto := ⟨cv.cnFastHash, cv.checkSignature⟩

variable {cv}

theorem Curve.checkSignature_eq_true {h : Hash} {pub : PublicKey} {sig : Signature}
    (hs : cv.checkSignature h pub sig = true) :
    ∃ P, cv.pointFromBytes pub = some P ∧
      cv.hashToScalar (cv.challengeBuffer h pub P sig) = (ofLeBytes sig.c.data : ZMod ℓ) := by
  unfold Curve.checkSignature at hs
  split at hs
  · cases hs
  · rename_i P hP
    dsimp only at hs
    split_ifs at hs
    exact ⟨P, hP, by simpa using hs⟩

/-- Messages with the same challenge buffer are the same. -/
theorem Curve.challengeBuffer_inj {h h' : Hash} {pub : PublicKey} {P : G} {sig : Signature}
    (he : cv.challengeBuffer h pub P sig = cv.challengeBuffer h' pub P sig) : h = h' := by
  simp only [challengeBuffer, List.append_assoc] at he
  have hlen : h.data.length = h'.data.length := h.size_eq.trans h'.size_eq.symm
  exact Pod32.ext (List.append_inj he hlen).1

/-- **One signature, one key, one message**, if `hash_to_scalar` has no collision on the two
challenge buffers. -/
theorem Curve.checkSignature_hash_eq {h h' : Hash} {pub : PublicKey} {sig : Signature}
    (hs : cv.checkSignature h pub sig = true) (hs' : cv.checkSignature h' pub sig = true)
    (hinj : ∀ P, cv.pointFromBytes pub = some P → Set.InjOn cv.hashToScalar
      {cv.challengeBuffer h pub P sig, cv.challengeBuffer h' pub P sig}) : h = h' := by
  obtain ⟨P, hP, hc⟩ := Curve.checkSignature_eq_true hs
  obtain ⟨P', hP', hc'⟩ := Curve.checkSignature_eq_true hs'
  obtain rfl : P = P' := by rw [hP] at hP'; exact Option.some.inj hP'
  exact Curve.challengeBuffer_inj
    (hinj P hP (Set.mem_insert _ _) (Set.mem_insert_of_mem _ rfl) (hc.trans hc'.symm))

end

/-- The order of the small curve below. -/
theorem seven_lt : 7 < 2 ^ 253 := by decide

/-- The integers modulo 7 as a curve, with a checksum for the hash: small enough to
run the model on. -/
def sevenCurve : Curve 7 (ZMod 7) where
  base := 1
  pointToBytes g := Pod32.single (UInt8.ofNat (g.val + 1))
  pointFromBytes k :=
    let b := (k.data.headD 0).toNat
    if 1 ≤ b ∧ b ≤ 7 then some ((b - 1 : ℕ) : ZMod 7) else none
  cnFastHash bs := Pod32.single (bs.foldl (fun acc b => 31 * acc + b) 1)
  hashToScalar bs := (bs.headD 0).toNat
  order_lt := seven_lt

end Mevacoin
