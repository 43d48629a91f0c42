import Mevacoin.Crypto
import Mevacoin.Lib.Records

/-!
# Threshold Schnorr signatures

`src/cryptonote_core/mevatrust/frost_threshold.cpp`.  Scalars that the node computes are integers
modulo `ℓ`, those in a signature are octets.  Functions that return `bool` and fill an out-parameter
return `Option`.
-/

namespace Mevacoin.Frost

open Lib

/-- `FROST_N`: the number of proposers. -/
def frostN : ℕ := 5

/-- `FROST_T`: the signing threshold. -/
def frostT : ℕ := 3

/-- `FROST_DOMAIN`. -/
def frostDomain : Bytes := asciiBytes "mevatrust_frost_pool_dist_v2"

/-- `FROST_BINDING_DOMAIN`. -/
def frostBindingDomain : Bytes := asciiBytes "mevatrust_frost_binding_v2"

/-! ### Scalars as octets -/

/-- `crypto::ec_scalar`: 32 octets, whose number need not be below the group order. -/
abbrev EcScalar := Pod32

/-- The scalar that `sc_add` and `sc_mul` read. -/
def scalarOf (ℓ : ℕ) (s : EcScalar) : ZMod ℓ := (ofLeBytes s.data : ZMod ℓ)

/-- The octets that they write. -/
def scalarPod {ℓ : ℕ} (z : ZMod ℓ) : EcScalar := ⟨leBytes 32 z.val, leBytes_length 32 z.val⟩

/-- The digits to the base 16 that `ge_scalarmult_base` starts from, lowest first. -/
def halfOctets (b : Bytes) : List ℕ := b.flatMap fun o => [o.toNat % 16, o.toNat / 16]

/-- Its carry loop, which brings every digit but the last between -8 and 7. -/
def signedDigits : ℕ → List ℕ → List ℤ
  | _, [] => []
  | carry, [e] => [(e + carry : ℕ)]
  | carry, e :: es =>
    let next := (e + carry + 8) / 16
    ((e + carry : ℕ) - 16 * next : ℤ) :: signedDigits next es

/-- `select`: the multiple that a digit looks up.  The tables end at 8. -/
def selectDigit (b : ℤ) : ℤ := if b.natAbs ≤ 8 then b else 0

/-- The number with the given digits to the base 16. -/
def ofDigits (ds : List ℤ) : ℤ := ds.foldr (fun d acc => d + 16 * acc) 0

/-- The factor of the base point in `ge_scalarmult_base`. -/
def baseFactor (s : EcScalar) : ℤ :=
  ofDigits ((signedDigits 0 (halfOctets s.data)).map selectDigit)

/-- The precondition of `ge_scalarmult_base`, `a[31] <= 127`. -/
def InRange (s : EcScalar) : Prop := ofLeBytes s.data < 2 ^ 255
deriving Decidable

/-- `NoncePair`: the hiding and the binding nonce of round 1. -/
structure NoncePair (ℓ : ℕ) where
  /-- `d_i`. -/
  hidingNonce : ZMod ℓ
  /-- `e_i`. -/
  bindingNonce : ZMod ℓ
deriving DecidableEq

/-- The commitments `(D, E)` to a nonce pair. -/
structure NonceEntry where
  /-- The hiding commitment. -/
  D : PublicKey
  /-- The binding commitment. -/
  E : PublicKey
deriving DecidableEq

/-- `PartialSignature`. -/
structure PartialSignature where
  /-- The signer, in `1..FROST_N`. -/
  signerIndex : UInt8
  /-- The signer's hiding commitment. -/
  D : PublicKey
  /-- The signer's binding commitment. -/
  E : PublicKey
  /-- `s_i`, as received. -/
  sigShare : EcScalar
deriving DecidableEq

/-- `FrostSignature`. -/
structure FrostSignature where
  /-- The aggregate nonce commitment. -/
  R : PublicKey
  /-- The sum of the shares. -/
  z : EcScalar
  /-- What was signed. -/
  msgHash : Hash
deriving DecidableEq

variable {ℓ : ℕ} {G : Type} [AddCommGroup G] [Module (ZMod ℓ) G]

/-- `ge_scalarmult_base`. -/
def geScalarmultBase (cv : Curve ℓ G) (s : EcScalar) : G := (baseFactor s : ZMod ℓ) • cv.base

/-- `hash_to_scalar_bytes`: the scalar of the 32-octet hash. -/
def hashToScalarBytes (cv : Curve ℓ G) (buf : Bytes) : ZMod ℓ :=
  cv.hashToScalar (cv.cnFastHash buf).data

/-- `sc_invert_mod_l`: inversion as the power `ℓ - 2`. -/
def scInvertModL (a : ZMod ℓ) : ZMod ℓ := a ^ (ℓ - 2)

/-- The coefficient of the `k`-th index `i`: the product over the other positions
of `(0 - j) / (i - j)`. -/
def lagrangeCoeff (signerIndices : List UInt8) (k : ℕ) (i : UInt8) : ZMod ℓ :=
  let others := signerIndices.eraseIdx k
  let num := (others.map fun j => -(j.toNat : ZMod ℓ)).prod
  let den := (others.map fun j => (i.toNat : ZMod ℓ) - (j.toNat : ZMod ℓ)).prod
  num * scInvertModL den

/-- `compute_lagrange_coeffs`. -/
def computeLagrangeCoeffs (signerIndices : List UInt8) : Option (List (ZMod ℓ)) :=
  if signerIndices.length < frostT then none
  else if signerIndices.all fun i => 1 ≤ i.toNat && i.toNat ≤ frostN then
    some (signerIndices.mapIdx fun k i => lagrangeCoeff signerIndices k i)
  else none

/-- The commitment string of the binding factors: the pairs sorted by index. -/
def commitmentString (signerIndices : List UInt8) (commitments : List NonceEntry) : Bytes :=
  let pairs := (signerIndices.zip commitments).insertionSort fun a b => a.1 ≤ b.1
  pairs.flatMap fun p => p.2.D.data ++ p.2.E.data

/-- `compute_binding_factors`. -/
def computeBindingFactors (cv : Curve ℓ G) (signerIndices : List UInt8) (msg : Hash)
    (commitments : List NonceEntry) : Option (List (ZMod ℓ)) :=
  if signerIndices.length < frostT ∨ commitments.length ≠ signerIndices.length then none
  else
    let all := commitmentString signerIndices commitments
    some (signerIndices.map fun i =>
      hashToScalarBytes cv (frostBindingDomain ++ [i] ++ msg.data ++ all))

/-- `nonce_commitments`. -/
def nonceCommitments (cv : Curve ℓ G) (nonce : NoncePair ℓ) : NonceEntry :=
  ⟨cv.pointToBytes (nonce.hidingNonce • cv.base), cv.pointToBytes (nonce.bindingNonce • cv.base)⟩

/-- `compute_challenge`. -/
def computeChallenge (cv : Curve ℓ G) (R Y : PublicKey) (msgHash : Hash) : ZMod ℓ :=
  hashToScalarBytes cv (R.data ++ Y.data ++ msgHash.data)

/-- `sign_partial`, with the index its caller has put into the result. -/
def signPartial (cv : Curve ℓ G) (signerIndex : UInt8) (msgHash : Hash) (nonce : NoncePair ℓ)
    (shareSk lambda rho : ZMod ℓ) (R Y : PublicKey) : PartialSignature :=
  let c := computeChallenge cv R Y msgHash
  let com := nonceCommitments cv nonce
  ⟨signerIndex, com.D, com.E,
    scalarPod (nonce.hidingNonce + rho * nonce.bindingNonce + c * (lambda * shareSk))⟩

/-- `verify_partial`. -/
def verifyPartial (cv : Curve ℓ G) (msgHash : Hash) (p : PartialSignature)
    (lambda rho : ZMod ℓ) (R Y signerPubkey : PublicKey) : Bool :=
  let c := computeChallenge cv R Y msgHash
  match cv.pointFromBytes p.E, cv.pointFromBytes p.D, cv.pointFromBytes signerPubkey with
  | some E, some D, some P =>
    cv.pointToBytes (geScalarmultBase cv p.sigShare) =
      cv.pointToBytes (D + rho • E + (c * lambda) • P)
  | _, _, _ => false

/-- One term `D_i + ρ_i E_i` of the aggregate commitment. -/
def bindingPoint (cv : Curve ℓ G) (com : NonceEntry) (rho : ZMod ℓ) : Option G := do
  let D ← cv.pointFromBytes com.D
  let E ← cv.pointFromBytes com.E
  return D + rho • E

/-- `compute_aggregate_r`. -/
def computeAggregateR (cv : Curve ℓ G) (commitments : List NonceEntry) (rho : List (ZMod ℓ)) :
    Option PublicKey :=
  if commitments.length ≠ rho.length ∨ commitments = [] then none
  else do
    let terms ← (commitments.zip rho).mapM fun p => bindingPoint cv p.1 p.2
    return cv.pointToBytes terms.sum

/-- `aggregate_signatures`. -/
def aggregateSignatures (cv : Curve ℓ G) (msgHash : Hash) (signerIndices : List UInt8)
    (partials : List PartialSignature) (rho : List (ZMod ℓ)) (Y : PublicKey)
    (signerPubkeys : List PublicKey) : Option FrostSignature := do
  let S := signerIndices.length
  if S < frostT ∨ partials.length < S ∨ rho.length < S then none
  let lambdas : List (ZMod ℓ) ← computeLagrangeCoeffs signerIndices
  let used := partials.take S
  let R ← computeAggregateR cv (used.map fun p => ⟨p.D, p.E⟩) rho
  let checked := (List.range S).all fun k =>
    match used[k]?, signerIndices[k]?, lambdas[k]?, rho[k]? with
    | some p, some idx, some lambda, some r =>
      p.signerIndex = idx &&
        (match signerPubkeys[idx.toNat - 1]? with
        | some P => 1 ≤ idx.toNat && idx.toNat ≤ frostN &&
            verifyPartial cv msgHash p lambda r R Y P
        | none => false)
    | _, _, _, _ => false
  if checked then
    some ⟨R, scalarPod (used.map fun p => scalarOf ℓ p.sigShare).sum, msgHash⟩
  else none

/-- `verify_signature`. -/
def verifySignature (cv : Curve ℓ G) (sig : FrostSignature) (aggPubkey : PublicKey) : Bool :=
  let c := computeChallenge cv sig.R aggPubkey sig.msgHash
  match cv.pointFromBytes aggPubkey, cv.pointFromBytes sig.R with
  | some Y, some R => cv.pointToBytes (geScalarmultBase cv sig.z) = cv.pointToBytes (R + c • Y)
  | _, _ => false

/-! ### The key ceremony -/

/-- `SignerKeypair`. -/
structure SignerKeypair (ℓ : ℕ) where
  /-- `P_i`. -/
  pub : PublicKey
  /-- `sk_i`. -/
  sec : ZMod ℓ
  /-- The signer, in `1..FROST_N`. -/
  index : UInt8
deriving DecidableEq

/-- `FrostKeyPackage`. -/
structure FrostKeyPackage (ℓ : ℕ) where
  /-- The group key `Y`. -/
  groupPublicKey : PublicKey
  /-- The keys `P_1 … P_N`. -/
  signerPublicKeys : List PublicKey
  /-- The shares. -/
  signerKeypairs : List (SignerKeypair ℓ)
deriving DecidableEq

/-- The value at `x` of the polynomial `sk + a1 x + a2 x²`. -/
def secretShare (sk a1 a2 x : ZMod ℓ) : ZMod ℓ := sk + a1 * x + a2 * (x * x)

/-- `frost_keygen`, for the secret and the coefficients that it draws. -/
def frostKeygen (cv : Curve ℓ G) (sk a1 a2 : ZMod ℓ) : FrostKeyPackage ℓ :=
  let keypairs := (List.range frostN).map fun i =>
    let sec := secretShare sk a1 a2 ((i + 1 : ℕ) : ZMod ℓ)
    ⟨cv.pointToBytes (sec • cv.base), sec, UInt8.ofNat (i + 1)⟩
  ⟨cv.pointToBytes (sk • cv.base), keypairs.map (·.pub), keypairs⟩

/-! ### What is signed -/

/-- The order `create_distribution_message_hash` sorts by: key octets, then amount. -/
def outputLe (a b : PublicKey × UInt64) : Prop :=
  compare a.1 b.1 = .lt ∨ a.1 = b.1 ∧ a.2 ≤ b.2
deriving Decidable

/-- `create_distribution_message_hash`. -/
def createDistributionMessageHash (cv : Curve ℓ G) (height : UInt64) (period : UInt32)
    (outputs : List (PublicKey × UInt64)) : Hash :=
  cv.cnFastHash (frostDomain ++ leBytes 8 height.toNat ++ leBytes 4 period.toNat ++
    (outputs.insertionSort outputLe).flatMap fun o => o.1.data ++ leBytes 8 o.2.toNat)

/-- One output in the message. -/
def outputOctets (o : PublicKey × UInt64) : Bytes := o.1.data ++ leBytes 8 o.2.toNat

/-- The octets that `create_distribution_message_hash` hashes. -/
def distributionMessage (height : UInt64) (period : UInt32)
    (outputs : List (PublicKey × UInt64)) : Bytes :=
  frostDomain ++ (leBytes 8 height.toNat ++ (leBytes 4 period.toNat ++
    ((outputs.insertionSort outputLe).map outputOctets).flatten))

/-- What is hashed. -/
theorem createDistributionMessageHash_eq (cv : Curve ℓ G) (height : UInt64) (period : UInt32)
    (outputs : List (PublicKey × UInt64)) :
    createDistributionMessageHash cv height period outputs =
      cv.cnFastHash (distributionMessage height period outputs) := by
  unfold createDistributionMessageHash distributionMessage
  rfl

instance : Std.Total outputLe where
  total a b := by
    unfold outputLe
    cases hc : compare a.1 b.1 with
    | lt => exact Or.inl (Or.inl rfl)
    | gt => exact Or.inr (Or.inl (Std.OrientedCmp.lt_of_gt hc))
    | eq =>
      have hkey : a.1 = b.1 := Std.LawfulEqCmp.eq_of_compare hc
      rcases UInt64.le_total a.2 b.2 with h | h
      · exact Or.inl (Or.inr ⟨hkey, h⟩)
      · exact Or.inr (Or.inr ⟨hkey.symm, h⟩)

instance : IsTrans (PublicKey × UInt64) outputLe where
  trans a b c := by
    rintro (hab | ⟨hab, hle⟩) (hbc | ⟨hbc, hle'⟩)
    · exact Or.inl (Std.TransCmp.lt_trans hab hbc)
    · exact Or.inl (hbc ▸ hab)
    · exact Or.inl (hab ▸ hbc)
    · exact Or.inr ⟨hab.trans hbc, UInt64.le_trans hle hle'⟩

/-- The order tells outputs. -/
theorem outputLe_antisymm {a b : PublicKey × UInt64} (hab : outputLe a b) (hba : outputLe b a) :
    a = b := by
  have hself : ∀ k : PublicKey, compare k k ≠ .lt := fun k => by
    rw [Std.compare_self]
    decide
  rcases hab with hab | ⟨hab, hle⟩ <;> rcases hba with hba | ⟨hba, hle'⟩
  · exact absurd (Std.TransCmp.lt_trans hab hba) (hself _)
  · exact absurd (hba ▸ hab) (hself _)
  · exact absurd (hab ▸ hba) (hself _)
  · exact Prod.ext hab (UInt64.le_antisymm hle hle')

/-- The octets tell an output. -/
theorem outputOctets_inj {a b : PublicKey × UInt64} (h : outputOctets a = outputOctets b) :
    a = b := by
  obtain ⟨hkey, hamount⟩ := List.append_inj h (a.1.size_eq.trans b.1.size_eq.symm)
  exact Prod.ext (Pod32.ext hkey)
    (UInt64.toNat_inj.mp (leBytes_inj a.2.toNat_lt b.2.toNat_lt hamount))

/-- **The message tells the distribution**: height, period and the outputs up to their order. -/
theorem distributionMessage_eq_iff (height height' : UInt64) (period period' : UInt32)
    (outputs outputs' : List (PublicKey × UInt64)) :
    distributionMessage height period outputs = distributionMessage height' period' outputs' ↔
      height = height' ∧ period = period' ∧ outputs.Perm outputs' := by
  constructor
  · intro h
    obtain ⟨hheight, h⟩ := List.append_inj (List.append_cancel_left h) (by simp)
    obtain ⟨hperiod, h⟩ := List.append_inj h (by simp)
    have hwidth : ∀ l : List (PublicKey × UInt64), ∀ r ∈ l.map outputOctets, r.length = 40 := by
      intro l r hr
      obtain ⟨o, -, rfl⟩ := List.mem_map.mp hr
      simp [outputOctets, o.1.size_eq]
    have hsorted := List.map_injective_iff.mpr (fun _ _ => outputOctets_inj)
      (flatten_inj (by decide) (hwidth _) (hwidth _) h)
    refine ⟨UInt64.toNat_inj.mp (leBytes_inj height.toNat_lt height'.toNat_lt hheight),
      UInt32.toNat_inj.mp (leBytes_inj period.toNat_lt period'.toNat_lt hperiod), ?_⟩
    exact (List.perm_insertionSort outputLe outputs).symm.trans
      (hsorted ▸ List.perm_insertionSort outputLe outputs')
  · rintro ⟨rfl, rfl, hperm⟩
    unfold distributionMessage
    rw [insertionSort_eq_of_perm hperm fun a _ b _ => outputLe_antisymm]

end Mevacoin.Frost
