import Mathlib.FieldTheory.Finite.Basic
import Mevacoin.Frost.Threshold
import Mevacoin.Lib.Interpolation

/-!
# What an aggregate signature proves

`aggregate_signatures` checks `s_k G = D_k + ρ_k E_k + c λ_k P_k` for each partial signature and
never the total.  The checks read a share with `ge_scalarmult_base`, whose digit tables end at 8;
the total is made with `sc_add`, which reduces all 256 bits.
-/

namespace Mevacoin.Frost

open Lib

variable {ℓ : ℕ} {G : Type} [AddCommGroup G] [Module (ZMod ℓ) G] {cv : Curve ℓ G}

/-! ### Two readings of a share -/

/-- The carry loop keeps a number whose last digit is at most 7, and its digits are in the
tables. -/
theorem ofDigits_signedDigits {es : List ℕ} {carry : ℕ} (hne : es ≠ []) (hc : carry ≤ 1)
    (hes : ∀ e ∈ es, e < 16) (htop : ofDigits (es.map (↑)) < 8 * 16 ^ (es.length - 1)) :
    ofDigits ((signedDigits carry es).map selectDigit) = ofDigits (es.map (↑)) + carry := by
  induction es generalizing carry with
  | nil => exact absurd rfl hne
  | cons e es ih =>
    have he := hes e List.mem_cons_self
    cases es with
    | nil =>
      simp [ofDigits, signedDigits, selectDigit] at htop ⊢
      omega
    | cons e' es =>
      have hnext : (e + carry + 8) / 16 ≤ 1 := by omega
      have htail : ofDigits ((e' :: es).map (↑)) < 8 * 16 ^ ((e' :: es).length - 1) := by
        have hsplit : ofDigits ((e :: e' :: es).map (↑)) =
            e + 16 * ofDigits ((e' :: es).map (↑)) := rfl
        have hpow : (16 : ℤ) ^ ((e :: e' :: es).length - 1) =
            16 * 16 ^ ((e' :: es).length - 1) := by simp [pow_succ']
        rw [hsplit, hpow] at htop
        omega
      have hrest := ih (by simp) hnext (fun x hx => hes x (List.mem_cons_of_mem e hx)) htail
      have hdigit : selectDigit ((e + carry : ℕ) - 16 * ((e + carry + 8) / 16 : ℕ) : ℤ) =
          (e + carry : ℕ) - 16 * ((e + carry + 8) / 16 : ℕ) := if_pos (by omega)
      show selectDigit _ + 16 * ofDigits ((signedDigits _ (e' :: es)).map selectDigit) =
        e + 16 * ofDigits ((e' :: es).map (↑)) + carry
      rw [hrest, hdigit]
      omega

/-- The half octets make up the number of the octets. -/
theorem ofDigits_halfOctets (b : Bytes) : ofDigits ((halfOctets b).map (↑)) = ofLeBytes b := by
  induction b with
  | nil => rfl
  | cons o b ih =>
    show ((o.toNat % 16 : ℕ) : ℤ) +
      16 * ((o.toNat / 16 : ℕ) + 16 * ofDigits ((halfOctets b).map (↑))) = _
    rw [ih, ofLeBytes]
    omega

/-- `ge_scalarmult_base` multiplies by the number in range. -/
theorem InRange.baseFactor_eq {s : EcScalar} (hs : InRange s) :
    baseFactor s = ofLeBytes s.data := by
  have hlen : (halfOctets s.data).length = 64 := by
    simp [halfOctets, List.length_flatMap, s.size_eq]
  have hne : halfOctets s.data ≠ [] := fun h => by simp [h] at hlen
  have hdigits : ∀ e ∈ halfOctets s.data, e < 16 := by
    intro e he
    obtain ⟨o, -, ho⟩ := List.mem_flatMap.1 he
    have := o.toNat_lt
    simp at ho
    omega
  refine (ofDigits_signedDigits hne (Nat.zero_le 1) hdigits ?_).trans ?_
  · rw [ofDigits_halfOctets, hlen]
    unfold InRange at hs
    omega
  · rw [ofDigits_halfOctets]
    simp

/-- In range the two readings agree. -/
theorem InRange.geScalarmultBase_eq {s : EcScalar} (hs : InRange s) :
    geScalarmultBase cv s = scalarOf ℓ s • cv.base := by
  rw [geScalarmultBase, hs.baseFactor_eq, Int.cast_natCast, scalarOf]

section Canonical

variable [NeZero ℓ] (cv) (z : ZMod ℓ)

include cv

/-- The number of the octets that the node writes. -/
theorem ofLeBytes_scalarPod : ofLeBytes (scalarPod z).data = z.val := by
  have hz := z.val_lt
  have hℓ := cv.order_lt
  rw [scalarPod, ofLeBytes_leBytes, Nat.mod_eq_of_lt (by omega)]

/-- What the node writes is in range. -/
theorem inRange_scalarPod : InRange (scalarPod z) := by
  have hz := z.val_lt
  have hℓ := cv.order_lt
  rw [InRange, ofLeBytes_scalarPod cv]
  omega

/-- What the node writes is multiplied by as it was computed. -/
theorem geScalarmultBase_scalarPod : geScalarmultBase cv (scalarPod z) = z • cv.base := by
  rw [(inRange_scalarPod cv z).geScalarmultBase_eq, scalarOf, ofLeBytes_scalarPod cv,
    ZMod.natCast_zmod_val]

end Canonical

/-- Points read back as they were written. -/
def PointsRoundTrip (cv : Curve ℓ G) : Prop :=
  ∀ g, cv.pointFromBytes (cv.pointToBytes g) = some g

/-- The octets tell a point. -/
theorem PointsRoundTrip.eq_iff (hcv : PointsRoundTrip cv) {g h : G} :
    cv.pointToBytes g = cv.pointToBytes h ↔ g = h := by
  refine ⟨fun he => ?_, fun he => he ▸ rfl⟩
  have := hcv g
  rw [he, hcv h] at this
  exact (Option.some.inj this).symm

/-! ### The checks as equations -/

section Equations

variable {msg : Hash} {R Y : PublicKey} {p : PartialSignature} {lambda rho : ZMod ℓ}

/-- A partial check is an equation. -/
theorem verifyPartial_iff (hcv : PointsRoundTrip cv) (P : G) :
    verifyPartial cv msg p lambda rho R Y (cv.pointToBytes P) = true ↔
      ∃ T, bindingPoint cv ⟨p.D, p.E⟩ rho = some T ∧
        geScalarmultBase cv p.sigShare = T + (computeChallenge cv R Y msg * lambda) • P := by
  unfold verifyPartial bindingPoint
  cases hD : cv.pointFromBytes p.D <;> cases hE : cv.pointFromBytes p.E <;>
    simp [hcv P, hcv.eq_iff]

/-- The check of a signature is the Schnorr equation. -/
theorem verifySignature_iff (hcv : PointsRoundTrip cv) (T Q : G) (z : EcScalar) :
    verifySignature cv ⟨cv.pointToBytes T, z, msg⟩ (cv.pointToBytes Q) = true ↔
      geScalarmultBase cv z =
        T + computeChallenge cv (cv.pointToBytes T) (cv.pointToBytes Q) msg • Q := by
  simp [verifySignature, hcv T, hcv Q, hcv.eq_iff]

/-- R is the sum of the binding points. -/
theorem computeAggregateR_eq_some {coms : List NonceEntry} {rhos : List (ZMod ℓ)} :
    computeAggregateR cv coms rhos = some R ↔
      coms.length = rhos.length ∧ coms ≠ [] ∧
        ∃ terms, (coms.zip rhos).mapM (fun q => bindingPoint cv q.1 q.2) = some terms ∧
          R = cv.pointToBytes terms.sum := by
  unfold computeAggregateR
  split_ifs with h
  · constructor
    · intro hn
      cases hn
    · rintro ⟨hlen, hne, -⟩
      exact absurd h (not_or.2 ⟨not_not.2 hlen, hne⟩)
  · obtain ⟨hlen, hne⟩ := not_or.1 h
    rw [Option.bind_eq_bind, Option.bind_eq_some_iff]
    refine ⟨fun ⟨terms, ht, hR⟩ => ?_, fun ⟨_, _, terms, ht, hR⟩ => ⟨terms, ht, hR ▸ rfl⟩⟩
    exact ⟨not_not.1 hlen, hne, terms, ht, (Option.some.inj hR).symm⟩

end Equations

variable {msg : Hash} {R Y : PublicKey} {pubkeys : List PublicKey} {p : PartialSignature}
  {i : UInt8} {lambda rho : ZMod ℓ} {is : List UInt8} {lambdas : List (ZMod ℓ)}
  {ps : List PartialSignature} {rhos : List (ZMod ℓ)} {nonces : List (NoncePair ℓ)}
  (sk a1 a2 : ZMod ℓ)

/-- What one round of the loop of `aggregate_signatures` accepts. -/
def RowAccepted (cv : Curve ℓ G) (msg : Hash) (R Y : PublicKey) (pubkeys : List PublicKey)
    (p : PartialSignature) (i : UInt8) (lambda rho : ZMod ℓ) : Prop :=
  p.signerIndex = i ∧ 1 ≤ i.toNat ∧ i.toNat ≤ frostN ∧
    ∃ P, pubkeys[i.toNat - 1]? = some P ∧ verifyPartial cv msg p lambda rho R Y P = true

/-- What is checked of one signer. -/
theorem rowCheck_iff :
    (decide (p.signerIndex = i) &&
      match pubkeys[i.toNat - 1]? with
      | some P => decide (1 ≤ i.toNat) && decide (i.toNat ≤ frostN) &&
          verifyPartial cv msg p lambda rho R Y P
      | none => false) = true ↔ RowAccepted cv msg R Y pubkeys p i lambda rho := by
  unfold RowAccepted
  cases pubkeys[i.toNat - 1]? <;> simp [and_assoc]

/-- One coefficient for each index. -/
theorem computeLagrangeCoeffs_length (h : computeLagrangeCoeffs is = some lambdas) :
    lambdas.length = is.length := by
  unfold computeLagrangeCoeffs at h
  split_ifs at h
  obtain rfl := Option.some.inj h
  exact List.length_mapIdx ..

/-- `aggregate_signatures`, inverted. -/
theorem aggregateSignatures_eq_some {sig : FrostSignature} :
    aggregateSignatures cv msg is ps rhos Y pubkeys = some sig ↔
      frostT ≤ is.length ∧ is.length ≤ ps.length ∧ rhos.length = is.length ∧
        ∃ lambdas R, computeLagrangeCoeffs is = some lambdas ∧
          computeAggregateR cv ((ps.take is.length).map fun p => ⟨p.D, p.E⟩) rhos = some R ∧
          (∀ (k : ℕ) p i lambda rho, (ps.take is.length)[k]? = some p → is[k]? = some i →
            lambdas[k]? = some lambda → rhos[k]? = some rho →
            RowAccepted cv msg R Y pubkeys p i lambda rho) ∧
          sig = ⟨R, scalarPod ((ps.take is.length).map fun p => scalarOf ℓ p.sigShare).sum,
            msg⟩ := by
  unfold aggregateSignatures
  by_cases hshort : is.length < frostT ∨ ps.length < is.length ∨ rhos.length < is.length
  · rw [if_pos hshort]
    constructor
    · intro h
      cases h
    · omega
  rw [if_neg hshort]
  simp only [Option.bind_eq_bind, Option.bind_eq_some_iff, Option.ite_none_right_eq_some,
    Option.some.injEq, List.all_eq_true, List.mem_range]
  constructor
  · rintro ⟨lambdas, hl, R, hR, hrows, rfl⟩
    have hlen := (computeAggregateR_eq_some.1 hR).1
    rw [List.length_map, List.length_take_of_le (by omega)] at hlen
    refine ⟨by omega, by omega, hlen.symm, lambdas, R, hl, hR,
      fun k p i lambda rho hp hi hla hr => ?_, rfl⟩
    have hk := hrows k (List.getElem?_eq_some_iff.1 hi).1
    rw [hp, hi, hla, hr] at hk
    exact rowCheck_iff.1 hk
  · rintro ⟨h1, h2, h3, lambdas, R, hl, hR, hrows, rfl⟩
    refine ⟨lambdas, hl, R, hR, fun k hk => ?_, rfl⟩
    have hlen := computeLagrangeCoeffs_length hl
    have hp := List.getElem?_eq_getElem (l := ps.take is.length) (i := k)
      (by rw [List.length_take_of_le h2]; exact hk)
    have hla := List.getElem?_eq_getElem (l := lambdas) (i := k) (by omega)
    have hr := List.getElem?_eq_getElem (l := rhos) (i := k) (by omega)
    rw [hp, List.getElem?_eq_getElem hk, hla, hr]
    exact rowCheck_iff.2 (hrows k _ _ _ _ hp (List.getElem?_eq_getElem hk) hla hr)

/-! ### The sum of the equations -/

/-- Valid partial signatures add up to the aggregate commitment and the challenge times the weighted
sum of the shares. -/
theorem sum_sigShares {c : ZMod ℓ} {key : UInt8 → ZMod ℓ} {terms : List G}
    (hi : is.length = ps.length) (hl : lambdas.length = ps.length) (hr : rhos.length = ps.length)
    (hterms : ((ps.map fun p => (⟨p.D, p.E⟩ : NonceEntry)).zip rhos).mapM
      (fun q => bindingPoint cv q.1 q.2) = some terms)
    (hrows : ∀ (k : ℕ) p i lambda rho, ps[k]? = some p → is[k]? = some i →
      lambdas[k]? = some lambda → rhos[k]? = some rho →
      ∃ T, bindingPoint cv ⟨p.D, p.E⟩ rho = some T ∧
        scalarOf ℓ p.sigShare • cv.base = T + (c * lambda) • key i • cv.base) :
    (ps.map fun p => scalarOf ℓ p.sigShare).sum • cv.base =
      terms.sum +
        (c * (List.zipWith (fun lambda i => lambda * key i) lambdas is).sum) • cv.base := by
  induction ps generalizing is lambdas rhos terms with
  | nil =>
    obtain rfl := List.length_eq_zero_iff.1 hl
    obtain rfl : [] = terms := by simpa using hterms
    simp
  | cons p ps ih =>
    obtain ⟨i, is, rfl⟩ := List.exists_cons_of_length_eq_add_one hi
    obtain ⟨lambda, lambdas, rfl⟩ := List.exists_cons_of_length_eq_add_one hl
    obtain ⟨rho, rhos, rfl⟩ := List.exists_cons_of_length_eq_add_one hr
    simp only [List.map_cons, List.zip_cons_cons, List.mapM_cons, Option.bind_eq_bind,
      Option.bind_eq_some_iff, Option.pure_def, Option.some.injEq] at hterms
    obtain ⟨T, hT, later, hlater, rfl⟩ := hterms
    have htail := ih (by simpa using hi) (by simpa using hl) (by simpa using hr) hlater
      fun k => hrows (k + 1)
    obtain ⟨T', hT', hhead⟩ := hrows 0 p i lambda rho rfl rfl rfl rfl
    obtain rfl : T = T' := Option.some.inj (hT.symm.trans hT')
    simp only [List.map_cons, List.sum_cons, List.zipWith_cons_cons, add_smul, htail, hhead,
      mul_add, mul_smul]
    abel

/-! ### An honest round -/

/-- The commitments of an honest signer are points. -/
theorem bindingPoint_nonceCommitments (hcv : PointsRoundTrip cv) (nonce : NoncePair ℓ)
    (rho : ZMod ℓ) :
    bindingPoint cv (nonceCommitments cv nonce) rho =
      some (nonce.hidingNonce • cv.base + rho • nonce.bindingNonce • cv.base) := by
  simp [bindingPoint, nonceCommitments, hcv _]

/-- Drawn nonces have an R. -/
theorem exists_computeAggregateR (hcv : PointsRoundTrip cv) (hlen : nonces.length = rhos.length)
    (hne : nonces ≠ []) :
    ∃ R, computeAggregateR cv (nonces.map (nonceCommitments cv)) rhos = some R := by
  have hterms : ∃ terms, ((nonces.map (nonceCommitments cv)).zip rhos).mapM
      (fun q => bindingPoint cv q.1 q.2) = some terms := by
    clear hlen hne
    induction nonces generalizing rhos with
    | nil => exact ⟨[], rfl⟩
    | cons n nonces ih =>
      cases rhos with
      | nil => exact ⟨[], rfl⟩
      | cons rho rhos =>
        obtain ⟨terms, h⟩ := @ih rhos
        rw [List.map_cons, List.zip_cons_cons, List.mapM_cons, bindingPoint_nonceCommitments hcv, h]
        exact ⟨_ :: terms, rfl⟩
  obtain ⟨terms, h⟩ := hterms
  exact ⟨_, computeAggregateR_eq_some.2 ⟨by simpa using hlen, by simpa using hne, terms, h, rfl⟩⟩

/-- The partial signatures of the signers of a list. -/
def signAll (cv : Curve ℓ G) (msg : Hash) (sk a1 a2 : ZMod ℓ) (R Y : PublicKey)
    (is : List UInt8) (nonces : List (NoncePair ℓ)) (lambdas rhos : List (ZMod ℓ)) :
    List PartialSignature :=
  ((is.zip nonces).zip (lambdas.zip rhos)).map fun q =>
    signPartial cv q.1.1 msg q.1.2 (secretShare sk a1 a2 (q.1.1.toNat : ZMod ℓ)) q.2.1 q.2.2 R Y

/-- An honest partial signature passes. -/
theorem verifyPartial_signPartial [NeZero ℓ] (hcv : PointsRoundTrip cv) (i : UInt8) (msg : Hash)
    (nonce : NoncePair ℓ) (share lambda rho : ZMod ℓ) (R Y : PublicKey) :
    verifyPartial cv msg (signPartial cv i msg nonce share lambda rho R Y) lambda rho R Y
      (cv.pointToBytes (share • cv.base)) = true := by
  refine (verifyPartial_iff hcv _).2 ⟨_, bindingPoint_nonceCommitments hcv nonce rho, ?_⟩
  simp only [signPartial, geScalarmultBase_scalarPod, add_smul, mul_smul]

/-- What one signer signs. -/
theorem signAll_getElem? {sk a1 a2 : ZMod ℓ} {k : ℕ}
    (hp : (signAll cv msg sk a1 a2 R Y is nonces lambdas rhos)[k]? = some p) (hi : is[k]? = some i)
    (hl : lambdas[k]? = some lambda) (hr : rhos[k]? = some rho) :
    ∃ nonce, nonces[k]? = some nonce ∧
      p = signPartial cv i msg nonce (secretShare sk a1 a2 (i.toNat : ZMod ℓ)) lambda rho R Y := by
  obtain ⟨⟨⟨i', nonce⟩, lambda', rho'⟩, hq, rfl⟩ :=
    Option.map_eq_some_iff.1 ((List.getElem?_map ..).symm.trans hp)
  obtain ⟨hin, hlr⟩ := List.getElem?_zip_eq_some.1 hq
  obtain ⟨hi', hn⟩ := List.getElem?_zip_eq_some.1 hin
  obtain ⟨hl', hr'⟩ := List.getElem?_zip_eq_some.1 hlr
  obtain rfl : i = i' := Option.some.inj (hi.symm.trans hi')
  obtain rfl : lambda = lambda' := Option.some.inj (hl.symm.trans hl')
  obtain rfl : rho = rho' := Option.some.inj (hr.symm.trans hr')
  exact ⟨nonce, hn, rfl⟩

/-- The commitments carried by the partial signatures are those of round 1. -/
theorem signAll_commitments {sk a1 a2 : ZMod ℓ} (hn : nonces.length = is.length)
    (hl : lambdas.length = is.length) (hr : rhos.length = is.length) :
    (signAll cv msg sk a1 a2 R Y is nonces lambdas rhos).map (fun p => (⟨p.D, p.E⟩ : NonceEntry)) =
      nonces.map (nonceCommitments cv) := by
  have hfst : ((is.zip nonces).zip (lambdas.zip rhos)).map Prod.fst = is.zip nonces :=
    List.map_fst_zip (by simp; omega)
  have hsnd : (is.zip nonces).map Prod.snd = nonces := List.map_snd_zip (by omega)
  rw [signAll, List.map_map]
  conv_rhs => rw [← hsnd, ← hfst, List.map_map, List.map_map]
  rfl

/-! ### Coefficients and shares -/

/-- The polynomial of a key package. -/
noncomputable def sharePolynomial (sk a1 a2 : ZMod ℓ) : Polynomial (ZMod ℓ) :=
  .C sk + .C a1 * .X + .C a2 * .X ^ 2

/-- Shares are values of the polynomial. -/
theorem eval_sharePolynomial (x : ZMod ℓ) :
    (sharePolynomial sk a1 a2).eval x = secretShare sk a1 a2 x := by
  simp [sharePolynomial, secretShare, sq]

/-- The polynomial has degree below three. -/
theorem degree_sharePolynomial : (sharePolynomial sk a1 a2).degree < (frostT : ℕ) := by
  have hle : (sharePolynomial sk a1 a2).degree ≤ (2 : ℕ) := by
    unfold sharePolynomial
    compute_degree!
  exact hle.trans_lt (by decide)

/-- The signers' points on the line. -/
def nodes (is : List UInt8) : List (ZMod ℓ) := is.map fun i => (i.toNat : ZMod ℓ)

/-- The weighted sum of the shares of an index list is the secret. -/
def Interpolates [Fact ℓ.Prime] (is : List UInt8) (sk a1 a2 : ZMod ℓ) : Prop :=
  interpolateAtZero (nodes is) (secretShare sk a1 a2) = sk

/-- The key of a signer in the package. -/
theorem frostKeygen_signerPublicKeys (h1 : 1 ≤ i.toNat) (hN : i.toNat ≤ frostN) :
    (frostKeygen cv sk a1 a2).signerPublicKeys[i.toNat - 1]? =
      some (cv.pointToBytes (secretShare sk a1 a2 (i.toNat : ZMod ℓ) • cv.base)) := by
  have hlt : i.toNat - 1 < frostN := by omega
  have hi : i.toNat - 1 + 1 = i.toNat := by omega
  rw [frostKeygen, List.map_map, List.getElem?_map, List.getElem?_range hlt]
  simp only [Function.comp_apply, Option.map_some, hi]

/-- Distinct indices are distinct nodes. -/
theorem nodes_nodup (hℓ : frostN < ℓ) (hnd : is.Nodup) (hr : ∀ i ∈ is, i.toNat ≤ frostN) :
    (nodes (ℓ := ℓ) is).Nodup := by
  refine hnd.map_on fun a ha b hb hab => ?_
  rw [ZMod.natCast_eq_natCast_iff', Nat.mod_eq_of_lt ((hr a ha).trans_lt hℓ),
    Nat.mod_eq_of_lt ((hr b hb).trans_lt hℓ)] at hab
  exact UInt8.toNat_inj.1 hab

/-- Coefficients are for indices in range. -/
theorem inRange_of_coeffs (h : computeLagrangeCoeffs is = some lambdas) :
    frostT ≤ is.length ∧ ∀ i ∈ is, 1 ≤ i.toNat ∧ i.toNat ≤ frostN := by
  unfold computeLagrangeCoeffs at h
  split_ifs at h with hshort hall
  exact ⟨by omega, by simpa using hall⟩

section Field

variable [hp : Fact ℓ.Prime]

variable {is : List UInt8} {sk a1 a2 : ZMod ℓ} {msg : Hash} {ps : List PartialSignature}
  {rhos : List (ZMod ℓ)} {sig : FrostSignature}

/-- The power `ℓ - 2` inverts, and sends zero to zero. -/
theorem scInvertModL_eq_inv (hℓ : frostN < ℓ) (a : ZMod ℓ) : scInvertModL a = a⁻¹ := by
  unfold frostN at hℓ
  unfold scInvertModL
  by_cases ha : a = 0
  · rw [ha, zero_pow (by omega), inv_zero]
  · refine eq_inv_of_mul_eq_one_left ?_
    rw [← pow_succ, show ℓ - 2 + 1 = ℓ - 1 by omega, ZMod.pow_card_sub_one_eq_one ha]

/-- The coefficient is the weight at zero. -/
theorem lagrangeCoeff_eq (hℓ : frostN < ℓ) (is : List UInt8) (k : ℕ) (i : UInt8) :
    lagrangeCoeff (ℓ := ℓ) is k i = weightAtZero (nodes is) k (i.toNat : ZMod ℓ) := by
  rw [lagrangeCoeff, weightAtZero, scInvertModL_eq_inv hℓ, nodes, List.eraseIdx_map, List.map_map,
    List.map_map]
  rfl

/-- The coefficients of `compute_lagrange_coeffs` weigh the shares as interpolation does. -/
theorem sum_coeffs (hℓ : frostN < ℓ) {lambdas : List (ZMod ℓ)}
    (h : computeLagrangeCoeffs is = some lambdas) (r : ZMod ℓ → ZMod ℓ) :
    (List.zipWith (fun lambda (i : UInt8) => lambda * r (i.toNat : ZMod ℓ)) lambdas is).sum =
      interpolateAtZero (nodes is) r := by
  unfold computeLagrangeCoeffs at h
  split_ifs at h
  obtain rfl := Option.some.inj h
  congr 1
  refine List.ext_getElem (by simp [nodes]) fun k hk hk' => ?_
  simp [lagrangeCoeff_eq hℓ, nodes]

/-- Three distinct indices in range interpolate. -/
theorem interpolates_of_nodup (hℓ : frostN < ℓ) (hnd : is.Nodup) (hr : ∀ i ∈ is, i.toNat ≤ frostN)
    (hlen : frostT ≤ is.length) (sk a1 a2 : ZMod ℓ) : Interpolates is sk a1 a2 := by
  have hdeg : (sharePolynomial sk a1 a2).degree < (nodes (ℓ := ℓ) is).length := by
    refine (degree_sharePolynomial sk a1 a2).trans_le ?_
    rw [nodes, List.length_map]
    exact_mod_cast hlen
  have h := interpolateAtZero_eq_eval (nodes_nodup hℓ hnd hr) hdeg
  simp only [eval_sharePolynomial] at h
  rw [Interpolates, h]
  simp [secretShare]

section Aggregate

variable (hℓ : frostN < ℓ) (hcv : PointsRoundTrip cv)
  (h : aggregateSignatures cv msg is ps rhos (frostKeygen cv sk a1 a2).groupPublicKey
    (frostKeygen cv sk a1 a2).signerPublicKeys = some sig) (hs : ∀ p ∈ ps, InRange p.sigShare)
include hℓ hcv h hs

/-- An accepted aggregate satisfies the Schnorr equation for the weighted sum of the shares. -/
theorem aggregate_equation :
    ∃ T, sig = ⟨cv.pointToBytes T, sig.z, msg⟩ ∧
      geScalarmultBase cv sig.z = T + (computeChallenge cv sig.R
        (frostKeygen cv sk a1 a2).groupPublicKey msg *
          interpolateAtZero (nodes is) (secretShare sk a1 a2)) • cv.base := by
  obtain ⟨-, hps, hrho, lambdas, R, hl, hR, hrows, rfl⟩ := aggregateSignatures_eq_some.1 h
  obtain ⟨-, -, terms, hterms, rfl⟩ := computeAggregateR_eq_some.1 hR
  refine ⟨terms.sum, rfl, ?_⟩
  have hlen : (ps.take is.length).length = is.length := List.length_take_of_le hps
  rw [← sum_coeffs hℓ hl, geScalarmultBase_scalarPod]
  refine sum_sigShares hlen.symm ((computeLagrangeCoeffs_length hl).trans hlen.symm)
    (hrho.trans hlen.symm) hterms fun k p i lambda rho hp hi hla hr => ?_
  obtain ⟨-, h1, hN, P, hP, hv⟩ := hrows k p i lambda rho hp hi hla hr
  rw [frostKeygen_signerPublicKeys sk a1 a2 h1 hN] at hP
  obtain rfl := Option.some.inj hP
  rw [← (hs p (List.mem_of_mem_take (List.mem_of_getElem? hp))).geScalarmultBase_eq]
  exact (verifyPartial_iff hcv _).1 hv

/-- Acceptance of an aggregate, as an equation between multiples of the base point. -/
theorem verifySignature_aggregate_iff :
    verifySignature cv sig (frostKeygen cv sk a1 a2).groupPublicKey = true ↔
      (computeChallenge cv sig.R (frostKeygen cv sk a1 a2).groupPublicKey msg *
        interpolateAtZero (nodes is) (secretShare sk a1 a2)) • cv.base =
      (computeChallenge cv sig.R (frostKeygen cv sk a1 a2).groupPublicKey msg * sk) • cv.base := by
  obtain ⟨T, hsig, hz⟩ := aggregate_equation hℓ hcv h hs
  have hR : sig.R = cv.pointToBytes T := congrArg FrostSignature.R hsig
  set Y := (frostKeygen cv sk a1 a2).groupPublicKey
  have hY : Y = cv.pointToBytes (sk • cv.base) := rfl
  rw [hsig, hY, verifySignature_iff hcv, ← hY, ← hR, hz, add_right_inj, mul_smul _ sk]

/-- An aggregate over an index list that interpolates verifies. -/
theorem verifySignature_of_interpolates (hi : Interpolates is sk a1 a2) :
    verifySignature cv sig (frostKeygen cv sk a1 a2).groupPublicKey = true := by
  rw [verifySignature_aggregate_iff hℓ hcv h hs, show interpolateAtZero _ _ = sk from hi]

end Aggregate

/-! ### Soundness -/

end Field

/-- Seven is prime. -/
theorem fact_prime_seven : Fact (Nat.Prime 7) := ⟨by decide⟩

attribute [local instance] fact_prime_seven

/-- The points of the sample curve round-trip. -/
theorem sevenCurve_pointsRoundTrip : PointsRoundTrip sevenCurve := by
  unfold PointsRoundTrip
  decide +kernel

/-- A package whose polynomial is constant, for the small curve. -/
def constantPackage : FrostKeyPackage 7 := frostKeygen sevenCurve 1 0 0

/-- Four partial signatures over an index list that names the first signer twice. -/
def repeatedPartials : List PartialSignature :=
  signAll sevenCurve (Pod32.single 5) 1 0 0 (sevenCurve.pointToBytes 4)
    constantPackage.groupPublicKey [1, 1, 2, 3] (List.replicate 4 ⟨1, 0⟩) [0, 0, 3, 3]
    [0, 0, 0, 0]

/-- Three partial signatures of distinct signers. -/
def distinctPartials : List PartialSignature :=
  signAll sevenCurve (Pod32.single 5) 1 0 0 (sevenCurve.pointToBytes 3)
    constantPackage.groupPublicKey [1, 2, 3] (List.replicate 3 ⟨1, 0⟩) [3, 4, 1] [0, 0, 0]

/-- The same with `9 * 2 ^ 252` added to each share. -/
def widePartials : List PartialSignature :=
  distinctPartials.map fun p =>
    { p with sigShare := ⟨leBytes 32 (ofLeBytes p.sigShare.data + 9 * 2 ^ 252), leBytes_length ..⟩ }

/-- **FROST completeness**, for every key package and every list of at least three distinct indices:
the round computes its data, every partial signature passes its check, and the aggregate
verifies. -/
theorem frost_complete [Fact ℓ.Prime] (hℓ : frostN < ℓ) (hcv : PointsRoundTrip cv)
    (sk a1 a2 : ZMod ℓ) {is : List UInt8} (hnd : is.Nodup)
    (hrange : ∀ i ∈ is, 1 ≤ i.toNat ∧ i.toNat ≤ frostN) (hlen : frostT ≤ is.length) (msg : Hash)
    {nonces : List (NoncePair ℓ)} (hn : nonces.length = is.length) :
    ∃ lambdas rhos R sig,
      let pkg := frostKeygen cv sk a1 a2
      let coms := nonces.map (nonceCommitments cv)
      let partials := signAll cv msg sk a1 a2 R pkg.groupPublicKey is nonces lambdas rhos
      computeLagrangeCoeffs is = some lambdas ∧
        computeBindingFactors cv is msg coms = some rhos ∧
        computeAggregateR cv coms rhos = some R ∧ partials.length = is.length ∧
        (∀ (k : ℕ) p i lambda rho P, partials[k]? = some p → is[k]? = some i →
          lambdas[k]? = some lambda → rhos[k]? = some rho →
          pkg.signerPublicKeys[i.toNat - 1]? = some P →
          verifyPartial cv msg p lambda rho R pkg.groupPublicKey P = true) ∧
        aggregateSignatures cv msg is partials rhos pkg.groupPublicKey pkg.signerPublicKeys =
          some sig ∧
        verifySignature cv sig pkg.groupPublicKey = true := by
  have hne : nonces ≠ [] := by
    rintro rfl
    rw [← hn, List.length_nil] at hlen
    exact absurd hlen (by decide)
  obtain ⟨lambdas, hl⟩ : ∃ lambdas, computeLagrangeCoeffs (ℓ := ℓ) is = some lambdas := by
    refine ⟨_, (if_neg (by omega)).trans (if_pos ?_)⟩
    simpa using hrange
  obtain ⟨rhos, hrho, hrlen⟩ : ∃ rhos, computeBindingFactors cv is msg
      (nonces.map (nonceCommitments cv)) = some rhos ∧ rhos.length = is.length :=
    ⟨_, if_neg (by rw [List.length_map]; omega), List.length_map _⟩
  obtain ⟨R, hR⟩ := exists_computeAggregateR hcv (hn.trans hrlen.symm) hne
  have hllen := computeLagrangeCoeffs_length hl
  set pkg := frostKeygen cv sk a1 a2
  set partials := signAll cv msg sk a1 a2 R pkg.groupPublicKey is nonces lambdas rhos with hpart
  have hplen : partials.length = is.length := by
    rw [hpart, signAll]
    simp
    omega
  have hverify : ∀ (k : ℕ) p i lambda rho P, partials[k]? = some p → is[k]? = some i →
      lambdas[k]? = some lambda → rhos[k]? = some rho →
      pkg.signerPublicKeys[i.toNat - 1]? = some P →
      verifyPartial cv msg p lambda rho R pkg.groupPublicKey P = true := by
    intro k p i lambda rho P hp hi hla hr hP
    obtain ⟨nonce, -, rfl⟩ := signAll_getElem? hp hi hla hr
    obtain ⟨h1, hN⟩ := hrange i (List.mem_of_getElem? hi)
    obtain rfl := Option.some.inj ((frostKeygen_signerPublicKeys sk a1 a2 h1 hN).symm.trans hP)
    exact verifyPartial_signPartial hcv ..
  have htake : partials.take is.length = partials := List.take_of_length_le hplen.le
  have hagg : aggregateSignatures cv msg is partials rhos pkg.groupPublicKey pkg.signerPublicKeys =
      some ⟨R, scalarPod (partials.map fun p => scalarOf ℓ p.sigShare).sum, msg⟩ := by
    refine aggregateSignatures_eq_some.2 ⟨hlen, hplen.ge, hrlen, lambdas, R, hl, ?_, ?_, ?_⟩
    · rw [htake, signAll_commitments hn hllen hrlen]
      exact hR
    · intro k p i lambda rho hp hi hla hr
      rw [htake] at hp
      obtain ⟨h1, hN⟩ := hrange i (List.mem_of_getElem? hi)
      have hP : pkg.signerPublicKeys[i.toNat - 1]? = _ :=
        frostKeygen_signerPublicKeys sk a1 a2 h1 hN
      refine ⟨?_, h1, hN, _, hP, hverify k p i lambda rho _ hp hi hla hr hP⟩
      obtain ⟨nonce, -, rfl⟩ := signAll_getElem? hp hi hla hr
      rfl
    · rw [htake]
  refine ⟨lambdas, rhos, R, _, hl, hrho, hR, hplen, hverify, hagg, ?_⟩
  have hshares : ∀ p ∈ partials, InRange p.sigShare := by
    intro p hp
    obtain ⟨q, -, rfl⟩ := List.mem_map.1 hp
    exact inRange_scalarPod cv _
  exact verifySignature_of_interpolates hℓ hcv hagg hshares
    (interpolates_of_nodup hℓ hnd (fun i hi => (hrange i hi).2) hlen sk a1 a2)

/-- Signers 3, 1, 5 with the polynomial `2 + x + 3 x²`. -/
theorem frost_complete_three :
    ∃ lambdas rhos R sig,
      let pkg := frostKeygen sevenCurve 2 1 3
      let coms := [⟨1, 2⟩, ⟨3, 4⟩, ⟨5, 6⟩].map (nonceCommitments sevenCurve)
      let partials := signAll sevenCurve Pod32.null 2 1 3 R pkg.groupPublicKey [3, 1, 5]
        [⟨1, 2⟩, ⟨3, 4⟩, ⟨5, 6⟩] lambdas rhos
      computeLagrangeCoeffs [3, 1, 5] = some lambdas ∧
        computeBindingFactors sevenCurve [3, 1, 5] Pod32.null coms = some rhos ∧
        computeAggregateR sevenCurve coms rhos = some R ∧ partials.length = 3 ∧
        (∀ (k : ℕ) p (i : UInt8) lambda rho P, partials[k]? = some p → [3, 1, 5][k]? = some i →
          lambdas[k]? = some lambda → rhos[k]? = some rho →
          pkg.signerPublicKeys[i.toNat - 1]? = some P →
          verifyPartial sevenCurve Pod32.null p lambda rho R pkg.groupPublicKey P = true) ∧
        aggregateSignatures sevenCurve Pod32.null [3, 1, 5] partials rhos pkg.groupPublicKey
          pkg.signerPublicKeys = some sig ∧
        verifySignature sevenCurve sig pkg.groupPublicKey = true :=
  frost_complete (by decide) sevenCurve_pointsRoundTrip 2 1 3 (by decide) (by simp [frostN])
    (by decide) Pod32.null rfl

end Mevacoin.Frost
