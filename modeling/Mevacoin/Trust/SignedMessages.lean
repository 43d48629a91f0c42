import Mevacoin.Lib.Layouts
import Mevacoin.Trust.Store

/-!
# What a signed message tells

The message hashes of `mevatrust_tx_parser.h` append the strings of a payload without their lengths.
-/

namespace Mevacoin.Trust

open Lib

/-! ### Parts -/

/-- The octets tell a key. -/
theorem data_inj {a b : Pod32} : a.data = b.data ↔ a = b :=
  ⟨Pod32.ext, congrArg Pod32.data⟩

/-- The octets tell a word. -/
theorem leBytes_toNat_inj {a b : UInt64} : leBytes 8 a.toNat = leBytes 8 b.toNat ↔ a = b :=
  ⟨fun h => UInt64.toNat_inj.mp (leBytes_inj a.toNat_lt b.toNat_lt h), fun h => by rw [h]⟩

/-- The octet tells a flag. -/
theorem boolOctet_inj {a b : Bool} : boolOctet a = boolOctet b ↔ a = b := by
  cases a <;> cases b <;> decide

/-- The pattern tells a signed word. -/
theorem toUInt64_inj {a b : Int64} : a.toUInt64 = b.toUInt64 ↔ a = b := by
  cases a
  cases b
  simp

/-- All octets of the part are zero. -/
def AllZero (part : Bytes) : Prop := ∀ b ∈ part, b = 0

/-- The null key is zeros. -/
theorem allZero_null : AllZero Pod32.null.data := fun _ h => List.eq_of_mem_replicate h

/-- Zeros are zeros. -/
theorem allZero_replicate (n : ℕ) : AllZero (List.replicate n 0) :=
  fun _ h => List.eq_of_mem_replicate h

/-- The zero octet is zeros. -/
theorem allZero_octet : AllZero [0] := fun _ h => List.mem_singleton.mp h

/-- The octet of `false` is zeros. -/
theorem allZero_boolOctet : AllZero [boolOctet false] := allZero_octet

/-- The octets of the number zero. -/
theorem allZero_leBytes : AllZero (leBytes 8 (0 : UInt64).toNat) := allZero_replicate 8

/-! ### Store operations -/

/-- What `store_message_hash` appends. -/
def storeParts (s : StoreOp) : List Bytes :=
  [[s.op], s.storeId.data, s.itemId.data, s.name, s.description, s.url, leBytes 8 s.price.toNat,
    leBytes 8 s.quantity.toNat, s.category, s.paymentAddress, [boolOctet s.euroEnabled],
    s.euroDetails, [s.mvcPercent], [s.euroPercent], s.paymentMode, s.buyerPaymentMethod, s.euroRef,
    leBytes 8 s.euroAmount.toNat, s.sellerPubkey.data, s.cancelReason,
    leBytes 8 s.confirmExpiryHeight.toNat]

/-- The lengths of its strings. -/
def storeLengths (s : StoreOp) : List ℕ :=
  [s.name, s.description, s.url, s.category, s.paymentAddress, s.euroDetails, s.paymentMode,
    s.buyerPaymentMethod, s.euroRef, s.cancelReason].map List.length

/-- The two agree on every field that the message covers. -/
@[mk_iff]
structure StoreOp.SameSigned (s t : StoreOp) : Prop where
  op : s.op = t.op
  storeId : s.storeId = t.storeId
  itemId : s.itemId = t.itemId
  name : s.name = t.name
  description : s.description = t.description
  url : s.url = t.url
  price : s.price = t.price
  quantity : s.quantity = t.quantity
  category : s.category = t.category
  paymentAddress : s.paymentAddress = t.paymentAddress
  euroEnabled : s.euroEnabled = t.euroEnabled
  euroDetails : s.euroDetails = t.euroDetails
  mvcPercent : s.mvcPercent = t.mvcPercent
  euroPercent : s.euroPercent = t.euroPercent
  paymentMode : s.paymentMode = t.paymentMode
  buyerPaymentMethod : s.buyerPaymentMethod = t.buyerPaymentMethod
  euroRef : s.euroRef = t.euroRef
  euroAmount : s.euroAmount = t.euroAmount
  sellerPubkey : s.sellerPubkey = t.sellerPubkey
  cancelReason : s.cancelReason = t.cancelReason
  confirmExpiryHeight : s.confirmExpiryHeight = t.confirmExpiryHeight

/-- The parts tell what a store operation signs. -/
theorem storeParts_eq_iff {s t : StoreOp} : storeParts s = storeParts t ↔ s.SameSigned t := by
  rw [StoreOp.sameSigned_iff]
  simp only [storeParts, List.cons.injEq, data_inj, leBytes_toNat_inj, boolOctet_inj, and_true]

/-- The operation with every octet zero. -/
def StoreOp.blank (s : StoreOp) : StoreOp where
  op := 0
  storeId := Pod32.null
  itemId := Pod32.null
  name := List.replicate s.name.length 0
  description := List.replicate s.description.length 0
  url := List.replicate s.url.length 0
  price := 0
  quantity := 0
  category := List.replicate s.category.length 0
  metadata := s.metadata
  paymentAddress := List.replicate s.paymentAddress.length 0
  ownerPubkey := s.ownerPubkey
  ownerSig := s.ownerSig
  buyerPubkey := s.buyerPubkey
  euroEnabled := false
  euroDetails := List.replicate s.euroDetails.length 0
  mvcPercent := 0
  euroPercent := 0
  paymentMode := List.replicate s.paymentMode.length 0
  buyerPaymentMethod := List.replicate s.buyerPaymentMethod.length 0
  euroRef := List.replicate s.euroRef.length 0
  euroAmount := 0
  sellerPubkey := Pod32.null
  sellerSig := s.sellerSig
  cancelReason := List.replicate s.cancelReason.length 0
  confirmExpiryHeight := 0

/-- The message of `store_message_hash`. -/
def storeLayout : Layout StoreOp where
  parts := storeParts
  lengths := storeLengths
  fixed := 132
  blank := StoreOp.blank
  sizes_eq {s t} h := by
    simp only [storeLengths, List.map_cons, List.map_nil, List.cons.injEq, and_true] at h
    simp [storeParts, h, Pod32.size_eq]
  length_parts s := by
    simp only [storeParts, storeLengths, List.length_flatten, List.map_cons, List.map_nil,
      List.sum_cons, List.sum_nil, Pod32.size_eq, leBytes_length, List.length_singleton]
    omega
  lengths_of_parts {s t} h := by
    obtain h := storeParts_eq_iff.mp h
    simp [storeLengths, h.name, h.description, h.url, h.category, h.paymentAddress, h.euroDetails,
      h.paymentMode, h.buyerPaymentMethod, h.euroRef, h.cancelReason]
  lengths_blank s := by simp [storeLengths, StoreOp.blank]
  blank_zero s := by
    show ∀ part ∈ storeParts s.blank, AllZero part
    simp only [storeParts, StoreOp.blank, List.forall_mem_cons, allZero_null, allZero_replicate,
      allZero_octet, allZero_boolOctet, allZero_leBytes, List.not_mem_nil, true_and, false_imp_iff,
      implies_true]

/-- The hash of a store operation is of its layout. -/
theorem storeMessageHash_eq (cr : Crypto) (s : StoreOp) :
    storeMessageHash cr s = cr.cnFastHash (storeLayout.message s) := by
  simp [storeMessageHash, Layout.message, storeLayout, storeParts]

/-! ### Penalties -/

/-- What `penalty_message_hash` appends. -/
def penaltyParts (p : Penalty) : List Bytes :=
  [[p.opType], p.nodeId.data, p.offenseType, leBytes 8 p.amount.toUInt64.toNat, p.reason]

/-- The two agree on every field that the message covers. -/
@[mk_iff]
structure Penalty.SameSigned (p q : Penalty) : Prop where
  opType : p.opType = q.opType
  nodeId : p.nodeId = q.nodeId
  offenseType : p.offenseType = q.offenseType
  amount : p.amount = q.amount
  reason : p.reason = q.reason

/-- The parts tell what a penalty signs. -/
theorem penaltyParts_eq_iff {p q : Penalty} : penaltyParts p = penaltyParts q ↔ p.SameSigned q := by
  rw [Penalty.sameSigned_iff]
  simp only [penaltyParts, List.cons.injEq, data_inj, leBytes_toNat_inj, toUInt64_inj, and_true]

/-- The penalty with every octet zero. -/
def Penalty.blank (p : Penalty) : Penalty where
  opType := 0
  nodeId := Pod32.null
  offenseType := List.replicate p.offenseType.length 0
  amount := ⟨0⟩
  reason := List.replicate p.reason.length 0
  signerPubkey := p.signerPubkey
  signature := p.signature

/-- The message of `penalty_message_hash`. -/
def penaltyLayout : Layout Penalty where
  parts := penaltyParts
  lengths p := [p.offenseType.length, p.reason.length]
  fixed := 41
  blank := Penalty.blank
  sizes_eq {p q} h := by
    simp only [List.cons.injEq, and_true] at h
    simp [penaltyParts, h, Pod32.size_eq]
  length_parts p := by
    simp only [penaltyParts, List.length_flatten, List.map_cons, List.map_nil, List.sum_cons,
      List.sum_nil, Pod32.size_eq, leBytes_length, List.length_singleton]
    omega
  lengths_of_parts {p q} h := by
    have h := penaltyParts_eq_iff.mp h
    rw [h.offenseType, h.reason]
  lengths_blank p := by simp [Penalty.blank]
  blank_zero p := by
    show ∀ part ∈ penaltyParts p.blank, AllZero part
    simp only [penaltyParts, Penalty.blank, List.forall_mem_cons, allZero_null, allZero_replicate,
      allZero_octet, allZero_leBytes, List.not_mem_nil, true_and, false_imp_iff, implies_true]

/-- The hash of a penalty is of its layout. -/
theorem penaltyMessageHash_eq (cr : Crypto) (p : Penalty) :
    penaltyMessageHash cr p = cr.cnFastHash (penaltyLayout.message p) := by
  simp [penaltyMessageHash, Layout.message, penaltyLayout, penaltyParts]

/-! ### Circle operations and votes -/

/-- What `circle_message_hash` appends. -/
def circleParts (c : CircleOp) : List Bytes :=
  [[c.opType], c.circleId.data, c.targetPubkey.data, c.circleName]

/-- The two agree on every field that the message covers. -/
@[mk_iff]
structure CircleOp.SameSigned (c d : CircleOp) : Prop where
  opType : c.opType = d.opType
  circleId : c.circleId = d.circleId
  targetPubkey : c.targetPubkey = d.targetPubkey
  circleName : c.circleName = d.circleName

/-- The parts tell what a circle operation signs. -/
theorem circleParts_eq_iff {c d : CircleOp} : circleParts c = circleParts d ↔ c.SameSigned d := by
  rw [CircleOp.sameSigned_iff]
  simp only [circleParts, List.cons.injEq, data_inj, and_true]

/-- The message of `circle_message_hash`. -/
def circleLayout : Layout CircleOp where
  parts := circleParts
  lengths c := [c.circleName.length]
  fixed := 65
  blank c :=
    { c with
      opType := 0
      circleId := Pod32.null
      targetPubkey := Pod32.null
      circleName := List.replicate c.circleName.length 0 }
  sizes_eq {c d} h := by
    simp only [List.cons.injEq, and_true] at h
    simp [circleParts, h, Pod32.size_eq]
  length_parts c := by
    simp only [circleParts, List.length_flatten, List.map_cons, List.map_nil, List.sum_cons,
      List.sum_nil, Pod32.size_eq, List.length_singleton]
    omega
  lengths_of_parts {c d} h := by rw [(circleParts_eq_iff.mp h).circleName]
  lengths_blank c := by simp
  blank_zero c := by
    show ∀ part ∈ circleParts _, AllZero part
    simp only [circleParts, List.forall_mem_cons, allZero_null, allZero_replicate, allZero_octet,
      List.not_mem_nil, true_and, false_imp_iff, implies_true]

/-- The hash of a circle operation is of its layout. -/
theorem circleMessageHash_eq (cr : Crypto) (c : CircleOp) :
    circleMessageHash cr c.circleId c.opType c.targetPubkey c.circleName =
      cr.cnFastHash (circleLayout.message c) := by
  simp [circleMessageHash, Layout.message, circleLayout, circleParts]

/-- What `circle_vote_message_hash` appends. -/
def circleVoteParts (v : CircleVote) : List Bytes :=
  [[v.opType], v.proposalId.data, v.circleId.data, v.targetPubkey.data, [boolOctet v.voteYes],
    v.reason]

/-- The two agree on every field that the message covers. -/
@[mk_iff]
structure CircleVote.SameSigned (v w : CircleVote) : Prop where
  opType : v.opType = w.opType
  proposalId : v.proposalId = w.proposalId
  circleId : v.circleId = w.circleId
  targetPubkey : v.targetPubkey = w.targetPubkey
  voteYes : v.voteYes = w.voteYes
  reason : v.reason = w.reason

/-- The parts tell what a vote signs. -/
theorem circleVoteParts_eq_iff {v w : CircleVote} :
    circleVoteParts v = circleVoteParts w ↔ v.SameSigned w := by
  rw [CircleVote.sameSigned_iff]
  simp only [circleVoteParts, List.cons.injEq, data_inj, boolOctet_inj, and_true]

/-- The message of `circle_vote_message_hash`. -/
def circleVoteLayout : Layout CircleVote where
  parts := circleVoteParts
  lengths v := [v.reason.length]
  fixed := 98
  blank v :=
    { v with
      opType := 0
      proposalId := Pod32.null
      circleId := Pod32.null
      targetPubkey := Pod32.null
      voteYes := false
      reason := List.replicate v.reason.length 0 }
  sizes_eq {v w} h := by
    simp only [List.cons.injEq, and_true] at h
    simp [circleVoteParts, h, Pod32.size_eq]
  length_parts v := by
    simp only [circleVoteParts, List.length_flatten, List.map_cons, List.map_nil, List.sum_cons,
      List.sum_nil, Pod32.size_eq, List.length_singleton]
    omega
  lengths_of_parts {v w} h := by rw [(circleVoteParts_eq_iff.mp h).reason]
  lengths_blank v := by simp
  blank_zero v := by
    show ∀ part ∈ circleVoteParts _, AllZero part
    simp only [circleVoteParts, List.forall_mem_cons, allZero_null, allZero_replicate,
      allZero_octet, allZero_boolOctet, List.not_mem_nil, true_and, false_imp_iff, implies_true]

/-- The hash of a vote is of its layout. -/
theorem circleVoteMessageHash_eq (cr : Crypto) (v : CircleVote) :
    circleVoteMessageHash cr v = cr.cnFastHash (circleVoteLayout.message v) := by
  simp [circleVoteMessageHash, Layout.message, circleVoteLayout, circleVoteParts]

/-! ### Results -/

/-- **Which messages tell what was signed.**  For two store operations, and for two penalties, the
octets determine the fields exactly if the strings have the same lengths field by field or differ in
their total length.  The octets of two circle operations and of two votes always do. -/
theorem messages_tell_iff (s t : StoreOp) (p q : Penalty) (c d : CircleOp) (v w : CircleVote) :
    ((∀ s' t', storeLengths s' = storeLengths s → storeLengths t' = storeLengths t →
        storeLayout.message s' = storeLayout.message t' → s'.SameSigned t') ↔
      LengthsTell (storeLengths s) (storeLengths t)) ∧
    ((∀ p' q', penaltyLayout.lengths p' = penaltyLayout.lengths p →
        penaltyLayout.lengths q' = penaltyLayout.lengths q →
        penaltyLayout.message p' = penaltyLayout.message q' → p'.SameSigned q') ↔
      LengthsTell (penaltyLayout.lengths p) (penaltyLayout.lengths q)) ∧
    (circleLayout.message c = circleLayout.message d → c.SameSigned d) ∧
    (circleVoteLayout.message v = circleVoteLayout.message w → v.SameSigned w) := by
  refine ⟨?_, ?_, fun h => ?_, fun h => ?_⟩
  · simp only [← storeParts_eq_iff]
    exact Layout.told_apart_iff (L := storeLayout) s t
  · simp only [← penaltyParts_eq_iff]
    exact Layout.told_apart_iff (L := penaltyLayout) p q
  · exact circleParts_eq_iff.mp (Layout.parts_eq_of_message_eq (L := circleLayout)
      (lengthsTell_singleton _ _) h)
  · exact circleVoteParts_eq_iff.mp (Layout.parts_eq_of_message_eq (L := circleVoteLayout)
      (lengthsTell_singleton _ _) h)

/-- An item listed in a shop. -/
def listedLamp (url : Bytes) (price quantity : UInt64) (category : Bytes) : StoreOp where
  op := 2
  storeId := Pod32.single 1
  itemId := Pod32.single 2
  name := asciiBytes "lamp"
  description := []
  url := url
  price := price
  quantity := quantity
  category := category
  metadata := []
  paymentAddress := []
  ownerPubkey := Pod32.single 3
  ownerSig := ⟨Pod32.null, Pod32.null⟩
  buyerPubkey := Pod32.null
  euroEnabled := false
  euroDetails := []
  mvcPercent := 100
  euroPercent := 0
  paymentMode := []
  buyerPaymentMethod := []
  euroRef := []
  euroAmount := 0
  sellerPubkey := Pod32.null
  sellerSig := ⟨Pod32.null, Pod32.null⟩
  cancelReason := []
  confirmExpiryHeight := 0

/-- Ten lamps for 5000 each. -/
def signedLamp : StoreOp := listedLamp [] 5000 10 (asciiBytes "lighting")

/-- The same octets, shifted: the price in the place of the address, the quantity in that of the
price. -/
def cheapLamp : StoreOp :=
  listedLamp (leBytes 8 5000) 10 (UInt64.ofNat (ofLeBytes (asciiBytes "lighting"))) []

/-- A penalty for an offense. -/
def penaltyOf (offense : Bytes) (amount : UInt64) (reason : Bytes) : Penalty where
  opType := 0
  nodeId := Pod32.single 1
  offenseType := offense
  amount := ⟨amount⟩
  reason := reason
  signerPubkey := Pod32.single 2
  signature := ⟨Pod32.null, Pod32.null⟩

/-- The signature holds at a five-hundredth of the price, and a penalty of 5 is turned into one of
999. -/
theorem shifted_fields_share_message :
    storeLayout.message signedLamp = storeLayout.message cheapLamp ∧
      signedLamp.price = 5000 ∧ cheapLamp.price = 10 ∧
      (∀ cr, verifyStoreSignature cr cheapLamp = verifyStoreSignature cr signedLamp) ∧
      penaltyLayout.message (penaltyOf [] 5 (leBytes 8 999)) =
        penaltyLayout.message (penaltyOf (leBytes 8 5) 999 []) := by
  have hmessage : storeLayout.message signedLamp = storeLayout.message cheapLamp := by
    decide +kernel
  refine ⟨hmessage, rfl, rfl, fun cr => ?_, by decide +kernel⟩
  unfold verifyStoreSignature
  rfl

end Mevacoin.Trust
