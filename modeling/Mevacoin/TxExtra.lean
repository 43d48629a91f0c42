import Mevacoin.Lib.Archive
import Mevacoin.Transaction

/-!
# The fields of `tx.extra`

`tx_extra_field` (`src/cryptonote_basic/tx_extra.h`) and the functions of
`cryptonote_format_utils.cpp` that read, sort and extend the field.  A MevaTrust tag stops
`parse_tx_extra`.
-/

namespace Mevacoin

open Lib

/-- The archive form of a 32-octet value. -/
def Pod32.codec : Codec Pod32 :=
  (Codec.blob 32).imap (fun b => ⟨b.1, b.2⟩) (fun p => ⟨p.data, p.size_eq⟩)

/-- Pods round-trip. -/
theorem Pod32.codec_roundTrips : Pod32.codec.RoundTrips fun _ => True :=
  fun p _ => (Codec.blob_roundTrips 32).imap (fun _ => rfl) p trivial

/-- A pod is read in one way. -/
theorem Pod32.codec_strict : Pod32.codec.Strict :=
  (Codec.blob_strict (by decide)).imap fun _ => rfl

/-- A pod takes 32 octets. -/
@[simp] theorem Pod32.codec_write_length (p : Pod32) : (Pod32.codec.write p).length = 32 :=
  p.size_eq

/-- The archive form of a signature. -/
def Signature.codec : Codec Signature :=
  (Pod32.codec.prod Pod32.codec).imap (fun x => ⟨x.1, x.2⟩) (fun s => (s.c, s.r))

/-- `governance_signature`. -/
structure GovernanceSignature where
  signerKey : PublicKey
  sig : Signature
deriving DecidableEq

/-- The archive form of a governance signature. -/
def GovernanceSignature.codec : Codec GovernanceSignature :=
  (Pod32.codec.prod Signature.codec).imap (fun x => ⟨x.1, x.2⟩) (fun s => (s.signerKey, s.sig))

/-- `tx_extra_governance_transfer`, tag `0xB0`. -/
structure GovernanceTransfer where
  amount : UInt64
  recipientSpend : PublicKey
  recipientView : PublicKey
  signatures : List GovernanceSignature
deriving DecidableEq

/-- `tx_extra_governance_add_signer`, tag `0xB1`. -/
structure GovernanceAddSigner where
  newSignerKey : PublicKey
  signatures : List GovernanceSignature
deriving DecidableEq

/-- `tx_extra_governance_remove_signer`, tag `0xB2`. -/
structure GovernanceRemoveSigner where
  signerIndex : UInt64
  signatures : List GovernanceSignature
deriving DecidableEq

/-- `tx_extra_network_fund_transfer`, tag `0xC0`. -/
structure NetworkFundTransfer where
  amount : UInt64
  recipientSpend : PublicKey
  recipientView : PublicKey
deriving DecidableEq

/-- The fields of tag `0xB0`. -/
def GovernanceTransfer.codec : Codec GovernanceTransfer :=
  (Codec.varint64.prod <| Pod32.codec.prod <| Pod32.codec.prod GovernanceSignature.codec.list).imap
    (fun ⟨a, s, v, l⟩ => ⟨a, s, v, l⟩)
    (fun t => (t.amount, t.recipientSpend, t.recipientView, t.signatures))

/-- The fields of tag `0xB1`. -/
def GovernanceAddSigner.codec : Codec GovernanceAddSigner :=
  (Pod32.codec.prod GovernanceSignature.codec.list).imap
    (fun ⟨k, l⟩ => ⟨k, l⟩) (fun t => (t.newSignerKey, t.signatures))

/-- The fields of tag `0xB2`. -/
def GovernanceRemoveSigner.codec : Codec GovernanceRemoveSigner :=
  (Codec.varint64.prod GovernanceSignature.codec.list).imap
    (fun ⟨i, l⟩ => ⟨i, l⟩) (fun t => (t.signerIndex, t.signatures))

/-- The fields of tag `0xC0`. -/
def NetworkFundTransfer.codec : Codec NetworkFundTransfer :=
  (Codec.varint64.prod <| Pod32.codec.prod Pod32.codec).imap
    (fun ⟨a, s, v⟩ => ⟨a, s, v⟩) (fun t => (t.amount, t.recipientSpend, t.recipientView))

/-- `tx_extra_field`. -/
inductive TxExtraField where
  | padding (size : ℕ)
  | pubKey (key : PublicKey)
  | nonce (nonce : Bytes)
  | mergeMining (depth : UInt64) (merkleRoot : Hash)
  | additionalPubKeys (data : List PublicKey)
  | mysteriousMinergate (data : Bytes)
  | governanceTransfer (t : GovernanceTransfer)
  | governanceAddSigner (t : GovernanceAddSigner)
  | governanceRemoveSigner (t : GovernanceRemoveSigner)
  | networkFundTransfer (t : NetworkFundTransfer)
deriving DecidableEq

/-- `TX_EXTRA_PADDING_MAX_COUNT`. -/
def txExtraPaddingMaxCount : ℕ := 255

/-- `TX_EXTRA_NONCE_MAX_COUNT`. -/
def txExtraNonceMaxCount : ℕ := 255

namespace TxExtraField

/-- The body of a merge mining field. -/
def mergeMiningCodec : Codec (UInt64 × Hash) := Codec.varint64.prod Pod32.codec

/-- `VARIANT_TAG`. -/
def tag : TxExtraField → UInt8
  | .padding _ => 0x00
  | .pubKey _ => 0x01
  | .nonce _ => 0x02
  | .mergeMining _ _ => 0x03
  | .additionalPubKeys _ => 0x04
  | .mysteriousMinergate _ => 0xDE
  | .governanceTransfer _ => 0xB0
  | .governanceAddSigner _ => 0xB1
  | .governanceRemoveSigner _ => 0xB2
  | .networkFundTransfer _ => 0xC0

/-- A field without its tag. -/
def writeBody : TxExtraField → Bytes
  | .padding size => List.replicate (size - 1) 0
  | .pubKey key => Pod32.codec.write key
  | .nonce n => Codec.str.write n
  | .mergeMining depth root => Codec.str.write (mergeMiningCodec.write (depth, root))
  | .additionalPubKeys data => Pod32.codec.list.write data
  | .mysteriousMinergate data => Codec.str.write data
  | .governanceTransfer t => GovernanceTransfer.codec.write t
  | .governanceAddSigner t => GovernanceAddSigner.codec.write t
  | .governanceRemoveSigner t => GovernanceRemoveSigner.codec.write t
  | .networkFundTransfer t => NetworkFundTransfer.codec.write t

/-- A field with its tag. -/
def write (f : TxExtraField) : Bytes := f.tag :: f.writeBody

/-- Padding runs to the end of the buffer. -/
def readPadding (b : Bytes) : Option (TxExtraField × Bytes) :=
  if b.all (· = 0) ∧ b.length < txExtraPaddingMaxCount then some (.padding (b.length + 1), [])
  else none

/-- A nonce is a string of bounded length. -/
def readNonce (b : Bytes) : Option (TxExtraField × Bytes) := do
  let (n, b) ← Codec.str.read b
  if txExtraNonceMaxCount < n.length then none else return (.nonce n, b)

/-- A merge mining field is a string that holds exactly a depth and a root. -/
def readMergeMining (b : Bytes) : Option (TxExtraField × Bytes) := do
  let (field, b) ← Codec.str.read b
  let (depth, root) ← mergeMiningCodec.parse field
  return (.mergeMining depth root, b)

/-- Read with an archive form and wrap the value. -/
def readWith {α : Type} (c : Codec α) (wrap : α → TxExtraField) (b : Bytes) :
    Option (TxExtraField × Bytes) :=
  (c.read b).map fun r => (wrap r.1, r.2)

/-- `do_serialize` of the variant: the tag selects the reader. -/
def read : Bytes → Option (TxExtraField × Bytes)
  | [] => none
  | t :: b =>
    if t = 0x00 then readPadding b
    else if t = 0x01 then readWith Pod32.codec .pubKey b
    else if t = 0x02 then readNonce b
    else if t = 0x03 then readMergeMining b
    else if t = 0x04 then readWith Pod32.codec.list .additionalPubKeys b
    else if t = 0xDE then readWith Codec.str .mysteriousMinergate b
    else if t = 0xB0 then readWith GovernanceTransfer.codec .governanceTransfer b
    else if t = 0xB1 then readWith GovernanceAddSigner.codec .governanceAddSigner b
    else if t = 0xB2 then readWith GovernanceRemoveSigner.codec .governanceRemoveSigner b
    else if t = 0xC0 then readWith NetworkFundTransfer.codec .networkFundTransfer b
    else none

end TxExtraField

/-- The loop of `parse_tx_extra`: the fields read, and whether the buffer was used up. -/
def parseFields : ℕ → Bytes → List TxExtraField × Bool
  | 0, _ => ([], false)
  | n + 1, b =>
    match TxExtraField.read b with
    | none => ([], false)
    | some (f, []) => ([f], true)
    | some (f, rest) =>
      let later := parseFields n rest
      (f :: later.1, later.2)

variable {n : ℕ} {b : Bytes} {f : TxExtraField} (key : PublicKey) {nonce : Bytes}

/-- The last field. -/
theorem parseFields_of_last (h : TxExtraField.read b = some (f, [])) :
    parseFields (n + 1) b = ([f], true) := by
  rw [parseFields, h]

/-- A field before others. -/
theorem parseFields_of_more {o : UInt8} {rest : Bytes}
    (h : TxExtraField.read b = some (f, o :: rest)) :
    parseFields (n + 1) b =
      (f :: (parseFields n (o :: rest)).1, (parseFields n (o :: rest)).2) := by
  rw [parseFields, h]

/-- A field that does not parse. -/
theorem parseFields_of_fail (h : TxExtraField.read b = none) :
    parseFields (n + 1) b = ([], false) := by
  rw [parseFields, h]

/-- `parse_tx_extra`: the fields and the result.  The length of the buffer bounds the rounds. -/
def parseTxExtra (extra : Bytes) : List TxExtraField × Bool :=
  if extra = [] then ([], true) else parseFields extra.length extra

/-- The order in which `sort_tx_extra` picks the fields. -/
def sortOrder : List UInt8 := [0x01, 0x04, 0x02, 0x03, 0xDE, 0x00, 0xB0, 0xB1, 0xB2, 0xC0]

/-- `sort_tx_extra` without `allow_partial`. -/
def sortTxExtra (extra : Bytes) : Option Bytes :=
  match parseTxExtra extra with
  | (fields, true) =>
    some (sortOrder.flatMap fun t => (fields.filter (·.tag = t)).flatMap TxExtraField.write)
  | (_, false) => none

/-- `add_tx_pub_key_to_extra`: the key goes in front. -/
def addTxPubKeyToExtra (extra : Bytes) (key : PublicKey) : Bytes := 0x01 :: key.data ++ extra

/-- `add_extra_nonce_to_tx_extra`: the length is one octet, not a varint. -/
def addExtraNonceToTxExtra (extra nonce : Bytes) : Option Bytes :=
  if txExtraNonceMaxCount < nonce.length then none
  else some (extra ++ 0x02 :: UInt8.ofNat nonce.length :: nonce)

/-- A public key field in front, then whatever follows. -/
theorem TxExtraField.read_pubKey (rest : Bytes) :
    TxExtraField.read (0x01 :: key.data ++ rest) = some (.pubKey key, rest) := by
  have hk : Pod32.codec.read (key.data ++ rest) = some (key, rest) :=
    Pod32.codec_roundTrips key trivial rest
  simp [TxExtraField.read, TxExtraField.readWith, hk]

/-- The extra field of a coinbase that has a key and no nonce is already sorted. -/
theorem sortTxExtra_pubKey :
    sortTxExtra (addTxPubKeyToExtra [] key) = some (addTxPubKeyToExtra [] key) := by
  have hr : TxExtraField.read (addTxPubKeyToExtra [] key) = some (.pubKey key, []) :=
    TxExtraField.read_pubKey key []
  have hp : parseTxExtra (addTxPubKeyToExtra [] key) = ([.pubKey key], true) := by
    rw [parseTxExtra, if_neg (by simp [addTxPubKeyToExtra]),
      show (addTxPubKeyToExtra [] key).length = 32 + 1 by simp [addTxPubKeyToExtra, key.size_eq],
      parseFields_of_last hr]
  rw [sortTxExtra, hp]
  simp [sortOrder, TxExtraField.tag, TxExtraField.write, TxExtraField.writeBody, Pod32.codec,
    Codec.imap, Codec.blob, addTxPubKeyToExtra]

/-- A nonce of less than 128 octets keeps the field sorted. -/
theorem sortTxExtra_pubKey_nonce (hn : nonce.length < 128) :
    sortTxExtra (addTxPubKeyToExtra [] key ++ 0x02 :: UInt8.ofNat nonce.length :: nonce) =
      some (addTxPubKeyToExtra [] key ++ 0x02 :: UInt8.ofNat nonce.length :: nonce) := by
  set tail : Bytes := 0x02 :: UInt8.ofNat nonce.length :: nonce with htail
  have hr : TxExtraField.read (addTxPubKeyToExtra [] key ++ tail) = some (.pubKey key, tail) := by
    simpa [addTxPubKeyToExtra] using TxExtraField.read_pubKey key tail
  have hs : Codec.str.read (UInt8.ofNat nonce.length :: nonce) = some (nonce, []) := by
    have := Codec.str_roundTrips nonce (by omega) []
    rwa [List.append_nil, Codec.str_write_of_lt hn] at this
  have ht : TxExtraField.read tail = some (.nonce nonce, []) := by
    have hmax : ¬ txExtraNonceMaxCount < nonce.length := by unfold txExtraNonceMaxCount; omega
    simp [htail, TxExtraField.read, TxExtraField.readNonce, hs, hmax]
  have hp : parseTxExtra (addTxPubKeyToExtra [] key ++ tail) =
      ([.pubKey key, .nonce nonce], true) := by
    rw [parseTxExtra, if_neg (by simp [addTxPubKeyToExtra]),
      show (addTxPubKeyToExtra [] key ++ tail).length = (33 + nonce.length + 1) + 1 by
        simp [addTxPubKeyToExtra, key.size_eq, htail]; omega,
      parseFields_of_more hr, parseFields_of_last ht]
  rw [sortTxExtra, hp]
  simp [sortOrder, TxExtraField.tag, TxExtraField.write, TxExtraField.writeBody, Pod32.codec,
    Codec.imap, Codec.blob, addTxPubKeyToExtra, Codec.str_write_of_lt hn, htail]

/-- A longer nonce is written with a one-octet length that reads as the start of a varint,
so sorting fails. -/
theorem sortTxExtra_long_nonce (hlow : 128 ≤ nonce.length) (hhigh : nonce.length < 256) :
    sortTxExtra (addTxPubKeyToExtra [] key ++ 0x02 :: UInt8.ofNat nonce.length :: nonce) =
      none := by
  set tail : Bytes := 0x02 :: UInt8.ofNat nonce.length :: nonce with htail
  have hr : TxExtraField.read (addTxPubKeyToExtra [] key ++ tail) = some (.pubKey key, tail) := by
    simpa [addTxPubKeyToExtra] using TxExtraField.read_pubKey key tail
  have ht : TxExtraField.read tail = none := by
    simp [htail, TxExtraField.read, TxExtraField.readNonce, Codec.str_read_eq_none hlow hhigh]
  have hp : parseTxExtra (addTxPubKeyToExtra [] key ++ tail) = ([.pubKey key], false) := by
    rw [parseTxExtra, if_neg (by simp [addTxPubKeyToExtra]),
      show (addTxPubKeyToExtra [] key ++ tail).length = (33 + nonce.length + 1) + 1 by
        simp [addTxPubKeyToExtra, key.size_eq, htail]; omega,
      parseFields_of_more hr, parseFields_of_fail ht]
  rw [sortTxExtra, hp]

end Mevacoin
