import Mevacoin.Template
import Mevacoin.Trust.PoolReceipts
import Mevacoin.Trust.StateRoot
import Mevacoin.Trust.TagLookup

/-!
# The state root in a block template

`create_block_template` takes the pool balance over all blocks that a scan finds,
`verify_mevatrust_state_root` up to the height of the block, which by then is itself on the chain.
-/

namespace Mevacoin.Trust

open Lib

/-! ### Tag `0xA7` -/

/-- `TX_EXTRA_TAG_MEVATRUST_STATE_ROOT`. -/
def stateRootTag : UInt8 := 0xA7

/-- `tx_extra_mevatrust_state_root`. -/
structure StateRoot where
  stateRoot : Hash
  poolBalance : UInt64 := 0
  height : UInt64 := 0
deriving DecidableEq

namespace StateRoot

/-- The archive form of the state root. -/
def codec : Codec StateRoot :=
  (Pod32.codec.prod <| Codec.varint64.prod Codec.varint64).imap
    (fun ⟨r, p, h⟩ => ⟨r, p, h⟩) (fun sr => (sr.stateRoot, sr.poolBalance, sr.height))

theorem codec_roundTrips : codec.RoundTrips fun _ => True := by
  have h := Pod32.codec_roundTrips.prod <|
    Codec.varint64_roundTrips.prod Codec.varint64_roundTrips
  intro sr _
  exact h.imap (fun _ => rfl) sr ⟨trivial, trivial, trivial⟩

theorem length_codec_write (sr : StateRoot) : (codec.write sr).length ≤ 0xFFFF := by
  have hp : (Codec.varint64.write sr.poolBalance).length ≤ 64 / 7 + 1 := writeVarint_length_le _ _
  have hh : (Codec.varint64.write sr.height).length ≤ 64 / 7 + 1 := writeVarint_length_le _ _
  change (Pod32.codec.write sr.stateRoot ++ (Codec.varint64.write sr.poolBalance ++
    Codec.varint64.write sr.height)).length ≤ _
  rw [List.length_append, List.length_append, Pod32.codec_write_length]
  omega

end StateRoot

/-- `parse_mevatrust_state_root_from_tx`. -/
def parseMevatrustStateRootFromTx (tx : Transaction) : Option StateRoot :=
  parseTagged StateRoot.codec stateRootTag tx

/-- `build_mevatrust_state_root_extra`. -/
def buildMevatrustStateRootExtra (sr : StateRoot) : Option Bytes :=
  packBlob stateRootTag (StateRoot.codec.write sr)

theorem buildMevatrustStateRootExtra_eq (sr : StateRoot) :
    buildMevatrustStateRootExtra sr = some (stateRootTag ::
      leBytes 2 (StateRoot.codec.write sr).length ++ StateRoot.codec.write sr) := by
  rw [buildMevatrustStateRootExtra, packBlob, if_neg (Nat.not_lt.mpr sr.length_codec_write)]

/-! ### Building and verifying -/

section

variable {F : Type} [FloatArith F]

/-- `verify_mevatrust_state_root`, with the flag `m_state_root_verification_enabled`. -/
def verifyMevatrustStateRoot (cr : Crypto) (enabled : Bool) (chain : ChainAccess) (s : Manager F)
    (b : Block) (height : UInt64) : Bool :=
  if enabled = false then true
  else
    match parseMevatrustStateRootFromTx b.minerTx.tx with
    | none => true
    | some sr =>
      if sr.height ≠ height then false
      else computeMevatrustStateRoot cr chain s height = sr.stateRoot

/-- The root that `create_block_template` commits to. -/
def templateRoot (cr : Crypto) (chain : ChainAccess) (s : Manager F) (height : UInt64) :
    StateRoot where
  stateRoot := computeMevatrustStateRoot cr chain s 0
  height := height

/-- `state_root_extra` of `create_block_template`, with verification enabled. -/
def templateRootExtra (cr : Crypto) (chain : ChainAccess) (s : Manager F) (height : UInt64) :
    Bytes :=
  (buildMevatrustStateRootExtra (templateRoot cr chain s height)).getD []

end

/-! ### The balance of the pool -/

/-- The chain with a block added. -/
def ChainAccess.push (chain : ChainAccess) (b : Block) : ChainAccess :=
  { chain with blocks := chain.blocks ++ [b] }

/-- **The balance below a new block is the balance before it was added.** -/
theorem computePoolBalanceFromChain_push {chain : ChainAccess} {height : UInt64}
    (hpos : 1 ≤ height) (htip : chain.blocks.length = height.toNat) (b : Block) :
    computePoolBalanceFromChain (chain.push b) height = computePoolBalanceFromChain chain 0 := by
  have hne : height ≠ 0 := by
    rintro rfl
    exact absurd hpos (by decide)
  have hscan : scannedBlocks (chain.push b) height = scannedBlocks chain 0 := by
    unfold scannedBlocks
    rw [if_neg hne, if_pos rfl, ← htip, ChainAccess.push, List.take_left' rfl, List.take_length]
  rw [computePoolBalanceFromChain_eq, computePoolBalanceFromChain_eq, hscan]

/-! ### Finding the root -/

/-- A field that a template puts in front of the state root: the transaction key, a nonce, a
snapshot or a manifest. -/
def ExtraField.IsFront : ExtraField → Prop
  | .standard (.pubKey _) => True
  | .standard (.nonce n) => n.length ≤ txExtraNonceMaxCount
  | .payload tag blob => (tag = 0xA2 ∨ tag = 0xAA) ∧ blob.length ≤ 0xFFFF
  | _ => False

/-- Such a field is passed over. -/
theorem ExtraField.IsFront.find_append {e : ExtraField} (h : e.IsFront) (rest : Bytes) :
    findMevatrustTag stateRootTag (e.write ++ rest) = findMevatrustTag stateRootTag rest := by
  match e, h with
  | .standard (.pubKey key), _ =>
    exact (TxExtraField.skippable (.inl ⟨key, rfl⟩)).find_append _ _
  | .standard (.nonce n), h =>
    exact (TxExtraField.skippable (.inr (.inl ⟨n, rfl, h⟩))).find_append _ _
  | .payload tag blob, ⟨htag, hlen⟩ =>
    have hmem : tag ∈ mevatrustTags := by rcases htag with rfl | rfl <;> decide
    have hne : tag ≠ stateRootTag := by rcases htag with rfl | rfl <;> decide
    rw [ExtraField.write_payload hlen]
    exact findMevatrustTag_passed hmem hne blob rest hlen

theorem findMevatrustTag_front {front : List ExtraField} (h : ∀ e ∈ front, e.IsFront)
    (rest : Bytes) :
    findMevatrustTag stateRootTag (writeExtra front ++ rest) =
      findMevatrustTag stateRootTag rest := by
  induction front with
  | nil => rfl
  | cons e front ih =>
    rw [List.forall_mem_cons] at h
    rw [writeExtra_cons, List.append_assoc, h.1.find_append, ih h.2]

section

variable {F : Type} [FloatArith F]

/-- **The root is found behind such fields**, whatever follows it. -/
theorem parse_templateRoot (cr : Crypto) (chain : ChainAccess) (s : Manager F) (height : UInt64)
    {front : List ExtraField} (hfront : ∀ e ∈ front, e.IsFront) {rest : Bytes} {tx : Transaction}
    (hextra : tx.extra = writeExtra front ++ (templateRootExtra cr chain s height ++ rest)) :
    parseMevatrustStateRootFromTx tx = some (templateRoot cr chain s height) := by
  refine parseTagged_packed StateRoot.codec_roundTrips trivial (by decide)
    (StateRoot.length_codec_write _) rest ?_
  rw [hextra, findMevatrustTag_front hfront, templateRootExtra, buildMevatrustStateRootExtra_eq,
    Option.getD_some]

/-- Registries that agree have one root, over a chain and over the chain with a block added. -/
theorem computeMevatrustStateRoot_push (cr : Crypto) {s s' : Manager F}
    (hnodes : s'.registry = s.registry) (hcircles : s'.circles = s.circles) {chain : ChainAccess}
    {height : UInt64} (hpos : 1 ≤ height) (htip : chain.blocks.length = height.toNat) (b : Block) :
    computeMevatrustStateRoot cr (chain.push b) s' height =
      computeMevatrustStateRoot cr chain s 0 := by
  unfold computeMevatrustStateRoot
  rw [hnodes, hcircles, computePoolBalanceFromChain_push hpos htip]

/-- A block that carries the root of the state passes. -/
theorem verifyMevatrustStateRoot_of_parse {cr : Crypto} (enabled : Bool) {chain : ChainAccess}
    {s : Manager F} {b : Block} {sr : StateRoot}
    (hparse : parseMevatrustStateRootFromTx b.minerTx.tx = some sr)
    (hroot : computeMevatrustStateRoot cr chain s sr.height = sr.stateRoot) :
    verifyMevatrustStateRoot cr enabled chain s b sr.height = true := by
  unfold verifyMevatrustStateRoot
  cases enabled with
  | false => rfl
  | true =>
    rw [hparse]
    dsimp only
    rw [if_neg (not_not_intro rfl)]
    exact decide_eq_true hroot

/-- **The root of a template verifies once the block is on the chain**, whatever stands behind it,
as long as the registries have not changed. -/
theorem template_root_verifies (cr : Crypto) (enabled : Bool) {s s' : Manager F}
    (hnodes : s'.registry = s.registry) (hcircles : s'.circles = s.circles) {chain : ChainAccess}
    {height : UInt64} (hpos : 1 ≤ height) (htip : chain.blocks.length = height.toNat)
    {front : List ExtraField} (hfront : ∀ e ∈ front, e.IsFront) {rest : Bytes} {b : Block}
    (hextra : b.minerTx.tx.extra =
      writeExtra front ++ (templateRootExtra cr chain s height ++ rest)) :
    verifyMevatrustStateRoot cr enabled (chain.push b) s' b height = true := by
  have hparse := parse_templateRoot cr chain s height hfront hextra
  have hroot := computeMevatrustStateRoot_push cr hnodes hcircles hpos htip b
  exact verifyMevatrustStateRoot_of_parse enabled hparse hroot

end

/-- What stands in front of the root in a small template. -/
def sampleFront : List ExtraField :=
  [.standard (.pubKey (Pod32.single 3)), .standard (.nonce [1, 2, 3]), .payload 0xAA [5]]

/-- A block at height 15 with a root, and three zeros behind it. -/
def rootedBlock : Block where
  minerTx := { tx := { extra := writeExtra sampleFront ++
    (templateRootExtra sevenCurve.crypto (chainOf contributingTx) earlyState 15 ++ [0, 0, 0]) } }

/-- Its root verifies on top of fifteen blocks that have paid the pool. -/
theorem rootedBlock_verifies :
    computePoolBalanceFromChain (chainOf contributingTx) 0 = 300 ∧
      verifyMevatrustStateRoot sevenCurve.crypto true ((chainOf contributingTx).push rootedBlock)
        earlyState rootedBlock 15 = true := by
  have hfront : ∀ e ∈ sampleFront, e.IsFront := by
    intro e he
    simp only [sampleFront, List.mem_cons, List.not_mem_nil, or_false] at he
    rcases he with rfl | rfl | rfl
    · trivial
    · exact (by decide : 3 ≤ 255)
    · exact ⟨Or.inr rfl, by decide⟩
  exact ⟨by decide +kernel, template_root_verifies sevenCurve.crypto true rfl rfl (by decide)
    (by decide +kernel) hfront rfl⟩

end Mevacoin.Trust
