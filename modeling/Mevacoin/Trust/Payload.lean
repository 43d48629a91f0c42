import Mevacoin.TxExtra

/-!
# MevaTrust payloads in `tx.extra`

`src/cryptonote_core/mevatrust/mevatrust_tx_parser.cpp` walks the extra field on its own: MevaTrust
tags are followed by a two-octet length, every other tag by a varint length, padding and the public
key apart.
-/

namespace Mevacoin.Trust

open Lib

/-! ### Finding a payload -/

/-- The thirteen MevaTrust tags, `0xA0` to `0xAC`. -/
def mevatrustTags : List UInt8 :=
  [0xA0, 0xA1, 0xA2, 0xA3, 0xA4, 0xA5, 0xA6, 0xA7, 0xA8, 0xA9, 0xAA, 0xAB, 0xAC]

/-- The length of a field with any other tag.  Nine octets with the continuation bit are refused. -/
def skipLength : ℕ → Bytes → Option (ℕ × Bytes)
  | 0, _ => none
  | _ + 1, [] => some (0, [])
  | k + 1, b :: rest =>
    if b.toNat < 128 then some (b.toNat, rest)
    else (skipLength k rest).map fun r => (b.toNat - 128 + 128 * r.1, r.2)

/-- What one round of the walk gives. -/
inductive TagStep where
  | found (blob : Bytes)
  | next (rest : Bytes)
  | stop
deriving DecidableEq

/-- One round of `find_mevatrust_tag`. -/
def tagStep (target : UInt8) : Bytes → TagStep
  | [] => .stop
  | tag :: rest =>
    if tag = 0x00 then .next (rest.dropWhile (· = 0))
    else if tag = 0x01 then if rest.length < 32 then .stop else .next (rest.drop 32)
    else if tag ∈ mevatrustTags then
      if rest.length < 2 then .stop
      else
        let len := ofLeBytes (rest.take 2)
        let body := rest.drop 2
        if body.length < len then .stop
        else if tag = target then .found (body.take len)
        else .next (body.drop len)
    else if rest = [] then .stop
    else
      match skipLength 9 rest with
      | none => .stop
      | some (len, body) => if body.length < len then .stop else .next (body.drop len)

/-- The loop of `find_mevatrust_tag`, for a bounded number of rounds. -/
def tagWalk (target : UInt8) : ℕ → Bytes → Option Bytes
  | 0, _ => none
  | n + 1, extra =>
    match tagStep target extra with
    | .found blob => some blob
    | .next rest => tagWalk target n rest
    | .stop => none

/-- `find_mevatrust_tag`.  Every round takes at least the tag, so the length of the buffer
bounds the rounds. -/
def findMevatrustTag (target : UInt8) (extra : Bytes) : Option Bytes :=
  tagWalk target extra.length extra

variable {b : Bytes} {t : UInt8} {blob : Bytes} {tag : UInt8}

theorem skipLength_length_le {k v : ℕ} {rest : Bytes} (h : skipLength k b = some (v, rest)) :
    rest.length ≤ b.length := by
  induction k generalizing v b with
  | zero => simp [skipLength] at h
  | succ k ih =>
    cases b with
    | nil =>
      obtain ⟨-, rfl⟩ : 0 = v ∧ [] = rest := by simpa [skipLength] using h
      simp
    | cons o b =>
      unfold skipLength at h
      split_ifs at h
      · obtain ⟨-, rfl⟩ : o.toNat = v ∧ b = rest := by simpa using h
        simp
      · obtain ⟨⟨w, r⟩, hr, hw⟩ := Option.map_eq_some_iff.1 h
        obtain ⟨-, rfl⟩ : o.toNat - 128 + 128 * w = v ∧ r = rest := by simpa using hw
        have := ih hr
        rw [List.length_cons]
        omega

/-- A round that goes on has consumed something. -/
theorem tagStep_next_length {rest : Bytes} (h : tagStep t b = .next rest) :
    rest.length < b.length := by
  cases b with
  | nil => simp [tagStep] at h
  | cons tag b =>
    rw [List.length_cons]
    simp only [tagStep] at h
    split_ifs at h with h0 h1 h2 h3 h4 h5 h6 h7
    · obtain rfl := TagStep.next.inj h
      have := (List.dropWhile_sublist (l := b) (fun x => decide (x = 0))).length_le
      omega
    · obtain rfl := TagStep.next.inj h
      simp only [List.length_drop]
      omega
    · obtain rfl := TagStep.next.inj h
      simp only [List.length_drop]
      omega
    · split at h
      · simp at h
      · next len body hs =>
        split_ifs at h
        obtain rfl := TagStep.next.inj h
        have := skipLength_length_le hs
        simp only [List.length_drop]
        omega

/-- The walk does not depend on the bound once it covers the buffer. -/
theorem tagWalk_eq {n m : ℕ} (hn : b.length ≤ n) (hm : b.length ≤ m) :
    tagWalk t n b = tagWalk t m b := by
  induction n generalizing m b with
  | zero =>
    obtain rfl : b = [] := List.length_eq_zero_iff.1 (by omega)
    cases m <;> simp [tagWalk, tagStep]
  | succ n ih =>
    cases m with
    | zero =>
      obtain rfl : b = [] := List.length_eq_zero_iff.1 (by omega)
      simp [tagWalk, tagStep]
    | succ m =>
      simp only [tagWalk]
      cases hs : tagStep t b with
      | found | stop => rfl
      | next rest =>
        have := tagStep_next_length hs
        exact ih (by omega) (by omega)

/-- A field that is not the one looked for is skipped. -/
theorem findMevatrustTag_next {rest : Bytes} (h : tagStep t b = .next rest) :
    findMevatrustTag t b = findMevatrustTag t rest := by
  have hlt := tagStep_next_length h
  obtain ⟨n, hn⟩ : ∃ n, b.length = n + 1 := ⟨b.length - 1, by omega⟩
  rw [findMevatrustTag, hn, tagWalk, h]
  exact tagWalk_eq (by omega) le_rfl

theorem findMevatrustTag_found (h : tagStep t b = .found blob) :
    findMevatrustTag t b = some blob := by
  have hne : b ≠ [] := by rintro rfl; simp [tagStep] at h
  obtain ⟨n, hn⟩ : ∃ n, b.length = n + 1 :=
    ⟨b.length - 1, by have := List.length_pos_iff.2 hne; omega⟩
  rw [findMevatrustTag, hn, tagWalk, h]

theorem tagStep_found_length (h : tagStep t b = .found blob) : blob.length ≤ 0xFFFF := by
  cases b with
  | nil => simp [tagStep] at h
  | cons tag b =>
    simp only [tagStep] at h
    split_ifs at h with h0 h1 h2 h3 h4 h5 h6 h7
    · obtain rfl := TagStep.found.inj h
      have hlen := ofLeBytes_lt (b.take 2)
      rw [List.length_take_of_le (by omega)] at hlen
      simp only [List.length_take]
      omega
    · split at h
      · simp at h
      · split_ifs at h

/-- A payload is never longer than its two-octet length can say. -/
theorem findMevatrustTag_length (h : findMevatrustTag t b = some blob) : blob.length ≤ 0xFFFF := by
  unfold findMevatrustTag at h
  generalize b.length = n at h
  induction n generalizing b with
  | zero => simp [tagWalk] at h
  | succ n ih =>
    rw [tagWalk] at h
    cases hs : tagStep t b with
    | found blob' =>
      obtain rfl : blob' = blob := by simpa [hs] using h
      exact tagStep_found_length hs
    | stop => simp [hs] at h
    | next rest => exact ih (by simpa [hs] using h)

@[simp] theorem findMevatrustTag_nil (t : UInt8) : findMevatrustTag t [] = none := rfl

/-- The public key field is skipped. -/
theorem findMevatrustTag_pubKey (t : UInt8) (key : PublicKey) (rest : Bytes) :
    findMevatrustTag t (addTxPubKeyToExtra [] key ++ rest) = findMevatrustTag t rest := by
  apply findMevatrustTag_next
  simp [addTxPubKeyToExtra, tagStep, key.size_eq]

/-- A nonce of less than 128 octets is skipped. -/
theorem findMevatrustTag_nonce (t : UInt8) {nonce : Bytes} (hn : nonce.length < 128)
    (rest : Bytes) :
    findMevatrustTag t (0x02 :: UInt8.ofNat nonce.length :: nonce ++ rest) =
      findMevatrustTag t rest := by
  apply findMevatrustTag_next
  have hb : (UInt8.ofNat nonce.length).toNat = nonce.length := by
    rw [UInt8.toNat_ofNat']; omega
  simp [tagStep, mevatrustTags, skipLength, hb, hn]

/-! ### Packing and parsing -/

/-- `pack_blob`: the tag, a two-octet length and the blob. -/
def packBlob (tag : UInt8) (blob : Bytes) : Option Bytes :=
  if 0xFFFF < blob.length then none else some (tag :: leBytes 2 blob.length ++ blob)

/-- `parse_tagged`. -/
def parseTagged {α : Type} (c : Codec α) (tag : UInt8) (tx : Transaction) : Option α :=
  (findMevatrustTag tag tx.extra).bind c.parse

/-- A round at a payload: it is the one looked for, or the walk goes on behind it. -/
theorem tagStep_packed (htag : tag ∈ mevatrustTags) (blob rest : Bytes)
    (hlen : blob.length ≤ 0xFFFF) :
    tagStep t (tag :: leBytes 2 blob.length ++ blob ++ rest) =
      if tag = t then .found blob else .next rest := by
  have h0 : tag ≠ 0x00 := by rintro rfl; revert htag; decide
  have h1 : tag ≠ 0x01 := by rintro rfl; revert htag; decide
  have htake : (leBytes 2 blob.length ++ (blob ++ rest)).take 2 = leBytes 2 blob.length :=
    List.take_left' (by simp)
  have hdrop : (leBytes 2 blob.length ++ (blob ++ rest)).drop 2 = blob ++ rest :=
    List.drop_left' (by simp)
  have hval : ofLeBytes (leBytes 2 blob.length) = blob.length := by
    rw [ofLeBytes_leBytes]
    exact Nat.mod_eq_of_lt (by omega)
  rw [List.cons_append, List.cons_append, List.append_assoc, tagStep, if_neg h0, if_neg h1,
    if_pos htag, if_neg (by rw [List.length_append, leBytes_length]; omega), htake, hdrop, hval]
  simp

/-- A packed blob in front is found. -/
theorem findMevatrustTag_packed (ht : t ∈ mevatrustTags) (blob rest : Bytes)
    (hlen : blob.length ≤ 0xFFFF) :
    findMevatrustTag t (t :: leBytes 2 blob.length ++ blob ++ rest) = some blob := by
  apply findMevatrustTag_found
  rw [tagStep_packed ht blob rest hlen, if_pos rfl]

/-- A payload with another tag is skipped. -/
theorem findMevatrustTag_passed (htag : tag ∈ mevatrustTags) (hne : tag ≠ t) (blob rest : Bytes)
    (hlen : blob.length ≤ 0xFFFF) :
    findMevatrustTag t (tag :: leBytes 2 blob.length ++ blob ++ rest) =
      findMevatrustTag t rest := by
  apply findMevatrustTag_next
  rw [tagStep_packed htag blob rest hlen, if_neg hne]

/-- A payload that the walk comes to reads back. -/
theorem parseTagged_packed {α : Type} {c : Codec α} {P : α → Prop} (hc : c.RoundTrips P) {a : α}
    (ha : P a) (ht : t ∈ mevatrustTags) (hsize : (c.write a).length ≤ 0xFFFF) {tx : Transaction}
    (rest : Bytes) (hwalk : findMevatrustTag t tx.extra =
      findMevatrustTag t (t :: leBytes 2 (c.write a).length ++ c.write a ++ rest)) :
    parseTagged c t tx = some a := by
  rw [parseTagged, hwalk, findMevatrustTag_packed ht _ _ hsize]
  exact hc.parse_write ha

/-! ### The payout manifest, tag `0xAA` -/

/-- `TX_EXTRA_TAG_MEVATRUST_POOL_DISTRIBUTION`. -/
def poolDistributionTag : UInt8 := 0xAA

/-- `tx_extra_mevatrust_pool_distribution`. -/
structure PoolDistribution where
  height : UInt64 := 0
  period : UInt32 := 0
  totalPoolBalance : UInt64 := 0
  totalDistributed : UInt64 := 0
  outputs : List (PublicKey × UInt64) := []
  frostR : Pod32 := Pod32.null
  frostZ : Pod32 := Pod32.null
deriving DecidableEq

namespace PoolDistribution

/-- The archive form of the output list. -/
def outputsCodec : Codec (List (PublicKey × UInt64)) := (Pod32.codec.pair Codec.varint64).list

/-- The archive form of the manifest. -/
def codec : Codec PoolDistribution :=
  (Codec.varint64.prod <| Codec.varint32.prod <| Codec.varint64.prod <| Codec.varint64.prod <|
      outputsCodec.prod <| Pod32.codec.prod Pod32.codec).imap
    (fun ⟨h, p, b, t, o, r, z⟩ => ⟨h, p, b, t, o, r, z⟩)
    (fun d => (d.height, d.period, d.totalPoolBalance, d.totalDistributed, d.outputs, d.frostR,
      d.frostZ))

theorem outputsCodec_roundTrips : outputsCodec.RoundTrips (·.length < 2 ^ 64) := by
  have hpair := Pod32.codec_roundTrips.pair Codec.varint64_roundTrips
  have hlist := hpair.list fun a _ =>
    List.append_ne_nil_of_left_ne_nil (writeVarint_ne_nil _ _) _
  intro l hl
  exact hlist l ⟨hl, fun _ _ => ⟨trivial, trivial⟩⟩

/-- **A manifest reads back as it was written.** -/
theorem codec_roundTrips : codec.RoundTrips (·.outputs.length < 2 ^ 64) := by
  have h := Codec.varint64_roundTrips.prod <| Codec.varint32_roundTrips.prod <|
    Codec.varint64_roundTrips.prod <| Codec.varint64_roundTrips.prod <|
    outputsCodec_roundTrips.prod <| Pod32.codec_roundTrips.prod Pod32.codec_roundTrips
  intro d hd
  exact h.imap (fun _ => rfl) d ⟨trivial, trivial, trivial, trivial, hd, trivial, trivial⟩

theorem outputsCodec_beforeEnd : outputsCodec.ExactBeforeEnd :=
  (Pod32.codec_strict.exact.beforeEnd.pair Codec.varint64_beforeEnd).list

/-- **A manifest that reads is the one that was written**: it does not end in a number. -/
theorem codec_strict : codec.Strict := by
  have h := Codec.varint64_beforeEnd.prod_strict <| Codec.varint32_beforeEnd.prod_strict <|
    Codec.varint64_beforeEnd.prod_strict <| Codec.varint64_beforeEnd.prod_strict <|
    outputsCodec_beforeEnd.prod_strict <|
    Pod32.codec_strict.exact.beforeEnd.prod_strict Pod32.codec_strict
  exact h.imap fun _ => rfl

/-- The octets of one entry: the pair count, the key and the amount. -/
def entrySize (o : PublicKey × UInt64) : ℕ := 33 + varintSize o.2.toNat

/-- The octets of a manifest. -/
def size (d : PoolDistribution) : ℕ :=
  varintSize d.height.toNat + varintSize d.period.toNat + varintSize d.totalPoolBalance.toNat +
    varintSize d.totalDistributed.toNat + varintSize d.outputs.length +
    (d.outputs.map entrySize).sum + 64

theorem outputsCodec_write_length {l : List (PublicKey × UInt64)} (h : l.length < 2 ^ 64) :
    (outputsCodec.write l).length = varintSize l.length + (l.map entrySize).sum := by
  have hn : (UInt64.ofNat l.length).toNat = l.length := by simpa using h
  have htwo : (Codec.varint64.write 2).length = 1 := by decide
  have hentry : ∀ o, ((Pod32.codec.pair Codec.varint64).write o).length = entrySize o := by
    intro o
    rw [entrySize, Codec.pair, Codec.prod, List.length_append, List.length_append, htwo,
      Pod32.codec_write_length, Codec.varint64_write_length]
    omega
  rw [outputsCodec, Codec.list, List.length_append, Codec.varint64_write_length, hn,
    List.length_flatMap]
  simp only [hentry]

/-- The writer spends at least an octet on each entry. -/
theorem outputs_length_le_write (d : PoolDistribution) :
    d.outputs.length ≤ (codec.write d).length := by
  have hne : ∀ o ∈ d.outputs, (Pod32.codec.pair Codec.varint64).write o ≠ [] := fun o _ =>
    List.append_ne_nil_of_left_ne_nil (writeVarint_ne_nil _ _) _
  have hle := Codec.length_le_flatMap_write hne
  have hout : (d.outputs.flatMap (Pod32.codec.pair Codec.varint64).write).length ≤
      (outputsCodec.write d.outputs).length := by
    rw [outputsCodec, Codec.list, List.length_append]
    exact Nat.le_add_left _ _
  simp only [codec, Codec.imap, Codec.prod, List.length_append]
  omega

theorem codec_write_length {d : PoolDistribution} (h : d.outputs.length < 2 ^ 64) :
    (codec.write d).length = d.size := by
  simp only [codec, Codec.imap, Codec.prod, List.length_append, Codec.varint64_write_length,
    Codec.varint32_write_length, outputsCodec_write_length h, Pod32.codec_write_length, size]
  omega

end PoolDistribution

end Mevacoin.Trust
