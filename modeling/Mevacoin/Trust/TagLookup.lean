import Mevacoin.Trust.Payload

/-!
# What `find_mevatrust_tag` steps over

What `find_mevatrust_tag` (`mevatrust_tx_parser.cpp`) makes of the fields that `tx_extra.h` writes:

| field | after the tag | read by the walk as |
| --- | --- | --- |
| `0x02`, `0x03`, `0xDE` | length, octets | length, octets |
| `0x04` | number of keys, 32 octets each | length, octets |
| `0xB0`, `0xB2`, `0xC0` | amount or index, keys, signatures | length, octets |
| `0xB1` | a key, signatures | length, octets |
-/

namespace Mevacoin.Trust

open Lib

/-! ### Extra fields as lists of fields -/

/-- A field of `tx.extra`: one of the variant, or a payload written by `pack_blob`. -/
inductive ExtraField where
  | standard (f : TxExtraField)
  | payload (tag : UInt8) (blob : Bytes)
deriving DecidableEq

namespace ExtraField

/-- The octets of a field. -/
def write : ExtraField → Bytes
  | .standard f => f.write
  | .payload tag blob => (packBlob tag blob).getD []

/-- Whether the field is padding. -/
def isPadding : ExtraField → Bool
  | .standard (.padding _) => true
  | _ => false

/-- The variant reads the field back, or `pack_blob` wrote it for one of its tags. -/
def WellFormed : ExtraField → Prop
  | .standard f => TxExtraField.read f.write = some (f, [])
  | .payload tag blob => tag ∈ mevatrustTags ∧ blob.length ≤ 0xFFFF

instance (e : ExtraField) : Decidable e.WellFormed := by
  cases e <;> (unfold WellFormed; infer_instance)

/-- The octets of a payload. -/
theorem write_payload {tag : UInt8} {blob : Bytes} (h : blob.length ≤ 0xFFFF) :
    (payload tag blob).write = tag :: leBytes 2 blob.length ++ blob := by
  rw [write, packBlob, if_neg (by omega), Option.getD_some]

end ExtraField

variable {fs : List ExtraField} {n : ℕ} {len rest : Bytes} {k : ℕ} (t : UInt8) {tag : UInt8}
  {b : Bytes}

/-- An extra field made of well-formed fields, padding at the end only. -/
structure WellFormedExtra (fs : List ExtraField) : Prop where
  fields : ∀ e ∈ fs, e.WellFormed
  padding : ∀ e ∈ fs.dropLast, e.isPadding = false

instance (fs : List ExtraField) : Decidable (WellFormedExtra fs) :=
  decidable_of_iff ((∀ e ∈ fs, e.WellFormed) ∧ ∀ e ∈ fs.dropLast, e.isPadding = false)
    ⟨fun h => ⟨h.1, h.2⟩, fun h => ⟨h.1, h.2⟩⟩

/-- The octets of an extra field. -/
def writeExtra (fs : List ExtraField) : Bytes := fs.flatMap ExtraField.write

/-- The blob of the first field with a tag. -/
def firstPayload (t : UInt8) : List ExtraField → Option Bytes
  | [] => none
  | .standard _ :: fs => firstPayload t fs
  | .payload tag blob :: fs => if tag = t then some blob else firstPayload t fs

/-- The lookup is exact on every extra field whose standard fields are from `K`. -/
def LookupExact (K : Set TxExtraField) : Prop :=
  ∀ fs, WellFormedExtra fs → (∀ f, .standard f ∈ fs → f ∈ K) →
    ∀ t ∈ mevatrustTags, findMevatrustTag t (writeExtra fs) = firstPayload t fs

@[simp] theorem writeExtra_nil : writeExtra [] = [] := rfl

@[simp] theorem writeExtra_cons (e : ExtraField) (fs : List ExtraField) :
    writeExtra (e :: fs) = e.write ++ writeExtra fs := rfl

theorem WellFormedExtra.tail {e : ExtraField} (h : WellFormedExtra (e :: fs)) :
    WellFormedExtra fs := by
  refine ⟨fun x hx => h.fields x (List.mem_cons_of_mem _ hx), fun x hx => h.padding x ?_⟩
  cases fs with
  | nil => simp at hx
  | cons y fs => exact List.mem_cons_of_mem _ hx

/-- Padding comes last. -/
theorem WellFormedExtra.eq_nil_of_padding (h : WellFormedExtra (.standard (.padding n) :: fs)) :
    fs = [] := by
  cases fs with
  | nil => rfl
  | cons e fs => exact absurd (h.padding _ (List.mem_cons_self ..)) (by simp [ExtraField.isPadding])

/-! ### The units of the walk -/

/-- A number in groups of seven bits, low group first, the high bit set on all octets but
the last. -/
inductive Varint : Bytes → ℕ → Prop where
  | last {o : UInt8} (h : o.toNat < 128) : Varint [o] o.toNat
  | more {o : UInt8} {l : Bytes} {n : ℕ} (h : 128 ≤ o.toNat) (tail : Varint l n) :
      Varint (o :: l) (o.toNat - 128 + 128 * n)

/-- A run of zero octets, public keys, and fields with a varint length of nine octets at
most. -/
inductive Skippable : Bytes → Prop where
  | nil : Skippable []
  | zero {rest : Bytes} (h : Skippable rest) : Skippable (0x00 :: rest)
  | key {key rest : Bytes} (size : key.length = 32) (h : Skippable rest) :
      Skippable (0x01 :: (key ++ rest))
  | field {tag : UInt8} {len body rest : Bytes} (zero : tag ≠ 0x00) (key : tag ≠ 0x01)
      (other : tag ∉ mevatrustTags) (varint : Varint len body.length) (short : len.length ≤ 9)
      (h : Skippable rest) : Skippable (tag :: (len ++ (body ++ rest)))

theorem Varint.ne_nil (h : Varint len n) : len ≠ [] := by
  rintro rfl
  cases h

/-- A length is read over. -/
theorem Varint.skipLength_eq (h : Varint len n) (hk : len.length ≤ k) :
    skipLength k (len ++ rest) = some (n, rest) := by
  induction h generalizing k with
  | last ho =>
    obtain ⟨k, rfl⟩ : ∃ m, k = m + 1 := ⟨k - 1, by simp at hk; omega⟩
    simp [skipLength, ho]
  | more ho _ ih =>
    obtain ⟨k, rfl⟩ : ∃ m, k = m + 1 := ⟨k - 1, by simp at hk; omega⟩
    have hr := ih (k := k) (by simpa using hk)
    simp [skipLength, Nat.not_lt.2 ho, hr]

/-- The varint of the archive is one. -/
theorem varint_writeVarint (hn : n < 128 ^ (k + 1)) : Varint (writeVarint k n) n := by
  induction k generalizing n with
  | zero =>
    have hv : (UInt8.ofNat n).toNat = n := by rw [UInt8.toNat_ofNat']; omega
    have := Varint.last (o := UInt8.ofNat n) (by omega)
    rwa [hv] at this
  | succ k ih =>
    rw [writeVarint]
    split_ifs with hlt
    · have hv : (UInt8.ofNat n).toNat = n := by rw [UInt8.toNat_ofNat']; omega
      have := Varint.last (o := UInt8.ofNat n) (by omega)
      rwa [hv] at this
    · have hv : (UInt8.ofNat (n % 128 + 128)).toNat = n % 128 + 128 := by
        rw [UInt8.toNat_ofNat']; omega
      have hdiv : n / 128 < 128 ^ (k + 1) :=
        Nat.div_lt_of_lt_mul (by rwa [Nat.mul_comm])
      have := Varint.more (o := UInt8.ofNat (n % 128 + 128)) (by omega) (ih hdiv)
      rw [hv, show n % 128 + 128 - 128 + 128 * (n / 128) = n by omega] at this
      exact this

/-! ### In step -/

/-- Zero octets are skipped one at a time or together. -/
theorem findMevatrustTag_zero (rest : Bytes) :
    findMevatrustTag t (0x00 :: rest) = findMevatrustTag t rest := by
  have hstep : ∀ b : Bytes, tagStep t (0x00 :: b) = .next (b.dropWhile (· = 0)) := fun b => by
    simp [tagStep]
  rw [findMevatrustTag_next (hstep rest)]
  cases rest with
  | nil => rfl
  | cons o rest =>
    by_cases ho : o = 0
    · subst ho
      rw [findMevatrustTag_next (hstep rest)]
      simp
    · simp [ho]

/-- The key is skipped. -/
theorem findMevatrustTag_key {key : Bytes} (hk : key.length = 32) :
    findMevatrustTag t (0x01 :: (key ++ rest)) = findMevatrustTag t rest := by
  apply findMevatrustTag_next
  rw [tagStep, if_neg (by decide), if_pos rfl, if_neg (by simp [hk]), List.drop_left' hk]

/-- Other fields are skipped. -/
theorem findMevatrustTag_field {body : Bytes} (h0 : tag ≠ 0x00) (h1 : tag ≠ 0x01)
    (hother : tag ∉ mevatrustTags) (hv : Varint len body.length) (hshort : len.length ≤ 9) :
    findMevatrustTag t (tag :: (len ++ (body ++ rest))) = findMevatrustTag t rest := by
  have hne : len ++ (body ++ rest) ≠ [] := List.append_ne_nil_of_left_ne_nil hv.ne_nil _
  apply findMevatrustTag_next
  rw [tagStep, if_neg h0, if_neg h1, if_neg hother, if_neg hne]
  simp only [hv.skipLength_eq hshort]
  rw [if_neg (by simp), List.drop_left' rfl]

/-- A run of units is skipped whatever follows. -/
theorem Skippable.find_append (h : Skippable b) (t : UInt8) (rest : Bytes) :
    findMevatrustTag t (b ++ rest) = findMevatrustTag t rest := by
  induction h with
  | nil => rfl
  | zero _ ih => rw [List.cons_append, findMevatrustTag_zero, ih]
  | key hk _ ih => rw [List.cons_append, List.append_assoc, findMevatrustTag_key t hk, ih]
  | field h0 h1 hother hv hshort _ ih =>
    rw [List.cons_append, List.append_assoc, List.append_assoc,
      findMevatrustTag_field t h0 h1 hother hv hshort, ih]

/-- Nothing is in the padding. -/
theorem findMevatrustTag_zeros (n : ℕ) : findMevatrustTag t (List.replicate n 0) = none := by
  induction n with
  | zero => rfl
  | succ n ih => exact (findMevatrustTag_zero t _).trans ih

/-- The lookup is exact when every field of the variant but padding is a run of units. -/
theorem lookupExact_of_skippable {K : Set TxExtraField}
    (hK : ∀ f ∈ K, (ExtraField.standard f).WellFormed → f.tag ≠ 0x00 → Skippable f.write) :
    LookupExact K := by
  intro fs hwf hmem t ht
  induction fs with
  | nil => rfl
  | cons e fs ih =>
    have hrest := ih hwf.tail fun f hf => hmem f (List.mem_cons_of_mem _ hf)
    have he := hwf.fields e (List.mem_cons_self ..)
    rw [writeExtra_cons]
    cases e with
    | payload tag blob =>
      rw [ExtraField.write_payload he.2, firstPayload]
      split_ifs with heq
      · subst heq
        exact findMevatrustTag_packed ht blob _ he.2
      · rw [findMevatrustTag_passed he.1 heq blob _ he.2, hrest]
    | standard f =>
      rw [firstPayload, ← hrest]
      by_cases hpad : f.tag = 0x00
      · obtain ⟨n, rfl⟩ : ∃ n, f = .padding n := by cases f <;> simp_all [TxExtraField.tag]
        obtain rfl := hwf.eq_nil_of_padding
        rw [writeExtra_nil, List.append_nil]
        exact findMevatrustTag_zeros t (n - 1 + 1)
      · exact (hK f (hmem f (List.mem_cons_self ..)) he hpad).find_append t _

/-! ### Out of step -/

/-- The octets of an empty payload, the probe behind a field that is not a run of units. -/
def probe : Bytes := [0xA0, 0x00, 0x00]

/-- What is left of the probe when its first octet is gone holds no payload. -/
theorem find_probe_drop (hn : 0 < n) : findMevatrustTag 0xA0 (probe.drop n) = none := by
  match n, hn with
  | 1, _ | 2, _ => decide
  | n + 3, _ => rw [show probe.drop (n + 3) = [] from List.drop_eq_nil_of_le (by simp [probe])]; rfl

/-- A skip that runs past the octets before the probe never finds it. -/
theorem find_overrun (hn : b.length < n) : findMevatrustTag 0xA0 ((b ++ probe).drop n) = none := by
  rw [List.drop_append, List.drop_eq_nil_of_le hn.le]
  exact find_probe_drop (by omega)

/-- The scan stops. -/
theorem findMevatrustTag_stop {t : UInt8} (h : tagStep t b = .stop) :
    findMevatrustTag t b = none := by
  rw [findMevatrustTag]
  cases b.length with
  | zero => rfl
  | succ n => rw [tagWalk, h]

/-- A length that was read ended inside the buffer, or the buffer ended first. -/
theorem skipLength_cases (h : skipLength k b = some (n, rest)) :
    (∃ len, b = len ++ rest ∧ Varint len n ∧ len.length ≤ k) ∨ ∀ o ∈ b, 128 ≤ o.toNat := by
  induction k generalizing n b with
  | zero => simp [skipLength] at h
  | succ k ih =>
    cases b with
    | nil => exact .inr (by simp)
    | cons o b =>
      unfold skipLength at h
      split_ifs at h with ho
      · obtain ⟨rfl, rfl⟩ : o.toNat = n ∧ b = rest := by simpa using h
        exact .inl ⟨[o], rfl, .last ho, by simp⟩
      · obtain ⟨⟨m, r⟩, hr, hm⟩ := Option.map_eq_some_iff.1 h
        obtain ⟨rfl, rfl⟩ : o.toNat - 128 + 128 * m = n ∧ r = rest := by simpa using hm
        rcases ih hr with ⟨len, rfl, hv, hlen⟩ | hall
        · exact .inl ⟨o :: len, rfl, .more (by omega) hv, by simpa using hlen⟩
        · refine .inr fun x hx => ?_
          rcases List.mem_cons.1 hx with rfl | hx
          · omega
          · exact hall x hx

/-- More octets do not help. -/
theorem skipLength_append_eq_none (h : skipLength k b = none) (rest : Bytes) :
    skipLength k (b ++ rest) = none := by
  induction k generalizing b with
  | zero => rfl
  | succ k ih =>
    cases b with
    | nil => simp [skipLength] at h
    | cons o b =>
      rw [List.cons_append]
      unfold skipLength at h ⊢
      split_ifs at h ⊢ with ho
      rw [Option.map_eq_none_iff] at h ⊢
      exact ih h

/-- A length that runs into the probe takes two of its octets and is too large for the
third. -/
theorem skipLength_probe (hb : ∀ o ∈ b, 128 ≤ o.toNat)
    (h : skipLength k (b ++ probe) = some (n, rest)) : rest = [0x00] ∧ 32 ≤ n := by
  induction b generalizing k n with
  | nil =>
    match k with
    | 0 | 1 => simp [skipLength, probe] at h
    | k + 2 =>
      obtain ⟨rfl, rfl⟩ : 32 = n ∧ [0x00] = rest := by simpa [skipLength, probe] using h
      exact ⟨rfl, le_rfl⟩
  | cons o b ih =>
    cases k with
    | zero => simp [skipLength] at h
    | succ k =>
      have ho := hb o (List.mem_cons_self ..)
      rw [List.cons_append, skipLength, if_neg (by omega)] at h
      obtain ⟨⟨m, r⟩, hr, hm⟩ := Option.map_eq_some_iff.1 h
      obtain ⟨rfl, rfl⟩ : o.toNat - 128 + 128 * m = n ∧ r = rest := by simpa using hm
      have := ih (fun x hx => hb x (List.mem_cons_of_mem _ hx)) hr
      exact ⟨this.1, by omega⟩

/-- A truncated key swallows the probe. -/
theorem find_truncated_key (hb : b.length < 32) :
    findMevatrustTag 0xA0 (0x01 :: (b ++ probe)) = none := by
  by_cases hlen : (b ++ probe).length < 32
  · exact findMevatrustTag_stop (by rw [tagStep, if_neg (by decide), if_pos rfl, if_pos hlen])
  · have hstep : tagStep 0xA0 (0x01 :: (b ++ probe)) = .next ((b ++ probe).drop 32) := by
      rw [tagStep, if_neg (by decide), if_pos rfl, if_neg hlen]
    rw [findMevatrustTag_next hstep]
    exact find_overrun hb

/-- A MevaTrust tag whose payload is not there swallows the probe or is found itself. -/
theorem find_truncated_payload (htag : tag ∈ mevatrustTags)
    (hb : findMevatrustTag tag (tag :: b) = none) :
    findMevatrustTag 0xA0 (tag :: (b ++ probe)) ≠ some [] := by
  have h0 : tag ≠ 0x00 := by rintro rfl; revert htag; decide
  have h1 : tag ≠ 0x01 := by rintro rfl; revert htag; decide
  match b with
  | [] | [o] =>
    rw [findMevatrustTag_stop
      (by rw [tagStep, if_neg h0, if_pos htag]; simp [probe, ofLeBytes])]
    simp
  | o :: p :: body =>
    have hstep : ∀ (t : UInt8) (c : Bytes), tagStep t (tag :: o :: p :: c) =
        if c.length < ofLeBytes [o, p] then .stop
        else if tag = t then .found (c.take (ofLeBytes [o, p]))
        else .next (c.drop (ofLeBytes [o, p])) := fun t c => by
      rw [tagStep, if_neg h0, if_neg h1, if_pos htag]
      rfl
    have hshort : body.length < ofLeBytes [o, p] := by
      by_contra hlong
      have hfound := findMevatrustTag_found
        (by rw [hstep tag body, if_neg hlong, if_pos rfl] : tagStep tag (tag :: o :: p :: body) = _)
      rw [hfound] at hb
      cases hb
    rw [List.cons_append, List.cons_append]
    by_cases hlen : (body ++ probe).length < ofLeBytes [o, p]
    · rw [findMevatrustTag_stop (by rw [hstep, if_pos hlen])]
      simp
    · by_cases ht : tag = 0xA0
      · rw [findMevatrustTag_found (by rw [hstep, if_neg hlen, if_pos ht])]
        intro h
        have := congrArg List.length (Option.some.inj h)
        rw [List.length_take, List.length_nil] at this
        omega
      · rw [findMevatrustTag_next (by rw [hstep, if_neg hlen, if_neg ht]), find_overrun hshort]
        simp

/-- A round at a field of another tag. -/
theorem tagStep_other (h0 : tag ≠ 0x00) (h1 : tag ≠ 0x01) (hother : tag ∉ mevatrustTags)
    (hne : b ≠ []) (t : UInt8) :
    tagStep t (tag :: b) =
      match skipLength 9 b with
      | none => .stop
      | some (len, body) => if body.length < len then .stop else .next (body.drop len) := by
  rw [tagStep, if_neg h0, if_neg h1, if_neg hother]
  exact if_neg hne

/-- Behind any other tag there is a field with its length, or the probe is swallowed. -/
theorem field_or_swallowed (h0 : tag ≠ 0x00) (h1 : tag ≠ 0x01) (hother : tag ∉ mevatrustTags) :
    (∃ len body rest, b = len ++ (body ++ rest) ∧ Varint len body.length ∧ len.length ≤ 9) ∨
      findMevatrustTag 0xA0 (tag :: (b ++ probe)) = none := by
  have hne : b ++ probe ≠ [] := by simp [probe]
  have hstep := tagStep_other h0 h1 hother hne 0xA0
  cases hs : skipLength 9 b with
  | none =>
    rw [skipLength_append_eq_none hs] at hstep
    exact .inr (findMevatrustTag_stop hstep)
  | some r =>
    obtain ⟨n, body⟩ := r
    rcases skipLength_cases hs with ⟨len, rfl, hv, hlen⟩ | hall
    · by_cases hn : n ≤ body.length
      · refine .inl ⟨len, body.take n, body.drop n, by rw [List.take_append_drop], ?_, hlen⟩
        rwa [List.length_take_of_le hn]
      · rw [List.append_assoc, hv.skipLength_eq hlen] at hstep
        refine .inr ?_
        rw [List.append_assoc]
        dsimp only at hstep
        split_ifs at hstep with hshort
        · exact findMevatrustTag_stop hstep
        · rw [findMevatrustTag_next hstep, find_overrun (by omega)]
    · refine .inr (findMevatrustTag_stop ?_)
      cases hp : skipLength 9 (b ++ probe) with
      | none => rw [hstep, hp]
      | some r =>
        obtain ⟨m, rest⟩ := r
        obtain ⟨rfl, hm⟩ := skipLength_probe hall hp
        rw [hstep, hp]
        exact if_pos (by simp; omega)

/-- Octets that hold no payload and behind which the probe is found are a run of units. -/
theorem skippable_of_find (hnone : ∀ t ∈ mevatrustTags, findMevatrustTag t b = none)
    (hprobe : findMevatrustTag 0xA0 (b ++ probe) = some []) : Skippable b := by
  induction hlen : b.length using Nat.strong_induction_on generalizing b with
  | _ n ih =>
    cases b with
    | nil => exact .nil
    | cons tag b =>
      rw [List.length_cons] at hlen
      rw [List.cons_append] at hprobe
      by_cases h0 : tag = 0x00
      · subst h0
        rw [findMevatrustTag_zero] at hprobe
        exact .zero (ih b.length (by omega)
          (fun t ht => (findMevatrustTag_zero t b).symm.trans (hnone t ht)) hprobe rfl)
      by_cases h1 : tag = 0x01
      · subst h1
        by_cases hk : b.length < 32
        · rw [find_truncated_key hk] at hprobe
          cases hprobe
        · have hsize : (b.take 32).length = 32 := List.length_take_of_le (by omega)
          rw [← List.take_append_drop 32 b] at hnone hprobe ⊢
          rw [List.append_assoc, findMevatrustTag_key _ hsize] at hprobe
          refine .key hsize (ih _ (by rw [List.length_drop]; omega) (fun t ht => ?_) hprobe rfl)
          rw [← findMevatrustTag_key t hsize]
          exact hnone t ht
      by_cases hother : tag ∈ mevatrustTags
      · exact absurd hprobe (find_truncated_payload hother (hnone tag hother))
      · rcases field_or_swallowed (b := b) h0 h1 hother with
          ⟨len, body, rest, rfl, hv, hshort⟩ | hswallowed
        · rw [List.append_assoc, List.append_assoc,
            findMevatrustTag_field _ h0 h1 hother hv hshort] at hprobe
          refine .field h0 h1 hother hv hshort (ih rest.length ?_ (fun t ht => ?_) hprobe rfl)
          · simp only [List.length_append] at hlen
            omega
          · rw [← findMevatrustTag_field t h0 h1 hother hv hshort]
            exact hnone t ht
        · rw [hswallowed] at hprobe
          cases hprobe

/-! ### Which fields are in step -/

/-- A field with a length in front, as the comment over the variant promises. -/
theorem skippable_str (h0 : tag ≠ 0x00) (h1 : tag ≠ 0x01) (hother : tag ∉ mevatrustTags) {s : Bytes}
    (hs : s.length < 2 ^ 63) : Skippable (tag :: Codec.str.write s) := by
  have hn : (UInt64.ofNat s.length).toNat = s.length := by simp; omega
  have hw : Codec.str.write s = writeVarint (64 / 7) s.length ++ s := by
    show writeVarint (64 / 7) (UInt64.ofNat s.length).toNat ++ s = _
    rw [hn]
  have hsize : (writeVarint (64 / 7) s.length).length ≤ 9 := by
    rw [writeVarint_length (by omega), varintSize]
    rcases Nat.eq_zero_or_pos s.length with hz | hpos
    · simp [hz]
    · exact Nat.log_lt_of_lt_pow hpos.ne' (by omega)
  have := Skippable.field h0 h1 hother
    (varint_writeVarint (k := 64 / 7) (n := s.length) (by omega)) hsize .nil
  rwa [List.append_nil, ← hw] at this

/-- The fields the walk knows: keys, strings, and no additional keys, whose count reads as a
length. -/
theorem TxExtraField.skippable {f : TxExtraField}
    (h : (∃ key, f = .pubKey key) ∨ (∃ n, f = .nonce n ∧ n.length ≤ txExtraNonceMaxCount) ∨
      (∃ depth root, f = .mergeMining depth root) ∨ f = .additionalPubKeys []) :
    Skippable f.write := by
  rcases h with ⟨key, rfl⟩ | ⟨n, rfl, hn⟩ | ⟨depth, root, rfl⟩ | rfl
  · have := Skippable.key key.size_eq .nil
    rwa [List.append_nil] at this
  · unfold txExtraNonceMaxCount at hn
    show Skippable (0x02 :: Codec.str.write n)
    exact skippable_str (by decide) (by decide) (by decide) (by omega)
  · show Skippable (0x03 :: Codec.str.write _)
    refine skippable_str (by decide) (by decide) (by decide) ?_
    have hd : (Codec.varint64.write depth).length ≤ 64 / 7 + 1 := writeVarint_length_le _ _
    rw [TxExtraField.mergeMiningCodec, Codec.prod, List.length_append, Pod32.codec_write_length]
    dsimp only
    omega
  · exact skippable_str (s := []) (by decide) (by decide) (by decide) (by simp)

/-- **Where the lookup is exact**: on the extra fields that use the standard fields of `K` if and
only if the octets of each that is not padding are a run of units of the walk. -/
theorem lookupExact_iff (K : Set TxExtraField) :
    LookupExact K ↔
      ∀ f ∈ K, (ExtraField.standard f).WellFormed → f.tag ≠ 0x00 → Skippable f.write := by
  refine ⟨fun h f hf hwf hpad => ?_, lookupExact_of_skippable⟩
  have hlast : (ExtraField.standard f).isPadding = false := by
    cases f <;> simp_all [ExtraField.isPadding, TxExtraField.tag]
  have hone := h [.standard f] ⟨by simpa using hwf, by simp⟩ (by simpa using hf)
  have htwo := h [.standard f, .payload 0xA0 []]
    ⟨by simpa [ExtraField.WellFormed] using ⟨hwf, by decide⟩, by simpa using hlast⟩
    (by simpa using hf)
  refine skippable_of_find (fun t ht => ?_) ?_
  · simpa [ExtraField.write, firstPayload] using hone t ht
  · have hwrite : (ExtraField.payload 0xA0 []).write = probe := by decide
    have hfound := htwo 0xA0 (by decide)
    exact hfound

/-- An extra field with one additional key and an uptime proof behind it. -/
def keyThenProof : List ExtraField :=
  [.standard (.additionalPubKeys [⟨List.replicate 32 0xFF, rfl⟩]), .payload 0xA5 [7]]

/-- The count of one key is read as a length of one octet, the walk stops inside the key and
the proof is never found. -/
theorem keyThenProof_hidden :
    WellFormedExtra keyThenProof ∧ firstPayload 0xA5 keyThenProof = some [7] ∧
      findMevatrustTag 0xA5 (writeExtra keyThenProof) = none := by
  decide +kernel

end Mevacoin.Trust
