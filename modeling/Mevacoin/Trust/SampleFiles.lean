import Mevacoin.Lib.HashMaps
import Mevacoin.Lib.Stream
import Mevacoin.Trust.Engine

/-!
# The files the samples are kept in

`save_to_disk` and `load_from_disk` of `mevatrust_engine.cpp`, which checks counts and the order of
heights and never tests the stream.
-/

namespace Mevacoin.Trust

open Lib Lib.InStream Std

/-- `kMaxDiskStringLen`. -/
def maxDiskStringLen : ℕ := 1 <<< 20

/-- `kMaxDiskEntryCount`. -/
def maxDiskEntryCount : ℕ := 1 <<< 22

/-- One of the engine's maps, under the hexadecimal form of the node ids. -/
abbrev Table (α : Type) := ExtTreeMap Bytes (List α)

/-- The map under the keys the source uses, `hk(node_id)`. -/
def hexTable {α : Type} (m : ExtTreeMap Hash (List α)) : Table α :=
  ExtTreeMap.ofList (m.toList.map fun r => (toHex r.1.data, r.2)) compare

/-! ### Writing -/

/-- The fields of an event; its address, which nobody sets, is the empty string. -/
def UptimeEvent.write (ev : UptimeEvent) : Bytes :=
  leBytes 8 ev.timestamp.toNat ++ leBytes 1 ev.online.toNat ++ leBytes 8 ev.blockHeight.toNat ++
    leBytes 4 ev.peerCount.toNat ++ leBytes 4 ev.responseTimeMs.toNat ++ leBytes 4 0

/-- The record of an uptime sample. -/
def ChainUptimeSample.write (s : ChainUptimeSample) : Bytes :=
  leBytes 8 s.height.toNat ++ leBytes 8 s.blockTs.toNat

/-- The record of a proof. -/
def ChainProofSample.write (s : ChainProofSample) : Bytes :=
  leBytes 8 s.height.toNat ++ leBytes 8 s.targetHeight.toNat

section Tables

variable {α : Type}

/-- One row of a file. -/
def writeRow (write : α → Bytes) (r : Bytes × List α) : Bytes :=
  leBytes 1 r.1.length ++ r.1 ++ leBytes 4 r.2.length ++ r.2.flatMap write

/-- A whole file. -/
def saveTable (write : α → Bytes) (t : Table α) : Bytes :=
  leBytes 4 t.size ++ t.toList.flatMap (writeRow write)

/-! ### Reading -/

/-- `read_str`. -/
def readStr : StateM InStream Bytes := do
  let len ← readLe 4
  if maxDiskStringLen < len then
    fail
    return []
  else read len

/-- An event is read. -/
def UptimeEvent.read : StateM InStream UptimeEvent := do
  let timestamp ← readLe 8
  let online ← readLe 1
  let blockHeight ← readLe 8
  let peerCount ← readLe 4
  let responseTimeMs ← readLe 4
  let _ ← readStr
  return ⟨.ofNat timestamp, online ≠ 0, .ofNat blockHeight, .ofNat peerCount,
    .ofNat responseTimeMs⟩

/-- A sample is read. -/
def ChainUptimeSample.read : StateM InStream ChainUptimeSample := do
  let height ← readLe 8
  let blockTs ← readLe 8
  return ⟨.ofNat height, .ofNat blockTs⟩

/-- A proof is read. -/
def ChainProofSample.read : StateM InStream ChainProofSample := do
  let height ← readLe 8
  let targetHeight ← readLe 8
  return ⟨.ofNat height, .ofNat targetHeight⟩

/-- `std::is_sorted` by height. -/
def sortedBy (heightOf : α → UInt64) (l : List α) : Bool :=
  decide (l.Pairwise fun a b => heightOf a ≤ heightOf b)

/-- What became of a row. -/
inductive RowRead (α : Type)
  | row (key : Bytes) (items : List α)
  | tooMany
  | notSorted

/-- The body of the loop over the rows. -/
def readRow (item : StateM InStream α) (sorted : List α → Bool) : StateM InStream (RowRead α) := do
  let klen ← readLe 1
  let key ← read klen
  let n ← readLe 4
  if maxDiskEntryCount < n then return .tooMany
  else do
    let items ← readMany item n
    return if sorted items then .row key items else .notSorted

/-- The loop over the rows: the map, and whether the loading goes on.  A row out of order empties
the map. -/
def readRows (item : StateM InStream α) (sorted : List α → Bool) :
    ℕ → Table α → StateM InStream (Table α × Bool)
  | 0, t => return (t, true)
  | n + 1, t => do
    match ← readRow item sorted with
    | .row key items => readRows item sorted n (t.insert key items)
    | .tooMany => return (t, false)
    | .notSorted => return (∅, false)

/-- One file, into a map that has been cleared. -/
def loadTable (item : StateM InStream α) (sorted : List α → Bool) (file : Bytes) : Table α × Bool :=
  let count := readLe 4 ⟨file, false⟩
  if maxDiskEntryCount < count.1 then (∅, false)
  else (readRows item sorted count.1 ∅ count.2).1

/-- A file that may be missing: then the map stays. -/
def loadFile (item : StateM InStream α) (sorted : List α → Bool) (old : Table α) :
    Option Bytes → Table α × Bool
  | none => (old, true)
  | some file => loadTable item sorted file

end Tables

/-! ### The engine -/

/-- The engine's maps as `load_from_disk` fills them. -/
structure EngineTables where
  /-- `uptime_history_`. -/
  uptimeHistory : Table UptimeEvent := ∅
  /-- `chain_uptime_samples_`. -/
  chainUptimeSamples : Table ChainUptimeSample := ∅
  /-- `chain_proof_samples_`. -/
  chainProofSamples : Table ChainProofSample := ∅

/-- The files below `db_path_`. -/
structure EngineFiles where
  uptimeDat : Option Bytes
  chainUptimeDat : Option Bytes
  chainProofDat : Option Bytes
  scoresDat : Option Bytes

/-- The maps of an engine. -/
def Engine.tables (eng : Engine) : EngineTables where
  uptimeHistory := hexTable eng.uptimeHistory
  chainUptimeSamples := hexTable eng.chainUptimeSamples
  chainProofSamples := hexTable eng.chainProofSamples

/-- What `save_to_disk` writes to `chain_uptime.dat`. -/
def Engine.chainUptimeDat (eng : Engine) : Bytes :=
  saveTable ChainUptimeSample.write eng.tables.chainUptimeSamples

/-- What `save_to_disk` writes to `chain_proof.dat`. -/
def Engine.chainProofDat (eng : Engine) : Bytes :=
  saveTable ChainProofSample.write eng.tables.chainProofSamples

/-- `save_to_disk`.  `scoreRows` is what is written of each entry of `score_cache_`. -/
def Engine.saveToDisk (eng : Engine) (scoreRows : List Bytes) : EngineFiles where
  uptimeDat := some (saveTable UptimeEvent.write eng.tables.uptimeHistory)
  chainUptimeDat := some eng.chainUptimeDat
  chainProofDat := some eng.chainProofDat
  scoresDat := some (leBytes 4 scoreRows.length ++ scoreRows.flatten)

/-- The part of `load_from_disk` that reads `scores.dat`, which cannot fail; the scores are left
out. -/
def loadScores : Option Bytes → Bool
  | none => true
  | some file => (readLe 4 ⟨file, false⟩).1 ≤ maxDiskEntryCount

/-- `load_from_disk`. -/
def loadFromDisk (old : EngineTables) (files : EngineFiles) : EngineTables × Bool :=
  let u := loadFile UptimeEvent.read (fun _ => true) old.uptimeHistory files.uptimeDat
  let t := { old with uptimeHistory := u.1 }
  if u.2 then
    let c := loadFile ChainUptimeSample.read (sortedBy ChainUptimeSample.height)
      old.chainUptimeSamples files.chainUptimeDat
    let t := { t with chainUptimeSamples := c.1 }
    if c.2 then
      let p := loadFile ChainProofSample.read (sortedBy ChainProofSample.height)
        old.chainProofSamples files.chainProofDat
      let t := { t with chainProofSamples := p.1 }
      if p.2 then (t, loadScores files.scoresDat) else (t, false)
    else (t, false)
  else (t, false)

/-! ### Items are read back -/

/-- Two integers of eight octets, read one after the other. -/
theorem reads_pair {α : Type} (a b : UInt64) (f : UInt64 → UInt64 → α) :
    Reads (do let x ← readLe 8; let y ← readLe 8; return f (.ofNat x) (.ofNat y))
      (leBytes 8 a.toNat ++ leBytes 8 b.toNat) (f a b) := by
  have h : Reads (do let x ← readLe 8; let y ← readLe 8; return f (.ofNat x) (.ofNat y))
      (leBytes 8 a.toNat ++ leBytes 8 b.toNat) (f (.ofNat a.toNat) (.ofNat b.toNat)) := by
    refine (Reads.readLe_of_lt a.toNat_lt).bind ?_
    exact (Reads.readLe_of_lt b.toNat_lt).map _
  rwa [UInt64.ofNat_toNat, UInt64.ofNat_toNat] at h

theorem ChainUptimeSample.reads (s : ChainUptimeSample) :
    Reads ChainUptimeSample.read s.write s := reads_pair s.height s.blockTs ChainUptimeSample.mk

theorem ChainProofSample.reads (s : ChainProofSample) :
    Reads ChainProofSample.read s.write s := reads_pair s.height s.targetHeight ChainProofSample.mk

/-! ### Rows and files are read back -/

section Tables

variable {α : Type} {item : StateM InStream α} {sorted : List α → Bool} {write : α → Bytes}

/-- A row the reader takes as it was written. -/
structure RowFits (sorted : List α → Bool) (r : Bytes × List α) : Prop where
  key : r.1.length < 256
  count : r.2.length ≤ maxDiskEntryCount
  order : sorted r.2 = true

theorem RowFits.reads (hitem : ∀ a, Reads item (write a) a) {r : Bytes × List α}
    (hr : RowFits sorted r) : Reads (readRow item sorted) (writeRow write r) (.row r.1 r.2) := by
  have hcount : r.2.length < 256 ^ 4 := Nat.lt_of_le_of_lt hr.count (by decide)
  rw [writeRow, List.append_assoc]
  refine (Reads.readLe_of_lt (by simpa using hr.key)).bind ?_
  refine (Reads.read rfl).bind ?_
  refine (Reads.readLe_of_lt hcount).bind ?_
  rw [if_neg (Nat.not_lt.mpr hr.count)]
  have h := (Reads.readMany (l := r.2) fun a _ => hitem a).map fun items =>
    if sorted items then RowRead.row r.1 items else .notSorted
  rwa [hr.order] at h

/-- One turn of the loop over the rows. -/
theorem readRows_row {s s' : InStream} {key : Bytes} {items : List α}
    (h : readRow item sorted s = (.row key items, s')) (n : ℕ) (t : Table α) :
    readRows item sorted (n + 1) t s = readRows item sorted n (t.insert key items) s' := by
  have hturn : readRows item sorted (n + 1) t s
      = (match (readRow item sorted s).1 with
        | .row key items => readRows item sorted n (t.insert key items)
        | .tooMany => pure (t, false)
        | .notSorted => pure (∅, false)) (readRow item sorted s).2 := rfl
  rw [hturn, h]

/-- The rows that are there are entered one after the other, and the loop goes on behind them. -/
theorem readRows_append (hitem : ∀ a, Reads item (write a) a) {rows : List (Bytes × List α)}
    (hrows : ∀ r ∈ rows, RowFits sorted r) (n : ℕ) (t : Table α) (rest : Bytes) :
    readRows item sorted (rows.length + n) t ⟨rows.flatMap (writeRow write) ++ rest, false⟩
      = readRows item sorted n (t.insertMany rows) ⟨rest, false⟩ := by
  induction rows generalizing t with
  | nil => simp
  | cons r rows ih =>
    rw [List.forall_mem_cons] at hrows
    have hread := hrows.1.reads hitem (rows.flatMap (writeRow write) ++ rest)
    rw [List.length_cons, List.flatMap_cons, List.append_assoc,
      show rows.length + 1 + n = rows.length + n + 1 by omega, readRows_row hread,
      ih hrows.2, ExtTreeMap.insertMany_cons]

/-- The count at the head of a file. -/
theorem loadTable_head (n : ℕ) (rest : Bytes) :
    loadTable item sorted (leBytes 4 n ++ rest)
      = if maxDiskEntryCount < n % 256 ^ 4 then (∅, false)
        else (readRows item sorted (n % 256 ^ 4) ∅ ⟨rest, false⟩).1 := by
  rw [loadTable, Reads.readLe 4 n rest]

/-! ### Rows that are not there -/

/-- Past the end of the file the reader finds a row without a key and without items. -/
theorem readRow_past_end (h : sorted [] = true) :
    AtEnd (readRow item sorted) (.row [] []) ∧ Blank (readRow item sorted) (.row [] []) := by
  have hitems : Blank (do
      let items ← readMany item 0
      return if sorted items then RowRead.row [] items else .notSorted) (.row [] []) := by
    intro s _
    change ((if sorted [] then RowRead.row [] [] else .notSorted), s) = _
    rw [if_pos h]
  have hrest : Blank (do
      let key ← read 0
      let n ← readLe 4
      if maxDiskEntryCount < n then return .tooMany
      else do
        let items ← readMany item n
        return if sorted items then RowRead.row key items else .notSorted) (.row [] []) :=
    (Blank.read 0).bind ((Blank.readLe 4).bind hitems)
  exact ⟨(AtEnd.readLe (by decide)).bind hrest, (Blank.readLe 1).bind hrest⟩

/-- One such row more or less is the same. -/
theorem insert_blank (t : Table α) : (t.insert [] []).insert [] [] = t.insert [] [] := by
  refine ExtTreeMap.ext_getElem? fun k => ?_
  rw [ExtTreeMap.getElem?_insert, ExtTreeMap.getElem?_insert]
  split_ifs <;> rfl

/-- The loop past the end of the file reports success. -/
theorem readRows_nil (h : sorted [] = true) (n : ℕ) (t : Table α) :
    (readRows item sorted (n + 1) t ⟨[], false⟩).1 = (t.insert [] [], true) := by
  rw [readRows_row (readRow_past_end h).1]
  induction n with
  | zero => rfl
  | succ n ih => rw [readRows_row ((readRow_past_end h).2 _ rfl), insert_blank, ih]

/-- **A file cut after some of its rows is read as a table**: the rows up to there and one
without a key. -/
theorem loadTable_cut (hitem : ∀ a, Reads item (write a) a) (h : sorted [] = true)
    {rows : List (Bytes × List α)} (hrows : ∀ r ∈ rows, RowFits sorted r) {n : ℕ}
    (hlt : rows.length < n % 256 ^ 4) (hle : n % 256 ^ 4 ≤ maxDiskEntryCount) :
    loadTable item sorted (leBytes 4 n ++ rows.flatMap (writeRow write))
      = ((ExtTreeMap.ofList rows compare).insert [] [], true) := by
  obtain ⟨m, hm⟩ : ∃ m, n % 256 ^ 4 = rows.length + (m + 1) :=
    ⟨n % 256 ^ 4 - rows.length - 1, by omega⟩
  have hread := readRows_append hitem hrows (m + 1) ∅ []
  rw [List.append_nil] at hread
  rw [loadTable_head, if_neg (Nat.not_lt.mpr hle), hm, hread, readRows_nil h,
    ExtTreeMap.ofList_eq_insertMany_empty]

/-- A table without rows, cut anywhere. -/
theorem loadTable_empty_take (k : ℕ) :
    loadTable item sorted ((saveTable write ∅).take k) = (∅, true) := by
  have hfile : saveTable write (∅ : Table α) = List.replicate 4 0 := by
    simp only [saveTable, ExtTreeMap.size_empty]
    rfl
  rw [hfile, List.take_replicate]
  rcases Nat.lt_or_ge k 4 with hk | hk
  · rw [Nat.min_eq_left hk.le, loadTable, readLe_short (by simpa using hk),
      show ofLeBytes (List.replicate k 0) = 0 from ofLeBytes_append_zeros [] k]
    rfl
  · rw [Nat.min_eq_right hk]
    exact loadTable_head 0 []

/-- A table with a row is not safe: cut after the count, the file is read as another table. -/
theorem exists_torn (hitem : ∀ a, Reads item (write a) a) (h : sorted [] = true) {t : Table α}
    (hne : t ≠ ∅) (hkey : [] ∉ t) (hload : loadTable item sorted (saveTable write t) = (t, true)) :
    ∃ k < (saveTable write t).length, ∃ torn,
      loadTable item sorted ((saveTable write t).take k) = (torn, true) ∧ torn ≠ ∅ ∧ torn ≠ t := by
  have hcount : t.size % 256 ^ 4 ≠ 0 ∧ t.size % 256 ^ 4 ≤ maxDiskEntryCount := by
    rw [saveTable, loadTable_head] at hload
    split_ifs at hload with hlimit
    · exact absurd (Prod.mk.inj hload).2 Bool.false_ne_true
    · refine ⟨fun hzero => hne ?_, Nat.not_lt.mp hlimit⟩
      rw [hzero] at hload
      exact (Prod.mk.inj hload).1.symm
  have hrows : t.toList.flatMap (writeRow write) ≠ [] := by
    intro hnil
    refine hne (ExtTreeMap.eq_empty_iff_forall_not_mem.mpr fun k hk => ?_)
    obtain ⟨l, hl⟩ := Option.isSome_iff_exists.mp (ExtTreeMap.mem_iff_isSome_getElem?.mp hk)
    have hrow := List.flatMap_eq_nil_iff.mp hnil _
      (ExtTreeMap.mem_toList_iff_getElem?_eq_some.mpr hl)
    simp [writeRow, leBytes] at hrow
  have hcut := loadTable_cut hitem h (List.forall_mem_nil _) (Nat.pos_of_ne_zero hcount.1) hcount.2
  refine ⟨4, ?_, (∅ : Table α).insert [] [], ?_, ExtTreeMap.insert_ne_empty, fun heq => hkey ?_⟩
  · have hpos := List.length_pos_iff.mpr hrows
    rw [saveTable, List.length_append, leBytes_length]
    omega
  · exact hcut
  · rw [← heq]
    exact ExtTreeMap.mem_insert_self

end Tables

/-! ### Tables under hexadecimal keys -/

section Hex

variable {α : Type}

/-- The table has the entries of the map. -/
theorem mem_hexTable {m : ExtTreeMap Hash (List α)} {k : Bytes} {l : List α} :
    (hexTable m)[k]? = some l ↔ ∃ id : Hash, k = toHex id.data ∧ m[id]? = some l := by
  constructor
  · intro h
    obtain ⟨r, hr, hrow⟩ := List.mem_map.mp (mem_of_getElem?_ofList h)
    obtain ⟨rfl, rfl⟩ := Prod.mk.inj hrow
    exact ⟨r.1, rfl, ExtTreeMap.mem_toList_iff_getElem?_eq_some.mp hr⟩
  · rintro ⟨id, rfl, h⟩
    refine ExtTreeMap.getElem?_ofList_of_mem ReflCmp.compare_self ?_
      (List.mem_map_of_mem (ExtTreeMap.mem_toList_iff_getElem?_eq_some.mpr h))
    rw [List.pairwise_map]
    refine ExtTreeMap.distinct_keys_toList.imp fun {a b} hab heq => hab ?_
    have hdata := toHex_injective (LawfulEqOrd.eq_of_compare heq)
    rw [Pod32.ext hdata]
    exact ReflCmp.compare_self

theorem nil_notMem_hexTable (m : ExtTreeMap Hash (List α)) : [] ∉ hexTable m := by
  rw [ExtTreeMap.mem_iff_isSome_getElem?, Option.isSome_iff_exists]
  rintro ⟨l, hl⟩
  obtain ⟨id, hid, -⟩ := mem_hexTable.mp hl
  have hlen := congrArg List.length hid
  rw [length_toHex, id.size_eq] at hlen
  simp at hlen

theorem hexTable_eq_empty {m : ExtTreeMap Hash (List α)} : hexTable m = ∅ ↔ m = ∅ := by
  rw [hexTable, ExtTreeMap.ofList_eq_empty_iff, List.map_eq_nil_iff, ← List.length_eq_zero_iff,
    ExtTreeMap.length_toList, ExtTreeMap.eq_empty_iff_size_eq_zero]

end Hex

/-! ### The engine's files -/

variable {old t : EngineTables} {files : EngineFiles} {eng : Engine} {scoreRows : List Bytes}

/-- What `load_from_disk` does when the three maps are read. -/
theorem loadFromDisk_of_reads
    (hu : loadFile UptimeEvent.read (fun _ => true) old.uptimeHistory files.uptimeDat
      = (t.uptimeHistory, true))
    (hc : loadFile ChainUptimeSample.read (sortedBy ChainUptimeSample.height)
      old.chainUptimeSamples files.chainUptimeDat = (t.chainUptimeSamples, true))
    (hp : loadFile ChainProofSample.read (sortedBy ChainProofSample.height)
      old.chainProofSamples files.chainProofDat = (t.chainProofSamples, true)) :
    loadFromDisk old files = (t, loadScores files.scoresDat) := by
  simp [loadFromDisk, hu, hc, hp]

/-- A load that reports success has read the three maps. -/
theorem reads_of_loadFromDisk (h : loadFromDisk old files = (t, true)) :
    loadFile UptimeEvent.read (fun _ => true) old.uptimeHistory files.uptimeDat
        = (t.uptimeHistory, true) ∧
      loadFile ChainUptimeSample.read (sortedBy ChainUptimeSample.height)
        old.chainUptimeSamples files.chainUptimeDat = (t.chainUptimeSamples, true) ∧
      loadFile ChainProofSample.read (sortedBy ChainProofSample.height)
        old.chainProofSamples files.chainProofDat = (t.chainProofSamples, true) ∧
      loadScores files.scoresDat = true := by
  simp only [loadFromDisk] at h
  split_ifs at h with hu hc hp
  · obtain ⟨rfl, hscores⟩ := Prod.mk.inj h
    exact ⟨Prod.ext rfl hu, Prod.ext rfl hc, Prod.ext rfl hp, hscores⟩
  all_goals exact absurd (Prod.mk.inj h).2 Bool.false_ne_true

theorem loadScores_saveToDisk :
    loadScores (eng.saveToDisk scoreRows).scoresDat = true ↔
      scoreRows.length % 2 ^ 32 ≤ maxDiskEntryCount := by
  simp only [Engine.saveToDisk, loadScores, Reads.readLe 4 scoreRows.length scoreRows.flatten,
    decide_eq_true_eq]
  rfl

/-- What was saved is read back, and a sample file of which only the front was written is refused,
or read as nothing, or read as the whole. -/
structure CrashSafe (eng : Engine) (scoreRows : List Bytes) : Prop where
  reload : ∀ old, ∃ t, loadFromDisk old (eng.saveToDisk scoreRows) = (t, true) ∧
    t.chainUptimeSamples = eng.tables.chainUptimeSamples ∧
    t.chainProofSamples = eng.tables.chainProofSamples
  cutUptime : ∀ old t ok, ∀ k < eng.chainUptimeDat.length,
    loadFromDisk old { eng.saveToDisk scoreRows with
      chainUptimeDat := some (eng.chainUptimeDat.take k) } = (t, ok) →
    ok = false ∨ t.chainUptimeSamples = ∅ ∨ t.chainUptimeSamples = eng.tables.chainUptimeSamples
  cutProof : ∀ old t ok, ∀ k < eng.chainProofDat.length,
    loadFromDisk old { eng.saveToDisk scoreRows with
      chainProofDat := some (eng.chainProofDat.take k) } = (t, ok) →
    ok = false ∨ t.chainProofSamples = ∅ ∨ t.chainProofSamples = eng.tables.chainProofSamples

/-- `uptime.dat`, which comes first, does not stop the loading. -/
def Engine.uptimeReads (eng : Engine) : Prop :=
  (loadTable UptimeEvent.read (fun _ => true)
    (saveTable UptimeEvent.write eng.tables.uptimeHistory)).2 = true

theorem sortedBy_nil {α : Type} (heightOf : α → UInt64) : sortedBy heightOf [] = true := by
  simp [sortedBy]

/-- Without samples, whatever is left of the two files is read as two empty tables. -/
theorem loadFromDisk_without_samples (hchain : eng.chainUptimeSamples = ∅)
    (hproof : eng.chainProofSamples = ∅) (hu : eng.uptimeReads) (scoreRows : List Bytes)
    (old : EngineTables) (j k : ℕ) :
    ∃ u, loadFromDisk old { eng.saveToDisk scoreRows with
        chainUptimeDat := some (eng.chainUptimeDat.take j)
        chainProofDat := some (eng.chainProofDat.take k) }
      = (⟨u, ∅, ∅⟩, loadScores (eng.saveToDisk scoreRows).scoresDat) := by
  refine ⟨_, loadFromDisk_of_reads (Prod.ext rfl hu) ?_ ?_⟩
  · rw [Engine.chainUptimeDat, Engine.tables, hexTable_eq_empty.mpr hchain]
    exact loadTable_empty_take j
  · rw [Engine.chainProofDat, Engine.tables, hexTable_eq_empty.mpr hproof]
    exact loadTable_empty_take k

/-- **The files are safe for exactly the engines without samples**, if the other two files load. -/
theorem crashSafe_iff (eng : Engine) (scoreRows : List Bytes) :
    CrashSafe eng scoreRows ↔
      (eng.chainUptimeSamples = ∅ ∧ eng.chainProofSamples = ∅) ∧
        eng.uptimeReads ∧ scoreRows.length % 2 ^ 32 ≤ maxDiskEntryCount := by
  constructor
  · intro h
    obtain ⟨t, hload, hchain, hproof⟩ := h.reload {}
    obtain ⟨hu, hc, hp, hscores⟩ := reads_of_loadFromDisk hload
    rw [hchain] at hc
    rw [hproof] at hp
    refine ⟨⟨?_, ?_⟩, congrArg Prod.snd hu, loadScores_saveToDisk.mp hscores⟩
    · by_contra hne
      obtain ⟨k, hk, torn, hread, hempty, hother⟩ := exists_torn ChainUptimeSample.reads
        (sortedBy_nil _) (mt hexTable_eq_empty.mp hne) (nil_notMem_hexTable _) hc
      have hcut : loadFromDisk {} { eng.saveToDisk scoreRows with
          chainUptimeDat := some (eng.chainUptimeDat.take k) }
          = (⟨t.uptimeHistory, torn, eng.tables.chainProofSamples⟩, _) :=
        loadFromDisk_of_reads hu hread hp
      rcases h.cutUptime {} _ _ k hk hcut with hok | hok | hok
      · exact Bool.false_ne_true (hok.symm.trans hscores)
      · exact hempty hok
      · exact hother hok
    · by_contra hne
      obtain ⟨k, hk, torn, hread, hempty, hother⟩ := exists_torn ChainProofSample.reads
        (sortedBy_nil _) (mt hexTable_eq_empty.mp hne) (nil_notMem_hexTable _) hp
      have hcut : loadFromDisk {} { eng.saveToDisk scoreRows with
          chainProofDat := some (eng.chainProofDat.take k) }
          = (⟨t.uptimeHistory, eng.tables.chainUptimeSamples, torn⟩, _) :=
        loadFromDisk_of_reads hu hc hread
      rcases h.cutProof {} _ _ k hk hcut with hok | hok | hok
      · exact Bool.false_ne_true (hok.symm.trans hscores)
      · exact hempty hok
      · exact hother hok
  · rintro ⟨⟨hchain, hproof⟩, hu, hscores⟩
    have hct : eng.tables.chainUptimeSamples = ∅ := hexTable_eq_empty.mpr hchain
    have hpt : eng.tables.chainProofSamples = ∅ := hexTable_eq_empty.mpr hproof
    have hread := loadFromDisk_without_samples hchain hproof hu scoreRows
    refine ⟨fun old => ?_, fun old t ok k _ hload => ?_, fun old t ok k _ hload => ?_⟩
    · obtain ⟨u, hu'⟩ := hread old eng.chainUptimeDat.length eng.chainProofDat.length
      rw [List.take_length, List.take_length] at hu'
      rw [loadScores_saveToDisk.mpr hscores] at hu'
      exact ⟨_, hu', hct.symm, hpt.symm⟩
    · obtain ⟨u, hu'⟩ := hread old k eng.chainProofDat.length
      rw [List.take_length] at hu'
      obtain ⟨rfl, -⟩ := Prod.mk.inj (hload.symm.trans hu')
      exact .inr (.inl rfl)
    · obtain ⟨u, hu'⟩ := hread old eng.chainUptimeDat.length k
      rw [List.take_length] at hu'
      obtain ⟨rfl, -⟩ := Prod.mk.inj (hload.symm.trans hu')
      exact .inr (.inl rfl)

/-! ### Two nodes, and a file that ends after the first -/

/-- An engine with one sample of each of two nodes. -/
def twoSampled : Engine where
  chainUptimeSamples := ((∅ : ExtTreeMap Hash (List ChainUptimeSample)).insert (.fill 1)
    [⟨5, 600⟩]).insert (.fill 2) [⟨7, 840⟩]

/-- Its files when the write of `chain_uptime.dat` stopped behind the row of the first node. -/
def tornFiles : EngineFiles :=
  { twoSampled.saveToDisk [] with chainUptimeDat := some (twoSampled.chainUptimeDat.take 89) }

/-- The load reports success, with the sample of the first node, none of the second, and an entry
for no node. -/
theorem torn_file_loads :
    89 < twoSampled.chainUptimeDat.length ∧ (loadFromDisk {} tornFiles).2 = true ∧
      (loadFromDisk {} tornFiles).1.chainUptimeSamples.toList
        = [([], []), (toHex (Pod32.fill 1).data, [⟨5, 600⟩])] ∧
      twoSampled.tables.chainUptimeSamples.toList
        = [(toHex (Pod32.fill 1).data, [⟨5, 600⟩]), (toHex (Pod32.fill 2).data, [⟨7, 840⟩])] ∧
      ¬ CrashSafe twoSampled [] := by
  have hlen : 89 < twoSampled.chainUptimeDat.length := by decide +kernel
  have hok : (loadFromDisk {} tornFiles).2 = true := by decide +kernel
  have htorn : (loadFromDisk {} tornFiles).1.chainUptimeSamples.toList
      = [([], []), (toHex (Pod32.fill 1).data, [⟨5, 600⟩])] := by decide +kernel
  have hwhole : twoSampled.tables.chainUptimeSamples.toList
      = [(toHex (Pod32.fill 1).data, [⟨5, 600⟩]), (toHex (Pod32.fill 2).data, [⟨7, 840⟩])] := by
    decide +kernel
  refine ⟨hlen, hok, htorn, hwhole, fun hsafe => ?_⟩
  rcases hsafe.cutUptime {} (loadFromDisk {} tornFiles).1 (loadFromDisk {} tornFiles).2 89 hlen rfl
    with h | h | h
  · exact Bool.false_ne_true (h.symm.trans hok)
  · rw [h] at htorn
    exact absurd htorn (by decide +kernel)
  · rw [h] at htorn
    exact absurd htorn (by decide +kernel)

end Mevacoin.Trust
