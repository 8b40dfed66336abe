import QAExchange.Foundation.KeyRanges
import QAExchange.Storage.OltpMemTable

/-! # SSTables

A file with entries, a header that says how many there are and which timestamps they
have, and metadata with their range of keys. A reader keeps the header and the metadata
that the file had when it was opened.
-/

namespace QAExchange

open Foundation

variable {Record : Type}

structure SSTableHeader where
  entryCount : ℕ
  minTimestamp : ℤ
  maxTimestamp : ℤ
  deriving DecidableEq

structure SSTableMetadata where
  entryCount : ℕ
  minTimestamp : ℤ
  maxTimestamp : ℤ
  minKey : List UInt8
  maxKey : List UInt8
  deriving DecidableEq

/-- The file `{:010}.sst`. -/
structure SSTableFile (Record : Type) where
  number : ℕ
  header : SSTableHeader
  entries : List (MemTableEntry Record)
  metadata : SSTableMetadata
  deriving DecidableEq

open SSTableFile

abbrev SSTableFiles (Record : Type) :=
  KeyedRows (number : SSTableFile Record → ℕ)

structure RkyvSSTableWriter (Record : Type) where
  written : List (MemTableEntry Record)
  entryCount : ℕ
  minTimestamp : Option ℤ
  maxTimestamp : Option ℤ
  minKey : Option (List UInt8)
  maxKey : Option (List UInt8)

namespace RkyvSSTableWriter

def create : RkyvSSTableWriter Record where
  written := []
  entryCount := 0
  minTimestamp := none
  maxTimestamp := none
  minKey := none
  maxKey := none

def append (writer : RkyvSSTableWriter Record) (entry : MemTableEntry Record) :
    RkyvSSTableWriter Record where
  written := writer.written ++ [entry]
  entryCount := writer.entryCount + 1
  minTimestamp :=
    if writer.minTimestamp.all fun least => entry.key.timestamp < least then
      some entry.key.timestamp
    else writer.minTimestamp
  maxTimestamp :=
    if writer.maxTimestamp.all fun greatest => greatest < entry.key.timestamp then
      some entry.key.timestamp
    else writer.maxTimestamp
  minKey :=
    if writer.minKey.all fun least => entry.key.toBytes < least then some entry.key.toBytes
    else writer.minKey
  maxKey :=
    if writer.maxKey.all fun greatest => greatest < entry.key.toBytes then some entry.key.toBytes
    else writer.maxKey

def finish (number : ℕ) (writer : RkyvSSTableWriter Record) : SSTableFile Record where
  number := number
  header := ⟨writer.entryCount, writer.minTimestamp.getD 0, writer.maxTimestamp.getD 0⟩
  entries := writer.written
  metadata := ⟨writer.entryCount, writer.minTimestamp.getD 0, writer.maxTimestamp.getD 0,
    writer.minKey.getD [], writer.maxKey.getD []⟩

end RkyvSSTableWriter

structure RkyvSSTable where
  filePath : ℕ
  header : SSTableHeader
  metadata : SSTableMetadata
  deriving DecidableEq

/-- What a reader takes the metadata behind the entries for, if it looks for more
entries than there are. -/
abbrev ReadsMetadata (Record : Type) :=
  SSTableFile Record → ℕ → Except String (List (MemTableEntry Record))

namespace RkyvSSTable

def findFile (path : ℕ) (files : SSTableFiles Record) : Option (SSTableFile Record) :=
  files.rows.find? fun file => file.number = path

def openFile (path : ℕ) (files : SSTableFiles Record) : Except String RkyvSSTable :=
  match findFile path files with
  | some file => .ok ⟨path, file.header, file.metadata⟩
  | none => .error "Open SSTable failed: No such file or directory (os error 2)"

/-- The next `count` entries of a file, from its first one on. -/
def readEntries (readsMetadata : ReadsMetadata Record) (file : SSTableFile Record) (count : ℕ) :
    Except String (List (MemTableEntry Record)) :=
  if count ≤ file.entries.length then .ok (file.entries.take count)
  else do
    let more ← readsMetadata file (count - file.entries.length)
    pure (file.entries ++ more)

def rangeQuery (readsMetadata : ReadsMetadata Record) (files : SSTableFiles Record)
    (startTs endTs : ℤ) (sstable : RkyvSSTable) : Except String (List (MemTableEntry Record)) :=
  if endTs < sstable.header.minTimestamp ∨ sstable.header.maxTimestamp < startTs then .ok []
  else
    match findFile sstable.filePath files with
    | none => .error "Open file failed: No such file or directory (os error 2)"
    | some file => do
      let entries ← readEntries readsMetadata file sstable.header.entryCount
      pure (entries.filter fun entry =>
        startTs ≤ entry.key.timestamp ∧ entry.key.timestamp ≤ endTs)

end RkyvSSTable

/-! ## Files as the writer leaves them -/

open RkyvSSTableWriter

def SSTableFile.of (number : ℕ) (entries : List (MemTableEntry Record)) : SSTableFile Record :=
  (entries.foldl append .create).finish number

namespace SSTableFile

theorem foldl_append (entries : List (MemTableEntry Record)) (writer : RkyvSSTableWriter Record) :
    let done := entries.foldl append writer
    done.written = writer.written ++ entries ∧
      done.entryCount = writer.entryCount + entries.length ∧
      (∀ least ∈ writer.minTimestamp, ∃ less ∈ done.minTimestamp, less ≤ least) ∧
      (∀ greatest ∈ writer.maxTimestamp, ∃ greater ∈ done.maxTimestamp, greatest ≤ greater) ∧
      ∀ entry ∈ entries, (∃ least ∈ done.minTimestamp, least ≤ entry.key.timestamp) ∧
        ∃ greatest ∈ done.maxTimestamp, entry.key.timestamp ≤ greatest := by
  induction entries generalizing writer with
  | nil =>
    refine ⟨by simp, rfl, ?_, ?_, by simp⟩
    · intro least isLeast
      exact ⟨least, isLeast, le_refl _⟩
    · intro greatest isGreatest
      exact ⟨greatest, isGreatest, le_refl _⟩
  | cons entry entries induction =>
    rcases induction (writer.append entry) with ⟨written, count, least, greatest, others⟩
    have newLeast : ∃ found ∈ (writer.append entry).minTimestamp,
        found ≤ entry.key.timestamp ∧ ∀ old ∈ writer.minTimestamp, found ≤ old := by
      simp only [append]
      cases writer.minTimestamp with
      | none => exact ⟨entry.key.timestamp, by simp, le_refl _, by simp⟩
      | some old =>
        simp only [Option.all_some, decide_eq_true_iff]
        split_ifs with smaller
        · exact ⟨entry.key.timestamp, rfl, le_refl _, by simpa using smaller.le⟩
        · exact ⟨old, rfl, not_lt.mp smaller, by simp⟩
    have newGreatest : ∃ found ∈ (writer.append entry).maxTimestamp,
        entry.key.timestamp ≤ found ∧ ∀ old ∈ writer.maxTimestamp, old ≤ found := by
      simp only [append]
      cases writer.maxTimestamp with
      | none => exact ⟨entry.key.timestamp, by simp, le_refl _, by simp⟩
      | some old =>
        simp only [Option.all_some, decide_eq_true_iff]
        split_ifs with larger
        · exact ⟨entry.key.timestamp, rfl, le_refl _, by simpa using larger.le⟩
        · exact ⟨old, rfl, not_lt.mp larger, by simp⟩
    rcases newLeast with ⟨low, isLow, lowEntry, lowOld⟩
    rcases newGreatest with ⟨high, isHigh, highEntry, highOld⟩
    rcases least low isLow with ⟨lower, isLower, below⟩
    rcases greatest high isHigh with ⟨higher, isHigher, above⟩
    rw [List.foldl_cons]
    refine ⟨?_, ?_, ?_, ?_, ?_⟩
    · rw [written]
      simp [append]
    · rw [count, List.length_cons]
      simp only [append]
      omega
    · intro old isOld
      exact ⟨lower, isLower, below.trans (lowOld old isOld)⟩
    · intro old isOld
      exact ⟨higher, isHigher, (highOld old isOld).trans above⟩
    · intro other member
      rcases List.mem_cons.mp member with rfl | member
      · exact ⟨⟨lower, isLower, below.trans lowEntry⟩, higher, isHigher, highEntry.trans above⟩
      · exact others other member

structure Sound (file : SSTableFile Record) : Prop where
  count : file.header.entryCount = file.entries.length
  header : ∀ entry ∈ file.entries, file.header.minTimestamp ≤ entry.key.timestamp ∧
    entry.key.timestamp ≤ file.header.maxTimestamp
  metadata : ∀ entry ∈ file.entries, file.metadata.minTimestamp ≤ entry.key.timestamp ∧
    entry.key.timestamp ≤ file.metadata.maxTimestamp

@[simp] theorem of_number (number : ℕ) (entries : List (MemTableEntry Record)) :
    (of number entries).number = number := rfl

@[simp] theorem of_entries (number : ℕ) (entries : List (MemTableEntry Record)) :
    (of number entries).entries = entries := by
  have written := (foldl_append entries create).1
  simpa [of, finish, create] using written

theorem sound_of (number : ℕ) (entries : List (MemTableEntry Record)) :
    (of number entries).Sound := by
  rcases foldl_append entries create with ⟨_, count, _, _, bounds⟩
  have limits : ∀ entry ∈ entries,
      (of number entries).header.minTimestamp ≤ entry.key.timestamp ∧
        entry.key.timestamp ≤ (of number entries).header.maxTimestamp := by
    intro entry member
    rcases bounds entry member with ⟨⟨least, isLeast, low⟩, greatest, isGreatest, high⟩
    simp only [of, finish]
    rw [Option.mem_def.mp isLeast, Option.mem_def.mp isGreatest]
    exact ⟨low, high⟩
  refine ⟨?_, ?_, ?_⟩
  · rw [of_entries]
    simpa [of, finish, create] using count
  · rw [of_entries]
    exact limits
  · rw [of_entries]
    exact limits

theorem append_keys (writer : RkyvSSTableWriter Record) (entry : MemTableEntry Record) :
    (writer.append entry).minKey = keepLeast writer.minKey entry.key.toBytes ∧
      (writer.append entry).maxKey = keepGreatest writer.maxKey entry.key.toBytes := by
  constructor
  · cases found : writer.minKey <;> simp [append, keepLeast, found]
  · cases found : writer.maxKey <;> simp [append, keepGreatest, found]

theorem foldl_append_keys (entries : List (MemTableEntry Record))
    (writer : RkyvSSTableWriter Record) :
    let done := entries.foldl append writer
    let keys := entries.map fun entry => entry.key.toBytes
    done.minKey = keys.foldl keepLeast writer.minKey ∧
      done.maxKey = keys.foldl keepGreatest writer.maxKey := by
  induction entries generalizing writer with
  | nil => exact ⟨rfl, rfl⟩
  | cons entry entries induction =>
    rcases induction (writer.append entry) with ⟨isMin, isMax⟩
    rcases append_keys writer entry with ⟨first, second⟩
    rw [first] at isMin
    rw [second] at isMax
    exact ⟨isMin, isMax⟩

def keys (file : SSTableFile Record) : List (List UInt8) :=
  file.entries.map fun entry => entry.key.toBytes

theorem exists_keyRange (number : ℕ) {entries : List (MemTableEntry Record)} (some : entries ≠ []) :
    ∃ range : KeyRange (List UInt8), range.Spans (of number entries).keys ∧
      range.low = (of number entries).metadata.minKey ∧
      range.high = (of number entries).metadata.maxKey := by
  rcases foldl_append_keys entries create with ⟨isMin, isMax⟩
  have someKeys : (entries.map fun entry => entry.key.toBytes) ≠ [] := by simpa using some
  rcases foldl_keepLeast someKeys with ⟨low, isLow, lowMember, least⟩
  rcases foldl_keepGreatest someKeys with ⟨high, isHigh, highMember, greatest⟩
  refine ⟨⟨low, high, least high highMember⟩, ⟨?_, ?_, ?_⟩, ?_, ?_⟩
  · rw [keys, of_entries]
    exact lowMember
  · rw [keys, of_entries]
    exact highMember
  · rw [keys, of_entries]
    intro key member
    exact ⟨least key member, greatest key member⟩
  · change low = (entries.foldl append .create).minKey.getD []
    rw [isMin]
    exact (congrArg (·.getD []) isLow).symm
  · change high = (entries.foldl append .create).maxKey.getD []
    rw [isMax]
    exact (congrArg (·.getD []) isHigh).symm

theorem append_timestamps (writer : RkyvSSTableWriter Record) (entry : MemTableEntry Record) :
    (writer.append entry).minTimestamp = keepLeast writer.minTimestamp entry.key.timestamp ∧
      (writer.append entry).maxTimestamp =
        keepGreatest writer.maxTimestamp entry.key.timestamp := by
  constructor
  · cases found : writer.minTimestamp <;> simp [append, keepLeast, found]
  · cases found : writer.maxTimestamp <;> simp [append, keepGreatest, found]

theorem foldl_append_timestamps (entries : List (MemTableEntry Record))
    (writer : RkyvSSTableWriter Record) :
    let done := entries.foldl append writer
    let timestamps := entries.map fun entry => entry.key.timestamp
    done.minTimestamp = timestamps.foldl keepLeast writer.minTimestamp ∧
      done.maxTimestamp = timestamps.foldl keepGreatest writer.maxTimestamp := by
  induction entries generalizing writer with
  | nil => exact ⟨rfl, rfl⟩
  | cons entry entries induction =>
    obtain ⟨isMin, isMax⟩ := induction (writer.append entry)
    obtain ⟨first, second⟩ := append_timestamps writer entry
    rw [first] at isMin
    rw [second] at isMax
    exact ⟨isMin, isMax⟩

def timestamps (file : SSTableFile Record) : List ℤ :=
  file.entries.map fun entry => entry.key.timestamp

/-- The timestamps in the header and the metadata are the least and the greatest one. -/
theorem exists_timestampRange (number : ℕ) {entries : List (MemTableEntry Record)}
    (some : entries ≠ []) :
    ∃ range : KeyRange ℤ, range.Spans (of number entries).timestamps ∧
      range.low = (of number entries).header.minTimestamp ∧
      range.high = (of number entries).header.maxTimestamp := by
  obtain ⟨isMin, isMax⟩ := foldl_append_timestamps entries create
  have someTimes : (entries.map fun entry => entry.key.timestamp) ≠ [] := by simpa using some
  obtain ⟨low, isLow, lowMember, least⟩ := foldl_keepLeast someTimes
  obtain ⟨high, isHigh, highMember, greatest⟩ := foldl_keepGreatest someTimes
  refine ⟨⟨low, high, least high highMember⟩, ⟨?_, ?_, ?_⟩, ?_, ?_⟩
  · rw [timestamps, of_entries]
    exact lowMember
  · rw [timestamps, of_entries]
    exact highMember
  · rw [timestamps, of_entries]
    intro timestamp member
    exact ⟨least timestamp member, greatest timestamp member⟩
  · have isLeast := congrArg (fun found : Option ℤ => found.getD 0) (isMin.trans isLow)
    exact isLeast.symm
  · have isGreatest := congrArg (fun found : Option ℤ => found.getD 0) (isMax.trans isHigh)
    exact isGreatest.symm

end SSTableFile

namespace RkyvSSTable

variable {files : SSTableFiles Record} {file : SSTableFile Record}

theorem findFile_of_mem (member : file ∈ files.rows) : findFile file.number files = some file := by
  rw [findFile]
  have sorted := files.sorted
  generalize files.rows = rows at member sorted
  induction rows with
  | nil => cases member
  | cons first rest induction =>
    rcases List.pairwise_cons.mp sorted with ⟨smaller, restSorted⟩
    rcases List.mem_cons.mp member with rfl | member
    · simp
    · rw [List.find?_cons_of_neg]
      · exact induction member restSorted
      · simpa using (smaller file member).ne

/-- The reader of a file that nobody has written to since. -/
def reads (file : SSTableFile Record) : RkyvSSTable := ⟨file.number, file.header, file.metadata⟩

theorem openFile_of_mem (member : file ∈ files.rows) :
    openFile file.number files = .ok (reads file) := by
  rw [openFile, findFile_of_mem member]
  rfl

theorem rangeQuery_reads (readsMetadata : ReadsMetadata Record) (member : file ∈ files.rows)
    (sound : file.Sound) (startTs endTs : ℤ) :
    (reads file).rangeQuery readsMetadata files startTs endTs =
      .ok (file.entries.filter fun entry =>
        startTs ≤ entry.key.timestamp ∧ entry.key.timestamp ≤ endTs) := by
  rw [rangeQuery]
  split_ifs with outside
  · symm
    congr 1
    apply List.filter_eq_nil_iff.mpr
    intro entry inside
    have bounds := sound.header entry inside
    rw [decide_eq_true_iff]
    simp only [reads] at outside
    omega
  · have found : findFile (reads file).filePath files = some file := findFile_of_mem member
    have count : (reads file).header.entryCount = file.entries.length := sound.count
    simp only [found, readEntries, count, le_refl, if_true, List.take_length]
    rfl

end RkyvSSTable

end QAExchange
