import QAExchange.Storage.RkyvSSTable
import QAExchange.Storage.WalOrder

/-! # The hybrid storage of an instrument

A record is appended to the WAL and put into the MemTable, and a full MemTable is
flushed to an SSTable. A checkpoint records the SSTables and truncates the WAL; a
restart builds the MemTable again from the WAL.
-/

namespace QAExchange

open Foundation Action

structure OltpHybridConfig where
  memtableSizeBytes : ℕ
  estimatedEntrySize : ℕ
  deriving DecidableEq

structure CheckpointMetadata where
  checkpointId : ℕ
  walSequence : ℕ
  sstableFiles : List ℕ
  totalEntries : ℕ
  minTimestamp : ℤ
  maxTimestamp : ℤ
  deriving DecidableEq

/-- The files `checkpoint_{:010}.ckpt`. -/
abbrev CheckpointFiles := KeyedRows CheckpointMetadata.checkpointId

namespace CheckpointManager

def loadLatestCheckpoint (checkpoints : CheckpointFiles) : Option CheckpointMetadata :=
  checkpoints.rows.getLast?

def cleanupOldCheckpoints (keepCount : ℕ) (checkpoints : CheckpointFiles) : CheckpointFiles where
  rows := checkpoints.rows.drop (checkpoints.rows.length - keepCount)
  sorted := checkpoints.sorted.sublist (List.drop_sublist _ _)

end CheckpointManager

/-- The directories are those of the SSTables and of the checkpoints; that of the log
belongs to the WAL manager. -/
structure OltpHybridStorage (Record : Type) where
  wal : WalManager
  memtable : OltpMemTable Record
  sstables : List RkyvSSTable
  checkpointCounter : ℕ
  config : OltpHybridConfig
  sstableCounter : ℕ
  sstableFiles : SSTableFiles Record
  checkpointFiles : CheckpointFiles
  deriving DecidableEq

namespace OltpHybridStorage

variable {Record : Type} (codec : EntryCodec Record) (clock : RecordClock Record)

def onWal (action : Action String WalManager α) : Action String (OltpHybridStorage Record) α :=
  onPart wal (fun wal storage => { storage with wal := wal }) action

def onMemtable (action : Action String (OltpMemTable Record) α) :
    Action String (OltpHybridStorage Record) α :=
  onPart memtable (fun memtable storage => { storage with memtable := memtable }) action

def insertEntry (entry : WalEntry Record) : Action String (OltpMemTable Record) Unit :=
  update fun memtable => memtable.insert clock entry.sequence entry.record

/-- `OltpHybridStorage::create` on the directories. -/
def create (config : OltpHybridConfig) (walFiles : List WalFile)
    (sstableFiles : SSTableFiles Record) (checkpointFiles : CheckpointFiles) (seconds : ℤ) :
    Except String (OltpHybridStorage Record) :=
  let storage : OltpHybridStorage Record := {
    wal := WalManager.new codec walFiles seconds
    memtable := .new ⟨config.memtableSizeBytes, config.estimatedEntrySize⟩
    sstables := []
    checkpointCounter := 0
    config := config
    sstableCounter := 0
    sstableFiles := sstableFiles
    checkpointFiles := checkpointFiles }
  match exec (onMemtable (WalManager.replay codec (insertEntry clock) storage.wal.files)) storage with
  | (.ok _, storage) => .ok storage
  | (.error text, _) => .error ("WAL replay failed: " ++ text)

/-- The part of `try_flush` behind the checks. -/
def flushEntries (entries : List (MemTableEntry Record)) :
    Action String (OltpHybridStorage Record) Unit := do
  update fun storage => { storage with sstableCounter := storage.sstableCounter + 1 }
  let sstableId ← read sstableCounter
  update fun storage => { storage with
    sstableFiles := storage.sstableFiles.insert (SSTableFile.of sstableId entries) }
  update fun storage => { storage with memtable := storage.memtable.clear }
  let files ← read sstableFiles
  let sstable ← result (RkyvSSTable.openFile sstableId files)
  update fun storage => { storage with sstables := storage.sstables ++ [sstable] }

def tryFlush : Action String (OltpHybridStorage Record) Unit := do
  let memtable ← read memtable
  runIf (memtable.shouldFlush && !memtable.iterAll.isEmpty) (flushEntries memtable.iterAll)

def write (seconds : ℤ) (stamped : Stamped Record) :
    Action String (OltpHybridStorage Record) ℕ := do
  let sequence ← onWal (WalManager.append codec seconds stamped)
  onMemtable (update fun memtable => memtable.insert clock sequence stamped.record)
  let full ← read fun storage => storage.memtable.shouldFlush
  runIf full tryFlush
  pure sequence

def writeBatch (seconds : ℤ) (records : List (Stamped Record)) :
    Action String (OltpHybridStorage Record) (List ℕ) := do
  if records.isEmpty then
    pure []
  else
    let sequences ← onWal (WalManager.appendBatch codec seconds records)
    onMemtable (update fun memtable =>
      memtable.insertBatch clock (sequences.zip (records.map Stamped.record)))
    let full ← read fun storage => storage.memtable.shouldFlush
    runIf full tryFlush
    pure sequences

def rangeQuery (readsMetadata : ReadsMetadata Record) (startTs endTs : ℤ)
    (storage : OltpHybridStorage Record) : Except String (List (MemTableEntry Record)) := do
  let overlapping := storage.sstables.filter fun sstable =>
    ¬ (sstable.metadata.maxTimestamp < startTs ∨ endTs < sstable.metadata.minTimestamp)
  let found ← overlapping.mapM fun sstable =>
    sstable.rangeQuery readsMetadata storage.sstableFiles startTs endTs
  pure (dedupByKey MemTableEntry.key
    (sortByKey MemTableEntry.key (storage.memtable.rangeQuery startTs endTs ++ found.flatten)))

def loadSSTable (path : ℕ) : Action String (OltpHybridStorage Record) Unit := do
  let files ← read sstableFiles
  let sstable ← result (RkyvSSTable.openFile path files)
  update fun storage => { storage with sstables := storage.sstables ++ [sstable] }

def recover : Action String (OltpHybridStorage Record) Unit := do
  let files ← read fun storage => storage.sstableFiles.rows
  forM files fun file => loadSSTable file.number
  let walFiles ← read fun storage => storage.wal.files
  onMemtable (WalManager.replay codec (insertEntry clock) walFiles)

def createCheckpoint : Action String (OltpHybridStorage Record) Unit := do
  let walSequence ← read fun storage => storage.wal.currentSequence
  let sstables ← read sstables
  update fun storage => { storage with checkpointCounter := storage.checkpointCounter + 1 }
  let checkpointId ← read checkpointCounter
  update fun storage => { storage with
    checkpointFiles := storage.checkpointFiles.insert {
      checkpointId := checkpointId
      walSequence := walSequence
      sstableFiles := sstables.map RkyvSSTable.filePath
      totalEntries := (sstables.map fun sstable => sstable.metadata.entryCount).sum
      minTimestamp := (sstables.head?.map fun sstable => sstable.metadata.minTimestamp).getD 0
      maxTimestamp := (sstables.getLast?.map fun sstable => sstable.metadata.maxTimestamp).getD 0 } }
  update fun storage => { storage with
    checkpointFiles := CheckpointManager.cleanupOldCheckpoints 3 storage.checkpointFiles }
  onWal (WalManager.checkpoint walSequence)

def insertAfter (checkpointSequence : ℕ) (entry : WalEntry Record) :
    Action String (OltpMemTable Record) Unit :=
  runIf (checkpointSequence < entry.sequence) (insertEntry clock entry)

def recoverFromCheckpoint : Action String (OltpHybridStorage Record) Unit := do
  let checkpoints ← read checkpointFiles
  match CheckpointManager.loadLatestCheckpoint checkpoints with
  | none => pure ()
  | some checkpoint => do
    forM checkpoint.sstableFiles loadSSTable
    let walFiles ← read fun storage => storage.wal.files
    onMemtable (WalManager.replay codec (insertAfter clock checkpoint.walSequence) walFiles)

end OltpHybridStorage

/-! ## What the hybrid storage holds

A query merges the MemTable with the SSTables that are open. It finds all of their
entries, as long as every open SSTable is still the file that it was opened on.
-/

variable {Record : Type}

namespace OltpHybridStorage

/-- Every query succeeds and returns the records of the timestamps, each once, in the
order of timestamps and numbers. -/
def Answers (clock : RecordClock Record) (readsMetadata : ReadsMetadata Record)
    (storage : OltpHybridStorage Record) (records : List (ℕ × Record)) : Prop :=
  ∀ startTs endTs, ∃ rows, storage.rangeQuery readsMetadata startTs endTs = .ok rows ∧
    rows.Pairwise (fun left right => left.key < right.key) ∧
    ∀ row, row ∈ rows ↔ ∃ record ∈ records, row = .fromWal clock record.1 record.2 ∧
      startTs ≤ clock.timestamp record.2 ∧ clock.timestamp record.2 ≤ endTs

/-- The open SSTables are these files, which are still as they were written. -/
structure Opened (storage : OltpHybridStorage Record) (files : List (SSTableFile Record)) :
    Prop where
  sstables : storage.sstables = files.map RkyvSSTable.reads
  present : ∀ file ∈ files, file ∈ storage.sstableFiles.rows
  sound : ∀ file ∈ files, file.Sound

def contents (storage : OltpHybridStorage Record) (files : List (SSTableFile Record)) :
    List (MemTableEntry Record) :=
  storage.memtable.data.rows ++ files.flatMap SSTableFile.entries

theorem Opened.rangeQuery (opened : Opened storage files)
    (distinct : DistinctKeys MemTableEntry.key (storage.contents files))
    (range : ∀ row ∈ storage.contents files, row.key.sequence < 2 ^ 64)
    (readsMetadata : ReadsMetadata Record) (startTs endTs : ℤ) :
    ∃ rows, storage.rangeQuery readsMetadata startTs endTs = .ok rows ∧
      rows.Pairwise (fun left right => left.key < right.key) ∧
      ∀ row, row ∈ rows ↔ row ∈ storage.contents files ∧
        startTs ≤ row.key.timestamp ∧ row.key.timestamp ≤ endTs := by
  let overlaps : SSTableFile Record → Bool := fun file =>
    ¬ (file.metadata.maxTimestamp < startTs ∨ endTs < file.metadata.minTimestamp)
  let matching : SSTableFile Record → List (MemTableEntry Record) := fun file =>
    file.entries.filter fun entry => startTs ≤ entry.key.timestamp ∧ entry.key.timestamp ≤ endTs
  let merged := storage.memtable.rangeQuery startTs endTs ++
    ((files.filter overlaps).map matching).flatten
  have overlapping : (storage.sstables.filter fun sstable =>
      ¬ (sstable.metadata.maxTimestamp < startTs ∨ endTs < sstable.metadata.minTimestamp)) =
        (files.filter overlaps).map RkyvSSTable.reads := by
    rw [opened.sstables, List.filter_map]
    rfl
  have found : ((files.filter overlaps).map RkyvSSTable.reads).mapM (fun sstable =>
      sstable.rangeQuery readsMetadata storage.sstableFiles startTs endTs) =
        .ok ((files.filter overlaps).map matching) := by
    rw [List.mapM_map]
    apply mapM_eq_ok
    intro file member
    have isFile := (List.mem_filter.mp member).1
    exact RkyvSSTable.rangeQuery_reads readsMetadata (opened.present file isFile)
      (opened.sound file isFile) startTs endTs
  have members : ∀ row, row ∈ merged ↔ row ∈ storage.contents files ∧
      startTs ≤ row.key.timestamp ∧ row.key.timestamp ≤ endTs := by
    intro row
    have inTable : row ∈ storage.memtable.rangeQuery startTs endTs ↔
        row ∈ storage.memtable.data.rows ∧
          startTs ≤ row.key.timestamp ∧ row.key.timestamp ≤ endTs := by
      by_cases inside : row ∈ storage.memtable.data.rows
      · exact OltpMemTable.mem_rangeQuery (range row (List.mem_append_left _ inside)) startTs endTs
      · refine iff_of_false (fun found => inside (List.mem_filter.mp found).1) ?_
        exact fun found => inside found.1
    have inFiles : row ∈ ((files.filter overlaps).map matching).flatten ↔
        row ∈ files.flatMap SSTableFile.entries ∧
          startTs ≤ row.key.timestamp ∧ row.key.timestamp ≤ endTs := by
      simp only [List.mem_flatten, List.mem_map, List.mem_filter, List.mem_flatMap, matching]
      constructor
      · rintro ⟨_, ⟨file, ⟨isFile, _⟩, rfl⟩, member⟩
        rcases List.mem_filter.mp member with ⟨inside, within⟩
        exact ⟨⟨file, isFile, inside⟩, of_decide_eq_true within⟩
      · rintro ⟨⟨file, isFile, inside⟩, within⟩
        refine ⟨_, ⟨file, ⟨isFile, ?_⟩, rfl⟩, ?_⟩
        · have bounds := (opened.sound file isFile).metadata row inside
          simp only [overlaps, decide_eq_true_iff]
          omega
        · exact List.mem_filter.mpr ⟨inside, decide_eq_true within⟩
    rw [List.mem_append, inTable, inFiles, contents, List.mem_append, or_and_right]
  have stillDistinct : DistinctKeys MemTableEntry.key merged := fun left isLeft right isRight =>
    distinct left ((members left).mp isLeft).1 right ((members right).mp isRight).1
  rcases merge_spec stillDistinct with ⟨increasing, same⟩
  refine ⟨_, ?_, increasing, fun row => (same row).trans (members row)⟩
  rw [OltpHybridStorage.rangeQuery, overlapping, found]
  rfl

def Reads (clock : RecordClock Record) (readsMetadata : ReadsMetadata Record)
    (storage : OltpHybridStorage Record) (records : List (ℕ × Record)) : Prop :=
  ∀ startTs endTs rows, storage.rangeQuery readsMetadata startTs endTs = .ok rows →
    ∀ row, row ∈ rows ↔ ∃ record ∈ records, row = .fromWal clock record.1 record.2 ∧
      startTs ≤ clock.timestamp record.2 ∧ clock.timestamp record.2 ≤ endTs

theorem Answers.reads {storage : OltpHybridStorage Record}
    (answers : storage.Answers clock readsMetadata records) :
    storage.Reads clock readsMetadata records := by
  intro startTs endTs rows found
  rcases answers startTs endTs with ⟨answer, isAnswer, _, members⟩
  rw [found] at isAnswer
  cases isAnswer
  exact members

end OltpHybridStorage

end QAExchange
