import QAExchange.Storage.OltpHybridStorage
import QAExchange.Storage.WalCheckpoint

/-! # The operations of the hybrid storage

The operations in the form of pure functions: a write whose records rkyv can
serialize goes to the log and the MemTable, any other only takes sequence numbers.
-/

namespace QAExchange

open Foundation Action

variable {Record : Type}

inductive StorageWrite (Record : Type)
  | write (seconds : ℤ) (stamped : Stamped Record)
  | writeBatch (seconds : ℤ) (records : List (Stamped Record))

namespace StorageWrite

def seconds : StorageWrite Record → ℤ
  | .write seconds _ | .writeBatch seconds _ => seconds

def records : StorageWrite Record → List (Stamped Record)
  | .write _ stamped => [stamped]
  | .writeBatch _ records => records

def entries (codec : EntryCodec Record) (storage : OltpHybridStorage Record)
    (call : StorageWrite Record) : List (WalEntry Record) :=
  WalEntry.numberedFrom codec storage.wal.currentSequence call.records

def Writes (codec : EntryCodec Record) (storage : OltpHybridStorage Record)
    (call : StorageWrite Record) : Prop :=
  call.records ≠ [] ∧ WalManager.Serializes codec storage.wal.currentSequence call.records

def inserted (clock : RecordClock Record) (entries : List (ℕ × Record))
    (memtable : OltpMemTable Record) : StorageWrite Record → OltpMemTable Record
  | .write .. => entries.foldl (fun memtable entry => memtable.insert clock entry.1 entry.2) memtable
  | .writeBatch .. => memtable.insertBatch clock entries

instance decidableWrites (codec : EntryCodec Record) (storage : OltpHybridStorage Record) :
    ∀ call : StorageWrite Record, Decidable (call.Writes codec storage)
  | .write _ stamped => decidable_of_iff
      (WalManager.Serializes codec storage.wal.currentSequence [stamped])
      ⟨fun serializes => ⟨List.cons_ne_nil _ _, serializes⟩, And.right⟩
  | .writeBatch _ [] => .isFalse fun writes => writes.1 rfl
  | .writeBatch _ (stamped :: records) => decidable_of_iff
      (WalManager.Serializes codec storage.wal.currentSequence (stamped :: records))
      ⟨fun serializes => ⟨List.cons_ne_nil _ _, serializes⟩, And.right⟩

end StorageWrite

namespace OltpHybridStorage

variable (codec : EntryCodec Record) (clock : RecordClock Record)

def performWrite : StorageWrite Record →
    Action String (OltpHybridStorage Record) (List (ℕ × Record))
  | .write seconds stamped => do
    let sequence ← write codec clock seconds stamped
    pure [(sequence, stamped.record)]
  | .writeBatch seconds records => do
    let sequences ← writeBatch codec clock seconds records
    pure (sequences.zip (records.map Stamped.record))

def stepWrite (call : StorageWrite Record) (storage : OltpHybridStorage Record) :
    List (ℕ × Record) × OltpHybridStorage Record :=
  match exec (performWrite codec clock call) storage with
  | (.ok records, after) => (records, after)
  | (.error _, after) => ([], after)

/-! ## Pure forms -/

def skipped (count : ℕ) (storage : OltpHybridStorage Record) : OltpHybridStorage Record :=
  { storage with wal := storage.wal.advanced count }

def stored (call : StorageWrite Record) (storage : OltpHybridStorage Record) :
    OltpHybridStorage Record :=
  { storage with
    wal := WalManager.wrote call.seconds
      ((call.entries codec storage).map (WalEntry.preSerialized codec))
      (storage.wal.advanced call.records.length)
    memtable := call.inserted clock ((call.entries codec storage).map WalEntry.numberedRecord)
      storage.memtable }

def nextSSTable (storage : OltpHybridStorage Record) : SSTableFile Record :=
  SSTableFile.of (storage.sstableCounter + 1) storage.memtable.data.rows

def flushed (storage : OltpHybridStorage Record) : OltpHybridStorage Record :=
  { storage with
    sstableCounter := storage.sstableCounter + 1
    sstableFiles := storage.sstableFiles.insert storage.nextSSTable
    memtable := storage.memtable.clear
    sstables := storage.sstables ++ [RkyvSSTable.reads storage.nextSSTable] }

def settled (storage : OltpHybridStorage Record) : OltpHybridStorage Record :=
  if storage.memtable.shouldFlush then storage.flushed else storage

variable {codec clock}

variable {storage : OltpHybridStorage Record}

theorem exec_onWal {action : Action String WalManager α} {outcome : Except String α}
    {wal : WalManager} (ran : exec action storage.wal = (outcome, wal)) :
    exec (onWal action) storage = (outcome, { storage with wal := wal }) := by
  rw [onWal, exec_onPart, ran]

theorem exec_flushEntries (storage : OltpHybridStorage Record) :
    exec (flushEntries storage.memtable.data.rows) storage = (.ok (), storage.flushed) := by
  have present : storage.nextSSTable ∈ (storage.sstableFiles.insert storage.nextSSTable).rows :=
    KeyedRows.mem_insert.mpr (.inl rfl)
  have opened : RkyvSSTable.openFile (storage.sstableCounter + 1)
      (storage.sstableFiles.insert storage.nextSSTable) =
        .ok (RkyvSSTable.reads storage.nextSSTable) := RkyvSSTable.openFile_of_mem present
  have opens : ∀ after : OltpHybridStorage Record, exec (result (RkyvSSTable.openFile
      (storage.sstableCounter + 1) (storage.sstableFiles.insert storage.nextSSTable))) after =
        (.ok (RkyvSSTable.reads storage.nextSSTable), after) := by
    intro after
    rw [exec_result, opened]
  rw [flushEntries, exec_bind_ok (exec_update _ _), exec_bind_ok (exec_read _ _),
    exec_bind_ok (exec_update _ _), exec_bind_ok (exec_update _ _), exec_bind_ok (exec_read _ _)]
  exact exec_bind_ok (opens _)

theorem exec_settle (storage : OltpHybridStorage Record) (some : storage.memtable.data.rows ≠ []) :
    exec (runIf storage.memtable.shouldFlush tryFlush) storage = (.ok (), storage.settled) := by
  rw [settled]
  cases full : storage.memtable.shouldFlush with
  | false => rfl
  | true =>
    have isSome : storage.memtable.iterAll.isEmpty = false := by
      rw [List.isEmpty_eq_false_iff]
      exact some
    rw [exec_runIf_true, tryFlush, exec_bind, exec_read]
    simp only [full, isSome, Bool.not_false, Bool.and_self, exec_runIf_true, if_true]
    exact exec_flushEntries storage

theorem exec_insert {change : OltpMemTable Record → OltpMemTable Record}
    (some : (change storage.memtable).data.rows ≠ []) (value : α) :
    exec (do
      onMemtable (update change)
      let full ← read fun storage => storage.memtable.shouldFlush
      runIf full tryFlush
      pure value) storage = (.ok value, { storage with memtable := change storage.memtable }.settled) := by
  have settles := exec_settle { storage with memtable := change storage.memtable } some
  change exec (do
    runIf (change storage.memtable).shouldFlush tryFlush
    pure value) { storage with memtable := change storage.memtable } = _
  rw [exec_bind_ok settles, exec_pure]

theorem inserted_data (call : StorageWrite Record) (entries : List (ℕ × Record))
    (memtable : OltpMemTable Record) : (call.inserted clock entries memtable).data =
      OltpMemTable.insertAll clock entries memtable.data := by
  cases call with
  | write seconds stamped =>
    rw [StorageWrite.inserted]
    induction entries generalizing memtable with
    | nil => rfl
    | cons entry entries induction => exact induction _
  | writeBatch seconds records => rfl

theorem insertAll_ne_nil (some : entries ≠ [])
    (data : KeyedRows (MemTableEntry.key : MemTableEntry Record → MemTableKey)) :
    (OltpMemTable.insertAll clock entries data).rows ≠ [] := by
  rcases List.eq_nil_or_concat entries with rfl | ⟨init, last, isConcat⟩
  · exact absurd rfl some
  · have isConcat : entries = init ++ [last] := by simpa using isConcat
    rw [isConcat, OltpMemTable.insertAll, List.foldl_append]
    exact KeyedRows.insert_ne_nil _ _

theorem stored_ne_nil (codec : EntryCodec Record) (clock : RecordClock Record)
    {call : StorageWrite Record} (some : call.records ≠ []) (storage : OltpHybridStorage Record) :
    (storage.stored codec clock call).memtable.data.rows ≠ [] := by
  rw [stored, inserted_data]
  apply insertAll_ne_nil
  intro none
  exact WalEntry.numberedFrom_ne_nil codec _ some (List.map_eq_nil_iff.mp none)

/-- A write either stores all of its records or only takes numbers. -/
theorem stepWrite_cases (codec : EntryCodec Record) (clock : RecordClock Record)
    (call : StorageWrite Record) (storage : OltpHybridStorage Record) :
    (call.Writes codec storage ∧ stepWrite codec clock call storage =
      ((call.entries codec storage).map WalEntry.numberedRecord,
        (storage.stored codec clock call).settled)) ∨
    (¬ call.Writes codec storage ∧ ∃ count, stepWrite codec clock call storage =
      ([], storage.skipped count)) := by
  cases call with
  | write seconds stamped =>
    have some : (StorageWrite.write seconds stamped).records ≠ [] := List.cons_ne_nil _ _
    have isSome := stored_ne_nil codec clock some storage
    rcases WalManager.exec_append_eq codec seconds stamped storage.wal with
      ⟨serializes, ran⟩ | ⟨fails, text, count, ran⟩
    · refine .inl ⟨⟨some, serializes⟩, ?_⟩
      have written : exec (write codec clock seconds stamped) storage =
          (.ok storage.wal.currentSequence,
            (storage.stored codec clock (.write seconds stamped)).settled) := by
        rw [write, exec_bind_ok (exec_onWal ran)]
        exact exec_insert isSome _
      rw [stepWrite, performWrite, exec_bind_ok written]
      rfl
    · refine .inr ⟨fun writes => fails writes.2, count, ?_⟩
      have failed : exec (write codec clock seconds stamped) storage =
          (.error text, storage.skipped count) := by
        rw [write, exec_bind_error (exec_onWal ran)]
        rfl
      rw [stepWrite, performWrite, exec_bind_error failed]
  | writeBatch seconds records =>
    by_cases none : records = []
    · subst none
      exact .inr ⟨fun writes => writes.1 rfl, 0, rfl⟩
    · have some : (StorageWrite.writeBatch seconds records).records ≠ [] := none
      have isSome := stored_ne_nil codec clock some storage
      have isFull : records.isEmpty = false := List.isEmpty_eq_false_iff.mpr none
      rcases WalManager.exec_appendBatch_eq codec seconds none storage.wal with
        ⟨serializes, ran⟩ | ⟨fails, text, count, ran⟩
      · refine .inl ⟨⟨none, serializes⟩, ?_⟩
        have zipped := WalEntry.zip_numberedFrom codec storage.wal.currentSequence records
        have written : exec (writeBatch codec clock seconds records) storage =
            (.ok ((WalEntry.numberedFrom codec storage.wal.currentSequence records).map
              WalEntry.sequence),
              (storage.stored codec clock (.writeBatch seconds records)).settled) := by
          rw [writeBatch]
          simp only [isFull, Bool.false_eq_true, if_false]
          rw [exec_bind_ok (exec_onWal ran), zipped]
          exact exec_insert isSome _
        rw [stepWrite, performWrite, exec_bind_ok written, exec_pure]
        simp only [zipped]
        rfl
      · refine .inr ⟨fun writes => fails writes.2, count, ?_⟩
        have failed : exec (writeBatch codec clock seconds records) storage =
            (.error text, storage.skipped count) := by
          rw [writeBatch]
          simp only [isFull, Bool.false_eq_true, if_false]
          rw [exec_bind_error (exec_onWal ran)]
          rfl
        rw [stepWrite, performWrite, exec_bind_error failed]

/-! ## Recovery -/

theorem exec_forM_insertEntry (clock : RecordClock Record)
    (entries : List (WalEntry Record)) (memtable : OltpMemTable Record) :
    ∃ after, exec (forM entries (insertEntry clock)) memtable = (.ok (), after) ∧
      after.config = memtable.config ∧ after.data = OltpMemTable.insertAll clock
        (entries.map WalEntry.numberedRecord) memtable.data := by
  induction entries generalizing memtable with
  | nil => exact ⟨memtable, rfl, rfl, rfl⟩
  | cons entry entries induction =>
    rcases induction (memtable.insert clock entry.sequence entry.record) with
      ⟨after, ran, config, data⟩
    refine ⟨after, ?_, config, data⟩
    rw [List.forM_cons, insertEntry, exec_bind_ok (exec_update _ _)]
    exact ran

theorem exec_replayInto (clock : RecordClock Record) (roundTrip : codec.RoundTrip)
    {segments : List (Segment Record)}
    (isStored : ∀ segment ∈ segments, ∀ entry ∈ segment.entries, entry.Stored codec)
    (storage : OltpHybridStorage Record) :
    ∃ memtable, exec (onMemtable (WalManager.replay codec (insertEntry clock)
        (segments.map (Segment.toFile codec)))) storage =
          (.ok (), { storage with memtable := memtable }) ∧
      memtable.data = OltpMemTable.insertAll clock
        ((segments.flatMap Segment.entries).map WalEntry.numberedRecord) storage.memtable.data := by
  rcases exec_forM_insertEntry clock (segments.flatMap Segment.entries)
    storage.memtable with ⟨memtable, ran, _, data⟩
  refine ⟨memtable, ?_, data⟩
  rw [onMemtable, exec_onPart, replay_segments roundTrip _ isStored, ran]

def loaded (files : List (SSTableFile Record)) (storage : OltpHybridStorage Record) :
    OltpHybridStorage Record :=
  { storage with sstables := storage.sstables ++ files.map RkyvSSTable.reads }

theorem exec_loadSSTable (present : file ∈ storage.sstableFiles.rows) :
    exec (loadSSTable file.number) storage = (.ok (), storage.loaded [file]) := by
  rw [loadSSTable, exec_bind_ok (exec_read _ _), RkyvSSTable.openFile_of_mem present,
    exec_bind_ok (exec_result _ _)]
  rfl

theorem exec_loadSSTables (present : ∀ file ∈ files, file ∈ storage.sstableFiles.rows) :
    exec (forM (files.map SSTableFile.number) loadSSTable) storage =
      (.ok (), storage.loaded files) := by
  induction files generalizing storage with
  | nil => simp [loaded]
  | cons file files induction =>
    have loads := exec_loadSSTable (present file (by simp))
    have others : ∀ other ∈ files, other ∈ (storage.loaded [file]).sstableFiles.rows :=
      fun other member => present other (List.mem_cons_of_mem _ member)
    rw [List.map_cons, List.forM_cons, exec_bind_ok loads, induction others]
    simp [loaded]

/-- Right after `create`. -/
def created (wal : WalManager) (memtable : OltpMemTable Record) (config : OltpHybridConfig)
    (files : SSTableFiles Record) (checkpoints : CheckpointFiles) : OltpHybridStorage Record where
  wal := wal
  memtable := memtable
  sstables := []
  checkpointCounter := 0
  config := config
  sstableCounter := 0
  sstableFiles := files
  checkpointFiles := checkpoints

theorem create_eq (clock : RecordClock Record) (roundTrip : codec.RoundTrip)
    {walFiles : List WalFile} {seconds : ℤ} {layout : Layout Record}
    (log : WalManager.Stores codec (WalManager.new codec walFiles seconds) layout)
    (config : OltpHybridConfig) (files : SSTableFiles Record) (checkpoints : CheckpointFiles) :
    ∃ memtable : OltpMemTable Record,
      memtable.data = OltpMemTable.insertAll clock
        (layout.entries.map WalEntry.numberedRecord) .empty ∧
      create codec clock config walFiles files checkpoints seconds =
        .ok (created (WalManager.new codec walFiles seconds) memtable config files checkpoints) := by
  let begun : OltpHybridStorage Record := created (WalManager.new codec walFiles seconds)
    (.new ⟨config.memtableSizeBytes, config.estimatedEntrySize⟩) config files checkpoints
  rcases exec_replayInto clock roundTrip log.stored begun with ⟨memtable, ran, data⟩
  rw [← log.files] at ran
  refine ⟨memtable, data, ?_⟩
  rw [create]
  dsimp only [begun, created] at ran ⊢
  rw [ran]

theorem create_sstableFiles {config : OltpHybridConfig} {walFiles : List WalFile}
    {files : SSTableFiles Record} {checkpoints : CheckpointFiles} {seconds : ℤ}
    (isCreated : create codec clock config walFiles files checkpoints seconds = .ok storage) :
    storage.sstableFiles = files := by
  simp only [create, onMemtable, exec_onPart] at isCreated
  split at isCreated
  · rename_i ran
    cases isCreated
    rw [Prod.mk.injEq] at ran
    rw [← ran.2]
  · cases isCreated

end OltpHybridStorage

end QAExchange
