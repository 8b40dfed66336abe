import QAExchange.Storage.OltpHoldings
import QAExchange.Storage.WalResumed

/-! # Restarts of the hybrid storage

A restart begins to count the SSTables from the start again. The first flush after it
creates the file 1, whether there is one or not.
-/

namespace QAExchange

open Foundation Action WalManager

variable {Record : Type}

inductive StorageCall (Record : Type)
  | write (call : StorageWrite Record)
  | restart (config : OltpHybridConfig) (seconds : ℤ)

namespace OltpHybridStorage

section Model

variable (codec : EntryCodec Record) (clock : RecordClock Record)

/-- `create` on the same directories, and `recover`. -/
def restart (config : OltpHybridConfig) (seconds : ℤ) :
    Action String (OltpHybridStorage Record) Unit := do
  let before ← read id
  let created ← result (create codec clock config before.wal.files before.sstableFiles
    before.checkpointFiles seconds)
  update fun _ => created
  recover codec clock

/-- The records that a call acknowledges, and the storage after it. -/
def step : StorageCall Record → OltpHybridStorage Record →
    List (ℕ × Record) × OltpHybridStorage Record
  | .write call, storage => stepWrite codec clock call storage
  | .restart config seconds, storage => ([], (exec (restart codec clock config seconds) storage).2)

def acknowledged : List (StorageCall Record) → OltpHybridStorage Record → List (ℕ × Record)
  | [], _ => []
  | call :: calls, storage =>
    (step codec clock call storage).1 ++ acknowledged calls (step codec clock call storage).2

def Succeeds (storage : OltpHybridStorage Record) : StorageCall Record → Prop
  | .write _ => True
  | .restart config seconds => (exec (restart codec clock config seconds) storage).1 = .ok ()

/-- The files of `before` are still there as they were. -/
def KeepsFiles (before after : OltpHybridStorage Record) : Prop :=
  ∀ file ∈ before.sstableFiles.rows, file ∈ after.sstableFiles.rows

/-- In all of a run, restarts succeed, no SSTable is overwritten, and queries return
exactly what was acknowledged. -/
def SoundThroughout (readsMetadata : ReadsMetadata Record) :
    List (StorageCall Record) → List (ℕ × Record) → OltpHybridStorage Record → Prop
  | [], records, storage => Answers clock readsMetadata storage records
  | call :: calls, records, storage =>
    Answers clock readsMetadata storage records ∧ Succeeds codec clock storage call ∧
      KeepsFiles storage (step codec clock call storage).2 ∧
      SoundThroughout readsMetadata calls (records ++ (step codec clock call storage).1)
        (step codec clock call storage).2

def Flushes (storage : OltpHybridStorage Record) : StorageCall Record → Prop
  | .write call => call.Writes codec storage ∧
      (call.inserted clock ((call.entries codec storage).map WalEntry.numberedRecord)
        storage.memtable).shouldFlush = true
  | .restart .. => False

/-- The first flush after a start finds no SSTables. -/
def FlushesOnce : List (StorageCall Record) → OltpHybridStorage Record → Prop
  | [], _ => True
  | call :: calls, storage =>
    (Flushes codec clock storage call → storage.sstableCounter = 0 →
      storage.sstableFiles.rows = []) ∧
    FlushesOnce calls (step codec clock call storage).2

instance decidableFlushes (storage : OltpHybridStorage Record) :
    ∀ call, Decidable (Flushes codec clock storage call)
  | .write _ => inferInstanceAs (Decidable (_ ∧ _))
  | .restart .. => .isFalse id

instance decidableFlushesOnce : ∀ calls storage, Decidable (FlushesOnce codec clock calls storage)
  | [], _ => .isTrue trivial
  | _ :: calls, _ => @instDecidableAnd _ _ _ (decidableFlushesOnce calls _)

end Model

/-! ## What holds while no file is overwritten -/

/-- The MemTable and the SSTables have the entries of the log, and the SSTables are
numbered by the counter, unless the storage has been started since. -/
structure Healthy (codec : EntryCodec Record) (clock : RecordClock Record)
    (storage : OltpHybridStorage Record) (layout : Layout Record) (records : List (ℕ × Record)) :
    Prop where
  log : Ordered codec storage.wal layout [] records
  anchored : Anchored layout
  holds : Holds clock storage storage.sstableFiles.rows records
  numbers : storage.sstableFiles.rows.map SSTableFile.number =
    List.range' 1 storage.sstableFiles.rows.length
  counter : storage.sstableCounter = 0 ∨
    storage.sstableCounter = storage.sstableFiles.rows.length

section Healthy

variable {codec : EntryCodec Record} {clock : RecordClock Record}
  {storage : OltpHybridStorage Record} {layout : Layout Record} {records : List (ℕ × Record)}

section

variable (healthy : Healthy codec clock storage layout records)
include healthy

theorem Healthy.skip (count : ℕ) : Healthy codec clock (storage.skipped count) layout records :=
  { healthy with
    log := healthy.log.skipped count
    holds := healthy.holds.skip count }

theorem Healthy.store {call : StorageWrite Record} (writes : call.Writes codec storage) :
    ∃ layout', Healthy codec clock (storage.stored codec clock call) layout'
      (records ++ (call.entries codec storage).map WalEntry.numberedRecord) := by
  have log := healthy.log.wroteNumbered call.seconds call.records writes.2.stored writes.1
  have anchored := healthy.anchored.append codec healthy.log.linked
    (healthy.log.stores.nonempty healthy.log.linked)
    ((storage.wal.advanced call.records.length).full
      ((call.entries codec storage).map (WalEntry.preSerialized codec)))
    storage.wal.currentSequence call.seconds writes.1
  exact ⟨_, log, anchored, healthy.holds.store codec call, healthy.numbers, healthy.counter⟩

theorem Healthy.number_le (member : file ∈ storage.sstableFiles.rows) :
    file.number ≤ storage.sstableFiles.rows.length := by
  have number := List.mem_map_of_mem (f := SSTableFile.number) member
  rw [healthy.numbers, List.mem_range'_1] at number
  omega

theorem Healthy.flush (fresh : storage.sstableCounter = 0 → storage.sstableFiles.rows = []) :
    Healthy codec clock storage.flushed layout records ∧ KeepsFiles storage storage.flushed := by
  have counted : storage.sstableCounter = storage.sstableFiles.rows.length := by
    rcases healthy.counter with zero | counted
    · rw [zero, fresh zero]
      rfl
    · exact counted
  have smaller : ∀ file ∈ storage.sstableFiles.rows, file.number < storage.sstableCounter + 1 := by
    intro file member
    have bound := healthy.number_le member
    omega
  have last : storage.flushed.sstableFiles.rows =
      storage.sstableFiles.rows ++ [storage.nextSSTable] := KeyedRows.insertRow_of_lt smaller
  refine ⟨⟨healthy.log, healthy.anchored, ?_, ?_, .inr ?_⟩, ?_⟩
  · rw [last]
    apply healthy.holds.flush
    intro file member
    exact (smaller file member).ne
  · rw [last, List.map_append, healthy.numbers, List.length_append, List.map_singleton,
      List.length_singleton, List.range'_concat, ← counted]
    congr 2
    change storage.sstableCounter + 1 = _
    omega
  · rw [last, List.length_append, List.length_singleton, ← counted]
    rfl
  · intro file member
    rw [last]
    exact List.mem_append_left _ member

theorem Healthy.write {call : StorageWrite Record} (writes : call.Writes codec storage)
    (fresh : Flushes codec clock storage (.write call) → storage.sstableCounter = 0 →
      storage.sstableFiles.rows = []) :
    KeepsFiles storage (storage.stored codec clock call).settled ∧
      ∃ layout', Healthy codec clock (storage.stored codec clock call).settled layout'
        (records ++ (call.entries codec storage).map WalEntry.numberedRecord) := by
  rcases healthy.store writes with ⟨layout', isStored⟩
  rw [settled]
  split_ifs with full
  · rcases isStored.flush (fresh ⟨writes, full⟩) with ⟨isFlushed, keeps⟩
    exact ⟨keeps, layout', isFlushed⟩
  · exact ⟨fun file member => member, layout', isStored⟩

theorem Healthy.overwrites (flushes : Flushes codec clock storage (.write call))
    (zero : storage.sstableCounter = 0) (some : storage.sstableFiles.rows ≠ []) :
    ¬ KeepsFiles storage (storage.stored codec clock call).settled := by
  intro keeps
  have writes := flushes.1
  have full : (storage.stored codec clock call).memtable.shouldFlush = true := flushes.2
  rcases List.exists_cons_of_ne_nil some with ⟨first, rest, isFiles⟩
  have isFirst : first ∈ storage.sstableFiles.rows := by simp [isFiles]
  have number : first.number = 1 := by
    have numbers := healthy.numbers
    rw [isFiles, List.map_cons, List.length_cons, List.range'_succ] at numbers
    exact (List.cons.inj numbers).1
  have still := keeps first isFirst
  rw [settled, if_pos full] at still
  have same : first = (storage.stored codec clock call).nextSSTable := by
    rcases KeyedRows.mem_insert.mp still with same | ⟨_, different⟩
    · exact same
    · apply absurd _ different
      change first.number = storage.sstableCounter + 1
      rw [number, zero]
  -- the new file has the new records, and the old one had none of them
  rcases List.exists_mem_of_ne_nil _ (WalEntry.numberedFrom_ne_nil codec
    storage.wal.currentSequence writes.1) with ⟨entry, isEntry⟩
  have row : .fromWal clock entry.sequence entry.record ∈ first.entries := by
    rw [same]
    change _ ∈ (SSTableFile.of _ _).entries
    rw [SSTableFile.of_entries, healthy.holds.mem_stored]
    exact .inr ⟨entry.numberedRecord, List.mem_map_of_mem isEntry, rfl⟩
  have old := healthy.holds.number_lt (List.mem_append_right _
    (List.mem_flatMap.mpr ⟨first, isFirst, row⟩))
  have isNew := (WalEntry.mem_numberedFrom isEntry).1
  change entry.sequence < _ at old
  omega

end

theorem Healthy.restart (roundTrip : codec.RoundTrip)
    (healthy : Healthy codec clock storage layout records) (config : OltpHybridConfig)
    (seconds : ℤ) :
    ∃ after, exec (OltpHybridStorage.restart codec clock config seconds) storage = (.ok (), after) ∧
      after.sstableFiles = storage.sstableFiles ∧ Healthy codec clock after layout records := by
  have reopened := healthy.log.reopen roundTrip healthy.anchored seconds
  have same : layout.entries.map WalEntry.numberedRecord = records := by
    simpa using healthy.log.appended_eq.symm
  rcases create_eq clock roundTrip reopened.stores config storage.sstableFiles
    storage.checkpointFiles with ⟨memtable, isData, isCreated⟩
  let begun := created (WalManager.new codec storage.wal.files seconds) memtable config
    storage.sstableFiles storage.checkpointFiles
  let opened := begun.loaded storage.sstableFiles.rows
  have present : ∀ file ∈ storage.sstableFiles.rows, file ∈ begun.sstableFiles.rows :=
    fun file member => member
  have loads : exec (forM storage.sstableFiles.rows fun file => loadSSTable file.number) begun =
      (.ok (), opened) := by
    have ran := exec_loadSSTables present
    rw [List.forM_map] at ran
    exact ran
  rcases exec_replayInto clock roundTrip reopened.stores.stored opened with
    ⟨again, ran, data⟩
  rw [← reopened.stores.files] at ran
  have recovers : exec (recover codec clock) begun = (.ok (), { opened with memtable := again }) := by
    rw [recover, exec_bind_ok (exec_read _ _)]
    change exec (do
      forM storage.sstableFiles.rows fun file => loadSSTable file.number
      let walFiles ← read fun storage => storage.wal.files
      onMemtable (WalManager.replay codec (insertEntry clock) walFiles)) begun = _
    rw [exec_bind_ok loads, exec_bind_ok (exec_read _ _)]
    exact ran
  have rows : ∀ row, row ∈ again.data.rows ↔
      ∃ record ∈ records, row = .fromWal clock record.1 record.2 := by
    have first : ∀ row, row ∈ memtable.data.rows ↔
        ∃ record ∈ records, row = .fromWal clock record.1 record.2 := by
      intro row
      rw [isData, same, OltpMemTable.mem_insertAll healthy.holds.numbers (by simp)]
      simp
    intro row
    rw [data, ← Layout.entries, same]
    exact mem_insertAll_again healthy.holds.numbers healthy.holds.numbers
      (List.Subset.refl _) first row
  have below : ∀ record ∈ records,
      record.1 < (WalManager.new codec storage.wal.files seconds).currentSequence := by
    intro record isRecord
    rw [← same] at isRecord
    rcases List.mem_map.mp isRecord with ⟨entry, isEntry, rfl⟩
    exact reopened.below entry (by simpa using isEntry)
  refine ⟨{ opened with memtable := again }, ?_, rfl, reopened, healthy.anchored,
    ⟨⟨List.nil_append _, present, healthy.holds.opened.sound⟩, ?_, healthy.holds.numbers, below⟩,
    healthy.numbers, .inl rfl⟩
  · rw [OltpHybridStorage.restart, exec_bind_ok (exec_read _ _)]
    change exec (do
      let created ← result (create codec clock config storage.wal.files storage.sstableFiles
        storage.checkpointFiles seconds)
      update fun _ => created
      recover codec clock) storage = _
    rw [isCreated, exec_bind_ok (exec_result _ _), exec_bind_ok (exec_update _ _)]
    exact recovers
  · intro row
    have known := healthy.holds.complete row
    rw [contents, List.mem_append] at known ⊢
    change (row ∈ again.data.rows ∨
      row ∈ storage.sstableFiles.rows.flatMap SSTableFile.entries) ↔ _
    rw [rows]
    constructor
    · rintro (inTable | inFile)
      · exact inTable
      · exact known.mp (.inr inFile)
    · exact .inl

end Healthy

section Runs

variable {codec : EntryCodec Record} {clock : RecordClock Record}

theorem healthy_new (roundTrip : codec.RoundTrip) {config : OltpHybridConfig} {seconds : ℤ}
    {storage : OltpHybridStorage Record}
    (isCreated : create codec clock config [] .empty .empty seconds = .ok storage) :
    ∃ layout, Healthy codec clock storage layout [] := by
  have log : Ordered codec (WalManager.new codec [] seconds) ⟨[⟨1, seconds, []⟩], true⟩ []
      ([] : List (ℕ × Record)) := ordered_new codec seconds .default
  rcases create_eq clock roundTrip log.stores config (.empty : SSTableFiles Record)
    .empty with ⟨memtable, isData, same⟩
  rw [same] at isCreated
  cases isCreated
  refine ⟨_, log, anchored_new seconds, ⟨⟨rfl, by simp [created], by simp [created]⟩, ?_,
    List.nodup_nil, by simp⟩, rfl, .inl rfl⟩
  intro row
  rw [contents]
  change row ∈ memtable.data.rows ++ [] ↔ _
  rw [isData]
  simp [Layout.entries, OltpMemTable.insertAll]

/-- One call: a flush that finds no files behind a start, or a file that is lost. -/
theorem Healthy.step (roundTrip : codec.RoundTrip)
    (healthy : Healthy codec clock storage layout records) (call : StorageCall Record)
    (fresh : Flushes codec clock storage call → storage.sstableCounter = 0 →
      storage.sstableFiles.rows = []) :
    Succeeds codec clock storage call ∧
      KeepsFiles storage (OltpHybridStorage.step codec clock call storage).2 ∧
      ∃ layout', Healthy codec clock (OltpHybridStorage.step codec clock call storage).2 layout'
        (records ++ (OltpHybridStorage.step codec clock call storage).1) := by
  cases call with
  | write call =>
    refine ⟨trivial, ?_⟩
    rw [OltpHybridStorage.step]
    rcases stepWrite_cases codec clock call storage with
      ⟨writes, ran⟩ | ⟨_, count, ran⟩
    · rw [ran]
      exact healthy.write writes fresh
    · rw [ran]
      refine ⟨fun file member => member, layout, ?_⟩
      rw [List.append_nil]
      exact healthy.skip count
  | restart config seconds =>
    rcases healthy.restart roundTrip config seconds with ⟨after, ran, files, still⟩
    refine ⟨?_, ?_, layout, ?_⟩
    · rw [Succeeds, ran]
    · rw [OltpHybridStorage.step, ran]
      intro file member
      rw [files]
      exact member
    · rw [OltpHybridStorage.step, ran, List.append_nil]
      exact still

theorem Healthy.soundThroughout (roundTrip : codec.RoundTrip)
    (readsMetadata : ReadsMetadata Record) :
    ∀ {calls : List (StorageCall Record)} {storage : OltpHybridStorage Record}
      {layout : Layout Record} {records : List (ℕ × Record)},
      Healthy codec clock storage layout records → FlushesOnce codec clock calls storage →
      (∀ record ∈ records ++ acknowledged codec clock calls storage, record.1 < 2 ^ 64) →
      SoundThroughout codec clock readsMetadata calls records storage
  | [], _, _, _, healthy, _, range => by
    rw [acknowledged, List.append_nil] at range
    exact healthy.holds.answers range readsMetadata
  | call :: calls, storage, _, records, healthy, ⟨fresh, later⟩, range => by
    rw [acknowledged, ← List.append_assoc] at range
    rcases healthy.step roundTrip call fresh with ⟨succeeds, keeps, _, still⟩
    refine ⟨?_, succeeds, keeps, still.soundThroughout roundTrip readsMetadata later range⟩
    apply healthy.holds.answers _ readsMetadata
    intro record member
    apply range
    exact List.mem_append_left _ (List.mem_append_left _ member)

theorem Healthy.not_soundThroughout (roundTrip : codec.RoundTrip)
    (readsMetadata : ReadsMetadata Record) :
    ∀ {calls : List (StorageCall Record)} {storage : OltpHybridStorage Record}
      {layout : Layout Record} {records : List (ℕ × Record)},
      Healthy codec clock storage layout records → ¬ FlushesOnce codec clock calls storage →
      ¬ SoundThroughout codec clock readsMetadata calls records storage
  | [], _, _, _, _, again => absurd trivial again
  | call :: calls, storage, _, records, healthy, again => by
    rintro ⟨_, _, keeps, rest⟩
    by_cases fresh : Flushes codec clock storage call → storage.sstableCounter = 0 →
        storage.sstableFiles.rows = []
    · rcases healthy.step roundTrip call fresh with ⟨_, _, _, still⟩
      exact still.not_soundThroughout roundTrip readsMetadata
        (fun later => again ⟨fresh, later⟩) rest
    · simp only [Classical.not_imp] at fresh
      rcases fresh with ⟨flushes, zero, some⟩
      cases call with
      | restart config seconds => exact flushes
      | write call =>
        rw [OltpHybridStorage.step] at keeps
        rcases stepWrite_cases codec clock call storage with
          ⟨_, ran⟩ | ⟨fails, _⟩
        · rw [ran] at keeps
          exact healthy.overwrites flushes zero some keeps
        · exact fails flushes.1

end Runs

def referenceClock : RecordClock UInt8 where
  timestamp record := record.toNat
  inRange record := by
    have small := record.toNat_lt
    omega

/-- A storage without files, that flushes every record. -/
def freshStorage : OltpHybridStorage UInt8 :=
  created (WalManager.new referenceCodec [] 0) (.new ⟨256, 256⟩) ⟨256, 256⟩ .empty .empty

theorem freshStorage_created :
    create referenceCodec referenceClock ⟨256, 256⟩ [] .empty .empty 0 = .ok freshStorage := by
  decide +kernel

end OltpHybridStorage

end QAExchange
