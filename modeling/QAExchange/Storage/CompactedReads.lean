import QAExchange.Foundation.Interleaving
import QAExchange.Storage.LeveledInvariant

/-! # The hybrid storage and its compaction

The storage and the scheduler of the compaction have lists of SSTables of their own. A
round of the background task or of `trigger_compaction` copies the levels, executes a
task on the copy and then updates the levels, while other calls come in between.
-/

namespace QAExchange

open Foundation Action LeveledCompaction

variable {Record : Type}

structure CompactedStorage (Record : Type) where
  storage : OltpHybridStorage Record
  scheduler : CompactionScheduler
  acknowledged : List (ℕ × Record)

inductive CompactedCall (Record : Type)
  | write (call : StorageWrite Record)
  | recover
  | compact

inductive CompactedTask (Record : Type)
  | write (call : StorageWrite Record)
  | recover
  | copy
  | execute (task : CompactionTask)
  | update (result : CompactionResult)
  | done

namespace CompactedStorage

def onStorage (action : Action String (OltpHybridStorage Record) α) :
    Action String (CompactedStorage Record) α :=
  onPart storage (fun storage store => { store with storage := storage }) action

section Model

variable (codec : EntryCodec Record) (clock : RecordClock Record)
  (fileLength : SSTableFile Record → ℕ) (readsMetadata : ReadsMetadata Record)

def register (file : SSTableFile Record) (store : CompactedStorage Record) :
    CompactedStorage Record :=
  { store with scheduler := store.scheduler.registerSstable (.ofFile fileLength 0 file) }

/-- A flush, which counts up, registers the file that it has written. -/
def write (call : StorageWrite Record) (store : CompactedStorage Record) :
    CompactedStorage Record :=
  let written := OltpHybridStorage.stepWrite codec clock call store.storage
  let after : CompactedStorage Record := {
    storage := written.2
    scheduler := store.scheduler
    acknowledged := store.acknowledged ++ written.1 }
  if written.2.sstableCounter = store.storage.sstableCounter then after
  else after.register fileLength (fileAt written.2.sstableFiles written.2.sstableCounter)

def loadSSTable (file : SSTableFile Record) : Action String (CompactedStorage Record) Unit := do
  onStorage (OltpHybridStorage.loadSSTable file.number)
  update (register fileLength file)

def recover : Action String (CompactedStorage Record) Unit := do
  let files ← read fun store => store.storage.sstableFiles.rows
  forM files (loadSSTable fileLength)
  let walFiles ← read fun store => store.storage.wal.files
  onStorage (OltpHybridStorage.onMemtable
    (WalManager.replay codec (OltpHybridStorage.insertEntry clock) walFiles))

def withFiles (files : SSTableFiles Record) (store : CompactedStorage Record) :
    CompactedStorage Record :=
  { store with storage := { store.storage with sstableFiles := files } }

def advance (millis : ℕ) (store : CompactedStorage Record) :
    CompactedTask Record → CompactedTask Record × CompactedStorage Record
  | .write call => (.done, write codec clock fileLength call store)
  | .recover => (.done, (exec (recover codec clock fileLength) store).2)
  | .copy =>
    match shouldCompact store.scheduler.config millis store.scheduler.levelSstables with
    | some task => (.execute task, store)
    | none => (.done, store)
  | .execute task =>
    match exec (executeCompaction fileLength readsMetadata task) store.storage.sstableFiles with
    | (.ok result, files) => (.update result, store.withFiles files)
    | (.error _, files) => (.done, store.withFiles files)
  | .update result =>
    (.done, {
      store.withFiles (CompactionScheduler.removeFiles result store.storage.sstableFiles) with
      scheduler := store.scheduler.updateLevels result })
  | .done => (.done, store)

def start : CompactedCall Record → CompactedTask Record
  | .write call => .write call
  | .recover => .recover
  | .compact => .copy

def service : Service (CompactedStorage Record) (CompactedTask Record) (CompactedCall Record) ℕ where
  start := start
  advance := advance codec clock fileLength readsMetadata

/-- After `create`, before any call. -/
def begun (storage : OltpHybridStorage Record) :
    Pool (CompactedStorage Record) (CompactedTask Record) where
  shared := ⟨storage, .new .default, []⟩
  tasks := []

/-- Queries return what was acknowledged, and every SSTable that the storage or the
scheduler lists is there. -/
structure Sound (store : CompactedStorage Record) : Prop where
  answers : OltpHybridStorage.Answers clock readsMetadata store.storage store.acknowledged
  opened : ∀ sstable ∈ store.storage.sstables,
    ∃ file ∈ store.storage.sstableFiles.rows, file.number = sstable.filePath
  listed : ∀ level, ∀ info ∈ CompactionScheduler.listed store.scheduler.levelSstables level,
    ∃ file ∈ store.storage.sstableFiles.rows, file.number = info.filePath

def CopiesNoTask (millis : ℕ) (store : CompactedStorage Record) : CompactedTask Record → Prop
  | .copy => shouldCompact store.scheduler.config millis store.scheduler.levelSstables = none
  | _ => True

def FindsNoTask (pool : Pool (CompactedStorage Record) (CompactedTask Record)) :
    Turn (CompactedCall Record) ℕ → Prop
  | .call _ => True
  | .step millis index => ∀ task ∈ pool.tasks[index]?, CopiesNoTask millis pool.shared task

instance decidableCopiesNoTask (millis : ℕ) (store : CompactedStorage Record) :
    ∀ task : CompactedTask Record, Decidable (CopiesNoTask millis store task)
  | .copy => inferInstanceAs (Decidable (shouldCompact _ _ _ = none))
  | .write _ | .recover | .execute _ | .update _ | .done => .isTrue trivial

instance decidableFindsNoTask (pool : Pool (CompactedStorage Record) (CompactedTask Record)) :
    ∀ turn : Turn (CompactedCall Record) ℕ, Decidable (FindsNoTask pool turn)
  | .call _ => .isTrue trivial
  | .step _ index => inferInstanceAs (Decidable (∀ task ∈ pool.tasks[index]?, _))

def aloneTurns (millis : ℕ) (pool : Pool (CompactedStorage Record) (CompactedTask Record)) :
    List (Turn (CompactedCall Record) ℕ) :=
  [.call .compact, .step millis pool.tasks.length, .step millis pool.tasks.length,
    .step millis pool.tasks.length]

end Model

end CompactedStorage

end QAExchange

/-! ## What the storage reads beside its compaction

Until a round finds something to compact, the storage is that of the writes and the
recoveries. The first level update removes files that the storage has open.
-/

namespace QAExchange.CompactedStorage

open Foundation Action LeveledCompaction CompactionScheduler OltpHybridStorage

variable {Record : Type}

variable {codec : EntryCodec Record} {clock : RecordClock Record}
  {fileLength : SSTableFile Record → ℕ} {readsMetadata : ReadsMetadata Record}

/-- The log has all of the records, MemTable and files have them too, and the open files
`opened` are those of the directory, which are registered at level 0. -/
structure Uncompacted (codec : EntryCodec Record) (clock : RecordClock Record)
    (fileLength : SSTableFile Record → ℕ) (store : CompactedStorage Record)
    (layout : Layout Record) (opened : List (SSTableFile Record)) : Prop where
  log : WalManager.Ordered codec store.storage.wal layout [] store.acknowledged
  holds : Holds clock store.storage opened store.acknowledged
  all : ∀ file ∈ store.storage.sstableFiles.rows, file ∈ opened
  counted : ∀ file ∈ store.storage.sstableFiles.rows, file.number ≤ store.storage.sstableCounter
  complete : ∀ file ∈ store.storage.sstableFiles.rows, file.Complete
  registered : ∀ level, ∀ info ∈ listed store.scheduler.levelSstables level,
    ∃ file ∈ opened, info = .ofFile fileLength 0 file

variable {store : CompactedStorage Record} {layout : Layout Record}
  {opened : List (SSTableFile Record)}

theorem Uncompacted.sound (uncompacted : Uncompacted codec clock fileLength store layout opened)
    (range : ∀ record ∈ store.acknowledged, record.1 < 2 ^ 64) :
    Sound clock readsMetadata store := by
  have holds := uncompacted.holds
  refine ⟨holds.answers range readsMetadata, ?_, ?_⟩
  · intro sstable member
    rw [holds.opened.sstables] at member
    rcases List.mem_map.mp member with ⟨file, isFile, rfl⟩
    exact ⟨file, holds.opened.present file isFile, rfl⟩
  · intro level info member
    rcases uncompacted.registered level info member with ⟨file, isFile, rfl⟩
    exact ⟨file, holds.opened.present file isFile, rfl⟩

theorem Uncompacted.allRegistered
    (uncompacted : Uncompacted codec clock fileLength store layout opened) :
    LeveledStore.AllRegistered fileLength
      ⟨store.storage.sstableFiles, store.scheduler⟩ := by
  intro level info member
  rcases uncompacted.registered level info member with ⟨file, isFile, rfl⟩
  have present := uncompacted.holds.opened.present file isFile
  exact Registered.of_mem present (uncompacted.complete file present) 0

section

variable (uncompacted : Uncompacted codec clock fileLength store layout opened)
include uncompacted

theorem Uncompacted.skip (count : ℕ) :
    Uncompacted codec clock fileLength { store with storage := store.storage.skipped count }
      layout opened :=
  { uncompacted with
    log := uncompacted.log.skipped count
    holds := uncompacted.holds.skip count }

theorem Uncompacted.stored {call : StorageWrite Record} (writes : call.Writes codec store.storage) :
    ∃ layout', Uncompacted codec clock fileLength
      { store with
        storage := store.storage.stored codec clock call
        acknowledged := store.acknowledged ++
          (call.entries codec store.storage).map WalEntry.numberedRecord } layout' opened := by
  have log := uncompacted.log.wroteNumbered call.seconds call.records writes.2.stored writes.1
  exact ⟨_, log, uncompacted.holds.store codec call, uncompacted.all, uncompacted.counted,
    uncompacted.complete, uncompacted.registered⟩

theorem Uncompacted.flush (some : store.storage.memtable.data.rows ≠ []) :
    Uncompacted codec clock fileLength
      (register fileLength store.storage.nextSSTable { store with storage := store.storage.flushed })
      layout (opened ++ [store.storage.nextSSTable]) := by
  have fresh : ∀ file ∈ opened, file.number ≠ store.storage.sstableCounter + 1 := by
    intro file member
    have bound := uncompacted.counted file (uncompacted.holds.opened.present file member)
    omega
  have rows : ∀ file ∈ store.storage.flushed.sstableFiles.rows,
      file = store.storage.nextSSTable ∨ file ∈ store.storage.sstableFiles.rows :=
    fun file member => (KeyedRows.mem_insert.mp member).imp_right And.left
  refine ⟨uncompacted.log, uncompacted.holds.flush fresh, ?_, ?_, ?_, ?_⟩
  · intro file member
    rcases rows file member with rfl | old
    · simp
    · exact List.mem_append_left _ (uncompacted.all file old)
  · intro file member
    rcases rows file member with rfl | old
    · exact le_refl (store.storage.sstableCounter + 1)
    · exact (uncompacted.counted file old).trans (Nat.le_succ _)
  · intro file member
    rcases rows file member with rfl | old
    · apply SSTableFile.complete_of _ some
      intro entry inside
      rcases (uncompacted.holds.complete entry).mp (List.mem_append_left _ inside) with
        ⟨record, _, rfl⟩
      have bounds := clock.inRange record.2
      change -2 ^ 63 ≤ clock.timestamp record.2 ∧ clock.timestamp record.2 ≤ 2 ^ 63 - 1
      omega
    · exact uncompacted.complete file old
  · intro level info member
    change info ∈ listed (push _ _) level at member
    rw [listed_push] at member
    split_ifs at member
    · rcases List.mem_append.mp member with old | isNew
      · rcases uncompacted.registered level info old with ⟨file, isFile, same⟩
        exact ⟨file, List.mem_append_left _ isFile, same⟩
      · exact ⟨_, List.mem_append_right _ (List.mem_singleton_self _),
          List.mem_singleton.mp isNew⟩
    · rcases uncompacted.registered level info member with ⟨file, isFile, same⟩
      exact ⟨file, List.mem_append_left _ isFile, same⟩

theorem Uncompacted.write (call : StorageWrite Record) :
    ∃ layout' opened', Uncompacted codec clock fileLength
      (CompactedStorage.write codec clock fileLength call store) layout' opened' := by
  rw [CompactedStorage.write]
  rcases stepWrite_cases codec clock call store.storage with ⟨writes, ran⟩ | ⟨_, count, ran⟩
  · rcases uncompacted.stored writes with ⟨layout', isStored⟩
    rw [ran]
    simp only
    rw [settled]
    split_ifs with full same same
    · exact absurd same (Nat.succ_ne_self _)
    · have isNew : fileAt (store.storage.stored codec clock call).flushed.sstableFiles
          (store.storage.stored codec clock call).flushed.sstableCounter =
            (store.storage.stored codec clock call).nextSSTable :=
        fileAt_of_mem (KeyedRows.mem_insert.mpr (.inl rfl))
      rw [isNew]
      exact ⟨layout', _, isStored.flush (stored_ne_nil codec clock writes.1 store.storage)⟩
    · exact ⟨layout', opened, isStored⟩
    · exact absurd rfl same
  · rw [ran]
    simp only [List.append_nil]
    split_ifs with same
    · exact ⟨layout, opened, uncompacted.skip count⟩
    · exact absurd rfl same

end

def registeredAll (fileLength : SSTableFile Record → ℕ) (files : List (SSTableFile Record))
    (scheduler : CompactionScheduler) : CompactionScheduler :=
  files.foldl (fun scheduler file => scheduler.registerSstable (.ofFile fileLength 0 file)) scheduler

theorem mem_registeredAll {files : List (SSTableFile Record)} {scheduler : CompactionScheduler}
    {level : ℕ} {info : SSTableInfo}
    (member : info ∈ listed (registeredAll fileLength files scheduler).levelSstables level) :
    info ∈ listed scheduler.levelSstables level ∨
      ∃ file ∈ files, info = .ofFile fileLength 0 file := by
  induction files generalizing scheduler with
  | nil => exact .inl member
  | cons file files induction =>
    rcases induction member with before | ⟨other, isOther, same⟩
    · change info ∈ listed (push _ _) level at before
      rw [listed_push] at before
      split_ifs at before
      · rcases List.mem_append.mp before with old | isNew
        · exact .inl old
        · exact .inr ⟨file, by simp, List.mem_singleton.mp isNew⟩
      · exact .inl before
    · exact .inr ⟨other, List.mem_cons_of_mem _ isOther, same⟩

theorem exec_forM_loadSSTable {store : CompactedStorage Record}
    (present : ∀ file ∈ files, file ∈ store.storage.sstableFiles.rows) :
    exec (forM files (loadSSTable fileLength)) store =
      (.ok (), { store with
        storage := store.storage.loaded files
        scheduler := registeredAll fileLength files store.scheduler }) := by
  induction files generalizing store with
  | nil => simp [loaded, registeredAll]
  | cons file files induction =>
    have loads : exec (loadSSTable fileLength file) store =
        (.ok (), register fileLength file
          { store with storage := store.storage.loaded [file] }) := by
      rw [loadSSTable, exec_bind, onStorage, exec_onPart,
        exec_loadSSTable (present file (by simp))]
      rfl
    have others : ∀ other ∈ files, other ∈ (register fileLength file
        { store with storage := store.storage.loaded [file] }).storage.sstableFiles.rows :=
      fun other member => present other (List.mem_cons_of_mem _ member)
    rw [List.forM_cons, exec_bind_ok loads, induction others]
    simp [loaded, registeredAll, register]

/-- A recovery succeeds: it opens and registers every file once more, and puts the records
of the log into the MemTable. -/
theorem Uncompacted.recover (roundTrip : codec.RoundTrip)
    (uncompacted : Uncompacted codec clock fileLength store layout opened) :
    ∃ after, exec (CompactedStorage.recover codec clock fileLength) store = (.ok (), after) ∧
      Uncompacted codec clock fileLength after layout
        (opened ++ store.storage.sstableFiles.rows) := by
  have holds := uncompacted.holds
  let files := store.storage.sstableFiles.rows
  let reopened : CompactedStorage Record := { store with
    storage := store.storage.loaded files
    scheduler := registeredAll fileLength files store.scheduler }
  have loads : exec (forM files (loadSSTable fileLength)) store = (.ok (), reopened) :=
    exec_forM_loadSSTable fun file member => member
  rcases exec_replayInto clock roundTrip uncompacted.log.stores.stored reopened.storage with
    ⟨memtable, ran, data⟩
  rw [← uncompacted.log.stores.files] at ran
  have logged : layout.entries.map WalEntry.numberedRecord = store.acknowledged := by
    simpa using uncompacted.log.appended_eq.symm
  rw [← Layout.entries, logged] at data
  have agree : ∀ record ∈ store.acknowledged, ∀ row ∈ store.storage.memtable.data.rows,
      row.key.sequence = record.1 → row = .fromWal clock record.1 record.2 := by
    intro record isRecord row member number
    rcases (holds.complete row).mp (List.mem_append_left _ member) with ⟨other, isOther, rfl⟩
    rw [record_eq_of_number holds.numbers isOther isRecord number]
  have inTable : ∀ row, row ∈ memtable.data.rows ↔ row ∈ store.storage.memtable.data.rows ∨
      ∃ record ∈ store.acknowledged, row = .fromWal clock record.1 record.2 := by
    intro row
    rw [data]
    exact OltpMemTable.mem_insertAll holds.numbers agree row
  refine ⟨{ reopened with storage := { reopened.storage with memtable := memtable } }, ?_, ?_⟩
  · rw [CompactedStorage.recover, exec_bind_ok (exec_read _ _)]
    change exec (do
      forM files (loadSSTable fileLength)
      let walFiles ← read fun store => store.storage.wal.files
      onStorage (onMemtable (WalManager.replay codec (insertEntry clock) walFiles))) store = _
    rw [exec_bind_ok loads, exec_bind_ok (exec_read _ _), onStorage, exec_onPart]
    have replays : exec (onMemtable (WalManager.replay codec (insertEntry clock)
        reopened.storage.wal.files)) reopened.storage = _ := ran
    rw [replays]
  · refine ⟨uncompacted.log, ⟨⟨?_, ?_, ?_⟩, ?_, holds.numbers, holds.below⟩, ?_,
      uncompacted.counted, uncompacted.complete, ?_⟩
    · change store.storage.sstables ++ _ = _
      rw [holds.opened.sstables, List.map_append]
    · intro file member
      rcases List.mem_append.mp member with old | again
      · exact holds.opened.present file old
      · exact again
    · intro file member
      rcases List.mem_append.mp member with old | again
      · exact holds.opened.sound file old
      · exact holds.opened.sound file (uncompacted.all file again)
    · intro row
      have known := holds.complete row
      rw [contents, List.mem_append] at known ⊢
      change row ∈ memtable.data.rows ∨ _ ↔ _
      rw [inTable, List.flatMap_append, List.mem_append]
      constructor
      · rintro ((old | isRecord) | old | again)
        · exact known.mp (.inl old)
        · exact isRecord
        · exact known.mp (.inr old)
        · rcases List.mem_flatMap.mp again with ⟨file, isFile, inside⟩
          exact known.mp (.inr (List.mem_flatMap.mpr ⟨file, uncompacted.all file isFile, inside⟩))
      · intro isRecord
        exact .inl (.inr isRecord)
    · intro file member
      exact List.mem_append_right _ member
    · intro level info member
      rcases mem_registeredAll member with old | ⟨file, isFile, same⟩
      · rcases uncompacted.registered level info old with ⟨file, isFile, same⟩
        exact ⟨file, List.mem_append_left _ isFile, same⟩
      · exact ⟨file, List.mem_append_right _ isFile, same⟩

/-! ## Runs -/

section Runs

def Idle : CompactedTask Record → Prop
  | .execute _ | .update _ => False
  | _ => True

def Untouched (codec : EntryCodec Record) (clock : RecordClock Record)
    (fileLength : SSTableFile Record → ℕ)
    (pool : Pool (CompactedStorage Record) (CompactedTask Record)) : Prop :=
  (∃ layout opened, Uncompacted codec clock fileLength pool.shared layout opened) ∧
    ∀ task ∈ pool.tasks, Idle task

theorem untouched_begun (roundTrip : codec.RoundTrip) {config : OltpHybridConfig} {seconds : ℤ}
    {storage : OltpHybridStorage Record}
    (isCreated : create codec clock config [] .empty .empty seconds = .ok storage) :
    Untouched codec clock fileLength (begun storage) := by
  rcases healthy_new roundTrip isCreated with ⟨layout, healthy⟩
  have none : storage.sstableFiles.rows = [] := by
    have log : WalManager.Ordered codec (WalManager.new codec [] seconds) ⟨[⟨1, seconds, []⟩], true⟩
        [] ([] : List (ℕ × Record)) := WalManager.ordered_new codec seconds .default
    rcases create_eq clock roundTrip log.stores config (.empty : SSTableFiles Record) .empty with
      ⟨memtable, _, same⟩
    rw [same] at isCreated
    cases isCreated
    rfl
  have holds : Holds clock storage [] [] := none ▸ healthy.holds
  have noFile : ∀ file, file ∉ storage.sstableFiles.rows := by
    intro file member
    rw [none] at member
    cases member
  refine ⟨⟨layout, [], healthy.log, holds, ?_, ?_, ?_, ?_⟩, ?_⟩
  · exact fun file member => absurd member (noFile file)
  · exact fun file member => absurd member (noFile file)
  · exact fun file member => absurd member (noFile file)
  · intro level info member
    cases member
  · intro task member
    cases member

theorem Uncompacted.advance (roundTrip : codec.RoundTrip)
    (uncompacted : Uncompacted codec clock fileLength store layout opened) (idle : Idle task)
    (copiesNone : CopiesNoTask millis store task) :
    (∃ layout' opened', Uncompacted codec clock fileLength
        (advance codec clock fileLength readsMetadata millis store task).2 layout' opened') ∧
      Idle (advance codec clock fileLength readsMetadata millis store task).1 := by
  cases task with
  | write call => exact ⟨uncompacted.write call, trivial⟩
  | recover =>
    rcases uncompacted.recover roundTrip with ⟨after, ran, still⟩
    rw [CompactedStorage.advance, ran]
    exact ⟨⟨layout, _, still⟩, trivial⟩
  | copy =>
    have none : shouldCompact store.scheduler.config millis store.scheduler.levelSstables =
        none := copiesNone
    rw [CompactedStorage.advance, none]
    exact ⟨⟨layout, opened, uncompacted⟩, trivial⟩
  | execute task => cases idle
  | update result => cases idle
  | done => exact ⟨⟨layout, opened, uncompacted⟩, trivial⟩

theorem Untouched.run (roundTrip : codec.RoundTrip) {turns : List (Turn (CompactedCall Record) ℕ)}
    {pool : Pool (CompactedStorage Record) (CompactedTask Record)}
    (obeys : (service codec clock fileLength readsMetadata).Obeys FindsNoTask turns pool)
    (untouched : Untouched codec clock fileLength pool) :
    Untouched codec clock fileLength
      ((service codec clock fileLength readsMetadata).run turns pool) := by
  apply Service.run_preserves _ (Untouched codec clock fileLength) _ _ turns pool obeys untouched
  · rintro pool call ⟨uncompacted, idle⟩
    refine ⟨uncompacted, ?_⟩
    intro task member
    rcases List.mem_append.mp member with old | isNew
    · exact idle task old
    · rw [List.mem_singleton.mp isNew]
      cases call <;> trivial
  · rintro shared before task after millis ⟨⟨layout, opened, uncompacted⟩, idle⟩ findsNone
    have isTask : Idle task := idle task (by simp)
    have copiesNone : CopiesNoTask millis shared task := findsNone task (by simp)
    rcases uncompacted.advance roundTrip isTask copiesNone with ⟨still, isIdle⟩
    refine ⟨still, ?_⟩
    intro other member
    rcases List.mem_append.mp member with old | member
    · exact idle other (List.mem_append_left _ old)
    · rcases List.mem_cons.mp member with rfl | old
      · exact isIdle
      · exact idle other (List.mem_append_right _ (List.mem_cons_of_mem _ old))

theorem run_aloneTurns (store : CompactedStorage Record) (tasks : List (CompactedTask Record))
    (millis : ℕ) :
    ((service codec clock fileLength readsMetadata).run
        (aloneTurns millis ⟨store, tasks⟩) ⟨store, tasks⟩).shared =
      let next := fun (moved : CompactedTask Record × CompactedStorage Record) =>
        advance codec clock fileLength readsMetadata millis moved.2 moved.1
      (next (next (next (.copy, store)))).2 := by
  have called : (service codec clock fileLength readsMetadata).next ⟨store, tasks⟩
      (.call .compact : Turn (CompactedCall Record) ℕ) = ⟨store, tasks ++ [.copy]⟩ := rfl
  rw [aloneTurns, Service.run_cons, called, Service.run_cons, Service.next_last,
    Service.run_cons, Service.next_last, Service.run_cons, Service.next_last, Service.run_nil]
  rfl

/-- A round that nothing comes between leaves the storage sound if and only if it finds
nothing to compact. -/
theorem Uncompacted.alone_iff (uncompacted : Uncompacted codec clock fileLength store layout opened)
    (range : ∀ record ∈ store.acknowledged, record.1 < 2 ^ 64)
    (tasks : List (CompactedTask Record)) (millis : ℕ) :
    Sound clock readsMetadata ((service codec clock fileLength readsMetadata).run
        (aloneTurns millis ⟨store, tasks⟩) ⟨store, tasks⟩).shared ↔
      shouldCompact store.scheduler.config millis store.scheduler.levelSstables = none := by
  rw [run_aloneTurns]
  cases found : shouldCompact store.scheduler.config millis store.scheduler.levelSstables with
  | none =>
    apply iff_of_true _ rfl
    simp only [CompactedStorage.advance, found]
    exact uncompacted.sound range
  | some task =>
    apply iff_of_false _ (Option.some_ne_none task)
    have all := uncompacted.allRegistered
    rcases all.ofTask found with ⟨nonempty, registered⟩
    have executes := exec_executeCompaction readsMetadata registered
    simp only [CompactedStorage.advance, found, executes]
    intro sound
    -- the first file of the task is removed, but the storage has it open
    rcases List.exists_mem_of_ne_nil _ nonempty with ⟨info, member⟩
    have isListed : ∃ level, info ∈ listed store.scheduler.levelSstables level := by
      rcases shouldCompact_cases found with ⟨level, sources, _, sub, _, _, _, sstables⟩
      rw [sstables] at member
      rcases List.mem_append.mp member with isSource | isNext
      · exact ⟨level, sub isSource⟩
      · exact ⟨level + 1, (List.mem_filter.mp isNext).1⟩
    rcases isListed with ⟨level, isListed⟩
    rcases uncompacted.registered level info isListed with ⟨file, isFile, same⟩
    have isOpen : RkyvSSTable.reads file ∈ store.storage.sstables := by
      rw [uncompacted.holds.opened.sstables]
      exact List.mem_map_of_mem isFile
    rcases sound.opened _ isOpen with ⟨left, isLeft, number⟩
    have stays := (mem_removeFiles.mp isLeft).2
    apply stays
    rw [number]
    exact List.mem_map.mpr ⟨info, member, congrArg SSTableInfo.filePath same⟩

end Runs

/-- As long as no round finds something to compact, queries return what was acknowledged
and every listed SSTable is there. Then the first round that does find something, and that
nothing comes between, ends this. -/
theorem sound_until_compaction (roundTrip : codec.RoundTrip) (clock : RecordClock Record)
    (fileLength : SSTableFile Record → ℕ) (readsMetadata : ReadsMetadata Record)
    {config : OltpHybridConfig} {seconds : ℤ} {storage : OltpHybridStorage Record}
    (isCreated : create codec clock config [] .empty .empty seconds = .ok storage)
    {turns : List (Turn (CompactedCall Record) ℕ)}
    (findsNone : (service codec clock fileLength readsMetadata).Obeys FindsNoTask turns
      (begun storage)) (range : ∀ record ∈ ((service codec clock fileLength readsMetadata).run turns
      (begun storage)).shared.acknowledged, record.1 < 2 ^ 64) :
    let service := service codec clock fileLength readsMetadata
    let last := service.run turns (begun storage)
    Sound clock readsMetadata last.shared ∧
      ∀ millis, (Sound clock readsMetadata (service.run (aloneTurns millis last) last).shared ↔
        CopiesNoTask millis last.shared .copy) := by
  have untouched := (untouched_begun roundTrip isCreated).run roundTrip findsNone
  rcases untouched with ⟨⟨layout, opened, uncompacted⟩, _⟩
  intro service last
  constructor
  · exact uncompacted.sound range
  · intro millis
    exact uncompacted.alone_iff range last.tasks millis

def referenceService :
    Service (CompactedStorage UInt8) (CompactedTask UInt8) (CompactedCall UInt8) ℕ :=
  service referenceCodec referenceClock (fun file => file.entries.length) (fun _ _ => .ok [])

def recoveryThenRound : List (Turn (CompactedCall UInt8) ℕ) :=
  [.call (.write (.write 0 ⟨0, 5⟩)), .step 0 0, .call .recover, .step 0 1, .call .compact,
    .step 100 2, .call (.write (.write 0 ⟨0, 3⟩)), .step 0 3]

def fourFlushesThenRound : List (Turn (CompactedCall UInt8) ℕ) :=
  [.call (.write (.write 0 ⟨0, 5⟩)), .step 0 0, .call (.write (.write 0 ⟨0, 3⟩)), .step 0 1,
    .call (.write (.write 0 ⟨0, 7⟩)), .step 0 2, .call (.write (.write 0 ⟨0, 9⟩)), .step 0 3,
    .call .compact, .step 100 4, .step 100 4, .step 100 4]

theorem recoveryThenRound_sound :
    let last := referenceService.run recoveryThenRound (begun freshStorage)
    Sound referenceClock (fun _ _ => .ok []) last.shared ∧
      ∀ millis, (Sound referenceClock (fun _ _ => .ok [])
          (referenceService.run (aloneTurns millis last) last).shared ↔
        CopiesNoTask millis last.shared .copy) := by
  have acknowledges : (referenceService.run recoveryThenRound
      (begun freshStorage)).shared.acknowledged = [(1, 5), (2, 3)] := by
    decide +kernel
  apply sound_until_compaction ReferenceCodec.roundTrip referenceClock
    (fun file => file.entries.length) (fun _ _ => .ok []) freshStorage_created
  · decide +kernel
  · intro record member
    change record ∈ (referenceService.run recoveryThenRound
      (begun freshStorage)).shared.acknowledged at member
    rw [acknowledges] at member
    revert record
    decide

/-- The round removes the files that the storage has open. -/
theorem fourFlushesThenRound_unsound :
    ¬ Sound referenceClock (fun _ _ => .ok [])
      (referenceService.run fourFlushesThenRound (begun freshStorage)).shared := by
  intro sound
  have fails : ((referenceService.run fourFlushesThenRound
      (begun freshStorage)).shared.storage.rangeQuery (fun _ _ => .ok []) (-2 ^ 63)
        (2 ^ 63 - 1)).toOption = none := by
    decide +kernel
  rcases sound.answers (-2 ^ 63) (2 ^ 63 - 1) with ⟨rows, found, _⟩
  rw [found] at fails
  cases fails

end QAExchange.CompactedStorage
