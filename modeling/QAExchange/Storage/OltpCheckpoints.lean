import QAExchange.Storage.OltpRestarts

/-! # What is left of the log

A checkpoint at the next sequence number removes every file but one that was begun
at that number. Without a live file in the directory the entries are lost until the
manager begins a new one.
-/

namespace QAExchange

open Foundation Action Segment

variable {Record : Type}

namespace Layout

theorem linked_append_eq (layout : Layout Record) (rotates : Bool) (start : ℕ) (seconds : ℤ)
    (entries : List (WalEntry Record)) :
    (layout.append rotates start seconds entries).linked = (rotates || layout.linked) := by
  cases rotates <;> rfl

theorem entries_append_eq {layout : Layout Record}
    (nonempty : layout.linked = true → layout.segments ≠ []) (rotates : Bool) (start : ℕ)
    (seconds : ℤ) (entries : List (WalEntry Record)) :
    (layout.append rotates start seconds entries).entries =
      layout.entries ++ if rotates || layout.linked then entries else [] := by
  cases linked : layout.linked with
  | true => rw [entries_append linked (nonempty linked), Bool.or_true, if_pos rfl]
  | false =>
    cases rotates with
    | true =>
      have some : (layout.rotate start seconds).segments ≠ [] := by simp [rotate]
      have begun := entries_write rfl some entries
      rw [entries_rotate] at begun
      exact begun
    | false => simp [append, write, linked, Layout.entries]

end Layout

namespace WalManager

/-- The files that the directory still has, in the order of their numbers. If the live
file is not among them, there are none. -/
structure Remains (codec : EntryCodec Record) (manager : WalManager) (layout : Layout Record) :
    Prop where
  stores : Stores codec manager layout
  buffered : manager.groupCommitBuffer = []
  lost : layout.linked = false → layout.segments = []
  increasing : (layout.entries.map WalEntry.sequence).Pairwise (· < ·)
  below : ∀ entry ∈ layout.entries, entry.sequence < manager.currentSequence
  anchored : ∀ segment ∈ layout.segments, segment.start ≤ 1 ∨
    ∃ entry ∈ segment.entries, segment.start ≤ entry.sequence + 1

section Remains

variable {codec : EntryCodec Record}

theorem remains_new (codec : EntryCodec Record) (seconds : ℤ) :
    Remains codec (new codec [] seconds) ⟨[⟨1, seconds, []⟩], true⟩ where
  stores := stores_new codec seconds .default
  buffered := rfl
  lost := by simp
  increasing := by simp [Layout.entries]
  below := by simp [Layout.entries]
  anchored := by simp

theorem Remains.ordered (remains : Remains codec manager layout) (linked : layout.linked = true) :
    Ordered codec manager layout [] (layout.entries.map WalEntry.numberedRecord) where
  stores := remains.stores
  linked := linked
  buffered := remains.buffered
  bufferStored := by simp
  increasing := by
    rw [List.append_nil]
    exact remains.increasing
  below := by
    rw [List.append_nil]
    exact remains.below
  newer := by simp
  appended_eq := by rw [List.append_nil]

theorem Remains.advanced (remains : Remains codec manager layout) (count : ℕ) :
    Remains codec (manager.advanced count) layout :=
  { remains with
    stores := remains.stores.advanced count
    below := fun entry member => (remains.below entry member).trans_le (Nat.le_add_right _ _) }

theorem Remains.wroteNumbered (remains : Remains codec manager layout) (seconds : ℤ)
    (stored : ∀ entry ∈ WalEntry.numberedFrom codec manager.currentSequence records,
      entry.Stored codec) (some : records ≠ []) :
    let entries := WalEntry.numberedFrom codec manager.currentSequence records
    let after := manager.advanced records.length
    Remains codec (wrote seconds (entries.map (WalEntry.preSerialized codec)) after)
      (layout.append (after.full (entries.map (WalEntry.preSerialized codec)))
        after.currentSequence seconds entries) := by
  intro entries after
  have positive : 0 < records.length := List.length_pos_of_ne_nil some
  have wrote := (remains.stores.advanced records.length).wrote stored seconds
    (fun _ segment member => by
      have bound := remains.stores.bounded segment member
      simp only [WalManager.advanced]
      omega)
  generalize isFull : after.full (entries.map (WalEntry.preSerialized codec)) = rotates at wrote ⊢
  have contents := Layout.entries_append_eq remains.stores.nonempty rotates
    after.currentSequence seconds entries
  have isNew : ∀ entry ∈ (layout.append rotates after.currentSequence seconds entries).entries,
      entry ∈ layout.entries ∨ entry ∈ entries := by
    intro entry member
    rw [contents] at member
    split_ifs at member with receives
    · exact List.mem_append.mp member
    · exact .inl (by simpa using member)
  refine ⟨wrote, ?_, ?_, ?_, ?_, ?_⟩
  · rw [wrote_groupCommitBuffer]
    exact remains.buffered
  · rw [Layout.linked_append_eq]
    intro unlinked
    rcases Bool.or_eq_false_iff.mp unlinked with ⟨stays, unlinked⟩
    rw [stays]
    simp [Layout.append, Layout.write, unlinked, remains.lost unlinked]
  · rw [contents, List.map_append, List.pairwise_append]
    refine ⟨remains.increasing, ?_, ?_⟩
    · split_ifs
      · rw [WalEntry.sequence_numberedFrom]
        exact List.pairwise_lt_range'
      · exact List.Pairwise.nil
    · intro early isEarly late isLate
      rcases List.mem_map.mp isEarly with ⟨old, isOld, rfl⟩
      rcases List.mem_map.mp isLate with ⟨entry, member, rfl⟩
      split_ifs at member with receives
      · have small := remains.below old isOld
        have large := (WalEntry.mem_numberedFrom member).1
        omega
      · cases member
  · intro entry member
    rw [wrote_currentSequence]
    change entry.sequence < manager.currentSequence + records.length
    rcases isNew entry member with old | added
    · have small := remains.below entry old
      omega
    · exact (WalEntry.mem_numberedFrom added).2
  · -- the last of the new entries has the number before the next one
    have last : manager.currentSequence + records.length - 1 ∈ entries.map WalEntry.sequence := by
      rw [WalEntry.sequence_numberedFrom, List.mem_range'_1]
      omega
    rcases List.mem_map.mp last with ⟨entry, isEntry, number⟩
    intro segment member
    cases rotates with
    | true =>
      let begun : Segment Record := ⟨after.currentSequence, seconds, []⟩
      have ends : (layout.append true after.currentSequence seconds entries).segments =
          layout.segments ++ [begun.add entries] := by
        simp only [Layout.append, Layout.rotate, Layout.write, if_true]
        exact Layout.addToLast_concat _ _ begun
      rw [ends] at member
      rcases List.mem_append.mp member with old | added
      · exact remains.anchored segment old
      · rw [List.mem_singleton.mp added]
        refine .inr ⟨entry, List.mem_append_right _ isEntry, ?_⟩
        change manager.currentSequence + records.length ≤ _
        omega
    | false =>
      cases linked : layout.linked with
      | false =>
        simp only [Layout.append, Layout.write, linked, Bool.false_eq_true, if_false] at member
        exact remains.anchored segment member
      | true =>
        rcases remains.stores.live linked with ⟨init, live, isConcat, _, _⟩
        simp only [Layout.append, Layout.write, linked, if_true, isConcat,
          Layout.addToLast_concat] at member
        rcases List.mem_append.mp member with old | added
        · exact remains.anchored segment (by simp [isConcat, old])
        · rw [List.mem_singleton.mp added]
          rcases remains.anchored live (by simp [isConcat]) with first | ⟨old, isOld, behind⟩
          · exact .inl first
          · exact .inr ⟨old, List.mem_append_left _ isOld, behind⟩

theorem Remains.live (remains : Remains codec manager layout)
    (linked : (layout.truncate manager.currentSequence).linked = true) :
    ∃ live, (layout.truncate manager.currentSequence).segments = [live] ∧
      live ∈ layout.segments ∧ live.start = manager.currentSequence := by
  simp only [Layout.truncate, Bool.and_eq_true, Option.any_eq_true, decide_eq_true_iff] at linked
  rcases linked with ⟨linked, last, isLast, large⟩
  rcases remains.stores.live linked with ⟨init, live, isConcat, _, older⟩
  have same : live = last := by
    rw [isConcat, List.getLast?_concat] at isLast
    exact Option.some.inj isLast
  have member : live ∈ layout.segments := by simp [isConcat]
  have bound := remains.stores.bounded live member
  subst same
  refine ⟨live, ?_, member, by omega⟩
  rw [Layout.truncate, isConcat, List.filter_append]
  have none : init.filter (fun segment => manager.currentSequence ≤ segment.start) = [] := by
    apply List.filter_eq_nil_iff.mpr
    intro segment inside
    have smaller := older segment inside
    rw [decide_eq_true_iff]
    omega
  rw [none]
  simp [large]

theorem Remains.truncate_unlinked (remains : Remains codec manager layout)
    (unlinked : (layout.truncate manager.currentSequence).linked = false) :
    (layout.truncate manager.currentSequence).segments = [] := by
  cases linked : layout.linked with
  | false =>
    rw [Layout.truncate, remains.lost linked]
    rfl
  | true =>
    rcases remains.stores.live linked with ⟨init, live, isConcat, _, older⟩
    simp only [Layout.truncate, linked, Bool.true_and, isConcat, List.getLast?_concat,
      Option.any_some, decide_eq_false_iff_not] at unlinked
    apply List.filter_eq_nil_iff.mpr
    intro segment member
    rw [decide_eq_true_iff]
    rw [isConcat] at member
    rcases List.mem_append.mp member with inside | isLast
    · have smaller := older segment inside
      omega
    · rw [List.mem_singleton.mp isLast]
      exact unlinked

theorem Remains.truncate (remains : Remains codec manager layout) :
    Remains codec (manager.removed ((layout.segments.map Segment.start).filter fun start =>
        start < manager.currentSequence)) (layout.truncate manager.currentSequence) := by
  have kept : (layout.truncate manager.currentSequence).entries.Sublist layout.entries :=
    List.Sublist.flatMap List.filter_sublist _
  refine ⟨remains.stores.truncate _, remains.buffered, remains.truncate_unlinked,
    remains.increasing.sublist (kept.map _), ?_, ?_⟩
  · intro entry member
    exact remains.below entry (kept.subset member)
  · intro segment member
    exact remains.anchored segment (List.mem_filter.mp member).1

/-- The log that is opened again has the same entries. Where there was a file, the
numbers go on behind those of the entries. -/
theorem Remains.reopen (roundTrip : codec.RoundTrip) (remains : Remains codec manager layout)
    (seconds : ℤ) :
    ∃ layout', Stores codec (new codec manager.files seconds) layout' ∧
      layout'.entries = layout.entries ∧
      (layout.linked = true → 1 < (new codec manager.files seconds).currentSequence ∧
        ∀ entry ∈ layout.entries,
          entry.sequence < (new codec manager.files seconds).currentSequence) := by
  cases linked : layout.linked with
  | false =>
    have none : manager.files = [] := by
      rw [remains.stores.files, remains.lost linked]
      rfl
    rw [none]
    refine ⟨_, stores_new codec seconds .default, ?_, by simp⟩
    simp [Layout.entries, remains.lost linked]
  | true =>
    have anchored : Anchored layout := by
      intro segment member
      apply (remains.anchored segment member).imp_right
      rintro ⟨entry, inside, behind⟩
      exact ⟨entry, List.mem_flatMap.mpr ⟨segment, member, inside⟩, behind⟩
    have reopened := (remains.ordered linked).reopen roundTrip anchored seconds
    refine ⟨layout, reopened.stores, rfl, fun _ => ⟨?_, ?_⟩⟩
    · rcases remains.stores.live linked with ⟨init, last, isConcat, _, _⟩
      have files : manager.files = init.map (toFile codec) ++ [last.toFile codec] := by
        rw [remains.stores.files, isConcat]
        simp
      rw [files, new_concat]
      have least := (foldl_max_spec ((init.map (toFile codec) ++ [last.toFile codec]).flatMap
        (scanFile codec)) 1).1
      change 1 < _ + 1
      omega
    · intro entry member
      exact reopened.below entry (by simpa using member)

end Remains

end WalManager

end QAExchange

/-! ## Checkpoints of the hybrid storage

A checkpoint lists the SSTables and truncates the log, but the MemTable is in neither
of them. What a restart finds of it is what the live file of the log has, if that file
is not among the removed ones.
-/

namespace QAExchange

open Foundation Action WalManager

variable {Record : Type}

inductive SessionCall (Record : Type)
  | write (call : StorageWrite Record)
  | createCheckpoint

def SessionCall.records : SessionCall Record → List (Stamped Record)
  | .write call => call.records
  | .createCheckpoint => []

namespace OltpHybridStorage

section Model

variable (codec : EntryCodec Record) (clock : RecordClock Record)

/-- The records that a call acknowledges, and the storage after it. -/
def stepSession : SessionCall Record → OltpHybridStorage Record →
    List (ℕ × Record) × OltpHybridStorage Record
  | .write call, storage => stepWrite codec clock call storage
  | .createCheckpoint, storage => ([], (exec createCheckpoint storage).2)

/-- All that a run acknowledges, and the storage after it. -/
def runSession : List (SessionCall Record) → OltpHybridStorage Record →
    List (ℕ × Record) × OltpHybridStorage Record
  | [], storage => ([], storage)
  | call :: calls, storage =>
    let first := stepSession codec clock call storage
    let rest := runSession calls first.2
    (first.1 ++ rest.1, rest.2)

/-- `create` on the same directories, and `recover_from_checkpoint`. -/
def restartFromCheckpoint (config : OltpHybridConfig) (seconds : ℤ) :
    Action String (OltpHybridStorage Record) Unit := do
  let before ← read id
  let created ← result (create codec clock config before.wal.files before.sstableFiles
    before.checkpointFiles seconds)
  update fun _ => created
  recoverFromCheckpoint codec clock

/-- The storage after the restart that follows the run. -/
def restarted (config : OltpHybridConfig) (seconds : ℤ) (calls : List (SessionCall Record))
    (storage : OltpHybridStorage Record) : OltpHybridStorage Record :=
  (exec (restartFromCheckpoint codec clock config seconds) (runSession codec clock calls storage).2).2

/-- Before and after each call a query returns what was acknowledged. -/
def AnswersThroughout (readsMetadata : ReadsMetadata Record) :
    List (SessionCall Record) → List (ℕ × Record) → OltpHybridStorage Record → Prop
  | [], records, storage => AnswersAll clock readsMetadata storage records
  | call :: calls, records, storage =>
    AnswersAll clock readsMetadata storage records ∧
      AnswersThroughout readsMetadata calls (records ++ (stepSession codec clock call storage).1)
        (stepSession codec clock call storage).2

/-- After the run `before` a restart succeeds, and from then on queries return what was
acknowledged before and after it. -/
def Durable (readsMetadata : ReadsMetadata Record) (config : OltpHybridConfig) (seconds : ℤ)
    (before later : List (SessionCall Record)) (storage : OltpHybridStorage Record) : Prop :=
  (exec (restartFromCheckpoint codec clock config seconds)
      (runSession codec clock before storage).2).1 = .ok () ∧
    AnswersThroughout codec clock readsMetadata later (runSession codec clock before storage).1
      (restarted codec clock config seconds before storage)

def Begins (storage : OltpHybridStorage Record) (call : StorageWrite Record) : Prop :=
  (storage.wal.advanced call.records.length).full
    ((call.entries codec storage).map (WalEntry.preSerialized codec)) = true

/-- The first records that are written begin a new file of the log. -/
def BeginsFile : List (SessionCall Record) → OltpHybridStorage Record → Prop
  | [], _ => True
  | .write call :: calls, storage =>
    (call.Writes codec storage → Begins codec storage call) ∧
      (call.Writes codec storage ∨ BeginsFile calls (stepWrite codec clock call storage).2)
  | .createCheckpoint :: calls, storage => BeginsFile calls (exec createCheckpoint storage).2

/-- The newest file of the log was begun at the next number, and it has the records of
the MemTable. -/
def LogsMemtable (storage : OltpHybridStorage Record) : Prop :=
  ∃ file ∈ storage.wal.files, file.number = storage.wal.currentSequence ∧
    ∀ row ∈ storage.memtable.data.rows, ∃ entry ∈ (delivered codec [file]).2,
      row = .fromWal clock entry.sequence entry.record

/-- The storage before the last checkpoint of a run, and the calls behind it. -/
def lastCheckpoint : List (SessionCall Record) → OltpHybridStorage Record →
    Option (OltpHybridStorage Record × List (SessionCall Record))
  | [], _ => none
  | call :: calls, storage =>
    match lastCheckpoint calls (stepSession codec clock call storage).2, call with
    | some found, _ => some found
    | none, .createCheckpoint => some (storage, calls)
    | none, .write _ => none

def KeepsAt (storage : OltpHybridStorage Record) (calls : List (SessionCall Record)) : Prop :=
  LogsMemtable codec clock storage ∨
    (storage.memtable.data.rows = [] ∧ BeginsFile codec clock calls (exec createCheckpoint storage).2)

/-- The last checkpoint, if there is one, keeps everything. -/
def KeepsRecords (calls : List (SessionCall Record)) (storage : OltpHybridStorage Record) : Prop :=
  ∀ found ∈ lastCheckpoint codec clock calls storage, KeepsAt codec clock found.1 found.2

def FlushesApart : List (SessionCall Record) → OltpHybridStorage Record → Prop
  | [], _ => True
  | call :: calls, storage =>
    (∀ writes, call = .write writes → Flushes codec clock storage (.write writes) →
      ∀ sstable ∈ storage.sstables, sstable.filePath ≠ storage.sstableCounter + 1) ∧
      FlushesApart calls (stepSession codec clock call storage).2

/-- No record is written behind a restart that finds no file of the log, and no flush
creates a file that is open. -/
def GoesOn (config : OltpHybridConfig) (seconds : ℤ) (before later : List (SessionCall Record))
    (storage : OltpHybridStorage Record) : Prop :=
  ((runSession codec clock before storage).2.wal.files = [] → ∀ call ∈ later, call.records = []) ∧
    FlushesApart codec clock later (restarted codec clock config seconds before storage)

end Model

def nextCheckpoint (storage : OltpHybridStorage Record) : CheckpointMetadata where
  checkpointId := storage.checkpointCounter + 1
  walSequence := storage.wal.currentSequence
  sstableFiles := storage.sstables.map RkyvSSTable.filePath
  totalEntries := (storage.sstables.map fun sstable => sstable.metadata.entryCount).sum
  minTimestamp := (storage.sstables.head?.map fun sstable => sstable.metadata.minTimestamp).getD 0
  maxTimestamp := (storage.sstables.getLast?.map fun sstable => sstable.metadata.maxTimestamp).getD 0

def checkpointed (wal : WalManager) (storage : OltpHybridStorage Record) :
    OltpHybridStorage Record :=
  { storage with
    wal := wal
    checkpointCounter := storage.checkpointCounter + 1
    checkpointFiles := CheckpointManager.cleanupOldCheckpoints 3
      (storage.checkpointFiles.insert storage.nextCheckpoint) }

theorem exec_createCheckpoint {storage : OltpHybridStorage Record} {outcome : Except String Unit}
    {wal : WalManager}
    (ran : exec (WalManager.checkpoint storage.wal.currentSequence) storage.wal = (outcome, wal)) :
    exec createCheckpoint storage = (outcome, storage.checkpointed wal) := by
  have truncates : exec (onWal (WalManager.checkpoint storage.wal.currentSequence))
      (storage.checkpointed storage.wal) = (outcome, storage.checkpointed wal) := exec_onWal ran
  rw [createCheckpoint, exec_bind_ok (exec_read _ _), exec_bind_ok (exec_read _ _),
    exec_bind_ok (exec_update _ _), exec_bind_ok (exec_read _ _), exec_bind_ok (exec_update _ _),
    exec_bind_ok (exec_update _ _)]
  exact truncates

/-- The numbers of the log go on where they were, whatever a checkpoint removes. -/
theorem exec_checkpoint_currentSequence (sequence : ℕ) (manager : WalManager) :
    (exec (WalManager.checkpoint sequence) manager).2.currentSequence = manager.currentSequence := by
  rw [WalManager.checkpoint, exec_bind_ok (exec_read _ _)]
  generalize manager.files = files
  induction files generalizing manager with
  | nil => rfl
  | cons file files induction =>
    rw [List.forM_cons]
    generalize shouldTruncate file sequence = judged
    rcases judged with text | _ | _
    · rfl
    · exact induction manager
    · exact induction (removeFile file.number manager)

theorem createCheckpoint_snd (storage : OltpHybridStorage Record) :
    ∃ wal : WalManager, wal.currentSequence = storage.wal.currentSequence ∧
      (exec createCheckpoint storage).2 = storage.checkpointed wal := by
  cases ran : exec (WalManager.checkpoint storage.wal.currentSequence) storage.wal with
  | mk outcome wal =>
    refine ⟨wal, ?_, ?_⟩
    · have same := exec_checkpoint_currentSequence storage.wal.currentSequence storage.wal
      rw [ran] at same
      exact same
    · rw [exec_createCheckpoint ran]

theorem loadLatest_checkpointed {storage : OltpHybridStorage Record}
    (numbers : ∀ checkpoint ∈ storage.checkpointFiles.rows,
      checkpoint.checkpointId ≤ storage.checkpointCounter) (wal : WalManager) :
    CheckpointManager.loadLatestCheckpoint (storage.checkpointed wal).checkpointFiles =
        some storage.nextCheckpoint ∧
      ∀ checkpoint ∈ (storage.checkpointed wal).checkpointFiles.rows,
        checkpoint.checkpointId ≤ (storage.checkpointed wal).checkpointCounter := by
  have last : (storage.checkpointFiles.insert storage.nextCheckpoint).rows =
      storage.checkpointFiles.rows ++ [storage.nextCheckpoint] := by
    apply KeyedRows.insertRow_of_lt
    intro checkpoint member
    exact Nat.lt_succ_of_le (numbers checkpoint member)
  have kept : (storage.checkpointed wal).checkpointFiles.rows =
      storage.checkpointFiles.rows.drop (storage.checkpointFiles.rows.length + 1 - 3) ++
        [storage.nextCheckpoint] := by
    change (storage.checkpointFiles.insert storage.nextCheckpoint).rows.drop
      ((storage.checkpointFiles.insert storage.nextCheckpoint).rows.length - 3) = _
    rw [last, List.length_append, List.length_singleton, List.drop_append_of_le_length (by omega)]
  constructor
  · rw [CheckpointManager.loadLatestCheckpoint, kept, List.getLast?_concat]
  · rw [kept]
    intro checkpoint member
    rcases List.mem_append.mp member with old | isNew
    · exact (numbers checkpoint (List.mem_of_mem_drop old)).trans (Nat.le_succ _)
    · rw [List.mem_singleton.mp isNew]
      exact le_refl (storage.checkpointCounter + 1)

end OltpHybridStorage

end QAExchange
