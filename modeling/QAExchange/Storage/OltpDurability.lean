import QAExchange.Storage.OltpCheckpoints

/-! # What a restart finds

In a session from a fresh directory every record is in the MemTable or in one SSTable.
A restart finds the records that are in the log or in a file of the last checkpoint.
-/

namespace QAExchange.OltpHybridStorage

open Foundation Action WalManager

variable {Record : Type}

/-- The log and the files that the last checkpoint lists have all of the records. -/
def Saved (clock : RecordClock Record) (layout : Layout Record)
    (listed : List (SSTableFile Record)) (records : List (ℕ × Record)) : Prop :=
  ∀ record ∈ records, record ∈ layout.entries.map WalEntry.numberedRecord ∨
    .fromWal clock record.1 record.2 ∈ listed.flatMap SSTableFile.entries

/-- A storage in its first session. The last checkpoint lists the files `listed`. -/
structure Session (codec : EntryCodec Record) (clock : RecordClock Record)
    (storage : OltpHybridStorage Record) (layout : Layout Record)
    (listed : List (SSTableFile Record)) (records : List (ℕ × Record)) : Prop where
  log : Remains codec storage.wal layout
  logged : ∀ entry ∈ layout.entries, entry.numberedRecord ∈ records
  reached : layout.linked = true → ∀ record ∈ records, record.1 ≤ 1 ∨
    ∃ entry ∈ layout.entries, record.1 ≤ entry.sequence
  holds : Holds clock storage storage.sstableFiles.rows records
  apart : ∀ row ∈ storage.memtable.data.rows,
    row ∉ storage.sstableFiles.rows.flatMap SSTableFile.entries
  counted : ∀ file ∈ storage.sstableFiles.rows, file.number ≤ storage.sstableCounter
  present : listed ⊆ storage.sstableFiles.rows
  latest : ((CheckpointManager.loadLatestCheckpoint storage.checkpointFiles).map
    CheckpointMetadata.sstableFiles).getD [] = listed.map SSTableFile.number
  checkpoints : ∀ checkpoint ∈ storage.checkpointFiles.rows,
    checkpoint.checkpointId ≤ storage.checkpointCounter

section Session

variable {codec : EntryCodec Record} {clock : RecordClock Record}
  {storage : OltpHybridStorage Record} {layout : Layout Record}
  {listed : List (SSTableFile Record)} {records : List (ℕ × Record)}

theorem Session.skip (session : Session codec clock storage layout listed records) (count : ℕ) :
    Session codec clock (storage.skipped count) layout listed records :=
  { session with
    log := session.log.advanced count
    holds := session.holds.skip count }

def storedLayout (codec : EntryCodec Record) (storage : OltpHybridStorage Record)
    (layout : Layout Record) (call : StorageWrite Record) : Layout Record :=
  layout.append ((storage.wal.advanced call.records.length).full
      ((call.entries codec storage).map (WalEntry.preSerialized codec)))
    (storage.wal.advanced call.records.length).currentSequence call.seconds
    (call.entries codec storage)

section

variable (session : Session codec clock storage layout listed records)
include session

/-- New records are in the log if its live file is in the directory or they begin a
new one. -/
theorem Session.storedLayout_entries (call : StorageWrite Record) :
    ((Begins codec storage call ∨ layout.linked = true) ∧
        (storedLayout codec storage layout call).linked = true ∧
        (storedLayout codec storage layout call).entries =
          layout.entries ++ call.entries codec storage) ∨
      (¬ (Begins codec storage call ∨ layout.linked = true) ∧
        (storedLayout codec storage layout call).linked = false ∧
        (storedLayout codec storage layout call).entries = layout.entries) := by
  have linked := Layout.linked_append_eq layout ((storage.wal.advanced call.records.length).full
      ((call.entries codec storage).map (WalEntry.preSerialized codec)))
    (storage.wal.advanced call.records.length).currentSequence call.seconds
    (call.entries codec storage)
  have entries := Layout.entries_append_eq session.log.stores.nonempty
    ((storage.wal.advanced call.records.length).full
      ((call.entries codec storage).map (WalEntry.preSerialized codec)))
    (storage.wal.advanced call.records.length).currentSequence call.seconds
    (call.entries codec storage)
  rw [← storedLayout] at linked entries
  rw [Begins, linked, entries, ← Bool.or_eq_true]
  cases (storage.wal.advanced call.records.length).full
      ((call.entries codec storage).map (WalEntry.preSerialized codec)) || layout.linked with
  | true => exact .inl ⟨rfl, rfl, rfl⟩
  | false => exact .inr ⟨Bool.false_ne_true, rfl, List.append_nil _⟩

theorem Session.store {call : StorageWrite Record} (writes : call.Writes codec storage) :
    Session codec clock (storage.stored codec clock call) (storedLayout codec storage layout call)
      listed (records ++ (call.entries codec storage).map WalEntry.numberedRecord) := by
  have layouts := session.storedLayout_entries call
  refine ⟨session.log.wroteNumbered call.seconds writes.2.stored writes.1, ?_, ?_,
    session.holds.store codec call, ?_, session.counted, session.present, session.latest,
    session.checkpoints⟩
  · intro entry member
    rcases layouts with ⟨_, _, same⟩ | ⟨_, _, same⟩
    · rw [same] at member
      rcases List.mem_append.mp member with old | isNew
      · exact List.mem_append_left _ (session.logged entry old)
      · exact List.mem_append_right _ (List.mem_map_of_mem isNew)
    · rw [same] at member
      exact List.mem_append_left _ (session.logged entry member)
  · intro linked record member
    right
    rcases layouts with ⟨_, _, same⟩ | ⟨_, unlinked, _⟩
    · rw [same]
      rcases List.mem_append.mp member with old | isNew
      · rcases List.exists_mem_of_ne_nil _ (WalEntry.numberedFrom_ne_nil codec
          storage.wal.currentSequence writes.1) with ⟨entry, isEntry⟩
        refine ⟨entry, List.mem_append_right _ isEntry, ?_⟩
        have small := session.holds.below record old
        have large := (WalEntry.mem_numberedFrom isEntry).1
        omega
      · rcases List.mem_map.mp isNew with ⟨entry, isEntry, rfl⟩
        exact ⟨entry, List.mem_append_right _ isEntry, le_refl _⟩
    · rw [unlinked] at linked
      cases linked
  · intro row member inFile
    rcases (session.holds.mem_stored call row).mp member with old | ⟨record, isNew, rfl⟩
    · exact session.apart row old inFile
    · have small := session.holds.number_lt (List.mem_append_right _ inFile)
      have large := (mem_entries isNew).1
      change record.1 < _ at small
      omega

theorem Session.flush : Session codec clock storage.flushed layout listed records := by
  have smaller : ∀ file ∈ storage.sstableFiles.rows, file.number < storage.sstableCounter + 1 :=
    fun file member => Nat.lt_succ_of_le (session.counted file member)
  have last : storage.flushed.sstableFiles.rows =
      storage.sstableFiles.rows ++ [storage.nextSSTable] := KeyedRows.insertRow_of_lt smaller
  refine ⟨session.log, session.logged, session.reached, ?_, ?_, ?_, ?_, session.latest,
    session.checkpoints⟩
  · rw [last]
    apply session.holds.flush
    intro file member
    exact (smaller file member).ne
  · intro row member
    cases member
  · rw [last]
    intro file member
    rcases List.mem_append.mp member with old | isNew
    · exact (session.counted file old).trans (Nat.le_succ _)
    · rw [List.mem_singleton.mp isNew]
      exact le_refl (storage.sstableCounter + 1)
  · rw [last]
    intro file member
    exact List.mem_append_left _ (session.present member)

theorem Session.settle : Session codec clock storage.settled layout listed records := by
  rw [settled]
  split_ifs
  · exact session.flush
  · exact session

/-- New records are saved if and only if they are in the log. -/
theorem Session.saved_store {call : StorageWrite Record} (writes : call.Writes codec storage) :
    Saved clock (storedLayout codec storage layout call) listed
        (records ++ (call.entries codec storage).map WalEntry.numberedRecord) ↔
      Saved clock layout listed records ∧ (Begins codec storage call ∨ layout.linked = true) := by
  have oldRow : ∀ row ∈ listed.flatMap SSTableFile.entries,
      row.key.sequence < storage.wal.currentSequence := by
    intro row member
    apply session.holds.number_lt
    rcases List.mem_flatMap.mp member with ⟨file, isFile, inside⟩
    exact List.mem_append_right _ (List.mem_flatMap.mpr ⟨file, session.present isFile, inside⟩)
  rcases session.storedLayout_entries call with ⟨receives, _, same⟩ | ⟨loses, _, same⟩
  · rw [and_iff_left receives]
    constructor
    · intro saved record member
      apply (saved record (List.mem_append_left _ member)).imp_left
      intro inLog
      rw [same, List.map_append] at inLog
      rcases List.mem_append.mp inLog with old | isNew
      · exact old
      · have small := session.holds.below record member
        have large := (mem_entries isNew).1
        omega
    · intro saved record member
      rw [same, List.map_append]
      rcases List.mem_append.mp member with old | isNew
      · exact (saved record old).imp_left (List.mem_append_left _)
      · exact .inl (List.mem_append_right _ isNew)
  · refine iff_of_false ?_ fun both => loses both.2
    intro saved
    rcases List.exists_mem_of_ne_nil _ (WalEntry.numberedFrom_ne_nil codec
      storage.wal.currentSequence writes.1) with ⟨entry, isEntry⟩
    have isNew : entry.numberedRecord ∈ (call.entries codec storage).map WalEntry.numberedRecord :=
      List.mem_map_of_mem isEntry
    have large := (mem_entries isNew).1
    rcases saved _ (List.mem_append_right _ isNew) with inLog | inFile
    · rw [same] at inLog
      rcases List.mem_map.mp inLog with ⟨old, isOld, number⟩
      have small := session.log.below old isOld
      have number : old.sequence = entry.numberedRecord.1 := congrArg Prod.fst number
      omega
    · have small := oldRow _ inFile
      change entry.numberedRecord.1 < _ at small
      omega

end

theorem Session.checkpoint (session : Session codec clock storage layout listed records)
    (range : storage.wal.currentSequence < 2 ^ 64) :
    ∃ wal, exec createCheckpoint storage = (.ok (), storage.checkpointed wal) ∧
      wal.currentSequence = storage.wal.currentSequence ∧
      Session codec clock (storage.checkpointed wal)
        (layout.truncate storage.wal.currentSequence) storage.sstableFiles.rows records := by
  have starts : ∀ segment ∈ layout.segments, segment.start < 2 ^ 64 :=
    fun segment member => (session.log.stores.bounded segment member).trans_lt range
  have kept : (layout.truncate storage.wal.currentSequence).entries.Sublist layout.entries :=
    List.Sublist.flatMap List.filter_sublist _
  refine ⟨_, exec_createCheckpoint (exec_checkpoint session.log.stores.files starts _), rfl, ?_⟩
  rcases loadLatest_checkpointed session.checkpoints (storage.wal.removed
    ((layout.segments.map Segment.start).filter fun start => start < storage.wal.currentSequence))
    with ⟨latest, checkpoints⟩
  refine ⟨session.log.truncate, ?_, ?_, ⟨⟨session.holds.opened.sstables,
    session.holds.opened.present, session.holds.opened.sound⟩, session.holds.complete,
    session.holds.numbers, session.holds.below⟩, session.apart, session.counted,
    List.Subset.refl _, ?_, checkpoints⟩
  · intro entry member
    exact session.logged entry (kept.subset member)
  · intro linked record member
    -- the file that stays was begun behind all of the records
    rcases session.log.live linked with ⟨live, isLive, inside, start⟩
    have small := session.holds.below record member
    rcases session.log.anchored live inside with first | ⟨entry, isEntry, behind⟩
    · left
      omega
    · refine .inr ⟨entry, ?_, by omega⟩
      rw [Layout.entries, isLive]
      simpa using isEntry
  · rw [latest]
    change storage.sstables.map RkyvSSTable.filePath = _
    rw [session.holds.opened.sstables, List.map_map]
    rfl

theorem Session.logsMemtable_iff (roundTrip : codec.RoundTrip)
    (session : Session codec clock storage layout listed records) :
    LogsMemtable codec clock storage ↔ (layout.truncate storage.wal.currentSequence).linked = true ∧
        ∀ row ∈ storage.memtable.data.rows,
          ∃ entry ∈ (layout.truncate storage.wal.currentSequence).entries,
            row = .fromWal clock entry.sequence entry.record := by
  have read : ∀ segment ∈ layout.segments,
      (delivered codec [segment.toFile codec]).2 = segment.entries := by
    intro segment member
    have isStored : ∀ other ∈ [segment], ∀ entry ∈ other.entries, entry.Stored codec := by
      intro other isOne
      rw [List.mem_singleton.mp isOne]
      exact session.log.stores.stored segment member
    have one := delivered_segments roundTrip isStored
    simpa using congrArg Prod.snd one
  constructor
  · rintro ⟨file, isFile, number, rows⟩
    rw [session.log.stores.files] at isFile
    rcases List.mem_map.mp isFile with ⟨segment, member, rfl⟩
    have stays : segment ∈ (layout.truncate storage.wal.currentSequence).segments :=
      List.mem_filter.mpr ⟨member, decide_eq_true (le_of_eq (Eq.symm number))⟩
    constructor
    · by_contra unlinked
      rw [session.log.truncate_unlinked (Bool.not_eq_true _ ▸ unlinked)] at stays
      cases stays
    · intro row inTable
      rcases rows row inTable with ⟨entry, isEntry, same⟩
      rw [read segment member] at isEntry
      exact ⟨entry, List.mem_flatMap.mpr ⟨segment, stays, isEntry⟩, same⟩
  · rintro ⟨linked, rows⟩
    rcases session.log.live linked with ⟨live, isLive, inside, start⟩
    refine ⟨live.toFile codec, ?_, start, ?_⟩
    · rw [session.log.stores.files]
      exact List.mem_map_of_mem inside
    · intro row inTable
      rcases rows row inTable with ⟨entry, isEntry, same⟩
      rw [Layout.entries, isLive] at isEntry
      rw [read live inside]
      exact ⟨entry, by simpa using isEntry, same⟩

theorem Session.saved_checkpoint (session : Session codec clock storage layout listed records) :
    Saved clock (layout.truncate storage.wal.currentSequence) storage.sstableFiles.rows records ↔
      ∀ row ∈ storage.memtable.data.rows,
        ∃ entry ∈ (layout.truncate storage.wal.currentSequence).entries,
          row = .fromWal clock entry.sequence entry.record := by
  constructor
  · intro saved row inTable
    rcases (session.holds.complete row).mp (List.mem_append_left _ inTable) with
      ⟨record, isRecord, rfl⟩
    rcases saved record isRecord with inLog | inFile
    · rcases List.mem_map.mp inLog with ⟨entry, isEntry, rfl⟩
      exact ⟨entry, isEntry, rfl⟩
    · exact absurd inFile (session.apart _ inTable)
  · intro logs record member
    rcases List.mem_append.mp ((session.holds.complete _).mpr ⟨record, member, rfl⟩) with
      inTable | inFile
    · rcases logs _ inTable with ⟨entry, isEntry, same⟩
      left
      apply List.mem_map.mpr
      refine ⟨entry, isEntry, ?_⟩
      have number : record.1 = entry.sequence :=
        congrArg (fun row => row.key.sequence) same
      have value : record.2 = entry.record := congrArg MemTableEntry.record same
      rw [WalEntry.numberedRecord, ← number, ← value]
    · exact .inr inFile

end Session

end QAExchange.OltpHybridStorage
