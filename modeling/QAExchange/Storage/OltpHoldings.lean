import QAExchange.Storage.OltpSteps

/-! # The rows of the hybrid storage over a run

MemTable and open SSTables together have one row for each record. A write adds rows,
a flush moves them to a file, and neither loses one while every new number is new and
no open file is created again.
-/

namespace QAExchange.OltpHybridStorage

open Foundation Action WalManager

variable {Record : Type}

/-- MemTable and open files have the rows of these records, which have numbers below
the next one. -/
structure Holds (clock : RecordClock Record) (storage : OltpHybridStorage Record)
    (files : List (SSTableFile Record)) (records : List (ℕ × Record)) : Prop where
  opened : Opened storage files
  complete : ∀ row, row ∈ storage.contents files ↔
    ∃ record ∈ records, row = .fromWal clock record.1 record.2
  numbers : (records.map Prod.fst).Nodup
  below : ∀ record ∈ records, record.1 < storage.wal.currentSequence

def AnswersAll (clock : RecordClock Record) (readsMetadata : ReadsMetadata Record)
    (storage : OltpHybridStorage Record) (records : List (ℕ × Record)) : Prop :=
  ∃ rows, storage.rangeQuery readsMetadata (-2 ^ 63) (2 ^ 63 - 1) = .ok rows ∧
    rows.Perm (records.map fun record => .fromWal clock record.1 record.2)

variable {records : List (ℕ × Record)}

theorem record_eq_of_number (distinct : (records.map Prod.fst).Nodup) (isLeft : left ∈ records)
    (isRight : right ∈ records) (same : left.1 = right.1) : left = right :=
  List.inj_on_of_nodup_map distinct isLeft isRight same

variable {clock : RecordClock Record}

theorem distinctKeys_of_numbers (distinct : (records.map Prod.fst).Nodup)
    (known : ∀ row ∈ rows, ∃ record ∈ records, row = .fromWal clock record.1 record.2) :
    DistinctKeys MemTableEntry.key rows := by
  intro left isLeft right isRight same
  rcases known left isLeft with ⟨first, isFirst, rfl⟩
  rcases known right isRight with ⟨second, isSecond, rfl⟩
  rw [record_eq_of_number distinct isFirst isSecond (congrArg MemTableKey.sequence same)]

theorem rows_nodup (clock : RecordClock Record) (distinct : (records.map Prod.fst).Nodup) :
    (records.map fun record => MemTableEntry.fromWal clock record.1 record.2).Nodup := by
  have numbers : ((records.map fun record => MemTableEntry.fromWal clock record.1 record.2).map
      fun row => row.key.sequence) = records.map Prod.fst := by
    rw [List.map_map]
    rfl
  apply List.Nodup.of_map fun row => row.key.sequence
  rw [numbers]
  exact distinct

theorem mem_insertAll_again {again : List (ℕ × Record)} (distinct : (records.map Prod.fst).Nodup)
    (againDistinct : (again.map Prod.fst).Nodup) (subset : again ⊆ records)
    {data : KeyedRows (MemTableEntry.key : MemTableEntry Record → MemTableKey)}
    (rows : ∀ row, row ∈ data.rows ↔ ∃ record ∈ records, row = .fromWal clock record.1 record.2)
    (row : MemTableEntry Record) :
    row ∈ (OltpMemTable.insertAll clock again data).rows ↔
      ∃ record ∈ records, row = .fromWal clock record.1 record.2 := by
  have agree : ∀ record ∈ again, ∀ row ∈ data.rows, row.key.sequence = record.1 →
      row = .fromWal clock record.1 record.2 := by
    intro record isRecord row member number
    rcases (rows row).mp member with ⟨other, isOther, rfl⟩
    rw [record_eq_of_number distinct isOther (subset isRecord) number]
  rw [OltpMemTable.mem_insertAll againDistinct agree, rows]
  apply or_iff_left_of_imp
  rintro ⟨record, isRecord, same⟩
  exact ⟨record, subset isRecord, same⟩

/-- A query over all timestamps returns the rows of some of the records: it is right
if and only if none is missing. -/
theorem answersAll_iff {storage : OltpHybridStorage Record} {files : List (SSTableFile Record)}
    (opened : Opened storage files) (distinct : (records.map Prod.fst).Nodup)
    (range : ∀ record ∈ records, record.1 < 2 ^ 64) (known : ∀ row ∈ storage.contents files,
      ∃ record ∈ records, row = .fromWal clock record.1 record.2)
    (readsMetadata : ReadsMetadata Record) :
    AnswersAll clock readsMetadata storage records ↔
      ∀ record ∈ records, .fromWal clock record.1 record.2 ∈ storage.contents files := by
  have inRange : ∀ row ∈ storage.contents files, row.key.sequence < 2 ^ 64 := by
    intro row member
    rcases known row member with ⟨record, isRecord, rfl⟩
    exact range record isRecord
  rcases opened.rangeQuery (distinctKeys_of_numbers distinct known) inRange readsMetadata
    (-2 ^ 63) (2 ^ 63 - 1) with ⟨rows, found, increasing, members⟩
  have all : ∀ row, row ∈ rows ↔ row ∈ storage.contents files := by
    intro row
    rw [members]
    constructor
    · intro inside
      exact inside.1
    · intro member
      rcases known row member with ⟨record, _, rfl⟩
      have bounds := clock.inRange record.2
      refine ⟨member, bounds.1, ?_⟩
      change clock.timestamp record.2 ≤ _
      omega
  constructor
  · rintro ⟨others, same, perm⟩ record member
    rw [found] at same
    cases same
    exact (all _).mp (perm.mem_iff.mpr (List.mem_map_of_mem member))
  · intro complete
    refine ⟨rows, found, ?_⟩
    apply (List.perm_ext_iff_of_nodup _ (rows_nodup clock distinct)).mpr
    · intro row
      rw [all, List.mem_map]
      constructor
      · intro member
        rcases known row member with ⟨record, isRecord, rfl⟩
        exact ⟨record, isRecord, rfl⟩
      · rintro ⟨record, isRecord, rfl⟩
        exact complete record isRecord
    · apply increasing.imp
      intro left right smaller same
      exact absurd (congrArg MemTableEntry.key same) smaller.ne

section Holds

variable {codec : EntryCodec Record} {clock : RecordClock Record}
  {storage : OltpHybridStorage Record} {files : List (SSTableFile Record)}
  {records : List (ℕ × Record)}

theorem Holds.answersAll (holds : Holds clock storage files records)
    (range : ∀ record ∈ records, record.1 < 2 ^ 64) (readsMetadata : ReadsMetadata Record) :
    AnswersAll clock readsMetadata storage records := by
  apply (answersAll_iff holds.opened holds.numbers range
    (fun row member => (holds.complete row).mp member) readsMetadata).mpr
  intro record member
  exact (holds.complete _).mpr ⟨record, member, rfl⟩

theorem Holds.answers (holds : Holds clock storage files records)
    (range : ∀ record ∈ records, record.1 < 2 ^ 64) (readsMetadata : ReadsMetadata Record) :
    Answers clock readsMetadata storage records := by
  intro startTs endTs
  have distinct := distinctKeys_of_numbers holds.numbers
    fun row member => (holds.complete row).mp member
  have inRange : ∀ row ∈ storage.contents files, row.key.sequence < 2 ^ 64 := by
    intro row member
    rcases (holds.complete row).mp member with ⟨record, isRecord, rfl⟩
    exact range record isRecord
  rcases holds.opened.rangeQuery distinct inRange readsMetadata startTs endTs with
    ⟨rows, found, increasing, members⟩
  refine ⟨rows, found, increasing, ?_⟩
  intro row
  rw [members, holds.complete]
  constructor
  · rintro ⟨⟨record, isRecord, rfl⟩, within⟩
    exact ⟨record, isRecord, rfl, within⟩
  · rintro ⟨record, isRecord, rfl, within⟩
    exact ⟨⟨record, isRecord, rfl⟩, within⟩

theorem Holds.number_lt (holds : Holds clock storage files records)
    (member : row ∈ storage.contents files) : row.key.sequence < storage.wal.currentSequence := by
  rcases (holds.complete row).mp member with ⟨record, isRecord, rfl⟩
  exact holds.below record isRecord

theorem map_numberedRecord_nodup (sequence : ℕ) (batch : List (Stamped Record)) :
    (((WalEntry.numberedFrom codec sequence batch).map WalEntry.numberedRecord).map
      Prod.fst).Nodup := by
  rw [List.map_map]
  change ((WalEntry.numberedFrom codec sequence batch).map WalEntry.sequence).Nodup
  rw [WalEntry.sequence_numberedFrom]
  exact List.nodup_range'

theorem mem_entries {call : StorageWrite Record}
    (member : record ∈ (call.entries codec storage).map WalEntry.numberedRecord) :
    storage.wal.currentSequence ≤ record.1 ∧
      record.1 < storage.wal.currentSequence + call.records.length := by
  rcases List.mem_map.mp member with ⟨entry, isEntry, rfl⟩
  exact WalEntry.mem_numberedFrom isEntry

section

variable (holds : Holds clock storage files records)
include holds

theorem Holds.mem_stored (call : StorageWrite Record) (row : MemTableEntry Record) :
    row ∈ (storage.stored codec clock call).memtable.data.rows ↔
      row ∈ storage.memtable.data.rows ∨
        ∃ record ∈ (call.entries codec storage).map WalEntry.numberedRecord,
          row = .fromWal clock record.1 record.2 := by
  have agree : ∀ record ∈ (call.entries codec storage).map WalEntry.numberedRecord,
      ∀ row ∈ storage.memtable.data.rows, row.key.sequence = record.1 →
        row = .fromWal clock record.1 record.2 := by
    intro record member row inside same
    have old := holds.number_lt (List.mem_append_left _ inside)
    have isNew := (mem_entries member).1
    omega
  simp only [stored, inserted_data]
  exact OltpMemTable.mem_insertAll (map_numberedRecord_nodup _ _) agree row

theorem Holds.store (codec : EntryCodec Record) (call : StorageWrite Record) :
    Holds clock (storage.stored codec clock call) files
      (records ++ (call.entries codec storage).map WalEntry.numberedRecord) := by
  have next : (storage.stored codec clock call).wal.currentSequence =
      storage.wal.currentSequence + call.records.length := by
    rw [stored, wrote_currentSequence]
    rfl
  refine ⟨⟨holds.opened.sstables, holds.opened.present, holds.opened.sound⟩, ?_, ?_, ?_⟩
  · intro row
    have known := holds.complete row
    rw [contents, List.mem_append] at known ⊢
    rw [holds.mem_stored call row, or_right_comm, known]
    constructor
    · rintro (⟨record, isRecord, same⟩ | ⟨record, isRecord, same⟩)
      · exact ⟨record, List.mem_append_left _ isRecord, same⟩
      · exact ⟨record, List.mem_append_right _ isRecord, same⟩
    · rintro ⟨record, isRecord, same⟩
      rcases List.mem_append.mp isRecord with old | isNew
      · exact .inl ⟨record, old, same⟩
      · exact .inr ⟨record, isNew, same⟩
  · rw [List.map_append, List.nodup_append]
    refine ⟨holds.numbers, map_numberedRecord_nodup _ _, ?_⟩
    intro old isOld new isNew same
    rcases List.mem_map.mp isOld with ⟨first, isFirst, rfl⟩
    rcases List.mem_map.mp isNew with ⟨second, isSecond, rfl⟩
    have small := holds.below first isFirst
    have large := (mem_entries isSecond).1
    omega
  · intro record member
    rw [next]
    rcases List.mem_append.mp member with old | isNew
    · have small := holds.below record old
      omega
    · exact (mem_entries isNew).2

theorem Holds.skip (count : ℕ) : Holds clock (storage.skipped count) files records where
  opened := ⟨holds.opened.sstables, holds.opened.present, holds.opened.sound⟩
  complete := holds.complete
  numbers := holds.numbers
  below := fun record member => (holds.below record member).trans_le (Nat.le_add_right _ _)

theorem Holds.flush (fresh : ∀ file ∈ files, file.number ≠ storage.sstableCounter + 1) :
    Holds clock storage.flushed (files ++ [storage.nextSSTable]) records := by
  have entries : storage.nextSSTable.entries = storage.memtable.data.rows :=
    SSTableFile.of_entries _ _
  refine ⟨⟨?_, ?_, ?_⟩, ?_, holds.numbers, holds.below⟩
  · rw [List.map_append, ← holds.opened.sstables]
    rfl
  · intro file member
    apply KeyedRows.mem_insert.mpr
    rcases List.mem_append.mp member with old | isNew
    · exact .inr ⟨holds.opened.present file old, fresh file old⟩
    · exact .inl (List.mem_singleton.mp isNew)
  · intro file member
    rcases List.mem_append.mp member with old | isNew
    · exact holds.opened.sound file old
    · rw [List.mem_singleton.mp isNew]
      exact SSTableFile.sound_of _ _
  · intro row
    rw [← holds.complete row]
    simp only [contents, List.flatMap_append, List.flatMap_cons, List.flatMap_nil, List.append_nil,
      entries, List.mem_append]
    change (row ∈ [] ∨ _) ↔ _
    simp only [List.not_mem_nil, false_or]
    exact or_comm

end

end Holds

end QAExchange.OltpHybridStorage
