import Mathlib.Data.Prod.Lex
import QAExchange.Foundation.ByteOrder
import QAExchange.Foundation.KeyedRows

/-! # The MemTable

Records in memory by timestamp and sequence number. The size of the table is an
estimate, and at its limit the table is to be flushed.
-/

namespace QAExchange

open Foundation

structure MemTableKey where
  timestamp : ℤ
  sequence : ℕ
  deriving DecidableEq

namespace MemTableKey

def toPair (key : MemTableKey) : ℤ ×ₗ ℕ := toLex (key.timestamp, key.sequence)

theorem toPair_injective : Function.Injective toPair := by
  rintro ⟨_, _⟩ ⟨_, _⟩ same
  cases same
  rfl

instance : LinearOrder MemTableKey := LinearOrder.lift' toPair toPair_injective

theorem le_iff (left right : MemTableKey) :
    left ≤ right ↔ left.timestamp < right.timestamp ∨
      left.timestamp = right.timestamp ∧ left.sequence ≤ right.sequence :=
  Prod.Lex.toLex_le_toLex

theorem lt_iff (left right : MemTableKey) :
    left < right ↔ left.timestamp < right.timestamp ∨
      left.timestamp = right.timestamp ∧ left.sequence < right.sequence := by
  rw [← not_le, le_iff]
  omega

/-- An `i64` and a `u64`. -/
structure Fits (key : MemTableKey) : Prop where
  timestamp : -2 ^ 63 ≤ key.timestamp ∧ key.timestamp < 2 ^ 63
  sequence : key.sequence < 2 ^ 64

def fromTimestamp (timestamp : ℤ) : MemTableKey where
  timestamp := timestamp
  sequence := 0

/-- The sequence is `u64::MAX`. -/
def toTimestamp (timestamp : ℤ) : MemTableKey where
  timestamp := timestamp
  sequence := 2 ^ 64 - 1

/-- The timestamp is an `i64` in two's complement. -/
def toBytes (key : MemTableKey) : List UInt8 :=
  beBytes 8 (key.timestamp % 2 ^ 64).toNat ++ beBytes 8 key.sequence

theorem between_iff {key : MemTableKey} (range : key.sequence < 2 ^ 64) (start last : ℤ) :
    (fromTimestamp start ≤ key ∧ key ≤ toTimestamp last) ↔
      start ≤ key.timestamp ∧ key.timestamp ≤ last := by
  simp only [le_iff, fromTimestamp, toTimestamp]
  omega

end MemTableKey

/-- The timestamp field of a record, an `i64`. -/
structure RecordClock (Record : Type) where
  timestamp : Record → ℤ
  inRange : ∀ record, -2 ^ 63 ≤ timestamp record ∧ timestamp record < 2 ^ 63

structure MemTableEntry (Record : Type) where
  key : MemTableKey
  record : Record
  deriving DecidableEq

variable {Record : Type}

def MemTableEntry.fromWal (clock : RecordClock Record) (sequence : ℕ) (record : Record) :
    MemTableEntry Record where
  key := ⟨clock.timestamp record, sequence⟩
  record := record

structure OltpMemTableConfig where
  maxSizeBytes : ℕ
  estimatedEntrySize : ℕ
  deriving DecidableEq

structure OltpMemTable (Record : Type) where
  data : KeyedRows (MemTableEntry.key : MemTableEntry Record → MemTableKey)
  sizeBytes : ℕ
  config : OltpMemTableConfig
  deriving DecidableEq

namespace OltpMemTable

def new (config : OltpMemTableConfig) : OltpMemTable Record where
  data := .empty
  sizeBytes := 0
  config := config

def insert (clock : RecordClock Record) (sequence : ℕ) (record : Record)
    (memtable : OltpMemTable Record) : OltpMemTable Record :=
  { memtable with
    data := memtable.data.insert (.fromWal clock sequence record)
    sizeBytes := memtable.sizeBytes + memtable.config.estimatedEntrySize }

/-- The entries of `(sequence, record)` pairs, one after the other. -/
def insertAll (clock : RecordClock Record) (entries : List (ℕ × Record))
    (data : KeyedRows (MemTableEntry.key : MemTableEntry Record → MemTableKey)) :
    KeyedRows (MemTableEntry.key : MemTableEntry Record → MemTableKey) :=
  entries.foldl (fun data entry => data.insert (.fromWal clock entry.1 entry.2)) data

def insertBatch (clock : RecordClock Record) (entries : List (ℕ × Record))
    (memtable : OltpMemTable Record) : OltpMemTable Record :=
  { memtable with
    data := insertAll clock entries memtable.data
    sizeBytes := memtable.config.estimatedEntrySize *
      (insertAll clock entries memtable.data).rows.length }

def rangeQuery (startTs endTs : ℤ) (memtable : OltpMemTable Record) : List (MemTableEntry Record) :=
  memtable.data.rows.filter fun entry =>
    MemTableKey.fromTimestamp startTs ≤ entry.key ∧ entry.key ≤ MemTableKey.toTimestamp endTs

def iterAll (memtable : OltpMemTable Record) : List (MemTableEntry Record) := memtable.data.rows

def shouldFlush (memtable : OltpMemTable Record) : Bool :=
  memtable.config.maxSizeBytes ≤ memtable.sizeBytes

def clear (memtable : OltpMemTable Record) : OltpMemTable Record :=
  { memtable with
    data := .empty
    sizeBytes := 0 }

/-- Entries are added to the table. Where it has an entry of the same number already,
that is the same one. -/
theorem mem_insertAll {clock : RecordClock Record} {entries : List (ℕ × Record)}
    (numbers : (entries.map Prod.fst).Nodup)
    {data : KeyedRows (MemTableEntry.key : MemTableEntry Record → MemTableKey)}
    (agree : ∀ entry ∈ entries, ∀ row ∈ data.rows, row.key.sequence = entry.1 →
      row = .fromWal clock entry.1 entry.2) (other : MemTableEntry Record) :
    other ∈ (insertAll clock entries data).rows ↔
      other ∈ data.rows ∨ ∃ entry ∈ entries, other = .fromWal clock entry.1 entry.2 := by
  induction entries generalizing data with
  | nil => simp [insertAll]
  | cons entry entries induction =>
    rcases List.nodup_cons.mp numbers with ⟨isNew, distinct⟩
    have stillAgree : ∀ later ∈ entries,
        ∀ row ∈ (data.insert (.fromWal clock entry.1 entry.2)).rows,
          row.key.sequence = later.1 → row = .fromWal clock later.1 later.2 := by
      intro later member row inside same
      rcases KeyedRows.mem_insert.mp inside with rfl | ⟨old, _⟩
      · change entry.1 = later.1 at same
        exact absurd (same ▸ List.mem_map_of_mem member) isNew
      · exact agree later (List.mem_cons_of_mem _ member) row old same
    rw [insertAll, List.foldl_cons, ← insertAll, induction distinct stillAgree,
      KeyedRows.mem_insert]
    constructor
    · rintro ((rfl | ⟨old, _⟩) | ⟨later, member, rfl⟩)
      · exact .inr ⟨entry, by simp, rfl⟩
      · exact .inl old
      · exact .inr ⟨later, List.mem_cons_of_mem _ member, rfl⟩
    · rintro (old | ⟨later, member, rfl⟩)
      · by_cases same : other.key = (MemTableEntry.fromWal clock entry.1 entry.2).key
        · have number := congrArg MemTableKey.sequence same
          exact .inl (.inl (agree entry (by simp) other old number))
        · exact .inl (.inr ⟨old, same⟩)
      · rcases List.mem_cons.mp member with rfl | member
        · exact .inl (.inl rfl)
        · exact .inr ⟨later, member, rfl⟩

theorem mem_rangeQuery {memtable : OltpMemTable Record} {entry : MemTableEntry Record}
    (range : entry.key.sequence < 2 ^ 64) (startTs endTs : ℤ) :
    entry ∈ memtable.rangeQuery startTs endTs ↔
      entry ∈ memtable.data.rows ∧ startTs ≤ entry.key.timestamp ∧ entry.key.timestamp ≤ endTs := by
  rw [rangeQuery, List.mem_filter, decide_eq_true_iff, MemTableKey.between_iff range]

end OltpMemTable

end QAExchange
