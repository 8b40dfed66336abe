import QAExchange.Storage.OlapMemTable

/-! # Records through columns

What a query of the columns gives for the records from which they were built.
-/

namespace QAExchange.OlapMemTable

open Foundation

variable {Number : Type} [Zero Number]

/-! ## Rows -/

omit [Zero Number] in
theorem isRow_nullCells (entry : MemTableEntry (ColumnRecord Number)) (recordType : ℕ) :
    IsRow (⟨.timestamp, some entry.key.timestamp⟩ :: ⟨.sequence, some entry.key.sequence⟩ ::
      nullCells recordType : List (OlapCell Number)) := by
  intro field
  cases field <;> exact ⟨_, rfl⟩

theorem isRow_entryCells (entry : MemTableEntry (ColumnRecord Number)) :
    IsRow (entryCells entry) := by
  rw [entryCells]
  cases entry.record with
  | OrderInsert orderId userId instrumentId direction offset price volume timestamp =>
    intro field
    cases field <;> exact ⟨_, rfl⟩
  | TradeExecuted tradeId orderId exchangeOrderId price volume timestamp =>
    intro field
    cases field <;> exact ⟨_, rfl⟩
  | AccountUpdate userId balance available frozen margin timestamp =>
    intro field
    cases field <;> exact ⟨_, rfl⟩
  | AccountOpen userId initCash timestamp =>
    intro field
    cases field <;> exact ⟨_, rfl⟩
  | KLineFinished instrumentId period klineTimestamp openPrice high low close volume amount openOi
      closeOi timestamp =>
      intro field
      cases field <;> exact ⟨_, rfl⟩
  | Checkpoint | TickData | OrderBookSnapshot | OrderBookDelta | UserRegister | AccountBind
  | UserRoleUpdate | ExchangeOrderRecord | ExchangeTradeRecord | ExchangeResponseRecord
  | FactorUpdate | FactorSnapshot | OrderStatusUpdate | PositionSnapshot | AccountSnapshot =>
    exact isRow_nullCells entry _

theorem areRows (records : List (MemTableEntry (ColumnRecord Number))) :
    ∀ row ∈ records.map entryCells, IsRow row := by
  intro row member
  obtain ⟨entry, _, isRow⟩ := List.mem_map.mp member
  exact isRow ▸ isRow_entryCells entry

theorem chunkNew_buildChunk (records : List (MemTableEntry (ColumnRecord Number))) :
    chunkNew (buildChunk records) = some (buildChunk records) := by
  apply if_pos
  intro field _
  rw [buildChunk, Columns.length_ofRows (areRows records), Columns.length_ofRows (areRows records)]

section Values

variable {records : List (MemTableEntry (ColumnRecord Number))} {index : ℕ}
  {entry : MemTableEntry (ColumnRecord Number)} (found : records[index]? = some entry)

include found

theorem value_buildChunk (field : OlapField) :
    OlapChunk.value (buildChunk records) field index =
      some ((rowValue field (entryCells entry)).getD (field.dataType.null Number)) := by
  rw [OlapChunk.value, buildChunk, Columns.ofRows_apply (areRows records), List.getElem?_map,
    List.getElem?_map, found]
  rfl

theorem value_timestamp :
    OlapChunk.value (buildChunk records) .timestamp index = some entry.key.timestamp := by
  rw [value_buildChunk found]
  rfl

theorem value_sequence :
    OlapChunk.value (buildChunk records) .sequence index = some entry.key.sequence := by
  rw [value_buildChunk found]
  rfl

end Values

def typeCode : ColumnRecord Number → ℕ
  | .OrderInsert .. => 0
  | .TradeExecuted .. => 1
  | .AccountUpdate .. => 2
  | .Checkpoint .. => 3
  | .AccountOpen .. => 4
  | .TickData _ => 5
  | .OrderBookSnapshot _ => 6
  | .OrderBookDelta _ => 7
  | .UserRegister _ => 8
  | .AccountBind _ => 9
  | .ExchangeOrderRecord _ => 10
  | .ExchangeTradeRecord _ => 11
  | .ExchangeResponseRecord _ => 12
  | .KLineFinished .. => 13
  | .FactorUpdate _ | .FactorSnapshot _ => 14
  | .OrderStatusUpdate _ | .PositionSnapshot _ | .AccountSnapshot _ | .UserRoleUpdate _ => 15

/-- A record of a row whose kind has an arm: timestamps, and the sequence of a checkpoint, are
those of the key. -/
def restored (entry : MemTableEntry (ColumnRecord Number)) : Option (ColumnRecord Number) :=
  match entry.record with
  | .OrderInsert orderId userId instrumentId direction offset price volume _ =>
    some (.OrderInsert orderId userId instrumentId direction offset price volume
      entry.key.timestamp)
  | .TradeExecuted tradeId orderId exchangeOrderId price volume _ =>
    some (.TradeExecuted tradeId orderId exchangeOrderId price volume entry.key.timestamp)
  | .AccountUpdate userId balance available frozen margin _ =>
    some (.AccountUpdate userId balance available frozen margin entry.key.timestamp)
  | .Checkpoint _ _ => some (.Checkpoint entry.key.sequence entry.key.timestamp)
  | _ => none

section Values

variable {records : List (MemTableEntry (ColumnRecord Number))} {index : ℕ}
  {entry : MemTableEntry (ColumnRecord Number)} (found : records[index]? = some entry)

include found

theorem value_recordType :
    OlapChunk.value (buildChunk records) .recordType index = some (typeCode entry.record) := by
  rw [value_buildChunk found, entryCells]
  cases entry.record <;> rfl

theorem reconstructRecord_buildChunk :
    reconstructRecord index (typeCode entry.record) (buildChunk records) = restored entry := by
  have values := value_buildChunk found
  rw [restored]
  cases isRecord : entry.record <;>
    simp only [typeCode, reconstructRecord, values, Option.bind_eq_bind, Option.bind_some,
      entryCells, isRecord] <;> rfl

end Values

/-! ## Queries -/

structure Keyed (records : List (MemTableEntry (ColumnRecord Number))) : Prop where
  sorted : records.Pairwise fun left right => left.key ≤ right.key
  timestamps : ∀ entry ∈ records, entry.key.timestamp = entry.record.timestamp

def inRange (startTs endTs : ℤ) (entry : MemTableEntry (ColumnRecord Number)) : Bool :=
  startTs ≤ entry.key.timestamp ∧ entry.key.timestamp ≤ endTs

omit [Zero Number] in
theorem inRange_iff (startTs endTs : ℤ) (entry : MemTableEntry (ColumnRecord Number)) :
    inRange startTs endTs entry = true ↔
      startTs ≤ entry.key.timestamp ∧ entry.key.timestamp ≤ endTs :=
  decide_eq_true_iff

def restoredEntry (entry : MemTableEntry (ColumnRecord Number)) :
    Option (MemTableEntry (ColumnRecord Number)) :=
  (restored entry).map fun record => { key := entry.key, record := record }

omit [Zero Number] in
theorem timestamp_le {left right : MemTableEntry (ColumnRecord Number)}
    (inOrder : left.key ≤ right.key) : left.key.timestamp ≤ right.key.timestamp := by
  have order := (MemTableKey.le_iff _ _).mp inOrder
  omega

variable {records : List (MemTableEntry (ColumnRecord Number))}

omit [Zero Number] in
/-- Behind the range there is nothing that is in it. -/
theorem filter_inRange_eq_nil (outside : ∀ entry ∈ records,
      entry.key.timestamp < startTs ∨ endTs < entry.key.timestamp) :
    records.filter (inRange startTs endTs) = [] := by
  apply List.filter_eq_nil_iff.mpr
  intro entry member inside
  have between := (inRange_iff startTs endTs entry).mp inside
  cases outside entry member with
  | inl before => exact absurd before (not_lt.mpr between.1)
  | inr behind => exact absurd behind (not_lt.mpr between.2)

theorem scan_eq (startTs endTs : ℤ) (isRest : records.drop index = rest)
    (sorted : rest.Pairwise fun left right => left.key ≤ right.key) :
    scan startTs endTs (buildChunk records) index rest.length =
      (rest.filter (inRange startTs endTs)).mapM restoredEntry := by
  induction rest generalizing index with
  | nil => rfl
  | cons entry rest induction =>
    have found : records[index]? = some entry := by
      rw [← List.head?_drop, isRest, List.head?_cons]
    have isNext : records.drop (index + 1) = rest := by
      rw [← List.tail_drop, isRest, List.tail_cons]
    have parts := List.pairwise_cons.mp sorted
    have next := induction isNext parts.2
    rw [List.length_cons, scan, value_timestamp found, Option.bind_eq_bind,
      Option.bind_some]
    split_ifs with before behind
    · have outside : ¬inRange startTs endTs entry = true := by
        rw [inRange_iff]
        omega
      rw [List.filter_cons_of_neg outside, next]
    · rw [filter_inRange_eq_nil]
      · rfl
      · intro other member
        apply Or.inr
        cases List.mem_cons.mp member with
        | inl same => exact same ▸ behind
        | inr later => exact behind.trans_le (timestamp_le (parts.1 other later))
    · have inside := (inRange_iff startTs endTs entry).mpr ⟨not_lt.mp before, not_lt.mp behind⟩
      rw [List.filter_cons_of_pos inside, List.mapM_cons, value_sequence found,
        value_recordType found, next, restoredEntry]
      simp only [Option.bind_eq_bind, Option.bind_some, reconstructRecord_buildChunk found,
        Option.pure_def]
      cases restored entry with
      | none => rfl
      | some record => rfl

theorem rangeQuery_fromRecords (sorted : records.Pairwise fun left right => left.key ≤ right.key) :
    ∃ memtable, fromRecords records = some memtable ∧ ∀ startTs endTs,
      memtable.rangeQuery startTs endTs =
        (records.filter (inRange startTs endTs)).mapM restoredEntry := by
  rw [fromRecords]
  split_ifs with isEmpty
  · refine ⟨.empty, rfl, ?_⟩
    intro startTs endTs
    rw [isEmpty]
    rfl
  · refine ⟨_, by rw [chunkNew_buildChunk]; rfl, ?_⟩
    intro startTs endTs
    rw [rangeQuery]
    split_ifs with noEntry outside
    · exact absurd (List.length_eq_zero_iff.mp noEntry) isEmpty
    · rw [filter_inRange_eq_nil]
      · rfl
      · intro entry member
        have first : (records.head isEmpty).key.timestamp ≤ entry.key.timestamp := by
          have isCons := List.cons_head_tail isEmpty
          rw [← isCons] at sorted member
          cases List.mem_cons.mp member with
          | inl same => exact same ▸ le_refl _
          | inr later => exact timestamp_le ((List.pairwise_cons.mp sorted).1 entry later)
        have last : entry.key.timestamp ≤ (records.getLast isEmpty).key.timestamp := by
          have isConcat := List.dropLast_append_getLast isEmpty
          rw [← isConcat] at sorted member
          cases List.mem_append.mp member with
          | inl earlier =>
            exact timestamp_le ((List.pairwise_append.mp sorted).2.2 entry earlier _
              (List.mem_singleton_self _))
          | inr isLast => exact List.mem_singleton.mp isLast ▸ le_refl _
        dsimp only at outside
        omega
    · exact scan_eq startTs endTs rfl sorted

/-! ## The round trip -/

/-- A kind with columns of its own in `create_olap_schema`. -/
def HasColumns : ColumnRecord Number → Prop
  | .OrderInsert .. | .TradeExecuted .. | .AccountUpdate .. | .Checkpoint .. => True
  | .KLineFinished .. => True
  | _ => False

structure Returned (entry result : MemTableEntry (ColumnRecord Number)) : Prop where
  key : result.key = entry.key
  record : HasColumns entry.record → result.record = entry.record

/-- A query does not panic and gives exactly the entries of the range. -/
def RoundTrips (records : List (MemTableEntry (ColumnRecord Number))) (startTs endTs : ℤ) : Prop :=
  ∃ memtable found, fromRecords records = some memtable ∧
    memtable.rangeQuery startTs endTs = some found ∧
    List.Forall₂ Returned (records.filter (inRange startTs endTs)) found

/-- A record that `reconstruct_record` has an arm for, and that has nothing which is not
in the columns. -/
def Restorable (entry : MemTableEntry (ColumnRecord Number)) : Prop :=
  match entry.record with
  | .OrderInsert .. | .TradeExecuted .. | .AccountUpdate .. => True
  | .Checkpoint sequence _ => sequence = entry.key.sequence
  | _ => False

omit [Zero Number] in
theorem restored_iff {entry : MemTableEntry (ColumnRecord Number)}
    (sameTime : entry.key.timestamp = entry.record.timestamp) :
    (∃ result, restoredEntry entry = some result ∧ Returned entry result) ↔ Restorable entry := by
  obtain ⟨key, record⟩ := entry
  cases record with
  | OrderInsert orderId userId instrumentId direction offset price volume timestamp =>
    dsimp only [ColumnRecord.timestamp] at sameTime
    rw [← sameTime]
    exact ⟨fun _ => trivial, fun _ => ⟨_, rfl, rfl, fun _ => rfl⟩⟩
  | TradeExecuted tradeId orderId exchangeOrderId price volume timestamp =>
    dsimp only [ColumnRecord.timestamp] at sameTime
    rw [← sameTime]
    exact ⟨fun _ => trivial, fun _ => ⟨_, rfl, rfl, fun _ => rfl⟩⟩
  | AccountUpdate userId balance available frozen margin timestamp =>
    dsimp only [ColumnRecord.timestamp] at sameTime
    rw [← sameTime]
    exact ⟨fun _ => trivial, fun _ => ⟨_, rfl, rfl, fun _ => rfl⟩⟩
  | Checkpoint sequence timestamp =>
    dsimp only [ColumnRecord.timestamp] at sameTime
    rw [← sameTime]
    constructor
    · intro returned
      obtain ⟨result, isResult, kept⟩ := returned
      cases isResult
      have same := kept.record trivial
      injection same with sameSequence
      exact sameSequence.symm
    · intro sameSequence
      refine ⟨_, rfl, rfl, ?_⟩
      intro _
      change ColumnRecord.Checkpoint key.sequence _ = ColumnRecord.Checkpoint sequence _
      rw [show sequence = key.sequence from sameSequence]
  | AccountOpen | TickData | OrderBookSnapshot | OrderBookDelta | UserRegister | AccountBind
  | UserRoleUpdate | ExchangeOrderRecord | ExchangeTradeRecord | ExchangeResponseRecord
  | KLineFinished | FactorUpdate | FactorSnapshot | OrderStatusUpdate | PositionSnapshot
  | AccountSnapshot =>
    constructor
    · intro returned
      obtain ⟨result, isResult, _⟩ := returned
      cases isResult
    · exact False.elim

/-- The results for some entries are the related ones exactly if each of them has one. -/
theorem mapM_forall₂_iff {Related : α → β → Prop} (values : List α) :
    (∃ results, values.mapM transform = some results ∧ List.Forall₂ Related values results) ↔
      ∀ value ∈ values, ∃ result, transform value = some result ∧ Related value result := by
  induction values with
  | nil => exact ⟨fun _ => by simp, fun _ => ⟨[], rfl, .nil⟩⟩
  | cons value values induction =>
    rw [List.forall_mem_cons, ← induction]
    constructor
    · intro all
      obtain ⟨results, isResults, related⟩ := all
      cases related with
      | @cons _ result _ rest first later =>
        simp only [List.mapM_cons, Option.bind_eq_bind, Option.bind_eq_some_iff,
          Option.pure_def, Option.some.injEq, List.cons.injEq] at isResults
        obtain ⟨head, isHead, tail, isTail, sameHead, sameTail⟩ := isResults
        exact ⟨⟨result, sameHead ▸ isHead, first⟩, rest, sameTail ▸ isTail, later⟩
    · intro parts
      obtain ⟨⟨result, isResult, first⟩, rest, isRest, later⟩ := parts
      refine ⟨result :: rest, ?_, .cons first later⟩
      rw [List.mapM_cons, isResult, isRest]
      rfl

/-- Exactly the queries whose records can all be put together again return them. -/
theorem roundTrips_iff_restorable {records : List (MemTableEntry (ColumnRecord Number))}
    (keyed : Keyed records) (startTs endTs : ℤ) :
    RoundTrips records startTs endTs ↔ ∀ entry ∈ records,
      startTs ≤ entry.key.timestamp ∧ entry.key.timestamp ≤ endTs → Restorable entry := by
  obtain ⟨memtable, isTable, query⟩ := rangeQuery_fromRecords keyed.sorted
  have asResults : RoundTrips records startTs endTs ↔
      ∃ found, (records.filter (inRange startTs endTs)).mapM restoredEntry = some found ∧
        List.Forall₂ Returned (records.filter (inRange startTs endTs)) found := by
    rw [← query]
    constructor
    · intro trips
      obtain ⟨other, found, isOther, isFound, returned⟩ := trips
      rw [isTable] at isOther
      cases isOther
      exact ⟨found, isFound, returned⟩
    · intro results
      obtain ⟨found, isFound, returned⟩ := results
      exact ⟨memtable, found, isTable, isFound, returned⟩
  rw [asResults, mapM_forall₂_iff]
  constructor
  · intro all entry member inside
    have among := List.mem_filter.mpr ⟨member, (inRange_iff startTs endTs entry).mpr inside⟩
    exact (restored_iff (keyed.timestamps entry member)).mp (all entry among)
  · intro all entry among
    obtain ⟨member, inside⟩ := List.mem_filter.mp among
    exact (restored_iff (keyed.timestamps entry member)).mpr
      (all entry member ((inRange_iff startTs endTs entry).mp inside))

def tradeThenKline : List (MemTableEntry (ColumnRecord ℚ)) :=
  [⟨⟨1000, 1⟩, .TradeExecuted 1 1 100 3850 10 1000⟩,
    ⟨⟨2000, 2⟩, .KLineFinished (WalRecord.toFixedArray 16 "IF2501") 4 60000 3850 3860 3840 3855 20
      77100 100 110 2000⟩]

theorem tradeThenKline_keyed : Keyed tradeThenKline :=
  ⟨by decide, by decide⟩

/-- The trade alone can be queried. -/
theorem trade_roundTrips : RoundTrips tradeThenKline 0 1500 := by
  apply (roundTrips_iff_restorable tradeThenKline_keyed 0 1500).mpr
  intro entry member inside
  cases member with
  | head => trivial
  | tail _ later =>
    rw [List.mem_singleton.mp later] at inside
    exact absurd inside.2 (by decide)

/-- The columns have the finished minute, but it cannot be read back. -/
theorem kline_panics :
    Keyed tradeThenKline ∧ (fromRecords tradeThenKline).bind (rangeQuery 0 2000) = none ∧
      ¬RoundTrips tradeThenKline 0 2000 := by
  have panics : (fromRecords tradeThenKline).bind
      (rangeQuery 0 2000) = none := by
    rfl
  refine ⟨tradeThenKline_keyed, panics, ?_⟩
  intro trips
  obtain ⟨memtable, found, isTable, isFound, _⟩ := trips
  rw [isTable, Option.bind_some, isFound] at panics
  cases panics

end QAExchange.OlapMemTable
