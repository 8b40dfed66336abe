import QAExchange.Storage.OltpHybridStorage
import QAExchange.Storage.QueryFilter

/-! # Queries over both stores

Converted records are read from Parquet files, records from the cutoff on from the hybrid
storage. The result is sorted by timestamps before its page is taken.
-/

namespace QAExchange

open Foundation

variable {Price : Type}

/-! ## Rows of Parquet files -/

inductive OlapValue (Price : Type)
  | int64 (value : ℤ)
  | uint64 (value : ℕ)
  | uint8 (value : ℕ)
  | int32 (value : Option ℤ)
  | float64 (value : Option Price)
  | binary (value : Option (List UInt8))

/-- `downcast_ref::<PrimitiveArray<i32>>()` and the value in the row. -/
def OlapValue.asInt32 : OlapValue Price → Option ℤ
  | .int32 value => value
  | _ => none

/-- `downcast_ref::<PrimitiveArray<f64>>()` and the value in the row. -/
def OlapValue.asFloat64 : OlapValue Price → Option Price
  | .float64 value => value
  | _ => none

structure OlapRow (Price : Type) where
  timestamp : ℤ
  sequence : ℕ
  recordType : ℕ
  price : Option Price

namespace OlapRow

/-- The columns by their place in `create_olap_schema`. -/
def column (place : ℕ) (row : OlapRow Price) : Option (OlapValue Price) :=
  match place with
  | 0 => some (.int64 row.timestamp)
  | 1 => some (.uint64 row.sequence)
  | 2 => some (.uint8 row.recordType)
  | 8 => some (.float64 row.price)
  | _ => none

end OlapRow

/-- The numbers of the kinds in `build_chunk`. -/
def RecordType.olapNumber : RecordType → ℕ
  | .OrderInsert => 0
  | .TradeExecuted => 1
  | .AccountUpdate => 2
  | .Checkpoint => 3
  | .AccountOpen => 4
  | .TickData => 5
  | .OrderBookSnapshot => 6
  | .OrderBookDelta => 7
  | .UserRegister => 8
  | .AccountBind => 9
  | .ExchangeOrderRecord => 10
  | .ExchangeTradeRecord => 11
  | .ExchangeResponseRecord => 12
  | .KLineFinished => 13
  | .FactorUpdate => 14
  | .FactorSnapshot => 14
  | .OrderStatusUpdate => 15
  | .PositionSnapshot => 15
  | .AccountSnapshot => 15
  | .UserRoleUpdate => 15

namespace StorageRecord

/-- The column `price` is filled for orders and trades only. -/
def olapPrice (record : StorageRecord Price) : Option Price :=
  match record.fields with
  | .OrderInsert _ price => some price
  | .TradeExecuted price => some price
  | _ => none

end StorageRecord

/-- A row of `build_chunk`. -/
def OlapRow.of (entry : MemTableEntry (StorageRecord Price)) : OlapRow Price where
  timestamp := entry.key.timestamp
  sequence := entry.key.sequence
  recordType := entry.record.recordType.olapNumber
  price := entry.record.olapPrice

/-! ## Parquet files -/

structure RowGroupTimeRange where
  minTimestamp : ℤ
  maxTimestamp : ℤ

structure ParquetSSTable (Price : Type) where
  rowGroups : List (List (OlapRow Price))

namespace ParquetSSTable

/-- A chunk is written as one row group, unless it is empty. -/
def writeChunk (entries : List (MemTableEntry (StorageRecord Price))) : ParquetSSTable Price where
  rowGroups := if entries.isEmpty then [] else [entries.map OlapRow.of]

def extractTimestampStatistics (rows : List (OlapRow Price)) : RowGroupTimeRange where
  minTimestamp := (rows.map OlapRow.timestamp).min?.getD (-2 ^ 63)
  maxTimestamp := (rows.map OlapRow.timestamp).max?.getD (2 ^ 63 - 1)

def rowGroupRanges (parquet : ParquetSSTable Price) : List RowGroupTimeRange :=
  parquet.rowGroups.map extractTimestampStatistics

/-- A minimum of `i64::MAX` counts as none. -/
def minTimestamp (parquet : ParquetSSTable Price) : ℤ :=
  let least := (parquet.rowGroupRanges.map RowGroupTimeRange.minTimestamp).foldl min (2 ^ 63 - 1)
  if least = 2 ^ 63 - 1 then 0 else least

/-- A maximum of `i64::MIN` counts as none. -/
def maxTimestamp (parquet : ParquetSSTable Price) : ℤ :=
  let greatest := (parquet.rowGroupRanges.map RowGroupTimeRange.maxTimestamp).foldl max (-2 ^ 63)
  if greatest = -2 ^ 63 then 0 else greatest

/-- Files and row groups without a timestamp in the range are not read. -/
def rangeQuery (startTs endTs : ℤ) (parquet : ParquetSSTable Price) : List (OlapRow Price) :=
  if parquet.maxTimestamp ≠ 0 ∧ (endTs < parquet.minTimestamp ∨ parquet.maxTimestamp < startTs) then
    []
  else
    let relevant := parquet.rowGroups.filter fun rows =>
      startTs ≤ (extractTimestampStatistics rows).maxTimestamp ∧
        (extractTimestampStatistics rows).minTimestamp ≤ endTs
    relevant.flatMap fun rows =>
      rows.filter fun row => startTs ≤ row.timestamp ∧ row.timestamp ≤ endTs

/-- Neither the file nor one of its row groups overlaps the range, so that the file is not
opened. -/
def skips (startTs endTs : ℤ) (parquet : ParquetSSTable Price) : Bool :=
  (parquet.maxTimestamp ≠ 0 ∧ (endTs < parquet.minTimestamp ∨ parquet.maxTimestamp < startTs)) ∨
    ∀ range ∈ parquet.rowGroupRanges,
      ¬ (startTs ≤ range.maxTimestamp ∧ range.minTimestamp ≤ endTs)

end ParquetSSTable

abbrev OpensParquet (Price : Type) := ParquetSSTable Price → Except String Unit

/-- `range_query` on a file that may be damaged or gone. -/
def ParquetSSTable.rangeQueryFrom (opens : OpensParquet Price) (startTs endTs : ℤ)
    (parquet : ParquetSSTable Price) : Except String (List (OlapRow Price)) :=
  if parquet.skips startTs endTs then .ok []
  else do
    opens parquet
    pure (parquet.rangeQuery startTs endTs)

/-! ## The adapter -/

structure OltpBatchAdapter (Price : Type) where
  storage : OltpHybridStorage (StorageRecord Price)
  olapFiles : List (ParquetSSTable Price)
  olapCutoffTimestamp : ℤ

/-- A record of a result, without its values. -/
structure BatchRecord where
  key : String
  timestamp : ℤ
  deriving DecidableEq

/-- `OltpHybridStorage::calculate_olap_cutoff` -/
def calculateOlapCutoff (olapFiles : List (ParquetSSTable Price)) : ℤ :=
  (olapFiles.map ParquetSSTable.maxTimestamp).max?.getD 0

namespace OltpBatchAdapter

def newWithOlap (storage : OltpHybridStorage (StorageRecord Price))
    (olapFiles : List (ParquetSSTable Price)) : OltpBatchAdapter Price where
  storage := storage
  olapFiles := olapFiles
  olapCutoffTimestamp := calculateOlapCutoff olapFiles

def queryOltp (readsMetadata : ReadsMetadata (StorageRecord Price)) (key : String)
    (startTs endTs : ℤ) (adapter : OltpBatchAdapter Price) : Except String (List BatchRecord) := do
  let results ← adapter.storage.rangeQuery readsMetadata startTs endTs
  pure (results.map fun entry => ⟨key, entry.key.timestamp⟩)

def queryOlap (opens : OpensParquet Price) (key : String) (startTs endTs : ℤ)
    (adapter : OltpBatchAdapter Price) : Except String (List BatchRecord) := do
  let chunks ← adapter.olapFiles.mapM fun parquet => parquet.rangeQueryFrom opens startTs endTs
  pure (chunks.flatten.map fun row => ⟨key, row.timestamp⟩)

/-- The first part of `BatchDataSource::query`: Parquet files up to the cutoff. -/
def olapRead (opens : OpensParquet Price) (key : String) (startTs endTs : ℤ)
    (adapter : OltpBatchAdapter Price) : Except String (List BatchRecord) :=
  if startTs < adapter.olapCutoffTimestamp ∧ ¬ adapter.olapFiles.isEmpty then
    adapter.queryOlap opens key startTs (min endTs adapter.olapCutoffTimestamp)
  else pure []

/-- The second part of `BatchDataSource::query`: the storage from the cutoff on. -/
def oltpRead (readsMetadata : ReadsMetadata (StorageRecord Price)) (key : String)
    (startTs endTs : ℤ) (adapter : OltpBatchAdapter Price) : Except String (List BatchRecord) :=
  if adapter.olapCutoffTimestamp ≤ endTs then
    adapter.queryOltp readsMetadata key (max startTs adapter.olapCutoffTimestamp) endTs
  else pure []

/-- `BatchDataSource::query` -/
def query (opens : OpensParquet Price) (readsMetadata : ReadsMetadata (StorageRecord Price))
    (adapter : OltpBatchAdapter Price) (key : String) (startTs endTs : ℤ) :
    Except String (List BatchRecord) := do
  let historical ← adapter.olapRead opens key startTs endTs
  let recent ← adapter.oltpRead readsMetadata key startTs endTs
  pure (sortByKey BatchRecord.timestamp (historical ++ recent))

variable [LE Price] [DecidableLE Price]

/-- Whether `query_olap_filtered` keeps a row: by its time, by its kind if column 1 has one,
by its price if it has one. -/
def keepsRow (filter : QueryFilter Price) (row : OlapRow Price) : Bool :=
  let kind := ((row.column 1).bind OlapValue.asInt32).bind RecordType.fromI32
  let price := (row.column 8).bind OlapValue.asFloat64
  filter.inTime row.timestamp &&
    kind.all (fun kind => filter.recordTypes.contains kind) && filter.inPrices price

def queryOlapFiltered (key : String) (startTs endTs : ℤ) (filter : QueryFilter Price)
    (adapter : OltpBatchAdapter Price) : List BatchRecord :=
  adapter.olapFiles.flatMap fun parquet =>
    ((parquet.rangeQuery startTs endTs).filter (keepsRow filter)).map fun row =>
      ⟨key, row.timestamp⟩

def queryOltpFiltered (readsMetadata : ReadsMetadata (StorageRecord Price)) (key : String)
    (startTs endTs : ℤ) (filter : QueryFilter Price) (adapter : OltpBatchAdapter Price) :
    Except String (List BatchRecord) := do
  let results ← adapter.storage.rangeQuery readsMetadata startTs endTs
  let accepted := results.filter fun entry => filter.matchesRecord entry.record entry.key.timestamp
  pure (accepted.map fun entry => ⟨key, entry.key.timestamp⟩)

/-- The first part of `query_filtered`: Parquet files up to the cutoff. -/
def olapPart (key : String) (filter : QueryFilter Price) (adapter : OltpBatchAdapter Price) :
    List BatchRecord :=
  if filter.bounds.1 < adapter.olapCutoffTimestamp ∧ ¬ adapter.olapFiles.isEmpty then
    adapter.queryOlapFiltered key filter.bounds.1
      (min filter.bounds.2 adapter.olapCutoffTimestamp) filter
  else []

/-- The second part of `query_filtered`: the storage from the cutoff on. -/
def oltpPart (readsMetadata : ReadsMetadata (StorageRecord Price)) (key : String)
    (filter : QueryFilter Price) (adapter : OltpBatchAdapter Price) :
    Except String (List BatchRecord) :=
  if adapter.olapCutoffTimestamp ≤ filter.bounds.2 then
    adapter.queryOltpFiltered readsMetadata key
      (max filter.bounds.1 adapter.olapCutoffTimestamp) filter.bounds.2 filter
  else pure []

def queryFiltered (readsMetadata : ReadsMetadata (StorageRecord Price)) (key : String)
    (filter : QueryFilter Price) (adapter : OltpBatchAdapter Price) :
    Except String (List BatchRecord) := do
  let recent ← adapter.oltpPart readsMetadata key filter
  let results := (adapter.olapPart key filter ++ recent).insertionSort fun left right =>
    left.timestamp ≤ right.timestamp
  pure ((results.drop filter.offset).take (filter.limit.getD (2 ^ 64 - 1)))

end OltpBatchAdapter

end QAExchange
