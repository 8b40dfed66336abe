import QAExchange.Storage.OltpBatchAdapter

/-! # Queries over stream and batch data

The newest records of a key are kept in a buffer. A query reads them from a cutoff on that
lies some seconds before the clock, reads a batch source up to the cutoff, and merges both.
-/

namespace QAExchange

open Foundation

variable {Price : Type}

structure StreamBuffer where
  buffer : String → List BatchRecord
  maxSize : ℕ

namespace StreamBuffer

def default : StreamBuffer where
  buffer := fun _ => []
  maxSize := 10000

/-- The first records are removed while there are too many. -/
def push (record : BatchRecord) (stream : StreamBuffer) : StreamBuffer :=
  let entry := stream.buffer record.key ++ [record]
  let kept := entry.drop (entry.length - stream.maxSize)
  { stream with buffer := Function.update stream.buffer record.key kept }

def queryRange (key : String) (startTs endTs : ℤ) (stream : StreamBuffer) : List BatchRecord :=
  (stream.buffer key).filter fun record =>
    startTs ≤ record.timestamp ∧ record.timestamp ≤ endTs

end StreamBuffer

/-! ## The hybrid engine -/

/-- `dyn BatchDataSource`, with the key and the range of a query. -/
abbrev BatchDataSource := String → ℤ → ℤ → Except String (List BatchRecord)

inductive DataSource
  | Stream
  | Batch
  | Merged
  deriving DecidableEq

structure QueryResult where
  records : List BatchRecord
  source : DataSource
  isComplete : Bool
  deriving DecidableEq

inductive MergeStrategy
  | StreamFirst
  | BatchFirst
  | ByTimestamp
  | Latest
  deriving DecidableEq

structure HybridConfig where
  mergeStrategy : MergeStrategy
  /-- In seconds. -/
  streamPriorityWindow : ℕ

def HybridConfig.default : HybridConfig where
  mergeStrategy := .ByTimestamp
  streamPriorityWindow := 60

structure HybridQueryEngine where
  streamBuffer : StreamBuffer
  batchSource : Option BatchDataSource
  config : HybridConfig

namespace HybridQueryEngine

def new (config : HybridConfig) : HybridQueryEngine where
  streamBuffer := .default
  batchSource := none
  config := config

def withBatchSource (source : BatchDataSource) (engine : HybridQueryEngine) : HybridQueryEngine :=
  { engine with batchSource := some source }

def pushStream (record : BatchRecord) (engine : HybridQueryEngine) : HybridQueryEngine :=
  { engine with streamBuffer := engine.streamBuffer.push record }

def mergeResults (strategy : MergeStrategy) (stream batch : List BatchRecord) : List BatchRecord :=
  match strategy with
  | .StreamFirst =>
    let streamMinTs := (stream.map BatchRecord.timestamp).min?.getD (2 ^ 63 - 1)
    sortByKey BatchRecord.timestamp
      (stream ++ batch.filter fun record => record.timestamp < streamMinTs)
  | .BatchFirst =>
    let batchMaxTs := (batch.map BatchRecord.timestamp).max?.getD (-2 ^ 63)
    sortByKey BatchRecord.timestamp
      (batch ++ stream.filter fun record => batchMaxTs < record.timestamp)
  | .ByTimestamp =>
    dedupBy (fun record kept => record.key = kept.key ∧ record.timestamp = kept.timestamp)
      (sortByKey BatchRecord.timestamp (batch ++ stream))
  | .Latest => sortByKey (fun record => -record.timestamp) (batch ++ stream)

/-- The window before the clock, in seconds, with the overflow of `i64`. The clock is in
nanoseconds. -/
def streamCutoff (now : ℤ) (engine : HybridQueryEngine) : ℤ :=
  (now / 1000000000 - engine.config.streamPriorityWindow).bmod (2 ^ 64)

def streamRecords (cutoff : ℤ) (key : String) (startTs endTs : ℤ) (engine : HybridQueryEngine) :
    List BatchRecord :=
  let streamStart := max startTs cutoff
  if streamStart < endTs then engine.streamBuffer.queryRange key streamStart endTs else []

/-- An error of the source is dropped. -/
def batchRecords (cutoff : ℤ) (key : String) (startTs endTs : ℤ) (engine : HybridQueryEngine) :
    Option (List BatchRecord) :=
  engine.batchSource.bind fun batchSource =>
    let batchEnd := min endTs cutoff
    if startTs < batchEnd then (batchSource key startTs batchEnd).toOption else none

def query (now : ℤ) (key : String) (startTs endTs : ℤ) (engine : HybridQueryEngine) :
    Except String QueryResult :=
  let cutoff := engine.streamCutoff now
  let merged := mergeResults engine.config.mergeStrategy
    (engine.streamRecords cutoff key startTs endTs)
    ((engine.batchRecords cutoff key startTs endTs).getD [])
  .ok ⟨merged, .Merged, true⟩

end HybridQueryEngine

structure UnifiedQueryConfig where
  streamWindowSeconds : ℤ

def UnifiedQueryConfig.default : UnifiedQueryConfig where
  streamWindowSeconds := 60

structure UnifiedQueryEngine where
  hybridEngine : HybridQueryEngine

namespace UnifiedQueryEngine

def new (config : UnifiedQueryConfig) : UnifiedQueryEngine where
  hybridEngine := .new { HybridConfig.default with
    streamPriorityWindow := (config.streamWindowSeconds % 2 ^ 64).toNat }

/-- The storage and its Parquet files are the batch source. -/
def withStorage (opens : OpensParquet Price) (readsMetadata : ReadsMetadata (StorageRecord Price))
    (storage : OltpHybridStorage (StorageRecord Price)) (olapFiles : List (ParquetSSTable Price))
    (engine : UnifiedQueryEngine) : UnifiedQueryEngine where
  hybridEngine := engine.hybridEngine.withBatchSource
    ((OltpBatchAdapter.newWithOlap storage olapFiles).query opens readsMetadata)

def pushStream (record : BatchRecord) (engine : UnifiedQueryEngine) : UnifiedQueryEngine where
  hybridEngine := engine.hybridEngine.pushStream record

def query (now : ℤ) (key : String) (startTs endTs : ℤ) (engine : UnifiedQueryEngine) :
    Except String QueryResult :=
  match engine.hybridEngine.query now key startTs endTs with
  | .ok result => .ok result
  | .error text => .error ("Hybrid query error: " ++ text)

end UnifiedQueryEngine

end QAExchange
