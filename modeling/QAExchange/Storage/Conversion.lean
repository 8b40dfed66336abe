import QAExchange.Storage.OltpMemTable

/-! # Conversion of SSTables to Parquet files

A scheduler groups the SSTables of an instrument into tasks, workers write the records of
a task into a Parquet file and archive its SSTables. Records of the tasks are kept in
memory and saved after every change; the queue of the tasks is in memory only.
-/

namespace QAExchange

variable {Record : Type}

/-! ## Records of tasks -/

inductive ConversionStatus
  | Pending
  | Converting
  | Success
  | Failed
  deriving DecidableEq

/-- `{storage_base}/{instrument}/oltp/{stem}.rkyv` -/
structure SourcePath where
  instrumentId : String
  stem : String
  deriving DecidableEq

/-- `{storage_base}/{instrument}/olap/`, and `manual_` or `batch_` with the second at which
the task was created. -/
structure OlapPath where
  instrumentId : String
  manual : Bool
  second : ℤ
  deriving DecidableEq

structure ConversionRecord where
  id : ℕ
  instrumentId : String
  oltpSstables : List SourcePath
  olapParquet : OlapPath
  status : ConversionStatus
  entryCount : ℕ
  minTimestamp : ℤ
  maxTimestamp : ℤ
  startTime : ℤ
  endTime : Option ℤ
  errorMessage : Option String
  retryCount : ℕ
  createdAt : ℤ
  deriving DecidableEq

namespace ConversionRecord

def new (now : ℤ) (id : ℕ) (instrumentId : String) (oltpSstables : List SourcePath)
    (olapParquet : OlapPath) : ConversionRecord where
  id := id
  instrumentId := instrumentId
  oltpSstables := oltpSstables
  olapParquet := olapParquet
  status := .Pending
  entryCount := 0
  minTimestamp := 0
  maxTimestamp := 0
  startTime := now
  endTime := none
  errorMessage := none
  retryCount := 0
  createdAt := now

def markConverting (now : ℤ) (record : ConversionRecord) : ConversionRecord :=
  { record with status := .Converting, startTime := now }

def markSuccess (now : ℤ) (entryCount : ℕ) (minTimestamp maxTimestamp : ℤ)
    (record : ConversionRecord) : ConversionRecord :=
  { record with
    status := .Success
    entryCount := entryCount
    minTimestamp := minTimestamp
    maxTimestamp := maxTimestamp
    endTime := some now
    errorMessage := none }

def markFailed (now : ℤ) (error : String) (record : ConversionRecord) : ConversionRecord :=
  { record with
    status := .Failed
    endTime := some now
    errorMessage := some error
    retryCount := record.retryCount + 1 }

def canRetry (maxRetries : ℕ) (record : ConversionRecord) : Bool :=
  decide (record.status = .Failed) && decide (record.retryCount < maxRetries)

end ConversionRecord

structure ConversionMetadata where
  records : List ConversionRecord
  nextId : ℕ
  deriving DecidableEq

namespace ConversionMetadata

def new : ConversionMetadata where
  records := []
  nextId := 1

/-- `allocate_id` and `add_record`, without the save. -/
def addRecord (record : ConversionRecord) (metadata : ConversionMetadata) : ConversionMetadata where
  records := metadata.records ++ [record]
  nextId := metadata.nextId + 1

/-- The first record with the id is replaced. -/
def replaceFirst (record : ConversionRecord) : List ConversionRecord → List ConversionRecord
  | [] => []
  | first :: rest =>
    if first.id = record.id then record :: rest else first :: replaceFirst record rest

def getPendingRecords (metadata : ConversionMetadata) : List ConversionRecord :=
  metadata.records.filter fun record => record.status = .Pending

def getRetryableRecords (maxRetries : ℕ) (metadata : ConversionMetadata) : List ConversionRecord :=
  metadata.records.filter (ConversionRecord.canRetry maxRetries)

def getConvertingRecords (metadata : ConversionMetadata) : List ConversionRecord :=
  metadata.records.filter fun record => record.status = .Converting

end ConversionMetadata

/-! ## Files -/

/-- A complete SSTable with the second of its last change. -/
structure SourceFile (Record : Type) where
  path : SourcePath
  modified : ℤ
  entries : List (MemTableEntry Record)
  deriving DecidableEq

/-- What a file for Parquet output holds. Rows stand for the entries they were built
from. -/
inductive OlapContents (Record : Type)
  | started
  | whole (rows : List (MemTableEntry Record))
  | mixed
  deriving DecidableEq

def OlapContents.write [DecidableEq Record] (rows : List (MemTableEntry Record)) :
    OlapContents Record → OlapContents Record
  | .started => .whole rows
  | .whole old => if old = rows then .whole rows else .mixed
  | .mixed => .mixed

/-- `temporary` and `parquet` are the directory entries `*.tmp` and `*.parquet`; they name
places in `contents`, which an open file keeps when it is renamed or removed. -/
structure ConversionFiles (Record : Type) where
  sources : List (SourceFile Record)
  archived : List (SourceFile Record)
  temporary : OlapPath → Option ℕ
  parquet : OlapPath → Option ℕ
  contents : List (OlapContents Record)

namespace ConversionFiles

/-- `File::create` empties a file that is there. -/
def create (path : OlapPath) (files : ConversionFiles Record) : ℕ × ConversionFiles Record :=
  match files.temporary path with
  | some place => (place, { files with contents := files.contents.set place .started })
  | none => (files.contents.length, { files with
      temporary := fun other => if other = path then some files.contents.length
        else files.temporary other
      contents := files.contents ++ [.started] })

def write [DecidableEq Record] (place : ℕ) (rows : List (MemTableEntry Record))
    (files : ConversionFiles Record) : ConversionFiles Record :=
  { files with contents := files.contents.modify place (OlapContents.write rows) }

def removeTemporary (path : OlapPath) (files : ConversionFiles Record) : ConversionFiles Record :=
  { files with
    temporary := fun other => if other = path then none else files.temporary other }

/-- `rename(&tmp_path, &record.olap_parquet)` -/
def rename (path : OlapPath) (files : ConversionFiles Record) : Option (ConversionFiles Record) :=
  match files.temporary path with
  | some place => some { (files.removeTemporary path) with
      parquet := fun other => if other = path then some place else files.parquet other }
  | none => none

def findSource (path : SourcePath) (files : ConversionFiles Record) : Option (SourceFile Record) :=
  files.sources.find? fun file => file.path = path

/-- Delete a source file, or rename it to `.archived` where it is to be kept. -/
def archive (retentionSecs : ℕ) (path : SourcePath) (files : ConversionFiles Record) :
    ConversionFiles Record :=
  { files with
    sources := files.sources.filter fun file => file.path ≠ path
    archived := if retentionSecs = 0 then files.archived
      else files.archived ++ (files.findSource path).toList }

end ConversionFiles

/-! ## Scheduler and workers -/

structure SchedulerConfig where
  minSstablesPerBatch : ℕ
  maxSstablesPerBatch : ℕ
  minSstableAgeSecs : ℕ
  maxRetries : ℕ
  zombieTimeoutSecs : ℤ

def SchedulerConfig.default : SchedulerConfig where
  minSstablesPerBatch := 3
  maxSstablesPerBatch := 20
  minSstableAgeSecs := 60
  maxRetries := 5
  zombieTimeoutSecs := 3600

structure WorkerConfig where
  workerCount : ℕ
  deleteSourceAfterSuccess : Bool
  sourceRetentionSecs : ℕ

def WorkerConfig.default : WorkerConfig where
  workerCount := 4
  deleteSourceAfterSuccess := true
  sourceRetentionSecs := 3600

/-- Where the scheduler is in its round: it scans the directories of the instruments, makes
tasks of batches of files, collects the records to retry, marks each of them and sends its
task, collects the zombies, marks them as failed and removes temporary files. -/
inductive SchedulerState
  | resting
  | scanning (instruments : List String)
  | batching (instrumentId : String) (batches : List (List SourcePath))
      (instruments : List String)
  | collecting
  | retrying (records : List ConversionRecord)
  | sending (record : ConversionRecord) (records : List ConversionRecord)
  | searching
  | burying (records : List ConversionRecord)
  | cleaning

inductive WorkerState (Record : Type)
  | idle
  | taken (record : ConversionRecord)
  | reading (record : ConversionRecord) (sstables : List SourcePath)
      (collected : List (MemTableEntry Record))
  | creating (record : ConversionRecord) (rows : List (MemTableEntry Record))
  | writing (record : ConversionRecord) (rows : List (MemTableEntry Record)) (place : ℕ)
  | moving (record : ConversionRecord) (rows : List (MemTableEntry Record))
  | finishing (record : ConversionRecord) (entryCount : ℕ) (minTimestamp maxTimestamp : ℤ)
  | failing (record : ConversionRecord) (error : String)
  | cleaning (record : ConversionRecord)
  | archiving (record : ConversionRecord) (sstables : List SourcePath)

/-- `saved` is the metadata file. -/
structure ConversionSystem (Record : Type) where
  instruments : List String
  metadata : ConversionMetadata
  saved : ConversionMetadata
  queue : List ConversionRecord
  scheduler : SchedulerState
  workers : List (WorkerState Record)
  files : ConversionFiles Record

/-- The clock in Unix seconds, the error of the file operation of the step if it has one,
and whether the directory for Parquet files cannot be made. -/
structure ConversionInput where
  now : ℤ
  failure : Option String
  noDirectory : Bool

namespace ConversionSystem

/-- `save` after a change of the metadata. -/
def save (input : ConversionInput) (metadata : ConversionMetadata)
    (system : ConversionSystem Record) : Bool × ConversionSystem Record :=
  match input.failure with
  | none => (true, { system with metadata := metadata, saved := metadata })
  | some _ => (false, { system with metadata := metadata })

def updateRecord (input : ConversionInput) (record : ConversionRecord)
    (system : ConversionSystem Record) : Bool × ConversionSystem Record :=
  if ∃ known ∈ system.metadata.records, known.id = record.id then
    system.save input { system.metadata with
      records := ConversionMetadata.replaceFirst record system.metadata.records }
  else (false, system)

def send (record : ConversionRecord) (system : ConversionSystem Record) : ConversionSystem Record :=
  { system with queue := system.queue ++ [record] }

def submit (input : ConversionInput) (manual : Bool) (instrumentId : String)
    (sstables : List SourcePath) (system : ConversionSystem Record) :
    Bool × ConversionSystem Record :=
  let record := ConversionRecord.new input.now system.metadata.nextId instrumentId sstables
    ⟨instrumentId, manual, input.now⟩
  if input.noDirectory then (false, system)
  else
    match system.save input (system.metadata.addRecord record) with
    | (true, after) => (true, after.send record)
    | (false, after) => (false, after)

/-- `trigger_conversion` -/
def triggerConversion (input : ConversionInput) (instrumentId : String)
    (sstables : List SourcePath) (system : ConversionSystem Record) : ConversionSystem Record :=
  (system.submit input true instrumentId sstables).2

def createConversionTask (input : ConversionInput) (instrumentId : String)
    (sstables : List SourcePath) (system : ConversionSystem Record) :
    Bool × ConversionSystem Record :=
  if ∃ record ∈ system.metadata.getPendingRecords,
      record.instrumentId = instrumentId ∧ record.oltpSstables = sstables then
    (true, system)
  else system.submit input false instrumentId sstables

/-! ## Rounds of the scheduler -/

/-- The files of the instrument that are old enough, by name. A file from the future counts
as old. -/
def scanOltpSstables (config : SchedulerConfig) (now : ℤ) (instrumentId : String)
    (sources : List (SourceFile Record)) : List SourcePath :=
  let old := sources.filter fun file =>
    file.path.instrumentId = instrumentId ∧
      ¬ (file.modified ≤ now ∧ now - file.modified < config.minSstableAgeSecs)
  (old.map SourceFile.path).insertionSort fun left right =>
    left.stem ++ ".rkyv" ≤ right.stem ++ ".rkyv"

/-- `chunks(size)` for a positive size. -/
def chunks {α : Type} (size : ℕ) : ℕ → List α → List (List α)
  | fuel + 1, item :: items =>
    (item :: items).take size :: chunks size fuel ((item :: items).drop size)
  | _, _ => []

/-- The wait before a retry doubles with every failure. -/
def readyForRetry (now : ℤ) (record : ConversionRecord) : Bool :=
  decide (2 ^ min record.retryCount 10 ≤ now - record.endTime.getD 0)

def buryZombie (config : SchedulerConfig) (now : ℤ) (record : ConversionRecord) :
    Option ConversionRecord :=
  let elapsed := now - record.startTime
  if config.zombieTimeoutSecs < elapsed then
    some (record.markFailed now ("Zombie task timeout after " ++ toString elapsed ++ " seconds"))
  else none

def cleanupTempFiles (system : ConversionSystem Record) : ConversionSystem Record :=
  let failed := system.metadata.records.filter fun record => record.status = .Failed
  { system with
    files := failed.foldl (fun files record => files.removeTemporary record.olapParquet)
      system.files }

/-- One step of `ConversionScheduler::run`. Where a part of the round fails, the next part
begins. -/
def schedulerStep (config : SchedulerConfig) (input : ConversionInput)
    (system : ConversionSystem Record) : ConversionSystem Record :=
  match system.scheduler with
  | .resting =>
    match input.failure with
    | none => { system with scheduler := .scanning system.instruments }
    | some _ => { system with scheduler := .collecting }
  | .scanning [] => { system with scheduler := .collecting }
  | .scanning (instrumentId :: instruments) =>
    match input.failure with
    | none =>
      let sstables := scanOltpSstables config input.now instrumentId system.files.sources
      if sstables.length < config.minSstablesPerBatch then
        { system with scheduler := .scanning instruments }
      else
        let batches := chunks config.maxSstablesPerBatch sstables.length sstables
        { system with scheduler := .batching instrumentId batches instruments }
    | some _ => { system with scheduler := .collecting }
  | .batching _ [] instruments => { system with scheduler := .scanning instruments }
  | .batching instrumentId (batch :: batches) instruments =>
    match system.createConversionTask input instrumentId batch with
    | (true, after) =>
      { after with scheduler := .batching instrumentId batches instruments }
    | (false, after) => { after with scheduler := .collecting }
  | .collecting =>
    let retryable := system.metadata.getRetryableRecords config.maxRetries
    { system with scheduler := .retrying (retryable.filter (readyForRetry input.now)) }
  | .retrying [] => { system with scheduler := .searching }
  | .retrying (record :: records) =>
    match system.updateRecord input { record with status := .Pending } with
    | (true, after) =>
      { after with scheduler := .sending { record with status := .Pending } records }
    | (false, after) => { after with scheduler := .searching }
  | .sending record records =>
    { (system.send record) with scheduler := .retrying records }
  | .searching =>
    let converting := system.metadata.getConvertingRecords
    { system with scheduler := .burying (converting.filterMap (buryZombie config input.now)) }
  | .burying [] => { system with scheduler := .cleaning }
  | .burying (record :: records) =>
    match system.updateRecord input record with
    | (true, after) => { after with scheduler := .burying records }
    | (false, after) => { after with scheduler := .cleaning }
  | .cleaning => { (system.cleanupTempFiles) with scheduler := .resting }

def setWorker (index : ℕ) (worker : WorkerState Record) (system : ConversionSystem Record) :
    ConversionSystem Record :=
  { system with workers := system.workers.set index worker }

def readSstable (input : ConversionInput) (path : SourcePath)
    (files : ConversionFiles Record) : Except String (List (MemTableEntry Record)) :=
  match input.failure with
  | some text => .error text
  | none =>
    match files.findSource path with
    | some file => .ok file.entries
    | none => .error "Open SSTable failed: No such file or directory (os error 2)"

/-- `sort_by_key(|(key, _)| (key.timestamp, key.sequence))` -/
def sortEntries (entries : List (MemTableEntry Record)) : List (MemTableEntry Record) :=
  entries.insertionSort fun left right => left.key ≤ right.key

/-- One step of `ConversionWorker::run`, whose worker is in the given state. -/
def workerStep [DecidableEq Record] (config : WorkerConfig) (input : ConversionInput) (index : ℕ)
    (system : ConversionSystem Record) : WorkerState Record → ConversionSystem Record
  | .idle =>
    match system.queue with
    | [] => system
    | record :: queue => setWorker index (.taken record) { system with queue := queue }
  | .taken record =>
    match system.updateRecord input (record.markConverting input.now) with
    | (true, after) =>
      after.setWorker index
        (.reading (record.markConverting input.now) record.oltpSstables [])
    | (false, after) => after.setWorker index .idle
  | .reading record [] collected =>
    if collected.isEmpty then
      system.setWorker index (.failing record "No records found in OLTP SSTables")
    else system.setWorker index (.creating record (sortEntries collected))
  | .reading record (path :: sstables) collected =>
    match readSstable input path system.files with
    | .ok entries => system.setWorker index (.reading record sstables (collected ++ entries))
    | .error text => system.setWorker index (.failing record text)
  | .creating record rows =>
    match input.failure with
    | none =>
      let created := system.files.create record.olapParquet
      setWorker index (.writing record rows created.1) { system with files := created.2 }
    | some text => system.setWorker index (.failing record text)
  | .writing record rows place =>
    match input.failure with
    | none =>
      setWorker index (.moving record rows)
        { system with files := system.files.write place rows }
    | some text => system.setWorker index (.failing record text)
  | .moving record rows =>
    match input.failure, system.files.rename record.olapParquet with
    | none, some files =>
      setWorker index (.finishing record rows.length
        ((rows.head?.map fun row => row.key.timestamp).getD 0)
        ((rows.getLast?.map fun row => row.key.timestamp).getD 0))
        { system with files := files }
    | none, none =>
      system.setWorker index
        (.failing record "Rename parquet file failed: No such file or directory (os error 2)")
    | some text, _ => system.setWorker index (.failing record text)
  | .finishing record entryCount minTimestamp maxTimestamp =>
    let done := record.markSuccess input.now entryCount minTimestamp maxTimestamp
    match system.updateRecord input done with
    | (true, after) =>
      after.setWorker index
        (if config.deleteSourceAfterSuccess then .archiving done done.oltpSstables else .idle)
    | (false, after) => after.setWorker index .idle
  | .failing record error =>
    match system.updateRecord input (record.markFailed input.now error) with
    | (true, after) => after.setWorker index (.cleaning (record.markFailed input.now error))
    | (false, after) => after.setWorker index .idle
  | .cleaning record =>
    match input.failure with
    | none =>
      setWorker index .idle
        { system with files := system.files.removeTemporary record.olapParquet }
    | some _ => system.setWorker index .idle
  | .archiving _ [] => system.setWorker index .idle
  | .archiving record (path :: sstables) =>
    match input.failure with
    | none =>
      setWorker index (.archiving record sstables)
        { system with files := system.files.archive config.sourceRetentionSecs path }
    | some _ => system.setWorker index (.archiving record sstables)

inductive Turn
  | scheduler (input : ConversionInput)
  | worker (input : ConversionInput) (index : ℕ)
  | trigger (input : ConversionInput) (instrumentId : String) (sstables : List SourcePath)
  | restart

/-- A crash, and `ConversionManager::new` on the files that are left. -/
def restart (config : WorkerConfig) (system : ConversionSystem Record) : ConversionSystem Record :=
  { system with
    metadata := system.saved
    queue := []
    scheduler := .resting
    workers := List.replicate config.workerCount .idle }

def next [DecidableEq Record] (scheduler : SchedulerConfig) (worker : WorkerConfig)
    (system : ConversionSystem Record) : Turn → ConversionSystem Record
  | .scheduler input => system.schedulerStep scheduler input
  | .worker input index =>
    match system.workers[index]? with
    | some state => system.workerStep worker input index state
    | none => system
  | .trigger input instrumentId sstables => system.triggerConversion input instrumentId sstables
  | .restart => system.restart worker

def run [DecidableEq Record] (scheduler : SchedulerConfig) (worker : WorkerConfig)
    (turns : List Turn) (system : ConversionSystem Record) : ConversionSystem Record :=
  turns.foldl (next scheduler worker) system

def begun (config : WorkerConfig) (instruments : List String)
    (sources : List (SourceFile Record)) : ConversionSystem Record where
  instruments := instruments
  metadata := .new
  saved := .new
  queue := []
  scheduler := .resting
  workers := List.replicate config.workerCount .idle
  files := ⟨sources, [], fun _ => none, fun _ => none, []⟩

end ConversionSystem

end QAExchange
