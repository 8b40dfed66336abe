import Mathlib.Data.List.Sort
import QAExchange.Foundation.Action
import QAExchange.Foundation.Framing

/-! # The WAL manager

A log is a directory of files. Each file has a header of 128 bytes and then one
frame for each entry. The manager numbers the entries, appends them to the newest
file, and begins a new file when the next write would make that one too large.
Reading and writing themselves do not fail here; rkyv may.
-/

namespace QAExchange

open Foundation Action Framing

structure WalEntry (Record : Type) where
  sequence : ℕ
  crc32 : ℕ
  timestamp : ℤ
  record : Record
  deriving DecidableEq

structure EntryCodec (Record : Type) where
  /-- `rkyv::to_bytes` of an entry. -/
  serialize : WalEntry Record → Except String (List UInt8)
  /-- `rkyv::check_archived_root`, and the entry that it gives. -/
  checkArchivedRoot : List UInt8 → Except String (WalEntry Record)
  /-- `rkyv::to_bytes` of a record. -/
  serializeRecord : Record → Except String (List UInt8)
  /-- `crc32fast::Hasher` over the bytes. -/
  hash : List UInt8 → ℕ

structure Stamped (Record : Type) where
  nanos : ℤ
  record : Record

namespace WalEntry

variable {Record : Type}

def new (sequence : ℕ) (stamped : Stamped Record) : WalEntry Record where
  sequence := sequence
  crc32 := 0
  timestamp := stamped.nanos
  record := stamped.record

def toBytes (codec : EntryCodec Record) (entry : WalEntry Record) : Except String (List UInt8) :=
  match codec.serialize entry with
  | .ok bytes => .ok bytes
  | .error text => .error ("rkyv serialization failed: " ++ text)

def fromBytes (codec : EntryCodec Record) (bytes : List UInt8) : Except String (WalEntry Record) :=
  match codec.checkArchivedRoot bytes with
  | .ok entry => .ok entry
  | .error text => .error ("WAL deserialization failed: " ++ text)

def calculateCrc32 (codec : EntryCodec Record) (entry : WalEntry Record) : ℕ :=
  match codec.serializeRecord entry.record with
  | .ok bytes => codec.hash bytes
  | .error _ => 0

def withCrc32 (codec : EntryCodec Record) (entry : WalEntry Record) : WalEntry Record :=
  { entry with crc32 := entry.calculateCrc32 codec }

def verifyCrc32 (codec : EntryCodec Record) (entry : WalEntry Record) : Bool :=
  entry.crc32 = entry.calculateCrc32 codec

@[simp] theorem verifyCrc32_withCrc32 (codec : EntryCodec Record) (entry : WalEntry Record) :
    (entry.withCrc32 codec).verifyCrc32 codec = true := by
  simp [verifyCrc32, withCrc32, calculateCrc32]

end WalEntry

structure WalFileHeader where
  magic : List UInt8
  version : ℕ
  startSequence : ℕ
  timestamp : ℤ
  reserved : List UInt8

namespace WalFileHeader

/-- `b"QAXWAL01"` -/
def magicBytes : List UInt8 := [81, 65, 88, 87, 65, 76, 48, 49]

/-- A header as of `seconds`. -/
def new (startSequence : ℕ) (seconds : ℤ) : WalFileHeader where
  magic := magicBytes
  version := 1
  startSequence := startSequence
  timestamp := seconds
  reserved := List.replicate 100 0

def toBytes (header : WalFileHeader) : List UInt8 :=
  header.magic ++ leBytes 4 header.version ++ leBytes 8 header.startSequence ++
    leBytes 8 (header.timestamp % 2 ^ 64).toNat ++ header.reserved

def fromBytes (bytes : List UInt8) : Except String WalFileHeader :=
  if bytes.length < 128 then .error "Invalid header size"
  else if bytes.take 8 ≠ magicBytes then .error "Invalid magic"
  else .ok {
    magic := bytes.take 8
    version := ofLeBytes ((bytes.drop 8).take 4)
    startSequence := ofLeBytes ((bytes.drop 12).take 8)
    timestamp := (BitVec.ofNat 64 (ofLeBytes ((bytes.drop 20).take 8))).toInt
    reserved := (bytes.drop 28).take 100 }

@[simp] theorem length_toBytes_new (startSequence : ℕ) (seconds : ℤ) :
    (new startSequence seconds).toBytes.length = 128 := by
  simp [new, toBytes, magicBytes]

end WalFileHeader

/-- The file `wal_{:020}.log`. -/
structure WalFile where
  number : ℕ
  bytes : List UInt8
  deriving DecidableEq

structure PreSerializedEntry where
  sequence : ℕ
  bytes : List UInt8
  deriving DecidableEq

structure GroupCommitConfig where
  maxWaitMs : ℕ
  maxBatchSize : ℕ
  enabled : Bool
  deriving DecidableEq

namespace GroupCommitConfig

def default : GroupCommitConfig where
  maxWaitMs := 5
  maxBatchSize := 1000
  enabled := true

end GroupCommitConfig

/-- `files` is the directory in the order of its file names: the padded numbers
sort as the numbers do. `currentFile` is the file that the manager appends to, if
the directory still has it. -/
structure WalManager where
  files : List WalFile
  currentFile : Option ℕ
  currentSequence : ℕ
  currentFileSize : ℕ
  maxFileSize : ℕ
  groupCommitConfig : GroupCommitConfig
  groupCommitBuffer : List PreSerializedEntry
  deriving DecidableEq

namespace WalManager

variable {Record : Type} (codec : EntryCodec Record)

/-- `OpenOptions::new().create(true).append(true)` -/
def openFile (number : ℕ) (files : List WalFile) : List WalFile :=
  if ∃ file ∈ files, file.number = number then files
  else files.orderedInsert (fun left right => left.number ≤ right.number) ⟨number, []⟩

def appendBytes (number : ℕ) (bytes : List UInt8) (files : List WalFile) : List WalFile :=
  files.map fun file =>
    if file.number = number then { file with bytes := file.bytes ++ bytes } else file

/-- The sequence numbers that `open_existing` finds in a file. -/
def scanFile (file : WalFile) : List ℕ :=
  match WalFileHeader.fromBytes (file.bytes.take 128) with
  | .error _ => []
  | .ok _ => (frames (file.bytes.drop 128)).1.filterMap fun buffer =>
    match WalEntry.fromBytes codec buffer with
    | .ok entry => some entry.sequence
    | .error _ => none

def openExisting (files : List WalFile) (latestFile : WalFile) : WalManager where
  files := files
  currentFile := some latestFile.number
  currentSequence := ((files.flatMap (scanFile codec)).foldl max 1) + 1
  currentFileSize := latestFile.bytes.length
  maxFileSize := 1000000000
  groupCommitConfig := .default
  groupCommitBuffer := []

/-- `WalManager::new` on a directory with these files. -/
def new (files : List WalFile) (seconds : ℤ) : WalManager :=
  match files.getLast? with
  | some latestFile => openExisting codec files latestFile
  | none =>
    { files := appendBytes 1 (WalFileHeader.new 1 seconds).toBytes (openFile 1 [])
      currentFile := some 1
      currentSequence := 1
      currentFileSize := (WalFileHeader.new 1 seconds).toBytes.length
      maxFileSize := 1000000000
      groupCommitConfig := .default
      groupCommitBuffer := [] }

def withConfig (files : List WalFile) (seconds : ℤ) (config : GroupCommitConfig) : WalManager :=
  { new codec files seconds with groupCommitConfig := config }

/-! ## Writing -/

/-- `fetch_add(1)` on the sequence number. -/
def fetchSequence : Action String WalManager ℕ := do
  let sequence ← read currentSequence
  update fun manager => { manager with currentSequence := manager.currentSequence + 1 }
  pure sequence

def writeAll (bytes : List UInt8) : Action String WalManager Unit :=
  update fun manager =>
    match manager.currentFile with
    | some number => { manager with files := appendBytes number bytes manager.files }
    | none => manager

def rotateFile (seconds : ℤ) : Action String WalManager Unit := do
  let newSequence ← read currentSequence
  update fun manager => { manager with
    files := appendBytes newSequence (WalFileHeader.new newSequence seconds).toBytes
      (openFile newSequence manager.files)
    currentFile := some newSequence
    currentFileSize := 128 }

/-- `(4 + bytes.len() as u32) as u64` -/
def frameSize (bytes : List UInt8) : ℕ := (4 + bytes.length) % 2 ^ 32

def preSerialize (stamped : Stamped Record) : Action String WalManager PreSerializedEntry := do
  let sequence ← fetchSequence
  let bytes ← result (((WalEntry.new sequence stamped).withCrc32 codec).toBytes codec)
  pure ⟨sequence, bytes⟩

def append (seconds : ℤ) (stamped : Stamped Record) : Action String WalManager ℕ := do
  let entry ← preSerialize codec stamped
  let full ← read fun manager =>
    decide (manager.maxFileSize < manager.currentFileSize + frameSize entry.bytes)
  runIf full (rotateFile seconds)
  update fun manager => { manager with
    currentFileSize := manager.currentFileSize + frameSize entry.bytes }
  writeAll (frame entry.bytes)
  pure entry.sequence

/-- The part that `append_batch` and `flush_group_commit` share: begin a new file
where the entries do not fit, and write all of them. -/
def writeEntries (seconds : ℤ) (entries : List PreSerializedEntry) :
    Action String WalManager Unit := do
  let batchBytes := (entries.map fun entry => frameSize entry.bytes).sum
  let full ← read fun manager => decide (manager.maxFileSize < manager.currentFileSize + batchBytes)
  runIf full (rotateFile seconds)
  writeAll (entries.flatMap fun entry => frame entry.bytes)
  update fun manager => { manager with currentFileSize := manager.currentFileSize + batchBytes }

def flushGroupCommit (seconds : ℤ) : Action String WalManager ℕ := do
  let entries ← read groupCommitBuffer
  update fun manager => { manager with groupCommitBuffer := [] }
  runIf (!entries.isEmpty) (writeEntries seconds entries)
  pure entries.length

/-- `elapsed` is the time in milliseconds since the last flush. -/
def appendAsync (seconds : ℤ) (elapsed : ℕ) (stamped : Stamped Record) :
    Action String WalManager ℕ := do
  if !(← read fun manager => manager.groupCommitConfig.enabled) then
    append codec seconds stamped
  else
    let entry ← preSerialize codec stamped
    update fun manager => { manager with
      groupCommitBuffer := manager.groupCommitBuffer ++ [entry] }
    let shouldFlush ← read fun manager =>
      decide (manager.groupCommitConfig.maxBatchSize ≤ manager.groupCommitBuffer.length ∨
        manager.groupCommitConfig.maxWaitMs ≤ elapsed)
    runIf shouldFlush (do let _ ← flushGroupCommit seconds)
    pure entry.sequence

def preSerializeAll : List (Stamped Record) → Action String WalManager (List PreSerializedEntry)
  | [] => pure []
  | stamped :: records => do
    let entry ← preSerialize codec stamped
    let entries ← preSerializeAll records
    pure (entry :: entries)

def appendBatch (seconds : ℤ) (records : List (Stamped Record)) :
    Action String WalManager (List ℕ) := do
  if records.isEmpty then
    pure []
  else
    let entries ← preSerializeAll codec records
    writeEntries seconds entries
    pure (entries.map PreSerializedEntry.sequence)

variable {State : Type} (callback : WalEntry Record → Action String State Unit)

def replayEntry (buffer : List UInt8) : Action String State Unit := do
  let entry ← result (WalEntry.fromBytes codec buffer)
  runIf (entry.verifyCrc32 codec) (callback entry)

/-- The text is that of `read_exact` at the end of a file. -/
def replayFile (file : WalFile) : Action String State Unit := do
  if file.bytes.length < 128 then
    fail "Read WAL header failed: failed to fill whole buffer"
  else
    let _ ← result (WalFileHeader.fromBytes (file.bytes.take 128))
    forM (frames (file.bytes.drop 128)).1 (replayEntry codec callback)
    match (frames (file.bytes.drop 128)).2 with
    | .eof => pure ()
    | .cut => fail "Read entry data failed: failed to fill whole buffer"

/-- `WalManager::replay` of the files in the directory. -/
def replay (files : List WalFile) : Action String State Unit :=
  forM files (replayFile codec callback)

def shouldTruncate (file : WalFile) (checkpointSeq : ℕ) : Except String Bool :=
  if file.bytes.length < 128 then
    .error "Read header for truncate check failed: failed to fill whole buffer"
  else
    match WalFileHeader.fromBytes (file.bytes.take 128) with
    | .error text => .error text
    | .ok header => .ok (header.startSequence < checkpointSeq)

/-- A removed file that is still open is written to, but no longer found. -/
def removeFile (number : ℕ) (manager : WalManager) : WalManager :=
  { manager with
    files := manager.files.filter fun file => file.number ≠ number
    currentFile := if manager.currentFile = some number then none else manager.currentFile }

def checkpoint (sequence : ℕ) : Action String WalManager Unit := do
  let files ← read files
  forM files fun file => do
    let old ← result (shouldTruncate file sequence)
    runIf old (update (removeFile file.number))

end WalManager

end QAExchange
