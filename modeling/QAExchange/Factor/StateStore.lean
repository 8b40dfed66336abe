import Mathlib.Algebra.GroupWithZero.Nat
import QAExchange.Foundation.KeyedRows

/-! # The store of factor states

Snapshots of the factor states in files with rising numbers. A save is a sequence of steps on
the directory, and a crash may come between any two of them; the next store takes its number
from the files that are left.
-/

namespace QAExchange

open Foundation

/-- The states of the instruments are only carried along. -/
structure GlobalStateSnapshot (Instrument : Type) where
  version : ℕ
  instruments : List Instrument
  checkpointId : ℕ
  createdAtMs : ℕ

/-- `CURRENT_VERSION` -/
def GlobalStateSnapshot.currentVersion : ℕ := 1

inductive StateStoreError
  | SerializationError
  | VersionMismatch (expected found : ℕ)
  | CheckpointNotFound (checkpointId : ℕ)
  | CompressionError
  | DecompressionError

structure StateStoreConfig where
  maxCheckpoints : ℕ
  compress : Bool

def StateStoreConfig.default : StateStoreConfig where
  maxCheckpoints := 10
  compress := true

/-- A file `checkpoint_{:016}.rkyv`. -/
structure StateFile where
  id : ℕ
  bytes : List UInt8

abbrev StateFiles := KeyedRows StateFile.id

/-- rkyv and zstd. `archivedRoot` gives `none` where the bytes are no archive of a snapshot:
it does not check them, and anything may happen. -/
structure SnapshotCodec (Instrument : Type) where
  toBytes : GlobalStateSnapshot Instrument → Option (List UInt8)
  archivedRoot : List UInt8 → Option (GlobalStateSnapshot Instrument)
  encodeAll : List UInt8 → Option (List UInt8)
  decodeAll : List UInt8 → Option (List UInt8)

inductive DiskStep
  | create (checkpointId : ℕ)
  | write (checkpointId : ℕ) (byte : UInt8)
  | remove (checkpointId : ℕ)

namespace StateFiles

def exec (files : StateFiles) : DiskStep → StateFiles
  | .create checkpointId => files.insert { id := checkpointId, bytes := [] }
  | .write checkpointId byte =>
    match files.get checkpointId with
    | some file => files.insert { file with bytes := file.bytes ++ [byte] }
    | none => files
  | .remove checkpointId => files.remove checkpointId

def execAll (steps : List DiskStep) (files : StateFiles) : StateFiles :=
  steps.foldl exec files

def findLatestCheckpointId (files : StateFiles) : ℕ :=
  files.rows.foldl (fun maxId file => max maxId file.id) 0

end StateFiles

/-! ## The store -/

structure StateStore where
  config : StateStoreConfig
  checkpointCounter : ℕ

namespace StateStore

variable {Instrument : Type}

/-- The counter is a `u64`. -/
def new (config : StateStoreConfig) (files : StateFiles) : StateStore where
  config := config
  checkpointCounter := (files.findLatestCheckpointId + 1) % 2 ^ 64

def nextCheckpointId (store : StateStore) : StateStore :=
  { store with checkpointCounter := (store.checkpointCounter + 1) % 2 ^ 64 }

/-- The files are listed in the order of their numbers, and the first ones go. -/
def cleanupOldCheckpoints (store : StateStore) (files : StateFiles) : List DiskStep :=
  (files.rows.take (files.rows.length - store.config.maxCheckpoints)).map fun file =>
    .remove file.id

def fileContents (codec : SnapshotCodec Instrument) (config : StateStoreConfig)
    (bytes : List UInt8) : Option (List UInt8) :=
  if config.compress then codec.encodeAll bytes else some bytes

def saveCheckpoint (codec : SnapshotCodec Instrument) (snapshot : GlobalStateSnapshot Instrument)
    (store : StateStore) (files : StateFiles) : Except StateStoreError ℕ × List DiskStep :=
  let checkpointId := store.checkpointCounter
  match codec.toBytes snapshot with
  | none => (.error .SerializationError, [])
  | some bytes =>
    match fileContents codec store.config bytes with
    | none => (.error .CompressionError, [.create checkpointId])
    | some contents =>
      let writing := .create checkpointId :: contents.map (.write checkpointId)
      (.ok checkpointId, writing ++ store.cleanupOldCheckpoints (files.execAll writing))

/-- The snapshot in some bytes: `none` where `archived_root` has no archive. -/
def readSnapshot (codec : SnapshotCodec Instrument) (config : StateStoreConfig)
    (bytes : List UInt8) : Option (Except StateStoreError (GlobalStateSnapshot Instrument)) :=
  match if config.compress then codec.decodeAll bytes else some bytes with
  | none => some (.error .DecompressionError)
  | some bytes =>
    (codec.archivedRoot bytes).map fun snapshot =>
      if snapshot.version = GlobalStateSnapshot.currentVersion then .ok snapshot
      else .error (.VersionMismatch GlobalStateSnapshot.currentVersion snapshot.version)

def loadCheckpoint (codec : SnapshotCodec Instrument) (checkpointId : ℕ) (store : StateStore)
    (files : StateFiles) : Option (Except StateStoreError (GlobalStateSnapshot Instrument)) :=
  match files.get checkpointId with
  | none => some (.error (.CheckpointNotFound checkpointId))
  | some file => readSnapshot codec store.config file.bytes

def loadLatestCheckpoint (codec : SnapshotCodec Instrument) (store : StateStore)
    (files : StateFiles) :
    Option (Except StateStoreError (Option (GlobalStateSnapshot Instrument))) :=
  let latestId := files.findLatestCheckpointId
  if latestId = 0 then some (.ok none)
  else (store.loadCheckpoint codec latestId files).map (Except.map some)

end StateStore

/-- A call of `save_checkpoint`, and after how many of its steps the process ends, if it does
not return. A new store is made then. -/
structure SaveAttempt (Instrument : Type) where
  snapshot : GlobalStateSnapshot Instrument
  crash : Option ℕ

structure StoreSession where
  store : StateStore
  files : StateFiles

namespace StoreSession

variable {Instrument : Type}

def start (config : StateStoreConfig) : StoreSession where
  store := .new config .empty
  files := .empty

def attempt (codec : SnapshotCodec Instrument) (session : StoreSession)
    (attempt : SaveAttempt Instrument) : StoreSession :=
  let steps := (session.store.saveCheckpoint codec attempt.snapshot session.files).2
  match attempt.crash with
  | none =>
    { store := session.store.nextCheckpointId
      files := session.files.execAll steps }
  | some done =>
    let files := session.files.execAll (steps.take done)
    { store := .new session.store.config files, files := files }

def run (codec : SnapshotCodec Instrument) (config : StateStoreConfig)
    (attempts : List (SaveAttempt Instrument)) : StoreSession :=
  attempts.foldl (attempt codec) (start config)

end StoreSession

end QAExchange
