import Mathlib.Data.Nat.Pairing
import QAExchange.Foundation.Action
import QAExchange.Storage.RkyvSSTable

/-! # Leveled compaction

A flush puts its SSTable at level 0. Too many files of level 0, or too many bytes of
another level, are merged with the files of the next level that they overlap, and the
merged file takes their place there.
-/

namespace QAExchange

open Foundation Action

variable {Record : Type}

/-- `max_levels` and the two sizes are those of `CompactionConfig`. A level 0 without
files is never full. -/
structure CompactionConfig where
  level0MaxFiles : ℕ
  level1MaxBytes : ℕ
  levelSizeMultiplier : ℕ
  maxLevels : ℕ
  level0Positive : 0 < level0MaxFiles

def CompactionConfig.default : CompactionConfig where
  level0MaxFiles := 4
  level1MaxBytes := 10 * 1024 * 1024
  levelSizeMultiplier := 10
  maxLevels := 7
  level0Positive := by decide

structure SSTableInfo where
  filePath : ℕ
  fileSize : ℕ
  minKey : List UInt8
  maxKey : List UInt8
  level : ℕ
  entryCount : ℕ
  minTimestamp : ℤ
  maxTimestamp : ℤ
  deriving DecidableEq

namespace SSTableInfo

def overlaps (info other : SSTableInfo) : Bool :=
  !(info.maxKey < other.minKey || other.maxKey < info.minKey)

/-- From the metadata of a file; `fileLength` is its length on the disk. -/
def ofFile (fileLength : SSTableFile Record → ℕ) (level : ℕ) (file : SSTableFile Record) :
    SSTableInfo where
  filePath := file.number
  fileSize := fileLength file
  minKey := file.metadata.minKey
  maxKey := file.metadata.maxKey
  level := level
  entryCount := file.metadata.entryCount
  minTimestamp := file.metadata.minTimestamp
  maxTimestamp := file.metadata.maxTimestamp

end SSTableInfo

/-- `HashMap<usize, Vec<SSTableInfo>>` -/
abbrev LevelSSTables := ℕ → Option (List SSTableInfo)

structure CompactionTask where
  sourceLevel : ℕ
  targetLevel : ℕ
  sstables : List SSTableInfo
  outputPath : ℕ
  deriving DecidableEq

structure CompactionResult where
  newSstable : SSTableInfo
  obsoleteSstables : List ℕ
  mergedEntries : ℕ
  deletedEntries : ℕ

namespace LeveledCompaction

/-- The name `l{level}_{millis}.sst` as a number behind those of the flushed files. -/
def outputPath (level millis : ℕ) : ℕ := 2 ^ 64 + Nat.pair level millis

/-- The size is a `u64`. -/
def levelMaxSize (config : CompactionConfig) (level : ℕ) : ℕ :=
  if level = 0 then 2 ^ 64 - 1
  else config.level1MaxBytes * (config.levelSizeMultiplier ^ (level - 1) % 2 ^ 64) % 2 ^ 64

def createLevel0CompactionTask (millis : ℕ) (level0Files : List SSTableInfo)
    (level1Files : Option (List SSTableInfo)) : CompactionTask where
  sourceLevel := 0
  targetLevel := 1
  sstables := level0Files ++ (level1Files.getD []).filter fun l1File =>
    level0Files.any fun l0 => l0.overlaps l1File
  outputPath := outputPath 1 millis

/-- `levelFile` is the first one of the level. -/
def createLevelCompactionTask (millis level : ℕ) (levelFile : SSTableInfo)
    (nextLevelFiles : Option (List SSTableInfo)) : CompactionTask where
  sourceLevel := level
  targetLevel := level + 1
  sstables := levelFile :: (nextLevelFiles.getD []).filter fun nextFile =>
    levelFile.overlaps nextFile
  outputPath := outputPath (level + 1) millis

/-- A task for a level that is too large, which then has a first file. -/
def levelTask (config : CompactionConfig) (millis : ℕ) (levelSstables : LevelSSTables)
    (level : ℕ) : Option CompactionTask :=
  match levelSstables level with
  | some (levelFile :: levelFiles) =>
    if levelMaxSize config level <
        (((levelFile :: levelFiles).map SSTableInfo.fileSize).sum % 2 ^ 64) then
      some (createLevelCompactionTask millis level levelFile (levelSstables (level + 1)))
    else none
  | _ => none

def otherLevels (config : CompactionConfig) (millis : ℕ) (levelSstables : LevelSSTables) :
    Option CompactionTask :=
  (List.range' 1 (config.maxLevels - 1)).findSome? (levelTask config millis levelSstables)

def shouldCompact (config : CompactionConfig) (millis : ℕ) (levelSstables : LevelSSTables) :
    Option CompactionTask :=
  match levelSstables 0 with
  | some level0Files =>
    if config.level0MaxFiles ≤ level0Files.length then
      some (createLevel0CompactionTask millis level0Files (levelSstables 1))
    else otherLevels config millis levelSstables
  | none => otherLevels config millis levelSstables

/-! ## Merging files -/

structure Merged (Record : Type) where
  entries : List (MemTableEntry Record)
  seenKeys : List (List UInt8 × ℤ)

def mergeEntry (merged : Merged Record) (entry : MemTableEntry Record) : Merged Record :=
  match merged.seenKeys.lookup entry.key.toBytes with
  | some existing =>
    if existing < entry.key.timestamp then {
      entries := (merged.entries.filter fun other => other.key.toBytes ≠ entry.key.toBytes) ++
        [entry]
      seenKeys := (entry.key.toBytes, entry.key.timestamp) :: merged.seenKeys }
    else merged
  | none => {
      entries := merged.entries ++ [entry]
      seenKeys := (entry.key.toBytes, entry.key.timestamp) :: merged.seenKeys }

def mergeEntries (found : List (MemTableEntry Record)) : List (MemTableEntry Record) :=
  sortByKey (fun entry => entry.key.toBytes) (found.foldl mergeEntry ⟨[], []⟩).entries

/-- The error of a fallible call with a text before it. -/
def withText (text : String) : Except String α → Except String α
  | .ok value => .ok value
  | .error cause => .error (text ++ cause)

section Model

variable (fileLength : SSTableFile Record → ℕ) (readsMetadata : ReadsMetadata Record)

def executeCompaction (task : CompactionTask) :
    Action String (SSTableFiles Record) CompactionResult := do
  let files ← read id
  let sstables ← result (task.sstables.mapM fun info =>
    withText ("Failed to open SSTable " ++ toString info.filePath ++ ": ")
      (RkyvSSTable.openFile info.filePath files))
  let found ← result (sstables.mapM fun sstable => withText "Range query failed: "
    (sstable.rangeQuery readsMetadata files (-2 ^ 63) (2 ^ 63 - 1)))
  let output := SSTableFile.of task.outputPath (mergeEntries found.flatten)
  update fun files => files.insert output
  pure {
    newSstable := .ofFile fileLength task.targetLevel output
    obsoleteSstables := task.sstables.map SSTableInfo.filePath
    mergedEntries := output.entries.length
    deletedEntries := 0 }

end Model

end LeveledCompaction

structure CompactionScheduler where
  levelSstables : LevelSSTables
  config : CompactionConfig

namespace CompactionScheduler

def new (config : CompactionConfig) : CompactionScheduler where
  levelSstables := fun _ => none
  config := config

def push (info : SSTableInfo) (levels : LevelSSTables) : LevelSSTables :=
  Function.update levels info.level (some ((levels info.level).getD [] ++ [info]))

def registerSstable (info : SSTableInfo) (scheduler : CompactionScheduler) : CompactionScheduler :=
  { scheduler with levelSstables := push info scheduler.levelSstables }

def retain (obsoletePath : ℕ) (levels : LevelSSTables) : LevelSSTables := fun level =>
  (levels level).map fun sstables => sstables.filter fun info => info.filePath ≠ obsoletePath

def updateLevels (result : CompactionResult) (scheduler : CompactionScheduler) :
    CompactionScheduler :=
  { scheduler with
    levelSstables := push result.newSstable
      (result.obsoleteSstables.foldl (fun levels path => retain path levels)
        scheduler.levelSstables) }

/-- The removal of the files. That one is not there is only logged. -/
def removeFiles (result : CompactionResult) (files : SSTableFiles Record) : SSTableFiles Record :=
  result.obsoleteSstables.foldl (fun files path => files.remove path) files

end CompactionScheduler

end QAExchange
