import QAExchange.Storage.LeveledCompaction

/-! # Rounds of the compaction

The directory of the SSTables with the levels of the scheduler. Where every listed file
is in the directory as it was registered, a round succeeds, and the merged file has the
keys of all the files that it replaces.
-/

namespace QAExchange

open Foundation Action LeveledCompaction

variable {Record : Type}

structure LeveledStore (Record : Type) where
  files : SSTableFiles Record
  scheduler : CompactionScheduler

/-- What a flush writes to an SSTable. It does not write an empty one. -/
structure SSTableContent (Record : Type) where
  number : ℕ
  records : List (ℕ × Record)
  nonempty : records ≠ []

def SSTableContent.file (clock : RecordClock Record) (content : SSTableContent Record) :
    SSTableFile Record :=
  .of content.number (content.records.map fun record => .fromWal clock record.1 record.2)

inductive StoreCall (Record : Type)
  | registerSstable (content : SSTableContent Record)
  | compact (millis : ℕ)

namespace LeveledStore

section Model

variable (clock : RecordClock Record) (fileLength : SSTableFile Record → ℕ)
  (readsMetadata : ReadsMetadata Record)

def onFiles (action : Action String (SSTableFiles Record) α) :
    Action String (LeveledStore Record) α :=
  onPart files (fun files store => { store with files := files }) action

def applied (result : CompactionResult) (store : LeveledStore Record) : LeveledStore Record where
  files := CompactionScheduler.removeFiles result store.files
  scheduler := store.scheduler.updateLevels result

/-- `trigger_compaction`. The rounds in the background do the same. -/
def triggerCompaction (millis : ℕ) : Action String (LeveledStore Record) Unit := do
  let scheduler ← read scheduler
  match shouldCompact scheduler.config millis scheduler.levelSstables with
  | some task => do
    let result ← onFiles (executeCompaction fileLength readsMetadata task)
    update (applied result)
  | none => fail "No compaction needed"

def step : StoreCall Record → LeveledStore Record → LeveledStore Record
  | .registerSstable content, store => {
      files := store.files.insert (content.file clock)
      scheduler := store.scheduler.registerSstable (.ofFile fileLength 0 (content.file clock)) }
  | .compact millis, store => (exec (triggerCompaction fileLength readsMetadata millis) store).2

end Model

end LeveledStore

namespace CompactionScheduler

def listed (levels : LevelSSTables) (level : ℕ) : List SSTableInfo := (levels level).getD []

theorem listed_push (info : SSTableInfo) (levels : LevelSSTables) (level : ℕ) :
    listed (push info levels) level =
      if level = info.level then listed levels level ++ [info] else listed levels level := by
  rw [listed, push, Function.update_apply]
  split_ifs with same
  · rw [same]
    rfl
  · rfl

theorem listed_retain (obsoletePath : ℕ) (levels : LevelSSTables) (level : ℕ) :
    listed (retain obsoletePath levels) level =
      (listed levels level).filter fun info => info.filePath ≠ obsoletePath := by
  rw [listed, retain, listed]
  cases levels level <;> rfl

theorem listed_retainAll (paths : List ℕ) (levels : LevelSSTables) (level : ℕ) :
    listed (paths.foldl (fun levels path => retain path levels) levels) level =
      (listed levels level).filter fun info => info.filePath ∉ paths := by
  induction paths generalizing levels with
  | nil => simp
  | cons path paths induction =>
    rw [List.foldl_cons, induction, listed_retain, List.filter_filter]
    congr 1
    funext info
    simp [Bool.and_comm]

theorem mem_removeFiles {result : CompactionResult} {files : SSTableFiles Record}
    {file : SSTableFile Record} :
    file ∈ (removeFiles result files).rows ↔
      file ∈ files.rows ∧ file.number ∉ result.obsoleteSstables := by
  rw [removeFiles]
  generalize result.obsoleteSstables = paths
  induction paths generalizing files with
  | nil => simp
  | cons path paths induction =>
    rw [List.foldl_cons, induction, KeyedRows.mem_remove, List.mem_cons]
    tauto

end CompactionScheduler

namespace LeveledCompaction

open CompactionScheduler

/-- A task has files of its source level, and the files of the next one that one of them
overlaps. It takes all of level 0, which is full then, or one file of another level. -/
theorem shouldCompact_cases {config : CompactionConfig} {millis : ℕ} {levels : LevelSSTables}
    {task : CompactionTask} (found : shouldCompact config millis levels = some task) :
    ∃ level sources, sources ≠ [] ∧ sources ⊆ listed levels level ∧
      ((level = 0 ∧ sources = listed levels 0 ∧ config.level0MaxFiles ≤ sources.length) ∨
        0 < level ∧ ∃ source, sources = [source]) ∧
      task.targetLevel = level + 1 ∧ task.outputPath = outputPath (level + 1) millis ∧
      task.sstables = sources ++ (listed levels (level + 1)).filter fun next =>
        sources.any fun source => source.overlaps next := by
  have others : ∀ {task}, otherLevels config millis levels = some task →
      ∃ level source, 0 < level ∧ source ∈ listed levels level ∧
        task = createLevelCompactionTask millis level source (levels (level + 1)) := by
    intro task isTask
    rcases List.exists_of_findSome?_eq_some isTask with ⟨level, member, isLevel⟩
    have positive : 0 < level := by
      have bounds := List.mem_range'_1.mp member
      omega
    rw [levelTask] at isLevel
    split at isLevel
    · rename_i source rest isSome
      split_ifs at isLevel
      cases isLevel
      exact ⟨level, source, positive, by simp [listed, isSome], rfl⟩
    · cases isLevel
  have byOthers : otherLevels config millis levels = some task →
      ∃ level sources, sources ≠ [] ∧ sources ⊆ listed levels level ∧
        ((level = 0 ∧ sources = listed levels 0 ∧ config.level0MaxFiles ≤ sources.length) ∨
          0 < level ∧ ∃ source, sources = [source]) ∧
        task.targetLevel = level + 1 ∧ task.outputPath = outputPath (level + 1) millis ∧
        task.sstables = sources ++ (listed levels (level + 1)).filter fun next =>
          sources.any fun source => source.overlaps next := by
    intro isTask
    rcases others isTask with ⟨level, source, positive, member, rfl⟩
    refine ⟨level, [source], by simp, by simpa using member, .inr ⟨positive, source, rfl⟩, rfl,
      rfl, ?_⟩
    simp [createLevelCompactionTask, listed]
  rw [shouldCompact] at found
  split at found
  · rename_i level0Files isSome
    split_ifs at found with full
    · cases found
      have isLevel : listed levels 0 = level0Files := by simp [listed, isSome]
      have positive := config.level0Positive
      refine ⟨0, level0Files, ?_, ?_, .inl ⟨rfl, isLevel.symm, full⟩, rfl, rfl, rfl⟩
      · intro none
        rw [none] at full
        simp only [List.length_nil] at full
        omega
      · rw [isLevel]
        exact List.Subset.refl _
    · exact byOthers found
  · exact byOthers found

theorem shouldCompact_level0 {config : CompactionConfig}
    (full : config.level0MaxFiles ≤ (listed levels 0).length) :
    shouldCompact config millis levels =
      some (createLevel0CompactionTask millis (listed levels 0) (levels 1)) := by
  rw [listed] at full ⊢
  rw [shouldCompact]
  have positive := config.level0Positive
  cases isSome : levels 0 with
  | none =>
    rw [isSome] at full
    simp only [Option.getD_none, List.length_nil] at full
    omega
  | some level0Files =>
    rw [isSome] at full
    exact if_pos full

/-! ## Merging -/

/-- The keys that have been seen are those of the entries, each of which is there once. -/
structure MergedOnce (merged : Merged Record) : Prop where
  seen : ∀ key, (merged.seenKeys.lookup key).isSome ↔
    ∃ entry ∈ merged.entries, entry.key.toBytes = key
  once : (merged.entries.map fun entry => entry.key.toBytes).Nodup

theorem mergedOnce_nil : MergedOnce (⟨[], []⟩ : Merged Record) where
  seen := by simp
  once := List.nodup_nil

theorem MergedOnce.exists_key (isOnce : MergedOnce merged) (entry : MemTableEntry Record)
    (key : List UInt8) :
    (∃ other ∈ (mergeEntry merged entry).entries, other.key.toBytes = key) ↔
      (∃ other ∈ merged.entries, other.key.toBytes = key) ∨ entry.key.toBytes = key := by
  rw [mergeEntry]
  split
  · rename_i existing isSome
    have known := (isOnce.seen entry.key.toBytes).mp (by rw [isSome]; rfl)
    split_ifs
    · by_cases isKey : entry.key.toBytes = key
      · simp [isKey]
      · have kept : ∀ other : MemTableEntry Record, other.key.toBytes = key →
            other.key.toBytes ≠ entry.key.toBytes := fun other isOther same =>
          isKey (same.symm.trans isOther)
        simp only [List.mem_append, List.mem_filter, decide_eq_true_eq, List.mem_singleton,
          isKey, or_false]
        constructor
        · intro found
          obtain ⟨other, member, isOther⟩ := found
          cases member with
          | inl old => exact ⟨other, old.1, isOther⟩
          | inr isEntry => exact absurd (isEntry ▸ isOther) isKey
        · intro found
          obtain ⟨other, member, isOther⟩ := found
          exact ⟨other, Or.inl ⟨member, kept other isOther⟩, isOther⟩
    · constructor
      · exact Or.inl
      · intro found
        cases found with
        | inl old => exact old
        | inr isKey => exact isKey ▸ known
  · simp only [List.mem_append, List.mem_singleton, or_and_right, exists_or, exists_eq_left]

theorem MergedOnce.mergeEntry (isOnce : MergedOnce merged) (entry : MemTableEntry Record) :
    MergedOnce (mergeEntry merged entry) where
  seen := by
    intro key
    rw [isOnce.exists_key, ← isOnce.seen key]
    have grown : (((entry.key.toBytes, entry.key.timestamp) :: merged.seenKeys).lookup
        key).isSome ↔ (merged.seenKeys.lookup key).isSome ∨ entry.key.toBytes = key := by
      rw [List.lookup_cons]
      by_cases isKey : key = entry.key.toBytes
      · simp [isKey]
      · have different : (key == entry.key.toBytes) = false := by simpa using isKey
        have notEntry : entry.key.toBytes ≠ key := fun equal => isKey equal.symm
        simp only [different, notEntry, or_false]
    rw [LeveledCompaction.mergeEntry]
    split
    · rename_i existing isSome
      split_ifs
      · exact grown
      · constructor
        · exact Or.inl
        · intro found
          cases found with
          | inl old => exact old
          | inr isKey => rw [← isKey, isSome]; rfl
    · exact grown
  once := by
    rw [LeveledCompaction.mergeEntry]
    split
    · split_ifs
      · rw [List.map_append, List.map_singleton, List.nodup_append]
        refine ⟨isOnce.once.sublist (List.filter_sublist.map _), List.nodup_singleton _, ?_⟩
        intro key isOld other isEntry same
        obtain ⟨old, member, isKey⟩ := List.mem_map.mp isOld
        have different := of_decide_eq_true (List.mem_filter.mp member).2
        rw [List.mem_singleton.mp isEntry] at same
        exact different (isKey.trans same)
      · exact isOnce.once
    · rename_i isNone
      rw [List.map_append, List.map_singleton, List.nodup_append]
      refine ⟨isOnce.once, List.nodup_singleton _, ?_⟩
      intro key isOld other isEntry same
      rw [List.mem_singleton.mp isEntry] at same
      have seen := (isOnce.seen entry.key.toBytes).mpr (same ▸ List.mem_map.mp isOld)
      rw [isNone] at seen
      cases seen

theorem MergedOnce.foldl (isOnce : MergedOnce merged) (found : List (MemTableEntry Record)) :
    MergedOnce (found.foldl LeveledCompaction.mergeEntry merged) ∧
      ∀ key, (∃ entry ∈ (found.foldl LeveledCompaction.mergeEntry merged).entries,
        entry.key.toBytes = key) ↔ ∃ entry ∈ merged.entries ++ found, entry.key.toBytes = key := by
  induction found generalizing merged with
  | nil => exact ⟨isOnce, by simp⟩
  | cons entry found induction =>
    obtain ⟨later, keys⟩ := induction (isOnce.mergeEntry entry)
    apply And.intro later
    intro key
    rw [List.foldl_cons, keys key]
    simp only [List.mem_append, or_and_right, exists_or, isOnce.exists_key, List.mem_cons,
      exists_eq_left, or_assoc]

theorem mergeEntries_subset (found : List (MemTableEntry Record)) : mergeEntries found ⊆ found := by
  have kept : ∀ (entries : List (MemTableEntry Record)) (merged : Merged Record),
      (entries.foldl mergeEntry merged).entries ⊆ merged.entries ++ entries := by
    intro entries
    induction entries with
    | nil => simp
    | cons entry entries induction =>
      intro merged
      have one : (mergeEntry merged entry).entries ⊆ merged.entries ++ [entry] := by
        rw [mergeEntry]
        split
        · split_ifs
          · exact List.append_subset.mpr
              ⟨fun other member => List.mem_append_left _ (List.mem_filter.mp member).1,
                List.subset_append_right _ _⟩
          · exact List.subset_append_left _ _
        · exact List.Subset.refl _
      intro other member
      rcases List.mem_append.mp (induction (mergeEntry merged entry) member) with old | later
      · rcases List.mem_append.mp (one old) with old | isEntry <;> simp_all
      · simp [later]
  intro entry member
  have perm : (mergeEntries found).Perm (found.foldl mergeEntry ⟨[], []⟩).entries :=
    List.perm_insertionSort _ _
  simpa using kept found ⟨[], []⟩ (perm.mem_iff.mp member)

theorem mem_mergeEntries (found : List (MemTableEntry Record)) (key : List UInt8) :
    (∃ entry ∈ mergeEntries found, entry.key.toBytes = key) ↔
      ∃ entry ∈ found, entry.key.toBytes = key := by
  have perm : (mergeEntries found).Perm (found.foldl mergeEntry ⟨[], []⟩).entries :=
    List.perm_insertionSort _ _
  have same := (mergedOnce_nil.foldl found).2 key
  rw [List.nil_append] at same
  rw [← same]
  constructor
  · rintro ⟨entry, member, isKey⟩
    exact ⟨entry, perm.mem_iff.mp member, isKey⟩
  · rintro ⟨entry, member, isKey⟩
    exact ⟨entry, perm.mem_iff.mpr member, isKey⟩

theorem mergeEntries_increasing (found : List (MemTableEntry Record)) :
    (mergeEntries found).Pairwise fun left right => left.key.toBytes < right.key.toBytes := by
  have sorted : (mergeEntries found).Pairwise fun left right =>
      left.key.toBytes ≤ right.key.toBytes :=
    List.pairwise_insertionSort (fun left right : MemTableEntry Record =>
      left.key.toBytes ≤ right.key.toBytes) _
  have perm : (mergeEntries found).Perm (found.foldl mergeEntry ⟨[], []⟩).entries :=
    List.perm_insertionSort _ _
  have once : ((mergeEntries found).map fun entry => entry.key.toBytes).Nodup :=
    (perm.map _).nodup_iff.mpr (mergedOnce_nil.foldl found).1.once
  have different := List.pairwise_map.mp once
  exact (sorted.and different).imp fun both => lt_of_le_of_ne both.1 both.2

end LeveledCompaction

/-! ## Registered files -/

/-- A file with entries, as a writer leaves it. The timestamps are those of an `i64`. -/
structure SSTableFile.Complete (file : SSTableFile Record) : Prop where
  written : file = .of file.number file.entries
  nonempty : file.entries ≠ []
  inRange : ∀ entry ∈ file.entries,
    -2 ^ 63 ≤ entry.key.timestamp ∧ entry.key.timestamp ≤ 2 ^ 63 - 1

theorem SSTableFile.complete_of (number : ℕ) {entries : List (MemTableEntry Record)}
    (nonempty : entries ≠ []) (inRange : ∀ entry ∈ entries,
      -2 ^ 63 ≤ entry.key.timestamp ∧ entry.key.timestamp ≤ 2 ^ 63 - 1) :
    (SSTableFile.of number entries).Complete where
  written := by rw [of_number, of_entries]
  nonempty := by rwa [of_entries]
  inRange := by rwa [of_entries]

theorem SSTableContent.complete (clock : RecordClock Record) (content : SSTableContent Record) :
    (content.file clock).Complete := by
  apply SSTableFile.complete_of
  · simpa using content.nonempty
  · intro entry member
    rcases List.mem_map.mp member with ⟨record, _, rfl⟩
    have bounds := clock.inRange record.2
    change -2 ^ 63 ≤ clock.timestamp record.2 ∧ clock.timestamp record.2 ≤ 2 ^ 63 - 1
    omega

namespace SSTableInfo

/-- From the least to the greatest key, in whatever order they stand. -/
def keyRange (info : SSTableInfo) : KeyRange (List UInt8) where
  low := min info.minKey info.maxKey
  high := max info.minKey info.maxKey
  ordered := min_le_max

theorem overlaps_iff {info other : SSTableInfo} (ordered : info.minKey ≤ info.maxKey)
    (otherOrdered : other.minKey ≤ other.maxKey) :
    info.overlaps other = false ↔ info.keyRange.Apart other.keyRange := by
  rw [overlaps, Bool.not_eq_false', Bool.or_eq_true, decide_eq_true_iff, decide_eq_true_iff]
  simp only [KeyRange.Apart, KeyRange.Before, keyRange, min_eq_left ordered,
    max_eq_right ordered, min_eq_left otherOrdered, max_eq_right otherOrdered]

theorem before_iff {info other : SSTableInfo} (ordered : info.minKey ≤ info.maxKey)
    (otherOrdered : other.minKey ≤ other.maxKey) :
    info.keyRange.Before other.keyRange ↔ info.maxKey < other.minKey := by
  simp only [KeyRange.Before, keyRange, max_eq_right ordered, min_eq_left otherOrdered]

theorem spans_ofFile (fileLength : SSTableFile Record → ℕ) (level : ℕ)
    {file : SSTableFile Record} (complete : file.Complete) :
    (ofFile fileLength level file).minKey ≤ (ofFile fileLength level file).maxKey ∧
      (ofFile fileLength level file).keyRange.Spans file.keys := by
  rcases SSTableFile.exists_keyRange file.number complete.nonempty with
    ⟨range, isSpan, isLow, isHigh⟩
  rw [← complete.written] at isSpan isLow isHigh
  have ordered : (ofFile fileLength level file).minKey ≤ (ofFile fileLength level file).maxKey := by
    have inOrder := range.ordered
    rwa [isLow, isHigh] at inOrder
  have same : (ofFile fileLength level file).keyRange = range := by
    apply KeyRange.ext
    · exact (min_eq_left ordered).trans isLow.symm
    · exact (max_eq_right ordered).trans isHigh.symm
  exact ⟨ordered, same ▸ isSpan⟩

end SSTableInfo

/-- The file of a path, one without entries if there is none. -/
def fileAt (files : SSTableFiles Record) (path : ℕ) : SSTableFile Record :=
  (RkyvSSTable.findFile path files).getD (.of 0 [])

theorem fileAt_of_mem {files : SSTableFiles Record} (member : file ∈ files.rows) :
    fileAt files file.number = file := by
  rw [fileAt, RkyvSSTable.findFile_of_mem member]
  rfl

structure Registered (fileLength : SSTableFile Record → ℕ) (files : SSTableFiles Record)
    (info : SSTableInfo) : Prop where
  present : fileAt files info.filePath ∈ files.rows
  complete : (fileAt files info.filePath).Complete
  same : info = .ofFile fileLength info.level (fileAt files info.filePath)

structure Readable (files : SSTableFiles Record) (info : SSTableInfo) : Prop where
  present : fileAt files info.filePath ∈ files.rows
  number : (fileAt files info.filePath).number = info.filePath
  written : fileAt files info.filePath =
    .of (fileAt files info.filePath).number (fileAt files info.filePath).entries
  inRange : ∀ entry ∈ (fileAt files info.filePath).entries,
    -2 ^ 63 ≤ entry.key.timestamp ∧ entry.key.timestamp ≤ 2 ^ 63 - 1

namespace Registered

variable {fileLength : SSTableFile Record → ℕ} {files : SSTableFiles Record}
  {info other : SSTableInfo}

theorem of_mem (member : file ∈ files.rows) (complete : file.Complete) (level : ℕ) :
    Registered fileLength files (.ofFile fileLength level file) := by
  have same : fileAt files (SSTableInfo.ofFile fileLength level file).filePath = file :=
    fileAt_of_mem member
  refine ⟨?_, ?_, ?_⟩
  · rwa [same]
  · rwa [same]
  · rw [same]
    rfl

section

variable (registered : Registered fileLength files info)
include registered

theorem number : (fileAt files info.filePath).number = info.filePath :=
  (congrArg SSTableInfo.filePath registered.same).symm

theorem readable : Readable files info where
  present := registered.present
  number := registered.number
  written := registered.complete.written
  inRange := registered.complete.inRange

theorem mono {after : SSTableFiles Record} (still : fileAt files info.filePath ∈ after.rows) :
    Registered fileLength after info := by
  have same : fileAt after info.filePath = fileAt files info.filePath := by
    have found := fileAt_of_mem still
    rwa [registered.number] at found
  refine ⟨?_, ?_, ?_⟩
  · rwa [same]
  · rw [same]
    exact registered.complete
  · rw [same]
    exact registered.same

theorem spans :
    info.minKey ≤ info.maxKey ∧
      info.keyRange.Spans (fileAt files info.filePath).keys := by
  have known := SSTableInfo.spans_ofFile fileLength info.level registered.complete
  rwa [← registered.same] at known

theorem overlaps_iff (isOther : Registered fileLength files other) :
    info.overlaps other = false ↔ info.keyRange.Apart other.keyRange :=
  SSTableInfo.overlaps_iff registered.spans.1 isOther.spans.1

theorem keyRange_eq (isOther : Registered fileLength files other)
    (same : info.filePath = other.filePath) : info.keyRange = other.keyRange := by
  rw [registered.same, isOther.same, same]
  rfl

end

end Registered

namespace LeveledCompaction

def output (files : SSTableFiles Record) (task : CompactionTask) : SSTableFile Record :=
  .of task.outputPath (mergeEntries
    (task.sstables.flatMap fun info => (fileAt files info.filePath).entries))

def outcome (fileLength : SSTableFile Record → ℕ) (files : SSTableFiles Record)
    (task : CompactionTask) : CompactionResult where
  newSstable := .ofFile fileLength task.targetLevel (output files task)
  obsoleteSstables := task.sstables.map SSTableInfo.filePath
  mergedEntries := (output files task).entries.length
  deletedEntries := 0

variable {fileLength : SSTableFile Record → ℕ} {files : SSTableFiles Record}
  {task : CompactionTask}

theorem exec_executeCompaction_of_readable (readsMetadata : ReadsMetadata Record)
    (readable : ∀ info ∈ task.sstables, Readable files info) :
    exec (executeCompaction fileLength readsMetadata task) files =
      (.ok (outcome fileLength files task), files.insert (output files task)) := by
  have opens : (task.sstables.mapM fun info =>
      withText ("Failed to open SSTable " ++ toString info.filePath ++ ": ")
        (RkyvSSTable.openFile info.filePath files)) =
          .ok (task.sstables.map fun info => RkyvSSTable.reads (fileAt files info.filePath)) := by
    apply mapM_eq_ok
    intro info member
    have opened := RkyvSSTable.openFile_of_mem (readable info member).present
    rw [(readable info member).number] at opened
    rw [opened, withText]
  have reads : (task.sstables.map fun info =>
      RkyvSSTable.reads (fileAt files info.filePath)).mapM (fun sstable =>
        withText "Range query failed: "
          (sstable.rangeQuery readsMetadata files (-2 ^ 63) (2 ^ 63 - 1))) =
            .ok (task.sstables.map fun info => (fileAt files info.filePath).entries) := by
    rw [List.mapM_map]
    apply mapM_eq_ok
    intro info member
    have isReadable := readable info member
    have sound : (fileAt files info.filePath).Sound := by
      rw [isReadable.written]
      exact SSTableFile.sound_of _ _
    rw [Function.comp_apply, RkyvSSTable.rangeQuery_reads readsMetadata
      isReadable.present sound, withText]
    congr 1
    apply List.filter_eq_self.mpr
    intro entry inside
    exact decide_eq_true (isReadable.inRange entry inside)
  rw [executeCompaction, exec_bind_ok (exec_read _ _)]
  simp only [id_eq]
  rw [opens, exec_bind_ok (exec_result _ _), reads, exec_bind_ok (exec_result _ _),
    exec_bind_ok (exec_update _ _), ← List.flatMap_def]
  rfl

theorem exec_executeCompaction (readsMetadata : ReadsMetadata Record)
    (registered : ∀ info ∈ task.sstables, Registered fileLength files info) :
    exec (executeCompaction fileLength readsMetadata task) files =
      (.ok (outcome fileLength files task), files.insert (output files task)) :=
  exec_executeCompaction_of_readable readsMetadata fun info member =>
    (registered info member).readable

theorem mem_keys_output (files : SSTableFiles Record) (task : CompactionTask) (key : List UInt8) :
    key ∈ (output files task).keys ↔
      ∃ info ∈ task.sstables, key ∈ (fileAt files info.filePath).keys := by
  have merged := mem_mergeEntries
    (task.sstables.flatMap fun info => (fileAt files info.filePath).entries) key
  rw [SSTableFile.keys, output, SSTableFile.of_entries, List.mem_map, merged]
  simp only [List.mem_flatMap, SSTableFile.keys, List.mem_map]
  constructor
  · rintro ⟨entry, ⟨info, member, inside⟩, isKey⟩
    exact ⟨info, member, entry, inside, isKey⟩
  · rintro ⟨info, member, entry, inside, isKey⟩
    exact ⟨entry, ⟨info, member, inside⟩, isKey⟩

theorem output_complete (nonempty : task.sstables ≠ [])
    (registered : ∀ info ∈ task.sstables, Registered fileLength files info) :
    (output files task).Complete := by
  rcases List.exists_mem_of_ne_nil _ nonempty with ⟨info, member⟩
  rcases List.exists_mem_of_ne_nil _ (registered info member).complete.nonempty with
    ⟨entry, inside⟩
  apply SSTableFile.complete_of
  · intro none
    have known := (mem_mergeEntries
      (task.sstables.flatMap fun info => (fileAt files info.filePath).entries)
      entry.key.toBytes).mpr ⟨entry, List.mem_flatMap.mpr ⟨info, member, inside⟩, rfl⟩
    rw [none] at known
    rcases known with ⟨_, isNone, _⟩
    cases isNone
  · intro other isMerged
    rcases List.mem_flatMap.mp (mergeEntries_subset _ isMerged) with ⟨source, isSource, found⟩
    exact (registered source isSource).complete.inRange other found

end LeveledCompaction

end QAExchange
