import Mathlib.Data.List.Pairwise
import QAExchange.Storage.CompactionRounds
import QAExchange.Storage.OltpRestarts

/-! # Levels without overlaps

The merged file reaches from the least to the greatest key of the files that it
replaces. A round keeps the files of each level but level 0 apart, unless it merges two
files of level 0 with a file of level 1 between them.
-/

namespace QAExchange

open Foundation Action LeveledCompaction CompactionScheduler

variable {Record : Type}

def Leveled (levels : LevelSSTables) : Prop :=
  ∀ level, 0 < level →
    (listed levels level).Pairwise fun left right => left.overlaps right = false

/-- Level 0 is full, and a file of level 1 that overlaps none of its files has one of them
before it and one behind it. -/
def FillsGap (config : CompactionConfig) (levels : LevelSSTables) : Prop :=
  config.level0MaxFiles ≤ (listed levels 0).length ∧
    ∃ middle ∈ listed levels 1, (∀ file ∈ listed levels 0, file.overlaps middle = false) ∧
      (∃ low ∈ listed levels 0, low.maxKey < middle.minKey) ∧
      ∃ high ∈ listed levels 0, middle.maxKey < high.minKey

instance decidableFillsGap (config : CompactionConfig) (levels : LevelSSTables) :
    Decidable (FillsGap config levels) :=
  inferInstanceAs (Decidable (_ ∧ ∃ middle ∈ listed levels 1, _))

theorem Leveled.apart {levels : LevelSSTables} (leveled : Leveled levels) {level : ℕ}
    (positive : 0 < level) {fileLength : SSTableFile Record → ℕ} {files : SSTableFiles Record}
    (registered : ∀ info ∈ listed levels level, Registered fileLength files info)
    {one other : SSTableInfo} (isOne : one ∈ listed levels level)
    (isOther : other ∈ listed levels level) (different : one ≠ other) :
    one.keyRange.Apart other.keyRange := by
  have pairwise : (listed levels level).Pairwise fun left right =>
      left.keyRange.Apart right.keyRange := by
    apply (leveled level positive).imp_of_mem
    intro left right isLeft isRight apart
    exact ((registered left isLeft).overlaps_iff (registered right isRight)).mp apart
  have : Std.Symm fun left right : SSTableInfo => left.keyRange.Apart right.keyRange :=
    ⟨fun _ _ apart => apart.symm⟩
  exact pairwise.forall isOne isOther different

namespace LeveledStore

section Model

variable (clock : RecordClock Record) (fileLength : SSTableFile Record → ℕ)
  (readsMetadata : ReadsMetadata Record)

def LeveledThroughout : List (StoreCall Record) → LeveledStore Record → Prop
  | [], store => Leveled store.scheduler.levelSstables
  | call :: calls, store => Leveled store.scheduler.levelSstables ∧
      LeveledThroughout calls (step clock fileLength readsMetadata call store)

/-- A file is registered as it is in the directory, if there is one of its name, and a
merged file gets a new name. -/
def NewName (store : LeveledStore Record) : StoreCall Record → Prop
  | .registerSstable content =>
    ∀ file ∈ store.files.rows, file.number = content.number → file = content.file clock
  | .compact millis =>
    ∀ task ∈ shouldCompact store.scheduler.config millis store.scheduler.levelSstables,
      ∀ file ∈ store.files.rows, file.number ≠ task.outputPath

def NewNames : List (StoreCall Record) → LeveledStore Record → Prop
  | [], _ => True
  | call :: calls, store => NewName clock store call ∧
      NewNames calls (step clock fileLength readsMetadata call store)

def KeepsGap (store : LeveledStore Record) : StoreCall Record → Prop
  | .registerSstable _ => True
  | .compact _ => ¬ FillsGap store.scheduler.config store.scheduler.levelSstables

def KeepsGaps : List (StoreCall Record) → LeveledStore Record → Prop
  | [], _ => True
  | call :: calls, store => KeepsGap store call ∧
      KeepsGaps calls (step clock fileLength readsMetadata call store)

instance decidableNewName [DecidableEq Record] (store : LeveledStore Record) :
    ∀ call : StoreCall Record, Decidable (NewName clock store call)
  | .registerSstable _ => inferInstanceAs (Decidable (∀ file ∈ store.files.rows, _ → _))
  | .compact _ => inferInstanceAs (Decidable (∀ task ∈ shouldCompact _ _ _,
      ∀ file ∈ store.files.rows, _))

instance decidableNewNames [DecidableEq Record] :
    ∀ (calls : List (StoreCall Record)) (store : LeveledStore Record),
      Decidable (NewNames clock fileLength readsMetadata calls store)
  | [], _ => .isTrue trivial
  | call :: calls, store =>
    have := decidableNewNames calls (step clock fileLength readsMetadata call store)
    inferInstanceAs (Decidable (NewName clock store call ∧ NewNames clock fileLength
      readsMetadata calls (step clock fileLength readsMetadata call store)))

instance decidableKeepsGap (store : LeveledStore Record) :
    ∀ call : StoreCall Record, Decidable (KeepsGap store call)
  | .registerSstable _ => .isTrue trivial
  | .compact _ => inferInstanceAs (Decidable (¬ FillsGap _ _))

instance decidableKeepsGaps :
    ∀ (calls : List (StoreCall Record)) (store : LeveledStore Record),
      Decidable (KeepsGaps clock fileLength readsMetadata calls store)
  | [], _ => .isTrue trivial
  | call :: calls, store =>
    have := decidableKeepsGaps calls (step clock fileLength readsMetadata call store)
    inferInstanceAs (Decidable (KeepsGap store call ∧ KeepsGaps clock fileLength
      readsMetadata calls (step clock fileLength readsMetadata call store)))

end Model

/-! ## A round -/

def AllRegistered (fileLength : SSTableFile Record → ℕ) (store : LeveledStore Record) : Prop :=
  ∀ level, ∀ info ∈ listed store.scheduler.levelSstables level,
    Registered fileLength store.files info

section Round

variable {fileLength : SSTableFile Record → ℕ} {store : LeveledStore Record} {millis : ℕ}
  {task : CompactionTask}

def left (levels : LevelSSTables) (task : CompactionTask) (level : ℕ) : List SSTableInfo :=
  (listed levels level).filter fun info => info.filePath ∉ task.sstables.map SSTableInfo.filePath

theorem listed_updateLevels (files : SSTableFiles Record) (scheduler : CompactionScheduler)
    (level : ℕ) :
    listed (scheduler.updateLevels (outcome fileLength files task)).levelSstables level =
      if level = task.targetLevel then
        left scheduler.levelSstables task level ++
          [.ofFile fileLength task.targetLevel (output files task)]
      else left scheduler.levelSstables task level := by
  change listed (push _ _) level = _
  rw [listed_push, listed_retainAll]
  rfl

section

variable (all : AllRegistered fileLength store)
include all

theorem AllRegistered.ofTask
    (found : shouldCompact store.scheduler.config millis store.scheduler.levelSstables =
      some task) :
    task.sstables ≠ [] ∧ ∀ info ∈ task.sstables, Registered fileLength store.files info := by
  rcases shouldCompact_cases found with ⟨level, sources, nonempty, sub, _, _, _, sstables⟩
  rw [sstables]
  constructor
  · exact List.append_ne_nil_of_left_ne_nil nonempty _
  · intro info member
    rcases List.mem_append.mp member with isSource | isNext
    · exact all level info (sub isSource)
    · exact all (level + 1) info (List.mem_filter.mp isNext).1

theorem AllRegistered.exec_triggerCompaction (readsMetadata : ReadsMetadata Record)
    (found : shouldCompact store.scheduler.config millis store.scheduler.levelSstables =
      some task) :
    exec (triggerCompaction fileLength readsMetadata millis) store =
      (.ok (), applied (outcome fileLength store.files task)
        { store with files := store.files.insert (output store.files task) }) := by
  have executed := exec_executeCompaction readsMetadata (all.ofTask found).2
  rw [triggerCompaction, exec_bind_ok (exec_read _ _)]
  simp only [found]
  rw [onFiles, exec_bind, exec_onPart, executed]
  rfl

theorem AllRegistered.mem_left_iff (sub : sources ⊆ listed store.scheduler.levelSstables level)
    (sstables : task.sstables = sources ++
      (listed store.scheduler.levelSstables (level + 1)).filter fun next =>
        sources.any fun source => source.overlaps next) (info : SSTableInfo) :
    info ∈ left store.scheduler.levelSstables task (level + 1) ↔
      info ∈ listed store.scheduler.levelSstables (level + 1) ∧
        ∀ source ∈ sources, source.overlaps info = false := by
  rw [left, List.mem_filter, decide_eq_true_iff, sstables]
  apply and_congr_right
  intro member
  have registered := all (level + 1) info member
  constructor
  · intro absent source isSource
    by_contra overlaps
    apply absent
    apply List.mem_map_of_mem
    apply List.mem_append_right
    apply List.mem_filter.mpr
    exact ⟨member, List.any_eq_true.mpr ⟨source, isSource, by simpa using overlaps⟩⟩
  · intro apart present
    rcases List.mem_map.mp present with ⟨other, isOther, same⟩
    -- a file at the same path has the same range, so that the sources do not overlap it
    rcases List.mem_append.mp isOther with isSource | isNext
    · have isRegistered := all level other (sub isSource)
      have isApart := (isRegistered.overlaps_iff registered).mp (apart other isSource)
      rw [isRegistered.keyRange_eq registered same] at isApart
      exact info.keyRange.not_apart_self isApart
    · rcases List.mem_filter.mp isNext with ⟨inNext, anyOverlaps⟩
      rcases List.any_eq_true.mp anyOverlaps with ⟨source, isSource, overlaps⟩
      have isRegistered := all (level + 1) other inNext
      have sourceRegistered := all level source (sub isSource)
      have isApart := (sourceRegistered.overlaps_iff registered).mp (apart source isSource)
      rw [← isRegistered.keyRange_eq registered same] at isApart
      rw [(sourceRegistered.overlaps_iff isRegistered).mpr isApart] at overlaps
      cases overlaps

/-- The merged file overlaps a file that is left if and only if that one is between two of
the sources. -/
theorem AllRegistered.output_apart_iff (leveled : Leveled store.scheduler.levelSstables)
    (nonempty : sources ≠ []) (sub : sources ⊆ listed store.scheduler.levelSstables level)
    (sstables : task.sstables = sources ++
      (listed store.scheduler.levelSstables (level + 1)).filter fun next =>
        sources.any fun source => source.overlaps next)
    (member : info ∈ listed store.scheduler.levelSstables (level + 1))
    (apart : ∀ source ∈ sources, source.overlaps info = false) (target : ℕ) :
    info.overlaps (.ofFile fileLength target (output store.files task)) = false ↔
      ¬ ((∃ low ∈ sources, low.maxKey < info.minKey) ∧
        ∃ high ∈ sources, info.maxKey < high.minKey) := by
  have registered : ∀ part ∈ task.sstables, Registered fileLength store.files part := by
    intro part isPart
    rw [sstables] at isPart
    rcases List.mem_append.mp isPart with isSource | isNext
    · exact all level part (sub isSource)
    · exact all (level + 1) part (List.mem_filter.mp isNext).1
  have isRegistered := all (level + 1) info member
  have someParts : task.sstables ≠ [] := by
    rw [sstables]
    exact List.append_ne_nil_of_left_ne_nil nonempty _
  have outputSpans := SSTableInfo.spans_ofFile fileLength target
    (output_complete someParts registered)
  have keys := mem_keys_output store.files task
  rw [sstables] at keys registered
  have apartAll : ∀ part ∈ sources ++
      (listed store.scheduler.levelSstables (level + 1)).filter (fun next =>
        sources.any fun source => source.overlaps next),
      part.keyRange.Apart info.keyRange := by
    intro part isPart
    rcases List.mem_append.mp isPart with isSource | isNext
    · exact ((registered part isPart).overlaps_iff isRegistered).mp (apart part isSource)
    · rcases List.mem_filter.mp isNext with ⟨inNext, anyOverlaps⟩
      rcases List.any_eq_true.mp anyOverlaps with ⟨source, isSource, overlaps⟩
      apply leveled.apart (Nat.succ_pos level) (all (level + 1)) inNext member
      rintro rfl
      rw [apart source isSource] at overlaps
      cases overlaps
  have meets : ∀ near ∈ (listed store.scheduler.levelSstables (level + 1)).filter (fun next =>
      sources.any fun source => source.overlaps next),
      ∃ source ∈ sources, ¬ source.keyRange.Apart near.keyRange := by
    intro near isNear
    rcases List.any_eq_true.mp (List.mem_filter.mp isNear).2 with ⟨source, isSource, overlaps⟩
    refine ⟨source, isSource, ?_⟩
    intro isApart
    rw [((registered source (List.mem_append_left _ isSource)).overlaps_iff
      (registered near (List.mem_append_right _ isNear))).mpr isApart] at overlaps
    cases overlaps
  have merged := outputSpans.2.apart_merged_iff
    (fun part isPart => (registered part isPart).spans.2) keys meets apartAll
  rw [SSTableInfo.overlaps_iff isRegistered.spans.1 outputSpans.1, KeyRange.apart_comm, merged]
  have isLow : ∀ low ∈ sources, low.keyRange.Before info.keyRange ↔ low.maxKey < info.minKey :=
    fun low isSource => SSTableInfo.before_iff
      (registered low (List.mem_append_left _ isSource)).spans.1 isRegistered.spans.1
  have isHigh : ∀ high ∈ sources,
      info.keyRange.Before high.keyRange ↔ info.maxKey < high.minKey :=
    fun high isSource => SSTableInfo.before_iff isRegistered.spans.1
      (registered high (List.mem_append_left _ isSource)).spans.1
  apply not_congr
  apply and_congr
  · exact exists_congr fun low => and_congr_right (isLow low)
  · exact exists_congr fun high => and_congr_right (isHigh high)

theorem AllRegistered.applied
    (found : shouldCompact store.scheduler.config millis store.scheduler.levelSstables =
      some task) (isNew : ∀ file ∈ store.files.rows, file.number ≠ task.outputPath) :
    AllRegistered fileLength (LeveledStore.applied (outcome fileLength store.files task)
      { store with files := store.files.insert (output store.files task) }) := by
  rcases all.ofTask found with ⟨nonempty, registered⟩
  have ofLeft : ∀ level, ∀ info ∈ left store.scheduler.levelSstables task level,
      Registered fileLength (LeveledStore.applied (outcome fileLength store.files task)
        { store with files := store.files.insert (output store.files task) }).files info := by
    intro level info member
    rcases List.mem_filter.mp member with ⟨isListed, stays⟩
    have before := all level info isListed
    apply before.mono
    apply mem_removeFiles.mpr
    constructor
    · exact KeyedRows.mem_insert.mpr (.inr ⟨before.present, isNew _ before.present⟩)
    · rw [before.number]
      exact of_decide_eq_true stays
  intro level info member
  rw [LeveledStore.applied, listed_updateLevels] at member
  split_ifs at member with isTarget
  · rcases List.mem_append.mp member with isLeft | isOutput
    · exact ofLeft level info isLeft
    · rw [List.mem_singleton.mp isOutput]
      apply Registered.of_mem _ (output_complete nonempty registered)
      apply mem_removeFiles.mpr
      constructor
      · exact KeyedRows.mem_insert.mpr (.inl rfl)
      · intro obsolete
        rcases List.mem_map.mp obsolete with ⟨source, isSource, same⟩
        have present := isNew _ (registered source isSource).present
        rw [(registered source isSource).number] at present
        exact present same
  · exact ofLeft level info member

/-- A round keeps the files of each level apart if and only if it fills no gap. -/
theorem AllRegistered.leveled_applied_iff (leveled : Leveled store.scheduler.levelSstables)
    (found : shouldCompact store.scheduler.config millis store.scheduler.levelSstables =
      some task) :
    Leveled (store.scheduler.updateLevels (outcome fileLength store.files task)).levelSstables ↔
      ¬ FillsGap store.scheduler.config store.scheduler.levelSstables := by
  rcases shouldCompact_cases found with
    ⟨source, sources, nonempty, sub, isSource, target, _, sstables⟩
  have leftApart : ∀ level, 0 < level →
      (left store.scheduler.levelSstables task level).Pairwise fun left right =>
        left.overlaps right = false := fun level positive => (leveled level positive).filter _
  have isLeft := all.mem_left_iff sub sstables
  have outputApart : ∀ info ∈ left store.scheduler.levelSstables task (source + 1),
      (info.overlaps (.ofFile fileLength task.targetLevel (output store.files task)) = false ↔
        ¬ ((∃ low ∈ sources, low.maxKey < info.minKey) ∧
          ∃ high ∈ sources, info.maxKey < high.minKey)) := by
    intro info member
    rcases (isLeft info).mp member with ⟨isListed, apart⟩
    exact all.output_apart_iff leveled nonempty sub sstables isListed apart task.targetLevel
  have whole : Leveled (store.scheduler.updateLevels
      (outcome fileLength store.files task)).levelSstables ↔
        ∀ info ∈ left store.scheduler.levelSstables task (source + 1),
          ¬ ((∃ low ∈ sources, low.maxKey < info.minKey) ∧
            ∃ high ∈ sources, info.maxKey < high.minKey) := by
    constructor
    · intro after info member
      have atTarget := after (source + 1) (Nat.succ_pos source)
      rw [listed_updateLevels, if_pos target.symm] at atTarget
      exact (outputApart info member).mp
        ((List.pairwise_append.mp atTarget).2.2 info member _ (by simp))
    · intro none level positive
      rw [listed_updateLevels]
      split_ifs with isTarget
      · rw [target] at isTarget
        subst isTarget
        apply List.pairwise_append.mpr
        refine ⟨leftApart _ positive, List.pairwise_singleton _ _, ?_⟩
        intro info member merged isOutput
        rw [List.mem_singleton.mp isOutput]
        exact (outputApart info member).mpr (none info member)
      · exact leftApart level positive
  rw [whole]
  rcases isSource with ⟨rfl, rfl, full⟩ | ⟨positive, one, rfl⟩
  · constructor
    · rintro none ⟨_, middle, isMiddle, apart, between⟩
      exact none middle ((isLeft middle).mpr ⟨isMiddle, apart⟩) between
    · intro noGap info member between
      rcases (isLeft info).mp member with ⟨isListed, apart⟩
      exact noGap ⟨full, info, isListed, apart, between⟩
  · apply iff_of_true
    · intro info member
      rcases (isLeft info).mp member with ⟨isListed, _⟩
      have infoOrdered := (all (source + 1) info isListed).spans.1
      have oneOrdered := (all source one (sub (by simp))).spans.1
      simp only [List.mem_singleton, exists_eq_left]
      rintro ⟨behind, before⟩
      exact absurd (behind.trans_le (infoOrdered.trans before.le)) (not_lt.mpr oneOrdered)
    · rintro ⟨full, _⟩
      rw [shouldCompact_level0 full] at found
      cases found
      change 1 = source + 1 at target
      omega

end

end Round

section Runs

variable {clock : RecordClock Record} {fileLength : SSTableFile Record → ℕ}
  (readsMetadata : ReadsMetadata Record)

theorem AllRegistered.register (all : AllRegistered fileLength store)
    (isNew : NewName clock store (.registerSstable content)) :
    AllRegistered fileLength
      (step clock fileLength readsMetadata (.registerSstable content) store) := by
  have still : ∀ level, ∀ info ∈ listed store.scheduler.levelSstables level,
      Registered fileLength (store.files.insert (content.file clock)) info := by
    intro level info member
    have before := all level info member
    apply before.mono
    apply KeyedRows.mem_insert.mpr
    by_cases same : (fileAt store.files info.filePath).number = content.number
    · exact .inl (isNew _ before.present same)
    · exact .inr ⟨before.present, same⟩
  intro level info member
  change info ∈ listed (push _ _) level at member
  rw [listed_push] at member
  split_ifs at member
  · rcases List.mem_append.mp member with old | isNew
    · exact still level info old
    · rw [List.mem_singleton.mp isNew]
      exact Registered.of_mem (KeyedRows.mem_insert.mpr (.inl rfl)) (content.complete clock) 0
  · exact still level info member

theorem leveled_register (content : SSTableContent Record) :
    Leveled (step clock fileLength readsMetadata (.registerSstable content)
      store).scheduler.levelSstables ↔ Leveled store.scheduler.levelSstables := by
  apply forall_congr'
  intro level
  apply imp_congr_right
  intro positive
  change (listed (push _ _) level).Pairwise _ ↔ _
  have different : level ≠ (SSTableInfo.ofFile fileLength 0 (content.file clock)).level :=
    Nat.ne_of_gt positive
  rw [listed_push, if_neg different]

theorem AllRegistered.step (all : AllRegistered fileLength store)
    (leveled : Leveled store.scheduler.levelSstables) (isNew : NewName clock store call) :
    AllRegistered fileLength (step clock fileLength readsMetadata call store) ∧
      (step clock fileLength readsMetadata call store).scheduler.config = store.scheduler.config ∧
      (Leveled (step clock fileLength readsMetadata call store).scheduler.levelSstables ↔
        KeepsGap store call) := by
  cases call with
  | registerSstable content =>
    refine ⟨all.register readsMetadata isNew, rfl, ?_⟩
    exact iff_of_true ((leveled_register readsMetadata content).mpr leveled) trivial
  | compact millis =>
    rw [LeveledStore.step]
    cases found : shouldCompact store.scheduler.config millis
        store.scheduler.levelSstables with
    | none =>
      have ran : exec (triggerCompaction fileLength readsMetadata millis) store =
          (.error "No compaction needed", store) := by
        rw [triggerCompaction, exec_bind_ok (exec_read _ _)]
        simp only [found, exec_fail]
      rw [ran]
      refine ⟨all, rfl, iff_of_true leveled ?_⟩
      rintro ⟨full, _⟩
      rw [shouldCompact_level0 full] at found
      cases found
    | some task =>
      rw [all.exec_triggerCompaction readsMetadata found]
      exact ⟨all.applied found (isNew task found), rfl, all.leveled_applied_iff leveled found⟩

theorem AllRegistered.leveledThroughout_iff :
    ∀ {calls : List (StoreCall Record)} {store : LeveledStore Record},
      AllRegistered fileLength store → Leveled store.scheduler.levelSstables →
      NewNames clock fileLength readsMetadata calls store →
      (LeveledThroughout clock fileLength readsMetadata calls store ↔
        KeepsGaps clock fileLength readsMetadata calls store)
  | [], store, _, leveled, _ => iff_of_true leveled trivial
  | call :: calls, store, all, leveled, ⟨isNew, laterNew⟩ => by
    rcases all.step readsMetadata leveled isNew with ⟨still, _, stays⟩
    rw [LeveledThroughout, KeepsGaps, and_iff_right leveled, ← stays]
    constructor
    · intro after
      have now : Leveled (LeveledStore.step clock fileLength readsMetadata call
          store).scheduler.levelSstables := by
        cases calls with
        | nil => exact after
        | cons next calls => exact after.1
      exact ⟨now, (still.leveledThroughout_iff now laterNew).mp after⟩
    · rintro ⟨now, later⟩
      exact (still.leveledThroughout_iff now laterNew).mpr later

end Runs

/-- In a run of registrations and rounds the files of every level but level 0 stay apart
if and only if no round merges files of level 0 that have a file of level 1 between
them. -/
theorem leveledThroughout_iff_keepsGaps (clock : RecordClock Record)
    (fileLength : SSTableFile Record → ℕ) (readsMetadata : ReadsMetadata Record)
    (config : CompactionConfig) (files : SSTableFiles Record) (calls : List (StoreCall Record))
    (newNames : NewNames clock fileLength readsMetadata calls ⟨files, .new config⟩) :
    LeveledThroughout clock fileLength readsMetadata calls ⟨files, .new config⟩ ↔
      KeepsGaps clock fileLength readsMetadata calls ⟨files, .new config⟩ := by
  apply AllRegistered.leveledThroughout_iff readsMetadata _ _ newNames
  · intro level info member
    cases member
  · intro level positive
    exact .nil

def oneRecord (number : ℕ) (record : UInt8) : SSTableContent UInt8 where
  number := number
  records := [(number, record)]
  nonempty := List.cons_ne_nil _ _

def twoRounds (first second third fourth : UInt8) : List (StoreCall UInt8) :=
  [.registerSstable (oneRecord 1 5), .registerSstable (oneRecord 2 5),
    .registerSstable (oneRecord 3 5), .registerSstable (oneRecord 4 5), .compact 100,
    .registerSstable (oneRecord 5 first), .registerSstable (oneRecord 6 second),
    .registerSstable (oneRecord 7 third), .registerSstable (oneRecord 8 fourth), .compact 200]

/-- All later files are behind the merged one. -/
theorem twoRounds_behind_leveled :
    LeveledThroughout OltpHybridStorage.referenceClock (fun file => file.entries.length) (fun _ _ => .ok [])
      (twoRounds 8 7 9 9) ⟨.empty, .new .default⟩ := by
  apply (leveledThroughout_iff_keepsGaps OltpHybridStorage.referenceClock _ _ .default .empty
    (twoRounds 8 7 9 9) _).mpr
  · decide +kernel
  · decide +kernel

/-- Two later files are before the merged one, and two behind it. -/
theorem twoRounds_around_not_leveled :
    ¬ LeveledThroughout OltpHybridStorage.referenceClock (fun file => file.entries.length) (fun _ _ => .ok [])
      (twoRounds 3 3 9 9) ⟨.empty, .new .default⟩ := by
  rintro ⟨_, _, _, _, _, _, _, _, _, _, last⟩
  have apart := last 1 (by decide)
  revert apart
  decide +kernel

end LeveledStore

end QAExchange
