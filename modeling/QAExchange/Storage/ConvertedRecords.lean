import QAExchange.Storage.OlapFiles
import QAExchange.Storage.PendingConversions

/-! # Converted records

What a task converts is fixed when its record is made: the SSTables and the Parquet file.
As long as tasks have nothing in common, and no two workers have the same task, every
archived SSTable has its records in one Parquet file.
-/

namespace QAExchange

open Foundation ConversionMetadata

variable {Record : Type}

/-! ## Jobs -/

structure ConversionJob where
  id : ℕ
  sstables : List SourcePath
  output : OlapPath
  deriving DecidableEq

def ConversionRecord.job (record : ConversionRecord) : ConversionJob where
  id := record.id
  sstables := record.oltpSstables
  output := record.olapParquet

def ConversionMetadata.jobs (metadata : ConversionMetadata) : List ConversionJob :=
  metadata.records.map ConversionRecord.job

def entriesAt (original : List (SourceFile Record)) (path : SourcePath) :
    List (MemTableEntry Record) :=
  ((original.find? fun file => file.path = path).map SourceFile.entries).getD []

def ConversionJob.entries (original : List (SourceFile Record)) (job : ConversionJob) :
    List (MemTableEntry Record) :=
  job.sstables.flatMap (entriesAt original)

def ConversionJob.rows (original : List (SourceFile Record)) (job : ConversionJob) :
    List (MemTableEntry Record) :=
  ConversionSystem.sortEntries (job.entries original)

theorem ConversionJob.mem_rows {original : List (SourceFile Record)} {job : ConversionJob}
    {entry : MemTableEntry Record} : entry ∈ job.rows original ↔ entry ∈ job.entries original :=
  (List.perm_insertionSort _ _).mem_iff

theorem entriesAt_of_mem {original : List (SourceFile Record)}
    (distinct : (original.map SourceFile.path).Nodup) (member : file ∈ original) :
    entriesAt original file.path = file.entries := by
  rw [entriesAt]
  cases found : original.find? fun other => other.path = file.path with
  | none =>
    have missing := List.find?_eq_none.mp found file member
    simp at missing
  | some other =>
    have samePath : other.path = file.path := by
      simpa using List.find?_some found
    have same := List.inj_on_of_nodup_map distinct (List.mem_of_find?_eq_some found) member
      samePath
    rw [same]
    rfl

namespace ConversionSystem

/-! ## Nothing is lost -/

/-- SSTables that are gone have their records in a Parquet file, and no record is in two of
them. -/
structure NothingLost (original : List (SourceFile Record)) (system : ConversionSystem Record) :
    Prop where
  contained : ∀ file ∈ original, file ∉ system.files.sources → ∀ entry ∈ file.entries,
    ∃ path rows, system.files.Holds path rows ∧ entry ∈ rows
  once : ∀ entry first second firstRows secondRows,
    system.files.Holds first firstRows → system.files.Holds second secondRows →
      entry ∈ firstRows → entry ∈ secondRows → first = second

/-- A new task has another output than the tasks before it, and converts none of their
records. -/
def Fresh (original : List (SourceFile Record)) (metadata : ConversionMetadata)
    (sstables : List SourcePath) (output : OlapPath) : Prop :=
  ∀ record ∈ metadata.records, record.olapParquet ≠ output ∧
    ∀ entry ∈ sstables.flatMap (entriesAt original), entry ∉ record.job.entries original

instance [DecidableEq Record] (original : List (SourceFile Record))
    (metadata : ConversionMetadata) (sstables : List SourcePath) (output : OlapPath) :
    Decidable (Fresh original metadata sstables output) :=
  inferInstanceAs (Decidable (∀ record ∈ metadata.records, record.olapParquet ≠ output ∧
    ∀ entry ∈ sstables.flatMap (entriesAt original), entry ∉ record.job.entries original))

/-- The scheduler only makes fresh tasks. -/
def SchedulesFresh (original : List (SourceFile Record)) (system : ConversionSystem Record)
    (now : ℤ) : SchedulerState → Prop
  | .batching instrumentId (batch :: _) _ =>
    (∃ record ∈ system.metadata.getPendingRecords,
      record.instrumentId = instrumentId ∧ record.oltpSstables = batch) ∨
      Fresh original system.metadata batch ⟨instrumentId, false, now⟩
  | _ => True

instance [DecidableEq Record] (original : List (SourceFile Record))
    (system : ConversionSystem Record) (now : ℤ) :
    ∀ state, Decidable (SchedulesFresh original system now state)
  | .batching instrumentId (batch :: _) _ =>
    inferInstanceAs (Decidable ((∃ record ∈ system.metadata.getPendingRecords,
      record.instrumentId = instrumentId ∧ record.oltpSstables = batch) ∨
      Fresh original system.metadata batch ⟨instrumentId, false, now⟩))
  | .batching _ [] _ => .isTrue trivial
  | .resting => .isTrue trivial
  | .scanning _ => .isTrue trivial
  | .collecting => .isTrue trivial
  | .retrying _ => .isTrue trivial
  | .sending _ _ => .isTrue trivial
  | .searching => .isTrue trivial
  | .burying _ => .isTrue trivial
  | .cleaning => .isTrue trivial

/-- A worker that takes the next task is the only one that has it. -/
def TakesAlone (system : ConversionSystem Record) : Option (WorkerState Record) →
    List ConversionRecord → Prop
  | some .idle, record :: _ => ∀ worker ∈ system.workers, ∀ task ∈ worker.held,
      task.id ≠ record.id
  | _, _ => True

instance (system : ConversionSystem Record) :
    ∀ state queue, Decidable (TakesAlone system state queue)
  | some .idle, record :: _ => inferInstanceAs (Decidable (∀ worker ∈ system.workers,
      ∀ task ∈ worker.held, task.id ≠ record.id))
  | some .idle, [] => .isTrue trivial
  | none, _ => .isTrue trivial
  | some (.taken _), _ => .isTrue trivial
  | some (.reading ..), _ => .isTrue trivial
  | some (.creating ..), _ => .isTrue trivial
  | some (.writing ..), _ => .isTrue trivial
  | some (.moving ..), _ => .isTrue trivial
  | some (.finishing ..), _ => .isTrue trivial
  | some (.failing ..), _ => .isTrue trivial
  | some (.cleaning _), _ => .isTrue trivial
  | some (.archiving ..), _ => .isTrue trivial

/-- Tasks have nothing in common, no two workers have the same task, and a restart finds the
metadata saved. -/
def Separate (original : List (SourceFile Record)) (system : ConversionSystem Record) :
    Turn → Prop
  | .scheduler input => SchedulesFresh original system input.now system.scheduler
  | .worker _ index => TakesAlone system system.workers[index]? system.queue
  | .trigger input instrumentId sstables =>
    Fresh original system.metadata sstables ⟨instrumentId, true, input.now⟩
  | .restart => system.saved = system.metadata

instance [DecidableEq Record] (original : List (SourceFile Record))
    (system : ConversionSystem Record) : ∀ turn, Decidable (Separate original system turn)
  | .scheduler input => inferInstanceAs (Decidable (SchedulesFresh original system input.now
      system.scheduler))
  | .worker _ index => inferInstanceAs (Decidable (TakesAlone system system.workers[index]?
      system.queue))
  | .trigger input instrumentId sstables => inferInstanceAs (Decidable (Fresh original
      system.metadata sstables ⟨instrumentId, true, input.now⟩))
  | .restart => inferInstanceAs (Decidable (system.saved = system.metadata))

/-! ## Workers and their files -/

def Works (original : List (SourceFile Record)) (owners : List OlapPath)
    (files : ConversionFiles Record) : WorkerState Record → Prop
  | .idle | .taken _ | .failing .. | .cleaning _ => True
  | .reading record sstables collected => ∃ done, record.oltpSstables = done ++ sstables ∧
      collected = done.flatMap (entriesAt original)
  | .creating record rows => rows = record.job.rows original
  | .writing record rows place => rows = record.job.rows original ∧
      files.Writable owners record.olapParquet place
  | .moving record rows => rows = record.job.rows original ∧
      files.Written record.olapParquet rows
  | .finishing record .. => files.Holds record.olapParquet (record.job.rows original)
  | .archiving record sstables => files.Holds record.olapParquet (record.job.rows original) ∧
      ∀ path ∈ sstables, path ∈ record.oltpSstables

def Expected (original : List (SourceFile Record)) (jobs : List ConversionJob) (path : OlapPath)
    (rows : List (MemTableEntry Record)) : Prop :=
  ∃ job ∈ jobs, job.output = path ∧ rows = job.rows original

structure Sound (original : List (SourceFile Record)) (owners : List OlapPath)
    (system : ConversionSystem Record) : Prop where
  numbered : system.metadata.Numbered
  apart : ∀ left ∈ system.metadata.jobs, ∀ right ∈ system.metadata.jobs, left.id ≠ right.id →
    left.output ≠ right.output ∧
      ∀ entry ∈ left.entries original, entry ∉ right.entries original
  queue : ∀ record ∈ system.queue, record.job ∈ system.metadata.jobs
  listed : ∀ record ∈ system.scheduler.listed, record.job ∈ system.metadata.jobs
  held : ∀ worker ∈ system.workers, ∀ record ∈ worker.held, record.job ∈ system.metadata.jobs
  alone : ∀ (first second : ℕ) left right leftRecord rightRecord,
    system.workers[first]? = some left → system.workers[second]? = some right →
      left.held = some leftRecord → right.held = some rightRecord →
      leftRecord.id = rightRecord.id → first = second
  sources : ∀ file ∈ system.files.sources, file ∈ original
  placed : system.files.Placed owners (Expected original system.metadata.jobs)
  works : ∀ worker ∈ system.workers, Works original owners system.files worker
  removed : ∀ file ∈ original, file ∉ system.files.sources → ∃ job ∈ system.metadata.jobs,
    file.path ∈ job.sstables ∧ system.files.Holds job.output (job.rows original)

section Sound

variable {original : List (SourceFile Record)} {owners longer : List OlapPath}
  {system : ConversionSystem Record}

theorem jobs_replaceFirst {record : ConversionRecord} {records : List ConversionRecord}
    (distinct : (records.map ConversionRecord.id).Nodup)
    (known : record.job ∈ records.map ConversionRecord.job) :
    (replaceFirst record records).map ConversionRecord.job =
      records.map ConversionRecord.job := by
  induction records with
  | nil => rfl
  | cons first rest induction =>
    rcases List.mem_map.mp known with ⟨found, member, sameJob⟩
    have sameId : found.id = record.id := congrArg ConversionJob.id sameJob
    rw [replaceFirst]
    split_ifs with same
    · have isFirst : found = first := List.inj_on_of_nodup_map distinct member
        List.mem_cons_self (sameId.trans same.symm)
      rw [List.map_cons, List.map_cons, ← sameJob, isFirst]
    · have later : found ∈ rest := by
        rcases List.mem_cons.mp member with rfl | later
        · exact absurd sameId same
        · exact later
      rw [List.map_cons, List.map_cons, induction (List.nodup_cons.mp distinct).2
        (List.mem_map.mpr ⟨found, later, sameJob⟩)]

section

variable (sound : Sound original owners system)
include sound

theorem Sound.update (input : ConversionInput) {record : ConversionRecord}
    (known : record.job ∈ system.metadata.jobs) :
    let updated := (system.updateRecord input record).2
    Sound original owners updated ∧ updated.metadata.jobs = system.metadata.jobs ∧
      updated.scheduler = system.scheduler ∧ updated.workers = system.workers ∧
      updated.files = system.files := by
  rcases updateRecord_spec input record system with ⟨saved, _, same⟩
  have jobs : jobs { system.metadata with
      records := replaceFirst record system.metadata.records } =
      system.metadata.jobs := jobs_replaceFirst sound.numbered.distinct known
  intro updated
  have isUpdated : updated = _ := same
  rw [isUpdated]
  refine ⟨⟨sound.numbered.replace record, ?_, ?_, ?_, ?_, sound.alone, sound.sources, ?_,
    sound.works, ?_⟩, jobs, rfl, rfl, rfl⟩
  · rw [jobs]
    exact sound.apart
  · rw [jobs]
    exact sound.queue
  · rw [jobs]
    exact sound.listed
  · rw [jobs]
    exact sound.held
  · rw [jobs]
    exact sound.placed
  · rw [jobs]
    exact sound.removed

theorem Sound.setScheduler {state : SchedulerState}
    (listed : ∀ record ∈ state.listed, record.job ∈ system.metadata.jobs) :
    Sound original owners { system with scheduler := state } :=
  ⟨sound.numbered, sound.apart, sound.queue, listed, sound.held, sound.alone, sound.sources,
    sound.placed, sound.works, sound.removed⟩

theorem Sound.send {record : ConversionRecord} (known : record.job ∈ system.metadata.jobs) :
    Sound original owners (system.send record) := by
  refine ⟨sound.numbered, sound.apart, ?_, sound.listed, sound.held, sound.alone, sound.sources,
    sound.placed, sound.works, sound.removed⟩
  intro task isQueued
  rcases List.mem_append.mp isQueued with old | isNew
  · exact sound.queue task old
  · rw [List.mem_singleton.mp isNew]
    exact known

theorem Sound.add {record : ConversionRecord} (isNext : record.id = system.metadata.nextId)
    (fresh : Fresh original system.metadata record.oltpSstables record.olapParquet)
    (saved : ConversionMetadata) :
    Sound original owners { system with
      metadata := system.metadata.addRecord record, saved := saved } := by
  have jobs : (system.metadata.addRecord record).jobs = system.metadata.jobs ++ [record.job] := by
    simp [jobs, addRecord]
  have more : ∀ job ∈ system.metadata.jobs, job ∈ (system.metadata.addRecord record).jobs := by
    intro job member
    rw [jobs]
    exact List.mem_append_left _ member
  have others : ∀ job ∈ system.metadata.jobs, job.output ≠ record.olapParquet ∧
      ∀ entry ∈ record.job.entries original, entry ∉ job.entries original := by
    intro job member
    rcases List.mem_map.mp member with ⟨known, isKnown, rfl⟩
    exact fresh known isKnown
  refine ⟨sound.numbered.addRecord record isNext, ?_,
    fun task member => more _ (sound.queue task member),
    fun task member => more _ (sound.listed task member),
    fun worker member task isHeld => more _ (sound.held worker member task isHeld), sound.alone,
    sound.sources, sound.placed.mono ?_, sound.works, ?_⟩
  · rw [jobs]
    intro left isLeft right isRight different
    rcases List.mem_append.mp isLeft with oldLeft | newLeft
    · rcases List.mem_append.mp isRight with oldRight | newRight
      · exact sound.apart left oldLeft right oldRight different
      · rw [List.mem_singleton.mp newRight]
        rcases others left oldLeft with ⟨output, disjoint⟩
        exact ⟨output, fun entry inLeft inRecord => disjoint entry inRecord inLeft⟩
    · rw [List.mem_singleton.mp newLeft] at different ⊢
      rcases List.mem_append.mp isRight with oldRight | newRight
      · rcases others right oldRight with ⟨output, disjoint⟩
        exact ⟨output.symm, disjoint⟩
      · rw [List.mem_singleton.mp newRight] at different
        exact absurd rfl different
  · rintro path rows ⟨job, member, isOutput, isRows⟩
    exact ⟨job, more job member, isOutput, isRows⟩
  · intro file member gone
    rcases sound.removed file member gone with ⟨job, isJob, converts, holds⟩
    exact ⟨job, more job isJob, converts, holds⟩

theorem Sound.submit (input : ConversionInput) (manual : Bool) (instrumentId : String)
    (fresh : Fresh original system.metadata sstables ⟨instrumentId, manual, input.now⟩) :
    Sound original owners (system.submit input manual instrumentId sstables).2 ∧
      (system.submit input manual instrumentId sstables).2.scheduler = system.scheduler := by
  rw [ConversionSystem.submit]
  split_ifs
  · exact ⟨sound, rfl⟩
  · rw [save]
    cases input.failure with
    | none =>
      refine ⟨?_, rfl⟩
      apply Sound.send
      · exact sound.add rfl fresh _
      · simp [jobs, addRecord]
    | some text => exact ⟨sound.add rfl fresh _, rfl⟩

end

/-! ### Workers -/

theorem Works.same {expected : OlapPath → List (MemTableEntry Record) → Prop}
    {files : ConversionFiles Record} (placed : files.Placed owners expected)
    (isLonger : owners <+: longer) {worker : WorkerState Record}
    (same : ∀ record ∈ worker.held, files.SameAt owners record.olapParquet after)
    (works : Works original owners files worker) : Works original longer after worker := by
  cases worker with
  | idle => trivial
  | taken record => trivial
  | reading record sstables collected => exact works
  | creating record rows => exact works
  | writing record rows place => exact ⟨works.1, works.2.same (same record rfl) isLonger⟩
  | moving record rows => exact ⟨works.1, works.2.same placed (same record rfl)⟩
  | finishing record =>
    exact ConversionFiles.Holds.same placed (same record rfl) works
  | failing record error => trivial
  | cleaning record => trivial
  | archiving record sstables => exact ⟨works.1.same placed (same record rfl), works.2⟩

section

variable (sound : Sound original owners system)
include sound

theorem Sound.output_ne {index other : ℕ} {state worker : WorkerState Record}
    (isState : system.workers[index]? = some state)
    (isWorker : system.workers[other]? = some worker) (different : other ≠ index)
    {record task : ConversionRecord} (holds : state.held = some record)
    (isHeld : worker.held = some task) : task.olapParquet ≠ record.olapParquet := by
  have known := sound.held state (List.mem_of_getElem? isState) record holds
  have knownTask := sound.held worker (List.mem_of_getElem? isWorker) task isHeld
  have ids : task.job.id ≠ record.job.id := by
    intro same
    exact different (sound.alone other index worker state task record isWorker isState isHeld holds
      same)
  exact (sound.apart _ knownTask _ known ids).1

/-- A worker goes on with its task, or leaves it, and changes only files of its output. -/
theorem Sound.setWorker (isState : system.workers[index]? = some state)
    (holds : state.held = some record) {next : WorkerState Record}
    (stillHeld : ∀ task ∈ next.held, task.job = record.job) {files : ConversionFiles Record}
    (isLonger : owners <+: longer)
    (placed : files.Placed longer (Expected original system.metadata.jobs))
    (others : ∀ path, path ≠ record.olapParquet → system.files.SameAt owners path files)
    (own : system.files.Holds record.olapParquet (record.job.rows original) →
      files.Holds record.olapParquet (record.job.rows original))
    (works : Works original longer files next)
    (sources : ∀ file, file ∈ files.sources ↔ file ∈ system.files.sources) :
    Sound original longer (setWorker index next { system with files := files }) := by
  have known := sound.held state (List.mem_of_getElem? isState) record holds
  have inside := (List.getElem?_eq_some_iff.mp isState).1
  have found : ∀ (other : ℕ) worker, (system.workers.set index next)[other]? = some worker →
      (other = index ∧ worker = next) ∨ (other ≠ index ∧ system.workers[other]? = some worker) := by
    intro other worker isWorker
    by_cases same : other = index
    · rw [same, List.getElem?_set_self inside] at isWorker
      exact .inl ⟨same, (Option.some.inj isWorker).symm⟩
    · rw [List.getElem?_set_ne fun equal => same equal.symm] at isWorker
      exact .inr ⟨same, isWorker⟩
  refine ⟨sound.numbered, sound.apart, sound.queue, sound.listed, ?_, ?_, ?_, placed, ?_, ?_⟩
  · intro worker member task isHeld
    rcases List.mem_or_eq_of_mem_set member with old | rfl
    · exact sound.held worker old task isHeld
    · rw [stillHeld task isHeld]
      exact known
  · intro first second left right leftRecord rightRecord isLeft isRight leftHeld rightHeld same
    have sameId : ∀ task, next.held = some task → task.id = record.id := fun task isHeld =>
      congrArg ConversionJob.id (stillHeld task isHeld)
    rcases found first left isLeft with ⟨rfl, rfl⟩ | ⟨firstOther, oldLeft⟩
    · rcases found second right isRight with ⟨rfl, rfl⟩ | ⟨secondOther, oldRight⟩
      · rfl
      · exact sound.alone first second state right record rightRecord isState oldRight holds
          rightHeld ((sameId leftRecord leftHeld).symm.trans same)
    · rcases found second right isRight with ⟨rfl, rfl⟩ | ⟨secondOther, oldRight⟩
      · exact sound.alone first second left state leftRecord record oldLeft isState leftHeld
          holds (same.trans (sameId rightRecord rightHeld))
      · exact sound.alone first second left right leftRecord rightRecord oldLeft oldRight leftHeld
          rightHeld same
  · intro file member
    exact sound.sources file ((sources file).mp member)
  · intro worker member
    rcases List.mem_iff_getElem?.mp member with ⟨other, isWorker⟩
    rcases found other worker isWorker with ⟨_, rfl⟩ | ⟨different, old⟩
    · exact works
    · have before := sound.works worker (List.mem_of_getElem? old)
      apply Works.same sound.placed isLonger _ before
      intro task isHeld
      exact others _ (sound.output_ne isState old different holds isHeld)
  · intro file member gone
    rcases sound.removed file member fun inSources => gone ((sources file).mpr inSources) with
      ⟨job, isJob, converts, stored⟩
    refine ⟨job, isJob, converts, ?_⟩
    by_cases same : job.output = record.olapParquet
    · have isRecord : job = record.job := by
        by_contra different
        have ids : job.id ≠ record.job.id := by
          intro sameId
          apply different
          have distinct : (system.metadata.jobs.map ConversionJob.id).Nodup := by
            rw [jobs, List.map_map]
            exact sound.numbered.distinct
          exact List.inj_on_of_nodup_map distinct isJob known sameId
        exact (sound.apart job isJob _ known ids).1 same
      rw [isRecord] at stored ⊢
      exact own stored
    · exact stored.same sound.placed (others _ same)

theorem Sound.setWorkerOnly (isState : system.workers[index]? = some state)
    (holds : state.held = some record) {next : WorkerState Record}
    (stillHeld : ∀ task ∈ next.held, task.job = record.job)
    (works : Works original owners system.files next) :
    Sound original owners (ConversionSystem.setWorker index next system) :=
  sound.setWorker isState holds stillHeld (List.prefix_refl _) sound.placed
    (fun path _ => .refl owners path system.files) id works fun _ => Iff.rfl

theorem Sound.take {index : ℕ} (isIdle : system.workers[index]? = some .idle)
    {record : ConversionRecord} {queue : List ConversionRecord}
    (isQueue : system.queue = record :: queue)
    (alone : ∀ worker ∈ system.workers, ∀ task ∈ worker.held, task.id ≠ record.id) :
    Sound original owners
      (ConversionSystem.setWorker index (.taken record) { system with queue := queue }) := by
  have known : record.job ∈ system.metadata.jobs := sound.queue record (by simp [isQueue])
  have inside := (List.getElem?_eq_some_iff.mp isIdle).1
  have found : ∀ (other : ℕ) worker,
      (system.workers.set index (.taken record))[other]? = some worker →
      (other = index ∧ worker = .taken record) ∨ system.workers[other]? = some worker := by
    intro other worker isWorker
    by_cases same : other = index
    · rw [same, List.getElem?_set_self inside] at isWorker
      exact .inl ⟨same, (Option.some.inj isWorker).symm⟩
    · rw [List.getElem?_set_ne fun equal => same equal.symm] at isWorker
      exact .inr isWorker
  refine ⟨sound.numbered, sound.apart, ?_, sound.listed, ?_, ?_, sound.sources, sound.placed, ?_,
    sound.removed⟩
  · intro task isQueued
    apply sound.queue task
    rw [isQueue]
    exact List.mem_cons_of_mem _ isQueued
  · intro worker member task isHeld
    rcases List.mem_or_eq_of_mem_set member with old | rfl
    · exact sound.held worker old task isHeld
    · cases isHeld
      exact known
  · intro first second left right leftRecord rightRecord isLeft isRight leftHeld rightHeld same
    rcases found first left isLeft with ⟨rfl, rfl⟩ | oldLeft
    · rcases found second right isRight with ⟨rfl, rfl⟩ | oldRight
      · rfl
      · cases leftHeld
        exact absurd same.symm (alone right (List.mem_of_getElem? oldRight) rightRecord rightHeld)
    · rcases found second right isRight with ⟨rfl, rfl⟩ | oldRight
      · cases rightHeld
        exact absurd same (alone left (List.mem_of_getElem? oldLeft) leftRecord leftHeld)
      · exact sound.alone first second left right leftRecord rightRecord oldLeft oldRight leftHeld
          rightHeld same
  · intro worker member
    rcases List.mem_or_eq_of_mem_set member with old | rfl
    · exact sound.works worker old
    · trivial

theorem Sound.archive {path : SourcePath}
    (isState : system.workers[index]? = some (.archiving record (path :: sstables)))
    (retentionSecs : ℕ) :
    Sound original owners (ConversionSystem.setWorker index (.archiving record sstables)
      { system with files := system.files.archive retentionSecs path }) := by
  have works := sound.works _ (List.mem_of_getElem? isState)
  have known := sound.held _ (List.mem_of_getElem? isState) record rfl
  have moved : Sound original owners
      (ConversionSystem.setWorker index (.archiving record sstables) system) := by
    apply sound.setWorkerOnly isState rfl
    · intro task isHeld
      cases isHeld
      rfl
    · exact ⟨works.1, fun other member => works.2 other (List.mem_cons_of_mem _ member)⟩
  have placed : (system.files.archive retentionSecs path).Placed owners
      (Expected original system.metadata.jobs) :=
    ⟨sound.placed.length, sound.placed.temporary, sound.placed.parquet⟩
  refine ⟨moved.numbered, moved.apart, moved.queue, moved.listed, moved.held, moved.alone, ?_,
    placed, ?_, ?_⟩
  · intro file member
    exact sound.sources file (List.mem_of_mem_filter member)
  · intro worker member
    have same : ∀ other, system.files.SameAt owners other
        (system.files.archive retentionSecs path) :=
      fun other => ⟨rfl, fun _ isPlace => isPlace, fun _ _ => rfl⟩
    exact (moved.works worker member).same sound.placed (List.prefix_refl _)
      fun task _ => same task.olapParquet
  · intro file member gone
    by_cases before : file ∈ system.files.sources
    · have isPath : file.path = path := by
        by_contra different
        apply gone
        exact List.mem_filter.mpr ⟨before, by simpa using different⟩
      refine ⟨record.job, known, ?_, works.1⟩
      rw [isPath]
      exact works.2 path List.mem_cons_self
    · exact sound.removed file member before

theorem Sound.removeTemporaries :
    ∀ records : List ConversionRecord, Sound original owners { system with
      files := records.foldl (fun files record => files.removeTemporary record.olapParquet)
        system.files } := by
  intro records
  induction records generalizing system with
  | nil => exact sound
  | cons record records induction =>
    rcases sound.placed.removeTemporary record.olapParquet with ⟨placed, same⟩
    have removed : Sound original owners { system with
        files := system.files.removeTemporary record.olapParquet } := by
      refine ⟨sound.numbered, sound.apart, sound.queue, sound.listed, sound.held, sound.alone,
        sound.sources, placed, ?_, ?_⟩
      · intro worker member
        exact (sound.works worker member).same sound.placed (List.prefix_refl _)
          fun task _ => same task.olapParquet
      · intro file member gone
        rcases sound.removed file member gone with ⟨job, isJob, converts, holds⟩
        exact ⟨job, isJob, converts, holds.same sound.placed (same job.output)⟩
    exact induction removed

end

/-! ### Steps -/

theorem Sound.schedulerStep (sound : Sound original owners system) (config : SchedulerConfig)
    (input : ConversionInput) (fresh : SchedulesFresh original system input.now system.scheduler) :
    Sound original owners (system.schedulerStep config input) := by
  have listed := sound.listed
  have known : ∀ record ∈ system.metadata.records, record.job ∈ system.metadata.jobs :=
    fun record member => List.mem_map_of_mem member
  rw [ConversionSystem.schedulerStep]
  cases state : system.scheduler with
  | resting =>
    cases input.failure with
    | none => exact sound.setScheduler (by simp [SchedulerState.listed])
    | some text => exact sound.setScheduler (by simp [SchedulerState.listed])
  | scanning instruments =>
    cases instruments with
    | nil => exact sound.setScheduler (by simp [SchedulerState.listed])
    | cons instrumentId instruments =>
      cases input.failure with
      | none =>
        dsimp only
        split_ifs
        · exact sound.setScheduler (by simp [SchedulerState.listed])
        · exact sound.setScheduler (by simp [SchedulerState.listed])
      | some text => exact sound.setScheduler (by simp [SchedulerState.listed])
  | batching instrumentId batches instruments =>
    cases batches with
    | nil => exact sound.setScheduler (by simp [SchedulerState.listed])
    | cons batch batches =>
      rw [state] at fresh
      have created : Sound original owners
          (system.createConversionTask input instrumentId batch).2 := by
        rw [createConversionTask]
        split_ifs with known
        · exact sound
        · rcases fresh with isPending | isFresh
          · exact absurd isPending known
          · exact (sound.submit input false instrumentId isFresh).1
      dsimp only
      rcases outcome : system.createConversionTask input instrumentId batch with ⟨_ | _, made⟩
      · rw [outcome] at created
        exact created.setScheduler (by simp [SchedulerState.listed])
      · rw [outcome] at created
        exact created.setScheduler (by simp [SchedulerState.listed])
  | collecting =>
    apply sound.setScheduler
    intro record member
    exact known record (List.mem_of_mem_filter (List.mem_of_mem_filter member))
  | retrying records =>
    rw [state] at listed
    cases records with
    | nil => exact sound.setScheduler (by simp [SchedulerState.listed])
    | cons first records =>
      have isKnown : ConversionRecord.job { first with status := .Pending } ∈
          system.metadata.jobs := listed first List.mem_cons_self
      rcases sound.update input isKnown with ⟨updated, jobs, _⟩
      dsimp only
      rcases outcome : system.updateRecord input { first with status := .Pending } with
        ⟨_ | _, after⟩
      · rw [outcome] at updated
        exact updated.setScheduler (by simp [SchedulerState.listed])
      · rw [outcome] at updated jobs
        apply updated.setScheduler
        rw [jobs]
        intro record member
        rcases List.mem_cons.mp member with rfl | later
        · exact isKnown
        · exact listed record (List.mem_cons_of_mem _ later)
  | sending first records =>
    rw [state] at listed
    apply (sound.send (listed first List.mem_cons_self)).setScheduler
    intro record member
    exact listed record (List.mem_cons_of_mem _ member)
  | searching =>
    apply sound.setScheduler
    intro record member
    rcases List.mem_filterMap.mp member with ⟨found, isConverting, buried⟩
    have sameJob : record.job = found.job := by
      simp only [buryZombie] at buried
      split_ifs at buried
      cases buried
      rfl
    rw [sameJob]
    exact known found (List.mem_of_mem_filter isConverting)
  | burying records =>
    rw [state] at listed
    cases records with
    | nil => exact sound.setScheduler (by simp [SchedulerState.listed])
    | cons first records =>
      rcases sound.update input (listed first List.mem_cons_self) with ⟨updated, jobs, _⟩
      dsimp only
      rcases outcome : system.updateRecord input first with ⟨_ | _, after⟩
      · rw [outcome] at updated
        exact updated.setScheduler (by simp [SchedulerState.listed])
      · rw [outcome] at updated jobs
        apply updated.setScheduler
        rw [jobs]
        intro record member
        exact listed record (List.mem_cons_of_mem _ member)
  | cleaning =>
    have removed := sound.removeTemporaries
      (system.metadata.records.filter fun record => record.status = .Failed)
    exact removed.setScheduler (by simp [SchedulerState.listed])

theorem Sound.updateWorker (sound : Sound original owners system)
    (isState : system.workers[index]? = some state) {changed : ConversionRecord}
    (holds : state.held = some record) (sameJob : changed.job = record.job)
    (input : ConversionInput) {next : WorkerState Record}
    (stillHeld : ∀ task ∈ next.held, task.job = record.job)
    (works : Works original owners system.files next) :
    Sound original owners
      (ConversionSystem.setWorker index next (system.updateRecord input changed).2) := by
  have known : changed.job ∈ system.metadata.jobs := by
    rw [sameJob]
    exact sound.held state (List.mem_of_getElem? isState) record holds
  rcases sound.update input known with ⟨updated, _, _, workers, files⟩
  apply updated.setWorkerOnly (workers ▸ isState) holds stillHeld
  rw [files]
  exact works

theorem Sound.entries_of_read (distinct : (original.map SourceFile.path).Nodup)
    (sound : Sound original owners system)
    (read : readSstable input path system.files = .ok entries) :
    entries = entriesAt original path := by
  rw [readSstable] at read
  cases failure : input.failure with
  | some text =>
    rw [failure] at read
    cases read
  | none =>
    rw [failure] at read
    cases found : system.files.findSource path with
    | none =>
      rw [found] at read
      cases read
    | some file =>
      rw [found] at read
      cases read
      have isPath : file.path = path := by
        simpa using List.find?_some found
      have member := sound.sources file (List.mem_of_find?_eq_some found)
      rw [← isPath, entriesAt_of_mem distinct member]

theorem Sound.workerStep [DecidableEq Record] (distinct : (original.map SourceFile.path).Nodup)
    (sound : Sound original owners system) (config : WorkerConfig) (input : ConversionInput)
    (isState : system.workers[index]? = some state)
    (alone : TakesAlone system (some state) system.queue) :
    ∃ longer, Sound original longer (system.workerStep config input index state) := by
  have works := sound.works state (List.mem_of_getElem? isState)
  have leaves : ∀ (record : ConversionRecord) {next : WorkerState Record}, next.held = none →
      ∀ task ∈ next.held, task.job = record.job := by
    intro record next isNone task isHeld
    rw [isNone] at isHeld
    cases isHeld
  have keeps : ∀ {record changed : ConversionRecord} {next : WorkerState Record},
      next.held = some changed → changed.job = record.job →
      ∀ task ∈ next.held, task.job = record.job := by
    intro record changed next isSome sameJob task isHeld
    rw [isSome] at isHeld
    cases isHeld
    exact sameJob
  cases state with
  | idle =>
    rw [ConversionSystem.workerStep]
    cases queue : system.queue with
    | nil => exact ⟨owners, sound⟩
    | cons record rest =>
      rw [queue] at alone
      exact ⟨owners, sound.take isState queue alone⟩
  | taken record =>
    have sameJob : (record.markConverting input.now).job = record.job := rfl
    have stops := sound.updateWorker isState rfl sameJob input (leaves record rfl : ∀ task ∈
      (WorkerState.idle : WorkerState Record).held, task.job = record.job) trivial
    have reads := sound.updateWorker isState rfl sameJob input (keeps rfl sameJob : ∀ task ∈
      (WorkerState.reading (record.markConverting input.now) record.oltpSstables [] :
        WorkerState Record).held, task.job = record.job) ⟨[], rfl, rfl⟩
    rw [ConversionSystem.workerStep]
    rcases outcome : system.updateRecord input (record.markConverting input.now) with
      ⟨_ | _, updated⟩
    · rw [outcome] at stops
      exact ⟨owners, stops⟩
    · rw [outcome] at reads
      exact ⟨owners, reads⟩
  | reading record sstables collected =>
    rcases works with ⟨done, isAppend, isCollected⟩
    cases sstables with
    | nil =>
      rw [ConversionSystem.workerStep]
      split_ifs
      · exact ⟨owners, sound.setWorkerOnly isState rfl (keeps rfl rfl) trivial⟩
      · refine ⟨owners, sound.setWorkerOnly isState rfl (keeps rfl rfl) ?_⟩
        rw [List.append_nil] at isAppend
        rw [Works, isCollected, ConversionJob.rows, ConversionJob.entries,
          ConversionRecord.job, isAppend]
    | cons path sstables =>
      rw [ConversionSystem.workerStep]
      cases read : readSstable input path system.files with
      | error text => exact ⟨owners, sound.setWorkerOnly isState rfl (keeps rfl rfl) trivial⟩
      | ok entries =>
        refine ⟨owners, sound.setWorkerOnly isState rfl (keeps rfl rfl)
          ⟨done ++ [path], by rw [isAppend, List.append_assoc]; rfl, ?_⟩⟩
        rw [isCollected, List.flatMap_append, List.flatMap_singleton,
          sound.entries_of_read distinct read]
  | creating record rows =>
    rw [ConversionSystem.workerStep]
    cases input.failure with
    | none =>
      rcases sound.placed.create record.olapParquet with
        ⟨longer, isLonger, placed, writable, others, own⟩
      refine ⟨longer, sound.setWorker isState rfl (keeps rfl rfl) isLonger placed others
        (own _) ⟨works, writable⟩ ?_⟩
      intro file
      rw [ConversionFiles.create]
      cases system.files.temporary record.olapParquet <;> rfl
    | some text => exact ⟨owners, sound.setWorkerOnly isState rfl (keeps rfl rfl) trivial⟩
  | writing record rows place =>
    rw [ConversionSystem.workerStep]
    cases input.failure with
    | none =>
      rcases works with ⟨isRows, writable⟩
      rcases sound.placed.write writable rows with ⟨placed, written, others, own⟩
      exact ⟨owners, sound.setWorker isState rfl (keeps rfl rfl) (List.prefix_refl _) placed
        others (own _) ⟨isRows, written⟩ fun _ => Iff.rfl⟩
    | some text => exact ⟨owners, sound.setWorkerOnly isState rfl (keeps rfl rfl) trivial⟩
  | moving record rows =>
    rcases works with ⟨isRows, written⟩
    have known := sound.held _ (List.mem_of_getElem? isState) record rfl
    rw [ConversionSystem.workerStep]
    cases input.failure with
    | none =>
      cases renamed : system.files.rename record.olapParquet with
      | none => exact ⟨owners, sound.setWorkerOnly isState rfl (keeps rfl rfl) trivial⟩
      | some files =>
        rcases sound.placed.rename written ⟨record.job, known, rfl, isRows⟩ renamed with
          ⟨placed, holds, others⟩
        rw [isRows] at holds
        refine ⟨owners, sound.setWorker isState rfl (keeps rfl rfl) (List.prefix_refl _)
          placed others (fun _ => holds) holds ?_⟩
        intro file
        rw [ConversionFiles.rename] at renamed
        cases found : system.files.temporary record.olapParquet with
        | none =>
          rw [found] at renamed
          cases renamed
        | some place =>
          rw [found] at renamed
          cases renamed
          rfl
    | some text => exact ⟨owners, sound.setWorkerOnly isState rfl (keeps rfl rfl) trivial⟩
  | finishing record entryCount minTimestamp maxTimestamp =>
    have sameJob : (record.markSuccess input.now entryCount minTimestamp maxTimestamp).job =
        record.job := rfl
    have stops := sound.updateWorker isState rfl sameJob input (leaves record rfl : ∀ task ∈
      (WorkerState.idle : WorkerState Record).held, task.job = record.job) trivial
    have archives := sound.updateWorker isState rfl sameJob input (keeps rfl sameJob : ∀ task ∈
      (WorkerState.archiving (record.markSuccess input.now entryCount minTimestamp maxTimestamp)
        record.oltpSstables : WorkerState Record).held, task.job = record.job)
      ⟨works, fun _ member => member⟩
    rw [ConversionSystem.workerStep]
    rcases outcome : system.updateRecord input
      (record.markSuccess input.now entryCount minTimestamp maxTimestamp) with ⟨_ | _, updated⟩
    · rw [outcome] at stops
      exact ⟨owners, stops⟩
    · rw [outcome] at stops archives
      dsimp only
      split_ifs
      · exact ⟨owners, archives⟩
      · exact ⟨owners, stops⟩
  | failing record error =>
    have sameJob : (record.markFailed input.now error).job = record.job := rfl
    have stops := sound.updateWorker isState rfl sameJob input (leaves record rfl : ∀ task ∈
      (WorkerState.idle : WorkerState Record).held, task.job = record.job) trivial
    have cleans := sound.updateWorker isState rfl sameJob input (keeps rfl sameJob : ∀ task ∈
      (WorkerState.cleaning (record.markFailed input.now error) : WorkerState Record).held,
        task.job = record.job) trivial
    rw [ConversionSystem.workerStep]
    rcases outcome : system.updateRecord input (record.markFailed input.now error) with
      ⟨_ | _, updated⟩
    · rw [outcome] at stops
      exact ⟨owners, stops⟩
    · rw [outcome] at cleans
      exact ⟨owners, cleans⟩
  | cleaning record =>
    rw [ConversionSystem.workerStep]
    cases input.failure with
    | none =>
      rcases sound.placed.removeTemporary record.olapParquet with ⟨placed, same⟩
      exact ⟨owners, sound.setWorker isState rfl (leaves record rfl) (List.prefix_refl _) placed
        (fun path _ => same path) (fun holds => holds.same sound.placed (same _)) trivial
        fun _ => Iff.rfl⟩
    | some text =>
      exact ⟨owners, sound.setWorkerOnly isState rfl (leaves record rfl) trivial⟩
  | archiving record sstables =>
    cases sstables with
    | nil => exact ⟨owners, sound.setWorkerOnly isState rfl (leaves record rfl) trivial⟩
    | cons path sstables =>
      rw [ConversionSystem.workerStep]
      cases input.failure with
      | none => exact ⟨owners, sound.archive isState config.sourceRetentionSecs⟩
      | some text =>
        exact ⟨owners, sound.setWorkerOnly isState rfl (keeps rfl rfl)
          ⟨works.1, fun other member => works.2 other (List.mem_cons_of_mem _ member)⟩⟩

theorem Sound.restart (sound : Sound original owners system)
    (saved : system.saved = system.metadata) (config : WorkerConfig) :
    Sound original owners (system.restart config) := by
  have idle : ∀ worker ∈ List.replicate config.workerCount (WorkerState.idle : WorkerState Record),
      worker = .idle := fun worker member => List.eq_of_mem_replicate member
  rw [ConversionSystem.restart, saved]
  refine ⟨sound.numbered, sound.apart, by simp, by simp [SchedulerState.listed], ?_, ?_,
    sound.sources, sound.placed, ?_, sound.removed⟩
  · intro worker member record isHeld
    rw [idle worker member] at isHeld
    cases isHeld
  · intro first second left right leftRecord rightRecord isLeft isRight leftHeld
    rw [idle left (List.mem_of_getElem? isLeft)] at leftHeld
    cases leftHeld
  · intro worker member
    rw [idle worker member]
    trivial

theorem Sound.nextTurn [DecidableEq Record] (distinct : (original.map SourceFile.path).Nodup)
    (sound : Sound original owners system) (scheduler : SchedulerConfig) (worker : WorkerConfig)
    (separate : Separate original system turn) :
    ∃ longer, Sound original longer (next scheduler worker system turn) := by
  cases turn with
  | scheduler input => exact ⟨owners, sound.schedulerStep scheduler input separate⟩
  | worker input index =>
    rw [next]
    cases isState : system.workers[index]? with
    | none => exact ⟨owners, sound⟩
    | some state =>
      rw [Separate, isState] at separate
      exact sound.workerStep distinct worker input isState separate
  | trigger input instrumentId sstables =>
    exact ⟨owners, (sound.submit input true instrumentId separate).1⟩
  | restart => exact ⟨owners, sound.restart separate worker⟩

theorem Sound.nothingLost (distinct : (original.map SourceFile.path).Nodup)
    (sound : Sound original owners system) : NothingLost original system where
  contained := by
    intro file member gone entry inFile
    rcases sound.removed file member gone with ⟨job, _, converts, holds⟩
    refine ⟨job.output, job.rows original, holds, ?_⟩
    rw [ConversionJob.mem_rows, ConversionJob.entries, List.mem_flatMap]
    refine ⟨file.path, converts, ?_⟩
    rw [entriesAt_of_mem distinct member]
    exact inFile
  once := by
    have fromJob : ∀ path rows, system.files.Holds path rows →
        Expected original system.metadata.jobs path rows := by
      rintro path rows ⟨place, isPlace, whole⟩
      rcases sound.placed.parquet path place isPlace with ⟨_, expected, isExpected, same⟩
      rw [whole] at same
      cases same
      exact isExpected
    intro entry first second firstRows secondRows holdsFirst holdsSecond inFirst inSecond
    rcases fromJob first firstRows holdsFirst with ⟨left, isLeft, rfl, rfl⟩
    rcases fromJob second secondRows holdsSecond with ⟨right, isRight, rfl, rfl⟩
    rw [ConversionJob.mem_rows] at inFirst inSecond
    have sameId : left.id = right.id := by
      by_contra different
      exact (sound.apart left isLeft right isRight different).2 entry inFirst inSecond
    have ids : (system.metadata.jobs.map ConversionJob.id).Nodup := by
      rw [jobs, List.map_map]
      exact sound.numbered.distinct
    rw [List.inj_on_of_nodup_map ids isLeft isRight sameId]

end Sound

theorem sound_begun (worker : WorkerConfig) (instruments : List String)
    (sources : List (SourceFile Record)) : Sound sources [] (begun worker instruments sources) := by
  have nothing : ((begun worker instruments sources).metadata.jobs) = [] := rfl
  have idle : ∀ state ∈ (begun worker instruments sources).workers, state = .idle :=
    fun state member => List.eq_of_mem_replicate member
  refine ⟨numbered_new, ?_, by simp [begun], by simp [begun, SchedulerState.listed], ?_, ?_,
    fun file member => member, ⟨rfl, by simp [begun], by simp [begun]⟩, ?_, ?_⟩
  · rw [nothing]
    simp
  · intro state member record isHeld
    rw [idle state member] at isHeld
    cases isHeld
  · intro first second left right leftRecord rightRecord isLeft isRight leftHeld
    rw [idle left (List.mem_of_getElem? isLeft)] at leftHeld
    cases leftHeld
  · intro state member
    rw [idle state member]
    trivial
  · intro file member gone
    exact absurd member gone

/-- A batch for every SSTable, which may be new. -/
def singleBatches : SchedulerConfig where
  minSstablesPerBatch := 1
  maxSstablesPerBatch := 1
  minSstableAgeSecs := 0
  maxRetries := 5
  zombieTimeoutSecs := 3600

def schedulerTurns (count : ℕ) : List Turn :=
  List.replicate count (.scheduler ⟨100, none, false⟩)

/-- The turns in which a worker converts a task of one SSTable. -/
def workerTurns : List Turn :=
  List.replicate 10 (.worker ⟨100, none, false⟩ 0)

/-- The only SSTable is archived after its conversion. -/
def convertOne : ConversionSystem Unit :=
  run singleBatches .default (schedulerTurns 5 ++ workerTurns)
    (begun .default ["cu2501"] (smallSources [1]))

/-- Two batches of one scan, which have the same output. -/
def convertTwo : ConversionSystem Unit :=
  run singleBatches .default (schedulerTurns 6 ++ workerTurns ++ workerTurns)
    (begun .default ["cu2501"] (smallSources [1, 2]))

end ConversionSystem

end QAExchange
