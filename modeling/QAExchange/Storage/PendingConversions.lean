import QAExchange.Foundation.Runs
import QAExchange.Storage.Conversion

/-! # Pending conversions

A record with status Pending keeps further tasks for its files from being created, so its
own task has to be somewhere. The queue is lost in a crash, and neither of the scans of the
scheduler looks for Pending records.
-/

namespace QAExchange

open Foundation

variable {Record : Type}

def WorkerState.held : WorkerState Record → Option ConversionRecord
  | .idle => none
  | .taken record | .reading record .. | .creating record _ | .writing record .. |
    .moving record _ | .finishing record .. | .failing record _ | .cleaning record |
    .archiving record _ => some record

namespace ConversionSystem

/-! ## Orphans -/

def Queued (system : ConversionSystem Record) (id : ℕ) : Prop :=
  ∃ task ∈ system.queue, task.id = id

def InHands (system : ConversionSystem Record) (id : ℕ) : Prop :=
  ∃ worker ∈ system.workers, ∃ task ∈ worker.held, task.id = id

def PutBack (config : SchedulerConfig) (system : ConversionSystem Record) (id : ℕ) : Prop :=
  ∃ inputs : List ConversionInput, Queued (inputs.foldl (fun current input =>
    schedulerStep config input current) system) id

def NoOrphans (config : SchedulerConfig) (system : ConversionSystem Record) : Prop :=
  ∀ record ∈ system.metadata.records, record.status = .Pending →
    Queued system record.id ∨ InHands system record.id ∨ PutBack config system record.id

def AboutToSubmit : SchedulerState → Prop
  | .batching _ (_ :: _) _ | .retrying (_ :: _) => True
  | _ => False

def KeepsTasks (system : ConversionSystem Record) : Turn → Prop
  | .scheduler input => AboutToSubmit system.scheduler → input.failure = none
  | .worker .. => True
  | .trigger input _ _ => input.failure = none
  | .restart => ∀ record ∈ system.saved.records, record.status ≠ .Pending

instance decidableAboutToSubmit : ∀ state, Decidable (AboutToSubmit state)
  | .batching _ (_ :: _) _ | .retrying (_ :: _) => .isTrue trivial
  | .batching _ [] _ | .retrying [] | .resting | .scanning _ | .collecting | .sending _ _
  | .searching | .burying _ | .cleaning => .isFalse id

instance decidableKeepsTasks (system : ConversionSystem Record) :
    ∀ turn, Decidable (KeepsTasks system turn)
  | .scheduler input =>
    inferInstanceAs (Decidable (AboutToSubmit system.scheduler → input.failure = none))
  | .worker .. => .isTrue trivial
  | .trigger input _ _ => inferInstanceAs (Decidable (input.failure = none))
  | .restart => inferInstanceAs (Decidable (∀ record ∈ system.saved.records, _))

end ConversionSystem

namespace ConversionMetadata

structure Numbered (metadata : ConversionMetadata) : Prop where
  distinct : (metadata.records.map ConversionRecord.id).Nodup
  below : ∀ record ∈ metadata.records, record.id < metadata.nextId

theorem numbered_new : Numbered .new where
  distinct := .nil
  below := by simp [new]

theorem Numbered.addRecord {metadata : ConversionMetadata} (numbered : metadata.Numbered)
    (record : ConversionRecord) (isNext : record.id = metadata.nextId) :
    (metadata.addRecord record).Numbered where
  distinct := by
    rw [ConversionMetadata.addRecord, List.map_append, List.nodup_append]
    refine ⟨numbered.distinct, by simp, ?_⟩
    intro id old other isNew
    rcases List.mem_map.mp old with ⟨known, member, rfl⟩
    have smaller := numbered.below known member
    simp only [List.map_cons, List.map_nil, List.mem_singleton] at isNew
    omega
  below := by
    intro other member
    rcases List.mem_append.mp member with old | isNew
    · have smaller := numbered.below other old
      exact Nat.lt_succ_of_lt smaller
    · rw [List.mem_singleton.mp isNew, isNext]
      exact Nat.lt_succ_self _

theorem map_id_replaceFirst (record : ConversionRecord) (records : List ConversionRecord) :
    (replaceFirst record records).map ConversionRecord.id = records.map ConversionRecord.id := by
  induction records with
  | nil => rfl
  | cons first rest induction =>
    rw [replaceFirst]
    split_ifs with same
    · rw [List.map_cons, List.map_cons, same]
    · rw [List.map_cons, List.map_cons, induction]

theorem mem_replaceFirst {records : List ConversionRecord}
    (distinct : (records.map ConversionRecord.id).Nodup)
    (member : other ∈ replaceFirst record records) :
    other = record ∨ other ∈ records ∧ other.id ≠ record.id := by
  induction records with
  | nil => cases member
  | cons first rest induction =>
    rw [List.map_cons, List.nodup_cons] at distinct
    rw [replaceFirst] at member
    split_ifs at member with same
    · rcases List.mem_cons.mp member with isRecord | later
      · exact .inl isRecord
      · right
        refine ⟨List.mem_cons_of_mem _ later, ?_⟩
        intro equal
        apply distinct.1
        rw [same, ← equal]
        exact List.mem_map_of_mem later
    · rcases List.mem_cons.mp member with rfl | later
      · exact .inr ⟨List.mem_cons_self, same⟩
      · exact (induction distinct.2 later).imp_right fun found =>
          ⟨List.mem_cons_of_mem _ found.1, found.2⟩

theorem Numbered.replace {metadata : ConversionMetadata} (numbered : metadata.Numbered)
    (record : ConversionRecord) :
    Numbered { metadata with records := replaceFirst record metadata.records } where
  distinct := by
    rw [map_id_replaceFirst]
    exact numbered.distinct
  below := by
    intro other member
    have sameId : other.id ∈ metadata.records.map ConversionRecord.id := by
      rw [← map_id_replaceFirst record]
      exact List.mem_map_of_mem member
    rcases List.mem_map.mp sameId with ⟨known, isKnown, same⟩
    rw [← same]
    exact numbered.below known isKnown

theorem replaceFirst_of_unknown {record : ConversionRecord} {records : List ConversionRecord}
    (unknown : ¬ ∃ known ∈ records, known.id = record.id) :
    replaceFirst record records = records := by
  induction records with
  | nil => rfl
  | cons first rest induction =>
    have different : first.id ≠ record.id := fun same => unknown ⟨first, by simp, same⟩
    rw [replaceFirst, if_neg different, induction]
    rintro ⟨known, member, same⟩
    exact unknown ⟨known, List.mem_cons_of_mem _ member, same⟩

end ConversionMetadata

namespace ConversionSystem

/-! ## Tasks of Pending records -/

def Waiting (system : ConversionSystem Record) (id : ℕ) : Prop :=
  Queued system id ∨ (∃ task, .taken task ∈ system.workers ∧ task.id = id) ∨
    ∃ task records, system.scheduler = .sending task records ∧ task.id = id

/-- The scheduler buries only records that are not Pending. -/
def Buries (state : SchedulerState) : Prop :=
  ∀ records, state = .burying records → ∀ record ∈ records, record.status ≠ .Pending

structure Tended (system : ConversionSystem Record) : Prop where
  numbered : system.metadata.Numbered
  saved : system.saved.Numbered
  waiting : ∀ record ∈ system.metadata.records, record.status = .Pending →
    Waiting system record.id
  buries : Buries system.scheduler

section Tended

variable {system after : ConversionSystem Record}

theorem Waiting.next {id : ℕ} (waiting : Waiting system id)
    (queue : ∀ task ∈ system.queue, task ∈ after.queue ∨ .taken task ∈ after.workers)
    (workers : ∀ task, .taken task ∈ system.workers → .taken task ∈ after.workers ∨ task.id ≠ id)
    (scheduler : ∀ task records, system.scheduler = .sending task records →
      after.scheduler = .sending task records ∨ task ∈ after.queue) : Waiting after id := by
  rcases waiting with ⟨task, isQueued, same⟩ | ⟨task, isTaken, same⟩ | ⟨task, records, sends, same⟩
  · rcases queue task isQueued with stays | isTaken
    · exact .inl ⟨task, stays, same⟩
    · exact .inr (.inl ⟨task, isTaken, same⟩)
  · rcases workers task isTaken with stays | different
    · exact .inr (.inl ⟨task, stays, same⟩)
    · exact absurd same different
  · rcases scheduler task records sends with stays | isQueued
    · exact .inr (.inr ⟨task, records, stays, same⟩)
    · exact .inl ⟨task, isQueued, same⟩

theorem updateRecord_spec (input : ConversionInput) (record : ConversionRecord)
    (system : ConversionSystem Record) :
    let changed := { system.metadata with
      records := ConversionMetadata.replaceFirst record system.metadata.records }
    ∃ saved, (saved = system.saved ∨ saved = changed) ∧
      (system.updateRecord input record).2 = { system with metadata := changed, saved := saved } := by
  intro changed
  rw [updateRecord]
  split_ifs with known
  · rw [save]
    cases input.failure with
    | none => exact ⟨changed, .inr rfl, rfl⟩
    | some text => exact ⟨system.saved, .inl rfl, rfl⟩
  · refine ⟨system.saved, .inl rfl, ?_⟩
    have same : changed = system.metadata := by
      simp only [changed, ConversionMetadata.replaceFirst_of_unknown known]
    rw [same]

variable {record : ConversionRecord}

/-- An update with a working disk fails only for an unknown record. -/
theorem updateRecord_eq_false {input : ConversionInput} (saves : input.failure = none)
    (outcome : system.updateRecord input record = (false, after)) : after = system := by
  rw [updateRecord] at outcome
  split_ifs at outcome
  · simp only [save, saves] at outcome
    cases outcome
  · cases outcome
    rfl

theorem Tended.update (tended : Tended system) (input : ConversionInput)
    (record : ConversionRecord) :
    let updated := (system.updateRecord input record).2
    updated.metadata.Numbered ∧ updated.saved.Numbered ∧
      (∀ other ∈ updated.metadata.records, other = record ∨
        other ∈ system.metadata.records ∧ other.id ≠ record.id) ∧
      updated.queue = system.queue ∧ updated.workers = system.workers ∧
      updated.scheduler = system.scheduler := by
  intro updated
  rcases updateRecord_spec input record system with ⟨saved, isSaved, same⟩
  have numbered := tended.numbered.replace record
  have isUpdated : updated = _ := same
  rw [isUpdated]
  refine ⟨numbered, ?_, ?_, rfl, rfl, rfl⟩
  · rcases isSaved with rfl | rfl
    · exact tended.saved
    · exact numbered
  · intro other member
    exact ConversionMetadata.mem_replaceFirst tended.numbered.distinct member

theorem Tended.unchanged (tended : Tended system) (metadata : after.metadata = system.metadata)
    (saved : after.saved = system.saved)
    (waiting : ∀ id, Waiting system id → Waiting after id) (buries : Buries after.scheduler) :
    Tended after where
  numbered := metadata ▸ tended.numbered
  saved := saved ▸ tended.saved
  waiting := by
    rw [metadata]
    intro record member pending
    exact waiting record.id (tended.waiting record member pending)
  buries := buries

theorem Tended.submit (tended : Tended system) {input : ConversionInput}
    (saves : input.failure = none) (manual : Bool) (instrumentId : String)
    (sstables : List SourcePath) : Tended (system.submit input manual instrumentId sstables).2 := by
  rw [ConversionSystem.submit]
  split_ifs with noDirectory
  · exact tended
  · simp only [save, saves]
    have numbered := tended.numbered.addRecord (ConversionRecord.new input.now
      system.metadata.nextId instrumentId sstables ⟨instrumentId, manual, input.now⟩) rfl
    refine ⟨numbered, numbered, ?_, tended.buries⟩
    intro record member pending
    rcases List.mem_append.mp member with old | isNew
    · apply (tended.waiting record old pending).next
      · intro task isQueued
        exact .inl (List.mem_append_left _ isQueued)
      · intro task isTaken
        exact .inl isTaken
      · intro task records sends
        exact .inl sends
    · rw [List.mem_singleton.mp isNew]
      exact .inl ⟨_, List.mem_append_right _ List.mem_cons_self, rfl⟩

theorem Tended.setScheduler (tended : Tended system)
    (sent : ∀ task records, system.scheduler ≠ .sending task records) {state : SchedulerState}
    (buries : Buries state) : Tended { system with scheduler := state } := by
  refine Tended.unchanged tended rfl rfl ?_ buries
  intro id waiting
  apply waiting.next
  · intro task isQueued
    exact .inl isQueued
  · intro task isTaken
    exact .inl isTaken
  · intro task records sends
    exact absurd sends (sent task records)

theorem Tended.settle (tended : Tended system) (input : ConversionInput)
    (settled : record.status ≠ .Pending) : Tended (system.updateRecord input record).2 := by
  rcases tended.update input record with ⟨numbered, saved, members, queue, workers, scheduler⟩
  refine ⟨numbered, saved, ?_, scheduler ▸ tended.buries⟩
  intro other member pending
  rcases members other member with rfl | ⟨old, _⟩
  · exact absurd pending settled
  · apply (tended.waiting other old pending).next
    · intro task isQueued
      exact .inl (queue ▸ isQueued)
    · intro task isTaken
      exact .inl (workers ▸ isTaken)
    · intro task records sends
      exact .inl (scheduler ▸ sends)

theorem buryZombie_failed {config : SchedulerConfig} {now : ℤ} {zombie : ConversionRecord}
    (buried : buryZombie config now record = some zombie) : zombie.status ≠ .Pending := by
  simp only [buryZombie] at buried
  split_ifs at buried
  cases buried
  simp [ConversionRecord.markFailed]

theorem Tended.retry (tended : Tended system)
    (sent : ∀ task records, system.scheduler ≠ .sending task records) (input : ConversionInput)
    (record : ConversionRecord) (records : List ConversionRecord) :
    Tended { (system.updateRecord input record).2 with
      scheduler := .sending record records } := by
  rcases tended.update input record with ⟨numbered, saved, members, queue, workers, scheduler⟩
  refine ⟨numbered, saved, ?_, by simp [Buries]⟩
  intro other member pending
  rcases members other member with rfl | ⟨old, _⟩
  · exact .inr (.inr ⟨other, records, rfl, rfl⟩)
  · apply (tended.waiting other old pending).next
    · intro task isQueued
      exact .inl (queue ▸ isQueued)
    · intro task isTaken
      exact .inl (workers ▸ isTaken)
    · intro task rest sends
      exact absurd sends (sent task rest)

theorem Tended.schedulerStep (tended : Tended system) (config : SchedulerConfig)
    (input : ConversionInput) (saves : AboutToSubmit system.scheduler → input.failure = none) :
    Tended (system.schedulerStep config input) := by
  have quiet : ∀ {state : SchedulerState}, (∀ records, state ≠ .burying records) →
      Buries state := fun other records isBurying => absurd isBurying (other records)
  cases state : system.scheduler with
  | resting =>
    rw [ConversionSystem.schedulerStep, state]
    cases input.failure with
    | none => exact tended.setScheduler (by simp [state]) (quiet (by simp))
    | some text => exact tended.setScheduler (by simp [state]) (quiet (by simp))
  | scanning instruments =>
    cases instruments with
    | nil =>
      rw [ConversionSystem.schedulerStep, state]
      exact tended.setScheduler (by simp [state]) (quiet (by simp))
    | cons instrumentId instruments =>
      rw [ConversionSystem.schedulerStep, state]
      cases input.failure with
      | none =>
        dsimp only
        split_ifs
        · exact tended.setScheduler (by simp [state]) (quiet (by simp))
        · exact tended.setScheduler (by simp [state]) (quiet (by simp))
      | some text => exact tended.setScheduler (by simp [state]) (quiet (by simp))
  | batching instrumentId batches instruments =>
    cases batches with
    | nil =>
      rw [ConversionSystem.schedulerStep, state]
      exact tended.setScheduler (by simp [state]) (quiet (by simp))
    | cons batch batches =>
      have saved : input.failure = none := saves (by simp [state, AboutToSubmit])
      have created : Tended (system.createConversionTask input instrumentId batch).2 ∧
          (system.createConversionTask input instrumentId batch).2.scheduler =
            system.scheduler := by
        rw [createConversionTask]
        split_ifs
        · exact ⟨tended, rfl⟩
        · refine ⟨tended.submit saved false instrumentId batch, ?_⟩
          rw [ConversionSystem.submit]
          split_ifs
          · rfl
          · simp only [save, saved]
            rfl
      rw [ConversionSystem.schedulerStep, state]
      dsimp only
      rcases outcome : system.createConversionTask input instrumentId batch with ⟨_ | _, made⟩
      · rw [outcome] at created
        have same : made.scheduler = _ := created.2.trans state
        exact created.1.setScheduler (by simp [same]) (quiet (by simp))
      · rw [outcome] at created
        have same : made.scheduler = _ := created.2.trans state
        exact created.1.setScheduler (by simp [same]) (quiet (by simp))
  | collecting =>
    rw [ConversionSystem.schedulerStep, state]
    exact tended.setScheduler (by simp [state]) (quiet (by simp))
  | retrying records =>
    cases records with
    | nil =>
      rw [ConversionSystem.schedulerStep, state]
      exact tended.setScheduler (by simp [state]) (quiet (by simp))
    | cons record records =>
      have saved : input.failure = none := saves (by simp [state, AboutToSubmit])
      have retried := tended.retry (by simp [state]) input { record with status := .Pending }
        records
      rw [ConversionSystem.schedulerStep, state]
      dsimp only
      rcases outcome : system.updateRecord input { record with status := .Pending } with
        ⟨_ | _, updated⟩
      · rw [updateRecord_eq_false saved outcome]
        exact tended.setScheduler (by simp [state]) (quiet (by simp))
      · rw [outcome] at retried
        exact retried
  | sending record records =>
    rw [ConversionSystem.schedulerStep, state]
    refine Tended.unchanged tended rfl rfl ?_ (quiet (by simp))
    intro id waiting
    apply waiting.next
    · intro task isQueued
      exact .inl (List.mem_append_left _ isQueued)
    · intro task isTaken
      exact .inl isTaken
    · intro task rest sends
      rw [state] at sends
      cases sends
      exact .inr (List.mem_append_right _ List.mem_cons_self)
  | searching =>
    rw [ConversionSystem.schedulerStep, state]
    apply tended.setScheduler (by simp [state])
    intro records isBurying record member
    cases isBurying
    rcases List.mem_filterMap.mp member with ⟨found, _, buried⟩
    exact buryZombie_failed buried
  | burying records =>
    cases records with
    | nil =>
      rw [ConversionSystem.schedulerStep, state]
      exact tended.setScheduler (by simp [state]) (quiet (by simp))
    | cons record records =>
      have failed := tended.buries (record :: records) state
      have settled := tended.settle input (failed record List.mem_cons_self)
      have kept := (tended.update input record).2.2.2.2.2
      have rest : Buries (.burying records) := by
        intro others isBurying other member
        cases isBurying
        exact failed other (List.mem_cons_of_mem _ member)
      rw [ConversionSystem.schedulerStep, state]
      dsimp only
      rcases outcome : system.updateRecord input record with ⟨_ | _, updated⟩
      · rw [outcome] at settled kept
        have same : updated.scheduler = _ := kept.trans state
        exact settled.setScheduler (by simp [same]) (quiet (by simp))
      · rw [outcome] at settled kept
        have same : updated.scheduler = _ := kept.trans state
        exact settled.setScheduler (by simp [same]) rest
  | cleaning =>
    rw [ConversionSystem.schedulerStep, state]
    refine Tended.unchanged tended rfl rfl ?_ (quiet (by simp))
    intro id waiting
    apply waiting.next
    · intro task isQueued
      exact .inl isQueued
    · intro task isTaken
      exact .inl isTaken
    · intro task rest sends
      rw [state] at sends
      cases sends

/-! ### Workers -/

variable {index : ℕ} {old : WorkerState Record}

theorem taken_mem_set {workers : List (WorkerState Record)} {state : WorkerState Record}
    (isOld : workers[index]? = some old) {task : ConversionRecord} (isTaken : .taken task ∈ workers)
    : .taken task ∈ workers.set index state ∨ old = .taken task := by
  rcases List.mem_iff_getElem?.mp isTaken with ⟨place, found⟩
  by_cases same : index = place
  · subst same
    rw [isOld] at found
    exact .inr (Option.some.inj found)
  · left
    apply List.mem_iff_getElem?.mpr
    exact ⟨place, by rw [List.getElem?_set_ne same, found]⟩

theorem Tended.setWorker (tended : Tended system) (isOld : system.workers[index]? = some old)
    (busy : ∀ task, old ≠ .taken task) (state : WorkerState Record)
    (files : ConversionFiles Record) :
    Tended (setWorker index state { system with files := files }) := by
  refine Tended.unchanged tended rfl rfl ?_ tended.buries
  intro id waiting
  apply waiting.next
  · intro task isQueued
    exact .inl isQueued
  · intro task isTaken
    rcases taken_mem_set isOld isTaken with stays | isTask
    · exact .inl stays
    · exact absurd isTask (busy task)
  · intro task records sends
    exact .inl sends

theorem Tended.settleWorker (tended : Tended system) (isOld : system.workers[index]? = some old)
    (input : ConversionInput) (settled : record.status ≠ .Pending)
    (own : ∀ task, old = .taken task → task.id = record.id) (state : WorkerState Record) :
    Tended ((system.updateRecord input record).2.setWorker index state) := by
  rcases tended.update input record with ⟨numbered, saved, members, queue, workers, scheduler⟩
  refine ⟨numbered, saved, ?_, scheduler ▸ tended.buries⟩
  intro other member pending
  rcases members other member with rfl | ⟨isOther, different⟩
  · exact absurd pending settled
  · apply (tended.waiting other isOther pending).next
    · intro task isQueued
      exact .inl (queue ▸ isQueued)
    · intro task isTaken
      rcases taken_mem_set isOld isTaken with stays | isTask
      · left
        change _ ∈ (system.updateRecord input record).2.workers.set index state
        rw [workers]
        exact stays
      · exact .inr fun same => different (same.symm.trans (own task isTask))
    · intro task records sends
      exact .inl (scheduler.trans sends)

theorem Tended.workerStep [DecidableEq Record] (tended : Tended system) (config : WorkerConfig)
    (input : ConversionInput) {state : WorkerState Record}
    (isState : system.workers[index]? = some state) :
    Tended (system.workerStep config input index state) := by
  cases state with
  | idle =>
    rw [ConversionSystem.workerStep]
    cases queue : system.queue with
    | nil => exact tended
    | cons record rest =>
      refine Tended.unchanged tended rfl rfl ?_ tended.buries
      intro id waiting
      apply waiting.next
      · intro task isQueued
        rw [queue] at isQueued
        rcases List.mem_cons.mp isQueued with rfl | later
        · have inside := (List.getElem?_eq_some_iff.mp isState).1
          exact .inr (List.mem_set inside _)
        · exact .inl later
      · intro task isTaken
        rcases taken_mem_set isState isTaken with stays | isTask
        · exact .inl stays
        · cases isTask
      · intro task records sends
        exact .inl sends
  | taken record =>
    have settled : (record.markConverting input.now).status ≠ .Pending := by
      simp [ConversionRecord.markConverting]
    have own : ∀ task, WorkerState.taken record = (.taken task : WorkerState Record) →
        task.id = (record.markConverting input.now).id := by
      intro task same
      cases same
      rfl
    have step := tended.settleWorker isState input settled own
    rw [ConversionSystem.workerStep]
    rcases outcome : system.updateRecord input (record.markConverting input.now) with
      ⟨_ | _, updated⟩
    · rw [outcome] at step
      exact step _
    · rw [outcome] at step
      exact step _
  | reading record sstables collected =>
    cases sstables with
    | nil =>
      rw [ConversionSystem.workerStep]
      split_ifs
      · exact tended.setWorker isState (by simp) _ _
      · exact tended.setWorker isState (by simp) _ _
    | cons path sstables =>
      rw [ConversionSystem.workerStep]
      cases readSstable input path system.files with
      | ok entries => exact tended.setWorker isState (by simp) _ _
      | error text => exact tended.setWorker isState (by simp) _ _
  | creating record rows =>
    rw [ConversionSystem.workerStep]
    cases input.failure with
    | none => exact tended.setWorker isState (by simp) _ _
    | some text => exact tended.setWorker isState (by simp) _ _
  | writing record rows place =>
    rw [ConversionSystem.workerStep]
    cases input.failure with
    | none => exact tended.setWorker isState (by simp) _ _
    | some text => exact tended.setWorker isState (by simp) _ _
  | moving record rows =>
    rw [ConversionSystem.workerStep]
    cases input.failure with
    | none =>
      cases system.files.rename record.olapParquet with
      | none => exact tended.setWorker isState (by simp) _ _
      | some files => exact tended.setWorker isState (by simp) _ _
    | some text => exact tended.setWorker isState (by simp) _ _
  | finishing record entryCount minTimestamp maxTimestamp =>
    have settled : (record.markSuccess input.now entryCount minTimestamp maxTimestamp).status ≠
        .Pending := by
      simp [ConversionRecord.markSuccess]
    have step := tended.settleWorker isState input settled (by simp)
    rw [ConversionSystem.workerStep]
    rcases outcome : system.updateRecord input
      (record.markSuccess input.now entryCount minTimestamp maxTimestamp) with ⟨_ | _, updated⟩
    · rw [outcome] at step
      exact step _
    · rw [outcome] at step
      exact step _
  | failing record error =>
    have settled : (record.markFailed input.now error).status ≠ .Pending := by
      simp [ConversionRecord.markFailed]
    have step := tended.settleWorker isState input settled (by simp)
    rw [ConversionSystem.workerStep]
    rcases outcome : system.updateRecord input (record.markFailed input.now error) with
      ⟨_ | _, updated⟩
    · rw [outcome] at step
      exact step _
    · rw [outcome] at step
      exact step _
  | cleaning record =>
    rw [ConversionSystem.workerStep]
    cases input.failure with
    | none => exact tended.setWorker isState (by simp) _ _
    | some text => exact tended.setWorker isState (by simp) _ _
  | archiving record sstables =>
    cases sstables with
    | nil => exact tended.setWorker isState (by simp) _ _
    | cons path sstables =>
      rw [ConversionSystem.workerStep]
      cases input.failure with
      | none => exact tended.setWorker isState (by simp) _ _
      | some text => exact tended.setWorker isState (by simp) _ _

theorem Tended.nextTurn [DecidableEq Record] (tended : Tended system) (scheduler : SchedulerConfig)
    (worker : WorkerConfig) (keeps : KeepsTasks system turn) :
    Tended (system.next scheduler worker turn) := by
  cases turn with
  | scheduler input => exact tended.schedulerStep scheduler input keeps
  | worker input index =>
    rw [ConversionSystem.next]
    cases found : system.workers[index]? with
    | none => exact tended
    | some state => exact tended.workerStep worker input found
  | trigger input instrumentId sstables => exact tended.submit keeps true instrumentId sstables
  | restart =>
    refine ⟨tended.saved, tended.saved, ?_, by simp [ConversionSystem.next, restart, Buries]⟩
    intro record member pending
    exact absurd pending (keeps record member)

theorem Tended.noOrphans (tended : Tended system) (config : SchedulerConfig) :
    NoOrphans config system := by
  intro record member pending
  rcases tended.waiting record member pending with
    queued | ⟨task, isTaken, same⟩ | ⟨task, records, sends, same⟩
  · exact .inl queued
  · exact .inr (.inl ⟨.taken task, isTaken, task, rfl, same⟩)
  · refine .inr (.inr ⟨[⟨0, none, false⟩], task, ?_, same⟩)
    rw [List.foldl_cons, List.foldl_nil, ConversionSystem.schedulerStep, sends]
    exact List.mem_append_right _ List.mem_cons_self

end Tended

theorem tended_begun (config : WorkerConfig) (instruments : List String)
    (sources : List (SourceFile Record)) : Tended (begun config instruments sources) where
  numbered := ConversionMetadata.numbered_new
  saved := ConversionMetadata.numbered_new
  waiting := by simp [begun, ConversionMetadata.new]
  buries := by simp [begun, Buries]

/-- As long as no crash finds a Pending record saved, and records that become Pending are
saved, no Pending record is without its task. -/
theorem noOrphans_run [DecidableEq Record] (scheduler : SchedulerConfig) (worker : WorkerConfig)
    (instruments : List String) (sources : List (SourceFile Record)) {turns : List Turn}
    (keeps : Along (next scheduler worker) KeepsTasks turns (begun worker instruments sources)) :
    NoOrphans scheduler (run scheduler worker turns (begun worker instruments sources)) := by
  have tended : Tended (run scheduler worker turns (begun worker instruments sources)) :=
    foldl_along Tended (fun system turn holds allowed => holds.nextTurn scheduler worker allowed)
      keeps (tended_begun worker instruments sources)
  exact tended.noOrphans scheduler

/-! ## Orphans stay -/

end ConversionSystem

def SchedulerState.listed : SchedulerState → List ConversionRecord
  | .retrying records | .burying records => records
  | .sending record records => record :: records
  | .resting | .scanning _ | .batching .. | .collecting | .searching | .cleaning => []

namespace ConversionMetadata

theorem mem_replaceFirst_of_ne {record other : ConversionRecord}
    {records : List ConversionRecord} (member : other ∈ records) (different : other.id ≠ record.id) :
    other ∈ replaceFirst record records := by
  induction records with
  | nil => cases member
  | cons first rest induction =>
    rw [replaceFirst]
    split_ifs with same
    · rcases List.mem_cons.mp member with rfl | later
      · exact absurd same different
      · exact List.mem_cons_of_mem _ later
    · rcases List.mem_cons.mp member with rfl | later
      · exact List.mem_cons_self
      · exact List.mem_cons_of_mem _ (induction later)

end ConversionMetadata

namespace ConversionSystem

structure Orphaned (system : ConversionSystem Record) (record : ConversionRecord) : Prop where
  numbered : system.metadata.Numbered
  member : record ∈ system.metadata.records
  pending : record.status = .Pending
  queue : ∀ task ∈ system.queue, task.id ≠ record.id
  listed : ∀ task ∈ system.scheduler.listed, task.id ≠ record.id

section Orphaned

variable {system : ConversionSystem Record} {record : ConversionRecord}

section

variable (orphaned : Orphaned system record)
include orphaned

theorem Orphaned.setScheduler {state : SchedulerState}
    (listed : ∀ task ∈ state.listed, task.id ≠ record.id) :
    Orphaned { system with scheduler := state } record :=
  ⟨orphaned.numbered, orphaned.member, orphaned.pending, orphaned.queue, listed⟩

theorem Orphaned.update (input : ConversionInput) (other : ConversionRecord)
    (different : other.id ≠ record.id) : Orphaned (system.updateRecord input other).2 record := by
  rcases updateRecord_spec input other system with ⟨saved, _, same⟩
  rw [same]
  exact ⟨orphaned.numbered.replace other,
    ConversionMetadata.mem_replaceFirst_of_ne orphaned.member different.symm, orphaned.pending,
    orphaned.queue, orphaned.listed⟩

theorem Orphaned.submit (input : ConversionInput) (manual : Bool) (instrumentId : String)
    (sstables : List SourcePath) :
    Orphaned (system.submit input manual instrumentId sstables).2 record := by
  have smaller := orphaned.numbered.below record orphaned.member
  have numbered := orphaned.numbered.addRecord (ConversionRecord.new input.now
    system.metadata.nextId instrumentId sstables ⟨instrumentId, manual, input.now⟩) rfl
  rw [ConversionSystem.submit]
  split_ifs
  · exact orphaned
  · rw [save]
    cases input.failure with
    | none =>
      refine ⟨numbered, List.mem_append_left _ orphaned.member, orphaned.pending, ?_,
        orphaned.listed⟩
      intro task isQueued
      rcases List.mem_append.mp isQueued with old | isNew
      · exact orphaned.queue task old
      · rw [List.mem_singleton.mp isNew]
        exact smaller.ne'
    | some text =>
      exact ⟨numbered, List.mem_append_left _ orphaned.member, orphaned.pending,
        orphaned.queue, orphaned.listed⟩

theorem Orphaned.ne_of_status (member : other ∈ system.metadata.records)
    (status : other.status ≠ .Pending) : other.id ≠ record.id := by
  intro same
  have equal := List.inj_on_of_nodup_map orphaned.numbered.distinct member orphaned.member same
  exact status (equal ▸ orphaned.pending)

theorem Orphaned.schedulerStep (config : SchedulerConfig) (input : ConversionInput) :
    Orphaned (system.schedulerStep config input) record := by
  have listed := orphaned.listed
  rw [ConversionSystem.schedulerStep]
  cases state : system.scheduler with
  | resting =>
    cases input.failure with
    | none => exact orphaned.setScheduler (by simp [SchedulerState.listed])
    | some text => exact orphaned.setScheduler (by simp [SchedulerState.listed])
  | scanning instruments =>
    cases instruments with
    | nil => exact orphaned.setScheduler (by simp [SchedulerState.listed])
    | cons instrumentId instruments =>
      cases input.failure with
      | none =>
        dsimp only
        split_ifs
        · exact orphaned.setScheduler (by simp [SchedulerState.listed])
        · exact orphaned.setScheduler (by simp [SchedulerState.listed])
      | some text => exact orphaned.setScheduler (by simp [SchedulerState.listed])
  | batching instrumentId batches instruments =>
    cases batches with
    | nil => exact orphaned.setScheduler (by simp [SchedulerState.listed])
    | cons batch batches =>
      have created : Orphaned (system.createConversionTask input instrumentId batch).2
          record := by
        rw [createConversionTask]
        split_ifs
        · exact orphaned
        · exact orphaned.submit input false instrumentId batch
      dsimp only
      rcases outcome : system.createConversionTask input instrumentId batch with ⟨_ | _, made⟩
      · rw [outcome] at created
        exact created.setScheduler (by simp [SchedulerState.listed])
      · rw [outcome] at created
        exact created.setScheduler (by simp [SchedulerState.listed])
  | collecting =>
    apply orphaned.setScheduler
    intro task member
    rcases List.mem_filter.mp (List.mem_of_mem_filter member) with ⟨isRecord, retries⟩
    apply orphaned.ne_of_status isRecord
    simp only [ConversionRecord.canRetry, Bool.and_eq_true, decide_eq_true_eq] at retries
    simp [retries.1]
  | retrying records =>
    rw [state] at listed
    cases records with
    | nil => exact orphaned.setScheduler (by simp [SchedulerState.listed])
    | cons first records =>
      have different := listed first List.mem_cons_self
      have updated := orphaned.update input { first with status := .Pending } different
      dsimp only
      rcases outcome : system.updateRecord input { first with status := .Pending } with
        ⟨_ | _, after⟩
      · rw [outcome] at updated
        exact updated.setScheduler (by simp [SchedulerState.listed])
      · rw [outcome] at updated
        apply updated.setScheduler
        intro task member
        rcases List.mem_cons.mp member with rfl | later
        · exact different
        · exact listed task (List.mem_cons_of_mem _ later)
  | sending first records =>
    rw [state] at listed
    refine ⟨orphaned.numbered, orphaned.member, orphaned.pending, ?_, ?_⟩
    · intro task isQueued
      rcases List.mem_append.mp isQueued with old | isNew
      · exact orphaned.queue task old
      · rw [List.mem_singleton.mp isNew]
        exact listed first List.mem_cons_self
    · intro task member
      exact listed task (List.mem_cons_of_mem _ member)
  | searching =>
    apply orphaned.setScheduler
    intro task member
    rcases List.mem_filterMap.mp member with ⟨found, isConverting, buried⟩
    rcases List.mem_filter.mp isConverting with ⟨isRecord, converts⟩
    have sameId : task.id = found.id := by
      simp only [buryZombie] at buried
      split_ifs at buried
      cases buried
      rfl
    rw [sameId]
    apply orphaned.ne_of_status isRecord
    simp [of_decide_eq_true converts]
  | burying records =>
    rw [state] at listed
    cases records with
    | nil => exact orphaned.setScheduler (by simp [SchedulerState.listed])
    | cons first records =>
      have updated := orphaned.update input first (listed first List.mem_cons_self)
      dsimp only
      rcases outcome : system.updateRecord input first with ⟨_ | _, after⟩
      · rw [outcome] at updated
        exact updated.setScheduler (by simp [SchedulerState.listed])
      · rw [outcome] at updated
        apply updated.setScheduler
        intro task member
        exact listed task (List.mem_cons_of_mem _ member)
  | cleaning =>
    exact ⟨orphaned.numbered, orphaned.member, orphaned.pending, orphaned.queue, by
      simp [SchedulerState.listed]⟩

theorem Orphaned.not_putBack (config : SchedulerConfig) : ¬ PutBack config system record.id := by
  rintro ⟨inputs, task, isQueued, same⟩
  have later : Orphaned (inputs.foldl (fun current input =>
      ConversionSystem.schedulerStep config input current) system) record :=
    foldl_invariant (fun current => Orphaned current record)
      (fun current input holds => holds.schedulerStep config input) inputs orphaned
  exact later.queue task isQueued same

end

end Orphaned

theorem restart_orphans {system : ConversionSystem Record} (numbered : system.saved.Numbered)
    (member : record ∈ system.saved.records) (pending : record.status = .Pending)
    (scheduler : SchedulerConfig) (worker : WorkerConfig) :
    ¬ NoOrphans scheduler (system.restart worker) := by
  have orphaned : Orphaned (system.restart worker) record :=
    ⟨numbered, member, pending, by simp [restart], by simp [restart, SchedulerState.listed]⟩
  intro attended
  rcases attended record member pending with
    ⟨task, isQueued, _⟩ | ⟨state, inPool, task, isHeld, _⟩ | putBack
  · cases isQueued
  · rw [List.eq_of_mem_replicate inPool] at isHeld
    cases isHeld
  · exact orphaned.not_putBack scheduler putBack

def smallSources (numbers : List ℕ) : List (SourceFile Unit) :=
  numbers.map fun number =>
    ⟨⟨"cu2501", toString number⟩, 0, [⟨⟨Int.ofNat number, number⟩, ()⟩]⟩

/-- A task is triggered, taken by a worker and marked as Converting before the crash. -/
def crashWhileConverting : List Turn :=
  [.trigger ⟨100, none, false⟩ "cu2501" [⟨"cu2501", "1"⟩], .worker ⟨100, none, false⟩ 0,
    .worker ⟨100, none, false⟩ 0, .restart, .scheduler ⟨200, none, false⟩]

theorem crashWhileConverting_noOrphans :
    NoOrphans .default (run .default .default crashWhileConverting
      (begun .default ["cu2501"] (smallSources [1]))) := by
  apply noOrphans_run
  decide +kernel

/-- The crash comes before a worker takes the task. -/
theorem crash_orphans :
    ¬ NoOrphans .default (run .default .default
      [.trigger ⟨100, none, false⟩ "cu2501" [⟨"cu2501", "1"⟩], .restart]
      (begun .default ["cu2501"] (smallSources [1]))) := by
  have saves : (⟨100, none, false⟩ : ConversionInput).failure = none := rfl
  have saved := (tended_begun .default ["cu2501"] (smallSources [1])).submit saves true "cu2501"
    [⟨"cu2501", "1"⟩]
  exact restart_orphans saved.saved (List.mem_singleton.mpr rfl) rfl .default .default

end ConversionSystem

end QAExchange
