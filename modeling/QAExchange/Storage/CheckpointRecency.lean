import QAExchange.Storage.OltpCheckpoints

/-! # The latest checkpoint

The latest checkpoint is the one with the highest number, and the counter of the numbers
begins anew at every start while the files stay.
-/

namespace QAExchange

open Foundation Action

variable {Record : Type}

inductive StorageEvent (Record : Type)
  | write (call : StorageWrite Record)
  | createCheckpoint
  | create (config : OltpHybridConfig) (seconds : ℤ)

namespace OltpHybridStorage

section Model

variable (codec : EntryCodec Record) (clock : RecordClock Record)

/-- A start on the same directories, which may fail. -/
def restartedBy (config : OltpHybridConfig) (seconds : ℤ) (storage : OltpHybridStorage Record) :
    OltpHybridStorage Record :=
  match create codec clock config storage.wal.files storage.sstableFiles storage.checkpointFiles
    seconds with
  | .ok created => created
  | .error _ => storage

def stepEvent : StorageEvent Record → OltpHybridStorage Record → OltpHybridStorage Record
  | .write call, storage => (stepWrite codec clock call storage).2
  | .createCheckpoint, storage => (exec createCheckpoint storage).2
  | .create config seconds, storage => restartedBy codec clock config seconds storage

def latestCheckpoint (storage : OltpHybridStorage Record) : Option CheckpointMetadata :=
  CheckpointManager.loadLatestCheckpoint storage.checkpointFiles

/-- The checkpoint that was created last, if the one before was `recent`. -/
def recentAfter (storage : OltpHybridStorage Record) (recent : Option CheckpointMetadata) :
    StorageEvent Record → Option CheckpointMetadata
  | .createCheckpoint => some storage.nextCheckpoint
  | .write _ | .create .. => recent

/-- In all of a run the checkpoint that was created last is there and is loaded, and the
sequence of the log that it has does not go backwards. -/
def LoadsRecent :
    List (StorageEvent Record) → Option CheckpointMetadata → OltpHybridStorage Record → Prop
  | [], recent, storage => storage.latestCheckpoint = recent
  | event :: events, recent, storage =>
    storage.latestCheckpoint = recent ∧
      (∀ before ∈ storage.latestCheckpoint,
        ∀ after ∈ (stepEvent codec clock event storage).latestCheckpoint,
          before.walSequence ≤ after.walSequence) ∧
      LoadsRecent events (storage.recentAfter recent event) (stepEvent codec clock event storage)

/-- No checkpoint has a number above the next one, and the log goes on behind the latest
checkpoint. -/
def GoesOnBehind (storage : OltpHybridStorage Record) : Prop :=
  (∀ checkpoint ∈ storage.checkpointFiles.rows,
      checkpoint.checkpointId ≤ storage.checkpointCounter + 1) ∧
    ∀ latest ∈ storage.latestCheckpoint, latest.walSequence ≤ storage.wal.currentSequence

instance decidableGoesOnBehind (storage : OltpHybridStorage Record) :
    Decidable storage.GoesOnBehind :=
  inferInstanceAs (Decidable (_ ∧ _))

def ChecksInOrder : List (StorageEvent Record) → OltpHybridStorage Record → Prop
  | [], _ => True
  | event :: events, storage =>
    (event = .createCheckpoint → storage.GoesOnBehind) ∧
      ChecksInOrder events (stepEvent codec clock event storage)

instance decidableChecksInOrder : ∀ events storage, Decidable (ChecksInOrder codec clock events storage)
  | [], _ => .isTrue trivial
  | .createCheckpoint :: events, storage =>
    @instDecidableAnd _ _ (decidable_of_iff storage.GoesOnBehind (by simp))
      (decidableChecksInOrder events _)
  | .write _ :: events, _ =>
    @instDecidableAnd _ _ (.isTrue (by simp)) (decidableChecksInOrder events _)
  | .create .. :: events, _ =>
    @instDecidableAnd _ _ (.isTrue (by simp)) (decidableChecksInOrder events _)

end Model

section Steps

theorem create_checkpointFiles {config : OltpHybridConfig} {walFiles : List WalFile}
    {files : SSTableFiles Record} {checkpoints : CheckpointFiles} {seconds : ℤ}
    {storage : OltpHybridStorage Record}
    (isCreated : create codec clock config walFiles files checkpoints seconds = .ok storage) :
    storage.checkpointFiles = checkpoints := by
  rw [create, onMemtable, exec_onPart] at isCreated
  generalize exec (WalManager.replay codec (insertEntry clock) _) _ = outcome at isCreated
  rcases outcome with ⟨text | _, memtable⟩
  · cases isCreated
  · cases isCreated
    rfl

theorem stepEvent_checkpointFiles (codec : EntryCodec Record) (clock : RecordClock Record)
    (other : event ≠ .createCheckpoint) (storage : OltpHybridStorage Record) :
    (stepEvent codec clock event storage).checkpointFiles = storage.checkpointFiles := by
  cases event with
  | createCheckpoint => exact absurd rfl other
  | write call =>
    rw [stepEvent]
    rcases stepWrite_cases codec clock call storage with ⟨_, ran⟩ | ⟨_, count, ran⟩
    · rw [ran]
      simp only [settled]
      split_ifs <;> rfl
    · rw [ran]
      rfl
  | create config seconds =>
    rw [stepEvent, restartedBy]
    cases isCreated : create codec clock config storage.wal.files storage.sstableFiles
      storage.checkpointFiles seconds with
    | error text => rfl
    | ok created => exact create_checkpointFiles isCreated

/-- The new checkpoint is loaded if and only if no other has a higher number. -/
theorem latestCheckpoint_checkpointed (storage : OltpHybridStorage Record) (wal : WalManager) :
    (storage.checkpointed wal).latestCheckpoint = some storage.nextCheckpoint ↔
      ∀ checkpoint ∈ storage.checkpointFiles.rows,
        checkpoint.checkpointId ≤ storage.checkpointCounter + 1 := by
  have some := KeyedRows.insert_ne_nil storage.nextCheckpoint storage.checkpointFiles
  have same : (storage.checkpointed wal).latestCheckpoint =
      (storage.checkpointFiles.insert storage.nextCheckpoint).rows.getLast? := by
    have long := List.length_pos_of_ne_nil some
    change ((storage.checkpointFiles.insert storage.nextCheckpoint).rows.drop
      ((storage.checkpointFiles.insert storage.nextCheckpoint).rows.length - 3)).getLast? = _
    rw [List.getLast?_drop, if_neg (by omega)]
  rw [same]
  exact KeyedRows.getLast?_insert_iff storage.nextCheckpoint storage.checkpointFiles

/-- A checkpoint is loaded from then on, and its sequence is not below that of the one
before, if and only if it is created behind the others. -/
theorem createCheckpoint_iff (storage : OltpHybridStorage Record) (wal : WalManager) :
    ((storage.checkpointed wal).latestCheckpoint = some storage.nextCheckpoint ∧
      ∀ before ∈ storage.latestCheckpoint, ∀ after ∈ (storage.checkpointed wal).latestCheckpoint,
        before.walSequence ≤ after.walSequence) ↔ storage.GoesOnBehind := by
  rw [GoesOnBehind, ← latestCheckpoint_checkpointed storage wal]
  apply and_congr_right
  intro loads
  rw [loads]
  apply forall₂_congr
  intro before isBefore
  constructor
  · intro grows
    exact grows storage.nextCheckpoint rfl
  · intro grows after isAfter
    cases isAfter
    exact grows

theorem loadsRecent_iff {storage : OltpHybridStorage Record}
    (loads : storage.latestCheckpoint = recent) :
    LoadsRecent codec clock events recent storage ↔ ChecksInOrder codec clock events storage := by
  induction events generalizing recent storage with
  | nil => exact iff_of_true loads trivial
  | cons event events induction =>
    rw [LoadsRecent, ChecksInOrder, and_iff_right loads]
    by_cases isCheckpoint : event = .createCheckpoint
    · subst isCheckpoint
      rcases createCheckpoint_snd storage with ⟨wal, _, ran⟩
      rw [stepEvent, ran, recentAfter, imp_iff_right rfl, ← createCheckpoint_iff storage wal,
        and_assoc]
      constructor
      · rintro ⟨grows, rest⟩
        have isLatest : (storage.checkpointed wal).latestCheckpoint =
            some storage.nextCheckpoint := by
          cases events with
          | nil => exact rest
          | cons event events => exact rest.1
        exact ⟨isLatest, grows, (induction isLatest).mp rest⟩
      · rintro ⟨isLatest, grows, rest⟩
        exact ⟨grows, (induction isLatest).mpr rest⟩
    · have same : (stepEvent codec clock event storage).latestCheckpoint =
          storage.latestCheckpoint :=
        congrArg CheckpointManager.loadLatestCheckpoint
          (stepEvent_checkpointFiles codec clock isCheckpoint storage)
      have keeps : storage.recentAfter recent event = recent := by
        cases event with
        | createCheckpoint => exact absurd rfl isCheckpoint
        | write call => rfl
        | create config seconds => rfl
      have rest := induction (same.trans loads)
      rw [keeps, rest, same]
      constructor
      · rintro ⟨_, inOrder⟩
        exact ⟨fun found => absurd found isCheckpoint, inOrder⟩
      · rintro ⟨_, inOrder⟩
        refine ⟨?_, inOrder⟩
        intro before isBefore after isAfter
        rw [Option.mem_unique isBefore isAfter]

end Steps

/-- In a run of writes, checkpoints and starts the checkpoint created last is always the
one that is loaded, at a sequence not below those before, if and only if every checkpoint
is created while no other has a number above the next one and the log is not behind the
latest one. -/
theorem loadsRecent_iff_checksInOrder (codec : EntryCodec Record) (clock : RecordClock Record)
    {config : OltpHybridConfig} {seconds : ℤ} {storage : OltpHybridStorage Record}
    (isCreated : create codec clock config [] .empty .empty seconds = .ok storage)
    (events : List (StorageEvent Record)) :
    LoadsRecent codec clock events none storage ↔ ChecksInOrder codec clock events storage := by
  apply loadsRecent_iff
  rw [latestCheckpoint, create_checkpointFiles isCreated]
  rfl

/-- A checkpoint, a start, and a checkpoint that takes the place of the first one. -/
theorem checkpoint_again_loaded :
    LoadsRecent referenceCodec referenceClock
      [.createCheckpoint, .create ⟨256, 256⟩ 0, .createCheckpoint] none freshStorage := by
  apply (loadsRecent_iff_checksInOrder referenceCodec referenceClock freshStorage_created _).mpr
  decide +kernel

/-- A start behind `count` checkpoints. -/
def startedBehind (count : ℕ) : OltpHybridStorage UInt8 :=
  stepEvent referenceCodec referenceClock (.create ⟨256, 256⟩ 0)
    ((stepEvent referenceCodec referenceClock .createCheckpoint)^[count] freshStorage)

/-- Behind two checkpoints and a start the next one is passed over, and behind four it
is removed at once. -/
theorem checkpoint_passed_over :
    ¬ LoadsRecent referenceCodec referenceClock
        [.createCheckpoint, .createCheckpoint, .create ⟨256, 256⟩ 0, .createCheckpoint] none
        freshStorage ∧ (startedBehind 4).nextCheckpoint ∉ (stepEvent referenceCodec referenceClock
        .createCheckpoint (startedBehind 4)).checkpointFiles.rows := by
  have number : (startedBehind 2).nextCheckpoint.checkpointId = 1 := by decide +kernel
  have latest : ((stepEvent referenceCodec referenceClock .createCheckpoint
      (startedBehind 2)).latestCheckpoint.map CheckpointMetadata.checkpointId) = some 2 := by
    decide +kernel
  constructor
  · rintro ⟨_, _, _, _, _, _, _, _, loads⟩
    have isRecent : (stepEvent referenceCodec referenceClock .createCheckpoint
        (startedBehind 2)).latestCheckpoint = some (startedBehind 2).nextCheckpoint := loads
    rw [isRecent, Option.map_some, number] at latest
    exact absurd latest (by decide)
  · decide +kernel

end OltpHybridStorage

end QAExchange
