import Mathlib.Data.List.Induction
import QAExchange.Factor.StateStore

/-! # Checkpoints after a crash

Which snapshot a new store finds after any saves and crashes: the newest file counts, whether
its bytes are all there or not.
-/

namespace QAExchange

open Foundation StateStore

/-! ## The newest file -/

namespace StateFiles

structure Newest (files : StateFiles) (file : StateFile) : Prop where
  member : file ∈ files.rows
  greatest : ∀ other ∈ files.rows, other.id ≤ file.id

theorem foldl_max (files : List StateFile) (start : ℕ) :
    start ≤ files.foldl (fun maxId file => max maxId file.id) start ∧
      (∀ file ∈ files, file.id ≤ files.foldl (fun maxId file => max maxId file.id) start) ∧
      ∀ bound, start ≤ bound → (∀ file ∈ files, file.id ≤ bound) →
        files.foldl (fun maxId file => max maxId file.id) start ≤ bound := by
  induction files generalizing start with
  | nil => exact ⟨le_refl _, by simp, fun _ small _ => small⟩
  | cons file files induction =>
    obtain ⟨above, members, least⟩ := induction (max start file.id)
    rw [List.foldl_cons]
    refine ⟨(le_max_left _ _).trans above, ?_, ?_⟩
    · intro other member
      cases List.mem_cons.mp member with
      | inl same =>
        rw [same]
        exact (le_max_right _ _).trans above
      | inr later => exact members other later
    · intro bound small all
      apply least bound (max_le small (all file List.mem_cons_self))
      intro other member
      exact all other (List.mem_cons_of_mem _ member)

variable {files : StateFiles}

theorem findLatestCheckpointId_of_nil (nothing : files.rows = []) :
    files.findLatestCheckpointId = 0 := by
  rw [findLatestCheckpointId, nothing, List.foldl_nil]

variable {file : StateFile}

theorem Newest.findLatestCheckpointId (newest : Newest files file) :
    files.findLatestCheckpointId = file.id := by
  have bounds := foldl_max files.rows 0
  exact le_antisymm (bounds.2.2 file.id (Nat.zero_le _) newest.greatest)
    (bounds.2.1 file newest.member)

theorem Newest.get (newest : Newest files file) : files.get file.id = some file :=
  KeyedRows.get_eq_some.mpr ⟨newest.member, rfl⟩

theorem newest_create (fresh : ∀ file ∈ files.rows, file.id < checkpointId) :
    Newest (files.exec (.create checkpointId)) { id := checkpointId, bytes := [] } where
  member := KeyedRows.mem_insert.mpr (.inl rfl)
  greatest := by
    intro other member
    cases KeyedRows.mem_insert.mp member with
    | inl same => exact same ▸ le_refl _
    | inr old => exact (fresh other old.1).le

theorem Newest.write (newest : Newest files file) (byte : UInt8) :
    Newest (files.exec (.write file.id byte)) { file with bytes := file.bytes ++ [byte] } := by
  rw [exec, newest.get]
  dsimp only
  constructor
  · exact KeyedRows.mem_insert.mpr (.inl rfl)
  · intro other member
    cases KeyedRows.mem_insert.mp member with
    | inl same => exact same ▸ le_refl _
    | inr old => exact newest.greatest other old.1

theorem Newest.writes (newest : Newest files file) (bytes : List UInt8) :
    Newest (files.execAll (bytes.map (.write file.id)))
      { file with bytes := file.bytes ++ bytes } := by
  induction bytes generalizing files file with
  | nil =>
    rw [List.append_nil]
    exact newest
  | cons byte bytes induction =>
    have next := induction (newest.write byte)
    rw [List.append_assoc] at next
    exact next

theorem Newest.removes (newest : Newest files file) {gone : List ℕ}
    (others : ∀ id ∈ gone, id ≠ file.id) : Newest (files.execAll (gone.map .remove)) file := by
  induction gone generalizing files with
  | nil => exact newest
  | cons id gone induction =>
    have isOther := others id List.mem_cons_self
    have removed : Newest (files.exec (.remove id)) file :=
      { member := KeyedRows.mem_remove.mpr ⟨newest.member, isOther.symm⟩
        greatest := fun other member =>
          newest.greatest other (KeyedRows.mem_remove.mp member).1 }
    exact induction removed fun other member => others other (List.mem_cons_of_mem _ member)

theorem Newest.ne_of_mem_take (newest : Newest files file) (positive : 1 ≤ maxCheckpoints)
    (member : old ∈ files.rows.take (files.rows.length - maxCheckpoints)) : old.id ≠ file.id := by
  have some := List.length_pos_of_mem newest.member
  have kept : files.rows.drop (files.rows.length - maxCheckpoints) ≠ [] := by
    intro nothing
    have bound := List.drop_eq_nil_iff.mp nothing
    omega
  obtain ⟨other, isOther⟩ := List.exists_mem_of_ne_nil _ kept
  have sorted := files.sorted
  rw [← List.take_append_drop (files.rows.length - maxCheckpoints) files.rows] at sorted
  have before := (List.pairwise_append.mp sorted).2.2 old member other isOther
  exact (before.trans_le (newest.greatest other (List.mem_of_mem_drop isOther))).ne

theorem execAll_append (first second : List DiskStep) (files : StateFiles) :
    files.execAll (first ++ second) = (files.execAll first).execAll second :=
  List.foldl_append

theorem newest_of_writes (fresh : ∀ file ∈ files.rows, file.id < checkpointId)
    (contents : List UInt8) :
    Newest (files.execAll (.create checkpointId :: contents.map (.write checkpointId)))
      { id := checkpointId, bytes := contents } := by
  have written := (newest_create fresh).writes contents
  rw [List.nil_append] at written
  exact written

theorem newest_of_save {store : StateStore} (positive : 1 ≤ store.config.maxCheckpoints)
    (fresh : ∀ file ∈ files.rows, file.id < checkpointId) (contents : List UInt8) (done : ℕ)
    (isWriting : writing = .create checkpointId :: contents.map (.write checkpointId)) :
    Newest (files.execAll ((writing ++ store.cleanupOldCheckpoints
      (files.execAll writing)).take (done + 1)))
        { id := checkpointId, bytes := contents.take done } := by
  have length : writing.length = contents.length + 1 := by
    rw [isWriting, List.length_cons, List.length_map]
  by_cases isCut : done ≤ contents.length
  · have isTake : writing.take (done + 1) =
        .create checkpointId :: (contents.take done).map (.write checkpointId) := by
      rw [isWriting, List.take_succ_cons, List.map_take]
    rw [List.take_append_of_le_length (by omega), isTake]
    exact newest_of_writes fresh (contents.take done)
  · have written := newest_of_writes fresh contents
    rw [← isWriting] at written
    have all : contents.take done = contents := List.take_of_length_le (by omega)
    rw [List.take_append, List.take_of_length_le (by omega), execAll_append, all,
      cleanupOldCheckpoints, ← List.map_take]
    have others : ∀ id ∈ (((files.execAll writing).rows.take
        ((files.execAll writing).rows.length - store.config.maxCheckpoints)).take
          (done + 1 - writing.length)).map StateFile.id, id ≠ checkpointId := by
      intro id member
      obtain ⟨old, isOld, isId⟩ := List.mem_map.mp member
      rw [← isId]
      exact written.ne_of_mem_take positive (List.mem_of_mem_take isOld)
    have removed := written.removes others
    rw [List.map_map] at removed
    exact removed

end StateFiles

/-! ## What has been written -/

namespace SaveAttempt

variable {Instrument : Type}

inductive Outcome
  | nothing
  | part
  | whole

/-- So many steps have been made before a crash. -/
def reaches (attempt : SaveAttempt Instrument) (steps : ℕ) : Bool :=
  attempt.crash.all fun done => steps ≤ done

/-- The file is there after the first step, and whole after one more for each byte. -/
def outcome (codec : SnapshotCodec Instrument) (config : StateStoreConfig)
    (attempt : SaveAttempt Instrument) : Outcome :=
  match codec.toBytes attempt.snapshot with
  | none => .nothing
  | some bytes =>
    if attempt.reaches 1 then
      match fileContents codec config bytes with
      | none => .part
      | some contents => if attempt.reaches (contents.length + 1) then .whole else .part
    else .nothing

/-- The steps that a call makes are the first ones of a save. -/
def executed (attempt : SaveAttempt Instrument) (steps : List DiskStep) : List DiskStep :=
  match attempt.crash with
  | none => steps
  | some done => steps.take done

theorem executed_eq_take (attempt : SaveAttempt Instrument) (steps : List DiskStep) :
    ∃ done, attempt.executed steps = steps.take done ∧
      ∀ count ≤ steps.length, (attempt.reaches count = true ↔ count ≤ done) := by
  rw [executed]
  cases isCrash : attempt.crash with
  | none =>
    refine ⟨steps.length, List.take_length.symm, ?_⟩
    intro count bound
    simp [reaches, isCrash, bound]
  | some done =>
    refine ⟨done, rfl, ?_⟩
    intro count bound
    simp [reaches, isCrash]

end SaveAttempt

namespace StateStore

section Outcome

variable {Instrument : Type} (codec : SnapshotCodec Instrument) (config : StateStoreConfig)

/-- The last snapshot that has been written completely, and whether a file has been begun
since that has not been finished. -/
structure Progress (Instrument : Type) where
  lastWritten : Option (GlobalStateSnapshot Instrument)
  leftPart : Bool

def Progress.next (progress : Progress Instrument) (attempt : SaveAttempt Instrument) :
    Progress Instrument :=
  match attempt.outcome codec config with
  | .nothing => progress
  | .part => { progress with leftPart := true }
  | .whole => { lastWritten := some attempt.snapshot, leftPart := false }

def progressOf (attempts : List (SaveAttempt Instrument)) : Progress Instrument :=
  attempts.foldl (Progress.next codec config) { lastWritten := none, leftPart := false }

def Stands (snapshot : GlobalStateSnapshot Instrument) (contents : List UInt8) : Prop :=
  ∃ bytes, codec.toBytes snapshot = some bytes ∧
    fileContents codec config bytes = some contents

/-- Some of the first bytes of the file of one of the snapshots. -/
def IsPart (snapshots : List (GlobalStateSnapshot Instrument)) (bytes : List UInt8) : Prop :=
  bytes = [] ∨ ∃ snapshot ∈ snapshots, ∃ contents, Stands codec config snapshot contents ∧
    ∃ kept < contents.length, bytes = contents.take kept

variable {codec config}

def Left (codec : SnapshotCodec Instrument) (store : StateStore) (files after : StateFiles)
    (snapshot : GlobalStateSnapshot Instrument) : SaveAttempt.Outcome → Prop
  | .nothing => after = files
  | .part => ∃ bytes, after.Newest { id := store.checkpointCounter, bytes := bytes } ∧
      IsPart codec store.config [snapshot] bytes
  | .whole => ∃ contents, after.Newest { id := store.checkpointCounter, bytes := contents } ∧
      Stands codec store.config snapshot contents

theorem left_of_attempt {store : StateStore} (positive : 1 ≤ store.config.maxCheckpoints)
    {files : StateFiles} (fresh : ∀ file ∈ files.rows, file.id < store.checkpointCounter)
    (attempt : SaveAttempt Instrument) :
    Left codec store files (files.execAll
      (attempt.executed (store.saveCheckpoint codec attempt.snapshot files).2)) attempt.snapshot
        (attempt.outcome codec store.config) := by
  obtain ⟨done, isTake, reaches⟩ :=
    attempt.executed_eq_take (store.saveCheckpoint codec attempt.snapshot files).2
  rw [isTake, SaveAttempt.outcome]
  rw [saveCheckpoint] at reaches ⊢
  cases isBytes : codec.toBytes attempt.snapshot with
  | none =>
    change files.execAll ([].take done) = files
    rw [List.take_nil]
    rfl
  | some bytes =>
    rw [isBytes] at reaches
    dsimp only at reaches ⊢
    cases isContents : fileContents codec store.config bytes with
    | none =>
      rw [isContents] at reaches
      dsimp only at reaches ⊢
      have isCreated := reaches 1 (le_refl _)
      cases done with
      | zero =>
        rw [if_neg fun reached => absurd (isCreated.mp reached) (by omega)]
        rfl
      | succ done =>
        rw [if_pos (isCreated.mpr (by omega)), List.take_succ_cons, List.take_nil]
        exact ⟨[], StateFiles.newest_create fresh, .inl rfl⟩
    | some contents =>
      rw [isContents] at reaches
      dsimp only at reaches ⊢
      rw [List.length_append, List.length_cons, List.length_map] at reaches
      have isCreated := reaches 1 (by omega)
      have isWritten := reaches (contents.length + 1) (by omega)
      cases done with
      | zero =>
        rw [if_neg fun reached => absurd (isCreated.mp reached) (by omega)]
        rfl
      | succ done =>
        rw [if_pos (isCreated.mpr (by omega))]
        have newest := StateFiles.newest_of_save positive fresh contents done rfl
        have stands : Stands codec store.config attempt.snapshot contents :=
          ⟨bytes, isBytes, isContents⟩
        split_ifs with all
        · have covers := isWritten.mp all
          have allBytes : contents.take done = contents :=
            List.take_of_length_le (by omega)
          rw [allBytes] at newest
          exact ⟨contents, newest, stands⟩
        · have short : done < contents.length := by
            by_contra long
            exact all (isWritten.mpr (by omega))
          exact ⟨contents.take done, newest, .inr ⟨attempt.snapshot,
            List.mem_singleton_self _, contents, stands, done, short, rfl⟩⟩

/-! ## Runs -/

inductive Agrees (codec : SnapshotCodec Instrument) (config : StateStoreConfig)
    (snapshots : List (GlobalStateSnapshot Instrument)) (files : StateFiles) :
    Progress Instrument → Prop
  | nothing (isEmpty : files.rows = []) :
      Agrees codec config snapshots files { lastWritten := none, leftPart := false }
  | whole (file : StateFile) (newest : files.Newest file) (positive : 0 < file.id)
      (snapshot : GlobalStateSnapshot Instrument) (stands : Stands codec config snapshot file.bytes) :
      Agrees codec config snapshots files { lastWritten := some snapshot, leftPart := false }
  | part (file : StateFile) (newest : files.Newest file) (positive : 0 < file.id)
      (isPart : IsPart codec config snapshots file.bytes)
      (lastWritten : Option (GlobalStateSnapshot Instrument)) :
      Agrees codec config snapshots files { lastWritten := lastWritten, leftPart := true }

structure Kept (codec : SnapshotCodec Instrument) (config : StateStoreConfig)
    (snapshots : List (GlobalStateSnapshot Instrument)) (session : StoreSession)
    (progress : Progress Instrument) : Prop where
  sameConfig : session.store.config = config
  positive : 0 < session.store.checkpointCounter
  fresh : ∀ file ∈ session.files.rows, file.id < session.store.checkpointCounter
  lastWritten : ∀ snapshot, progress.lastWritten = some snapshot → snapshot ∈ snapshots
  agrees : Agrees codec config snapshots session.files progress

theorem checkpointCounter_new (config : StateStoreConfig) {files : StateFiles}
    (fresh : ∀ file ∈ files.rows, file.id < limit) (positive : 0 < limit) (small : limit < 2 ^ 64) :
    (new config files).checkpointCounter = files.findLatestCheckpointId + 1 ∧
      files.findLatestCheckpointId + 1 ≤ limit := by
  have bounds := StateFiles.foldl_max files.rows 0
  have latest : files.findLatestCheckpointId ≤ limit - 1 := by
    apply bounds.2.2 _ (Nat.zero_le _)
    intro file member
    have isFresh := fresh file member
    omega
  rw [new]
  dsimp only
  omega

theorem fresh_new (files : StateFiles) :
    ∀ file ∈ files.rows, file.id < files.findLatestCheckpointId + 1 := by
  intro file member
  exact Nat.lt_succ_of_le ((StateFiles.foldl_max files.rows 0).2.1 file member)

theorem attempt_files (session : StoreSession) (attempt : SaveAttempt Instrument) :
    (session.attempt codec attempt).files = session.files.execAll
      (attempt.executed (session.store.saveCheckpoint codec attempt.snapshot session.files).2) := by
  rw [StoreSession.attempt, SaveAttempt.executed]
  cases attempt.crash with
  | none => rfl
  | some done => rfl

theorem IsPart.mono (member : snapshot ∈ snapshots)
    (isPart : IsPart codec config [snapshot] bytes) : IsPart codec config snapshots bytes := by
  cases isPart with
  | inl isEmpty => exact .inl isEmpty
  | inr isPrefix =>
    obtain ⟨other, isOther, rest⟩ := isPrefix
    exact .inr ⟨other, List.mem_singleton.mp isOther ▸ member, rest⟩

section Step

variable {snapshots : List (GlobalStateSnapshot Instrument)} {session : StoreSession}
  {progress : Progress Instrument} (kept : Kept codec config snapshots session progress)
  (positive : 1 ≤ config.maxCheckpoints) (attempt : SaveAttempt Instrument)
  (member : attempt.snapshot ∈ snapshots)

include kept positive

theorem Kept.left : Left codec session.store session.files (session.attempt codec attempt).files
    attempt.snapshot (attempt.outcome codec config) := by
  have left : Left codec session.store session.files _ attempt.snapshot _ :=
    left_of_attempt (kept.sameConfig ▸ positive) kept.fresh attempt
  rw [kept.sameConfig] at left
  rw [attempt_files]
  exact left

theorem Kept.files_fresh : ∀ file ∈ (session.attempt codec attempt).files.rows,
    file.id < session.store.checkpointCounter + 1 := by
  have left := kept.left positive attempt
  intro file isFile
  cases isOutcome : attempt.outcome codec config with
  | nothing =>
    rw [isOutcome] at left
    rw [show (session.attempt codec attempt).files = session.files from left] at isFile
    exact (kept.fresh file isFile).trans (Nat.lt_succ_self _)
  | part =>
    rw [isOutcome] at left
    obtain ⟨bytes, newest, _⟩ := left
    exact Nat.lt_succ_of_le (newest.greatest file isFile)
  | whole =>
    rw [isOutcome] at left
    obtain ⟨contents, newest, _⟩ := left
    exact Nat.lt_succ_of_le (newest.greatest file isFile)

include member

theorem Kept.agrees_attempt : Agrees codec config snapshots (session.attempt codec attempt).files
    (progress.next codec config attempt) := by
  have left := kept.left positive attempt
  rw [Progress.next]
  cases isOutcome : attempt.outcome codec config with
  | nothing =>
    rw [isOutcome] at left
    rw [show (session.attempt codec attempt).files = session.files from left]
    exact kept.agrees
  | part =>
    rw [isOutcome] at left
    obtain ⟨bytes, newest, isPart⟩ := left
    rw [kept.sameConfig] at isPart
    exact .part _ newest kept.positive (isPart.mono member) progress.lastWritten
  | whole =>
    rw [isOutcome] at left
    obtain ⟨contents, newest, stands⟩ := left
    rw [kept.sameConfig] at stands
    exact .whole _ newest kept.positive attempt.snapshot stands

theorem Kept.step (small : session.store.checkpointCounter + 1 < 2 ^ 64) :
    Kept codec config snapshots (session.attempt codec attempt)
      (progress.next codec config attempt) ∧
      (session.attempt codec attempt).store.checkpointCounter ≤
        session.store.checkpointCounter + 1 := by
  have agrees := kept.agrees_attempt positive attempt member
  have fresh := kept.files_fresh positive attempt
  have lastWritten : ∀ snapshot, (progress.next codec config attempt).lastWritten = some snapshot →
      snapshot ∈ snapshots := by
    intro snapshot isLast
    rw [Progress.next] at isLast
    cases isOutcome : attempt.outcome codec config with
    | nothing =>
      rw [isOutcome] at isLast
      exact kept.lastWritten snapshot isLast
    | part =>
      rw [isOutcome] at isLast
      exact kept.lastWritten snapshot isLast
    | whole =>
      rw [isOutcome] at isLast
      cases isLast
      exact member
  cases isCrash : attempt.crash with
  | none =>
    have isStore : (session.attempt codec attempt).store = session.store.nextCheckpointId := by
      rw [StoreSession.attempt, isCrash]
    have isCounter : session.store.nextCheckpointId.checkpointCounter =
        session.store.checkpointCounter + 1 := Nat.mod_eq_of_lt small
    rw [isStore, isCounter]
    refine ⟨?_, le_refl _⟩
    exact
      { sameConfig := by
          rw [isStore]
          exact kept.sameConfig
        positive := by
          rw [isStore, isCounter]
          exact Nat.succ_pos _
        fresh := by
          rw [isStore, isCounter]
          exact fresh
        lastWritten := lastWritten
        agrees := agrees }
  | some done =>
    have isStore : (session.attempt codec attempt).store =
        .new config (session.attempt codec attempt).files := by
      rw [← kept.sameConfig, StoreSession.attempt, isCrash]
    have counter := checkpointCounter_new config fresh (Nat.succ_pos _) small
    rw [isStore, counter.1]
    refine ⟨?_, counter.2⟩
    exact
      { sameConfig := by
          rw [isStore]
          rfl
        positive := by
          rw [isStore, counter.1]
          exact Nat.succ_pos _
        fresh := by
          rw [isStore, counter.1]
          exact fresh_new _
        lastWritten := lastWritten
        agrees := agrees }

end Step

theorem kept_start (config : StateStoreConfig) (snapshots : List (GlobalStateSnapshot Instrument)) :
    Kept codec config snapshots (.start config) { lastWritten := none, leftPart := false } where
  sameConfig := rfl
  positive := Nat.one_pos
  fresh := by
    intro file member
    cases member
  lastWritten := by
    intro snapshot isLast
    cases isLast
  agrees := .nothing rfl

theorem kept_run (positive : 1 ≤ config.maxCheckpoints)
    (members : ∀ attempt ∈ attempts, attempt.snapshot ∈ snapshots)
    (few : attempts.length + 1 < 2 ^ 64) :
    Kept codec config snapshots (StoreSession.run codec config attempts)
      (progressOf codec config attempts) ∧
      (StoreSession.run codec config attempts).store.checkpointCounter ≤ attempts.length + 1 := by
  induction attempts using List.reverseRecOn with
  | nil => exact ⟨kept_start config snapshots, le_refl _⟩
  | append_singleton attempts attempt induction =>
    rw [List.length_append, List.length_singleton] at few ⊢
    have earlier : ∀ other ∈ attempts, other.snapshot ∈ snapshots := fun other member =>
      members other (List.mem_append_left _ member)
    obtain ⟨kept, bound⟩ := induction earlier (by omega)
    have member := members attempt (List.mem_append_right _ (List.mem_singleton_self _))
    obtain ⟨next, nextBound⟩ := kept.step positive attempt member (by omega)
    rw [StoreSession.run, progressOf, List.foldl_append, List.foldl_append]
    exact ⟨next, nextBound.trans (by omega)⟩

end Outcome

end StateStore

namespace SnapshotCodec

variable {Instrument : Type}

structure RoundTrips (codec : SnapshotCodec Instrument) : Prop where
  archived : ∀ snapshot bytes, codec.toBytes snapshot = some bytes →
    codec.archivedRoot bytes = some snapshot
  encoded : ∀ bytes contents, codec.encodeAll bytes = some contents →
    codec.decodeAll contents = some bytes

/-- A file that is not whole does not read as one of some snapshots: a frame of zstd without its
end is refused, and there is no root at the end of the first bytes of an archive. -/
structure RefusesParts (codec : SnapshotCodec Instrument) (config : StateStoreConfig)
    (snapshots : List (GlobalStateSnapshot Instrument)) : Prop where
  empty : ∀ other ∈ snapshots, readSnapshot codec config [] ≠ some (.ok other)
  part : ∀ snapshot ∈ snapshots, ∀ contents, StateStore.Stands codec config snapshot contents →
    ∀ kept < contents.length, ∀ other ∈ snapshots,
      readSnapshot codec config (contents.take kept) ≠ some (.ok other)

end SnapshotCodec

namespace StateStore

section Recovery

variable {Instrument : Type} {codec : SnapshotCodec Instrument} {config : StateStoreConfig}

/-- A new store loads the last snapshot that has been written completely, if there is one. -/
def Recovers (codec : SnapshotCodec Instrument) (config : StateStoreConfig)
    (attempts : List (SaveAttempt Instrument)) : Prop :=
  let files := (StoreSession.run codec config attempts).files
  (new config files).loadLatestCheckpoint codec files =
    some (.ok (progressOf codec config attempts).lastWritten)

theorem loadLatestCheckpoint_of_newest {files : StateFiles} (newest : files.Newest file)
    (positive : 0 < file.id) (store : StateStore) :
    store.loadLatestCheckpoint codec files =
      (readSnapshot codec store.config file.bytes).map (Except.map some) := by
  rw [loadLatestCheckpoint, newest.findLatestCheckpointId, if_neg (by omega),
    loadCheckpoint, newest.get]

theorem readSnapshot_of_stands (roundTrips : codec.RoundTrips)
    (stands : Stands codec config snapshot contents) :
    readSnapshot codec config contents =
      some (if snapshot.version = GlobalStateSnapshot.currentVersion then .ok snapshot
        else .error (.VersionMismatch GlobalStateSnapshot.currentVersion snapshot.version)) := by
  obtain ⟨bytes, isBytes, isContents⟩ := stands
  have decoded : (if config.compress = true then codec.decodeAll contents else some contents) =
      some bytes := by
    rw [fileContents] at isContents
    split_ifs at isContents ⊢ with compressed
    · exact roundTrips.encoded bytes contents isContents
    · exact isContents.symm
  rw [readSnapshot, decoded]
  dsimp only
  rw [roundTrips.archived snapshot bytes isBytes, Option.map_some]

theorem not_reads_part (refuses : codec.RefusesParts config snapshots)
    (isPart : IsPart codec config snapshots bytes) (member : other ∈ snapshots) :
    readSnapshot codec config bytes ≠ some (.ok other) := by
  cases isPart with
  | inl isEmpty => exact isEmpty ▸ refuses.empty other member
  | inr isPrefix =>
    obtain ⟨snapshot, isSnapshot, contents, stands, kept, short, isTake⟩ := isPrefix
    exact isTake ▸ refuses.part snapshot isSnapshot contents stands kept short other member

/-- The last complete snapshot is found exactly if no file has been begun since, and its version
is the current one. -/
theorem recovers_iff {attempts : List (SaveAttempt Instrument)}
    (positive : 1 ≤ config.maxCheckpoints) (few : attempts.length + 1 < 2 ^ 64)
    (roundTrips : codec.RoundTrips)
    (refuses : codec.RefusesParts config (attempts.map SaveAttempt.snapshot)) :
    Recovers codec config attempts ↔ (progressOf codec config attempts).leftPart = false ∧
        ∀ snapshot, (progressOf codec config attempts).lastWritten = some snapshot →
          snapshot.version = GlobalStateSnapshot.currentVersion := by
  have members : ∀ attempt ∈ attempts,
      attempt.snapshot ∈ attempts.map SaveAttempt.snapshot := fun attempt member =>
    List.mem_map_of_mem member
  have kept : Kept codec config _ _ _ := (kept_run positive members few).1
  have lastWritten := kept.lastWritten
  have agrees := kept.agrees
  rw [Recovers]
  generalize progressOf codec config attempts = progress at lastWritten agrees ⊢
  cases agrees with
  | nothing isEmpty =>
    dsimp only
    rw [loadLatestCheckpoint, StateFiles.findLatestCheckpointId_of_nil isEmpty,
      if_pos rfl]
    constructor
    · intro _
      refine ⟨rfl, ?_⟩
      intro snapshot isLast
      cases isLast
    · intro _
      rfl
  | whole file newest positiveId snapshot stands =>
    dsimp only
    rw [loadLatestCheckpoint_of_newest newest positiveId, new,
      readSnapshot_of_stands roundTrips stands, Option.map_some, Option.some_inj]
    constructor
    · intro loaded
      refine ⟨rfl, ?_⟩
      intro other isOther
      cases isOther
      by_contra older
      rw [if_neg older] at loaded
      cases loaded
    · intro current
      rw [if_pos (current.2 snapshot rfl)]
      rfl
  | part file newest positiveId isPart last =>
    dsimp only at lastWritten ⊢
    rw [loadLatestCheckpoint_of_newest newest positiveId, new]
    constructor
    · intro loaded
      exfalso
      obtain ⟨result, isResult, isLast⟩ := Option.map_eq_some_iff.mp loaded
      cases result with
      | error error => cases isLast
      | ok snapshot =>
        cases isLast
        exact not_reads_part refuses isPart (lastWritten snapshot rfl) isResult
    · intro whole
      cases whole.1

end Recovery

/-! ## A small codec -/

/-- An archive of three bytes, of which the last one marks the root, in a frame that ends with
a byte of its own. -/
def byteCodec : SnapshotCodec ℕ where
  toBytes snapshot :=
    if snapshot.version < 256 ∧ snapshot.checkpointId < 256 ∧ snapshot.instruments = [] ∧
        snapshot.createdAtMs = 0 then
      some [UInt8.ofNat snapshot.version, UInt8.ofNat snapshot.checkpointId, 255]
    else none
  archivedRoot
    | [version, checkpointId, mark] =>
      if mark = 255 then
        some
          { version := version.toNat
            instruments := []
            checkpointId := checkpointId.toNat
            createdAtMs := 0 }
      else none
    | _ => none
  encodeAll bytes := some (bytes ++ [254])
  decodeAll bytes :=
    match bytes.getLast? with
    | none => some []
    | some last => if last = 254 then some bytes.dropLast else none

theorem byteCodec_roundTrips : byteCodec.RoundTrips where
  archived := by
    intro snapshot bytes isBytes
    obtain ⟨version, instruments, checkpointId, createdAtMs⟩ := snapshot
    simp only [byteCodec] at isBytes ⊢
    split_ifs at isBytes with inRange
    cases isBytes
    obtain ⟨isVersion, isId, none, zero⟩ := inRange
    have versionByte : (UInt8.ofNat version).toNat = version := by
      rw [UInt8.toNat_ofNat']
      omega
    have idByte : (UInt8.ofNat checkpointId).toNat = checkpointId := by
      rw [UInt8.toNat_ofNat']
      omega
    simp [versionByte, idByte, none, zero]
  encoded := by
    intro bytes contents isContents
    cases isContents
    simp [byteCodec]

/-- Two calls with snapshots of the current version, the second one with a crash after some
of its steps. -/
def twoAttempts (done : ℕ) : List (SaveAttempt ℕ) :=
  [{ snapshot := { version := 1, instruments := [], checkpointId := 7, createdAtMs := 0 }
     crash := none },
    { snapshot := { version := 1, instruments := [], checkpointId := 8, createdAtMs := 0 }
      crash := some done }]

def oneCheckpoint : StateStoreConfig where
  maxCheckpoints := 1
  compress := true

theorem twoAttempts_refused (done : ℕ) :
    byteCodec.RefusesParts oneCheckpoint ((twoAttempts done).map SaveAttempt.snapshot) where
  empty := by
    intro other _ read
    have nothing : readSnapshot byteCodec oneCheckpoint [] = none := rfl
    rw [nothing] at read
    cases read
  part := by
    intro snapshot member contents stands kept short other _ read
    have isContents : ∃ checkpointId ∈ [7, 8], contents = [1, checkpointId, 255, 254] := by
      obtain ⟨bytes, isBytes, isContents⟩ := stands
      cases List.mem_cons.mp member with
      | inl same =>
        cases same
        cases isBytes
        cases isContents
        exact ⟨7, by decide, rfl⟩
      | inr later =>
        cases List.mem_singleton.mp later
        cases isBytes
        cases isContents
        exact ⟨8, by decide, rfl⟩
    obtain ⟨checkpointId, isId, isAll⟩ := isContents
    have refused : ∀ id ∈ [(7 : UInt8), 8], ∀ cut < 4,
        (readSnapshot byteCodec oneCheckpoint ([1, id, 255, 254].take cut)).all
          (fun result => result.toOption.isNone) = true := by
      decide +kernel
    rw [isAll] at short read
    have isRefused := refused checkpointId isId kept short
    rw [read] at isRefused
    cases isRefused

theorem twoAttempts_few (done : ℕ) : (twoAttempts done).length + 1 < 2 ^ 64 := by
  change 3 < 2 ^ 64
  decide

/-- A crash in front of the removal of old files. -/
theorem written_recovers : Recovers byteCodec oneCheckpoint (twoAttempts 5) := by
  apply (recovers_iff (le_refl 1) (twoAttempts_few 5) byteCodec_roundTrips
    (twoAttempts_refused 5)).mpr
  refine ⟨by decide, ?_⟩
  intro snapshot isLast
  cases isLast
  rfl

/-- A crash behind the first byte: the file with the greatest number cannot be read, and the
whole one in front of it is not looked at. -/
theorem begun_not_recovers : (new oneCheckpoint (StoreSession.run byteCodec oneCheckpoint
      (twoAttempts 2)).files).loadLatestCheckpoint byteCodec
        (StoreSession.run byteCodec oneCheckpoint (twoAttempts 2)).files =
          some (.error .DecompressionError) ∧
      ¬Recovers byteCodec oneCheckpoint (twoAttempts 2) := by
  have failed : (new oneCheckpoint (StoreSession.run byteCodec oneCheckpoint
      (twoAttempts 2)).files).loadLatestCheckpoint byteCodec
        (StoreSession.run byteCodec oneCheckpoint (twoAttempts 2)).files =
          some (.error .DecompressionError) := by
    rfl
  refine ⟨failed, ?_⟩
  intro recovers
  rw [Recovers, failed] at recovers
  cases recovers

end StateStore

end QAExchange
