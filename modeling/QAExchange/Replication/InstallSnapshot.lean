import QAExchange.Replication.FollowerLog

/-! # Snapshots that a Master sends

A snapshot comes in chunks that are written to a file. After the last chunk, and also
after a stream that has ended too soon, the node takes over the place in the log that
the chunks name and drops its entries up to it.
-/

namespace QAExchange

structure SnapshotChunk where
  term : ℕ
  lastIncludedSequence : ℕ
  lastIncludedTerm : ℕ
  data : List UInt8
  isLast : Bool
  deriving DecidableEq

structure SnapshotResponse where
  term : ℕ
  success : Bool
  error : String
  bytesReceived : ℕ
  deriving DecidableEq

/-- The lines `term=`, `sequence=` and `timestamp=` of the file `snapshot.meta`. -/
structure SnapshotMeta where
  term : ℕ
  sequence : ℕ
  timestamp : ℤ

/-- The files `snapshot.dat` and `snapshot.meta`, where they are there and whole. -/
structure SnapshotDir where
  dat : Option (List UInt8)
  metaFile : Option SnapshotMeta

structure DiskFailure where
  error : String
  left : Option (List UInt8)

structure ChunkOutcome where
  failure : Option DiskFailure
  metaFailure : Option String
  timestamp : ℤ

/-- The context of a node with what only snapshots use. -/
structure SnapshotContext (Record : Type) where
  context : ReplicationContext Record
  lastApplied : ℕ
  dir : SnapshotDir

variable {Record : Type}

namespace SnapshotDir

/-- The data of a chunk: the first one makes the file, the others need one that is there. -/
def writeData (outcome : ChunkOutcome) (chunkIndex : ℕ) (data : List UInt8) (dir : SnapshotDir) :
    Option String × SnapshotDir :=
  match outcome.failure with
  | some failure => (some failure.error, { dir with dat := failure.left })
  | none =>
    if chunkIndex = 0 then (none, { dir with dat := some data })
    else
      match dir.dat with
      | some old => (none, { dir with dat := some (old ++ data) })
      | none => (some "No such file or directory (os error 2)", dir)

def writeMeta (outcome : ChunkOutcome) (term sequence : ℕ) (dir : SnapshotDir) :
    Option String × SnapshotDir :=
  match outcome.metaFailure with
  | some error => (some error, { dir with metaFile := none })
  | none => (none, { dir with metaFile := some ⟨term, sequence, outcome.timestamp⟩ })

end SnapshotDir

namespace SnapshotContext

def writeSnapshotChunk (outcome : ChunkOutcome) (chunkIndex : ℕ) (data : List UInt8)
    (isLast : Bool) (node : SnapshotContext Record) : Option String × SnapshotContext Record :=
  let written := node.dir.writeData outcome chunkIndex data
  match written.1 with
  | some error => (some error, { node with dir := written.2 })
  | none =>
    if isLast then
      let described :=
        written.2.writeMeta outcome node.context.currentTerm node.context.commitIndex
      (described.1, { node with dir := described.2 })
    else (none, { node with dir := written.2 })

def raiseTerm (term : ℕ) (node : SnapshotContext Record) : SnapshotContext Record :=
  if node.context.currentTerm < term then
    { node with context := { node.context with currentTerm := term } }
  else node

end SnapshotContext

structure InstallProgress where
  totalBytes : ℕ
  lastSequence : ℕ
  lastTerm : ℕ
  chunkIndex : ℕ
  writeError : Option String
  deriving DecidableEq

namespace InstallProgress

def start : InstallProgress where
  totalBytes := 0
  lastSequence := 0
  lastTerm := 0
  chunkIndex := 0
  writeError := none

def receive (chunk : SnapshotChunk) (progress : InstallProgress) : InstallProgress :=
  { progress with
    totalBytes := progress.totalBytes + chunk.data.length
    lastSequence := chunk.lastIncludedSequence
    lastTerm := chunk.lastIncludedTerm }

/-- The last error stays. -/
def wrote (error : Option String) (progress : InstallProgress) : InstallProgress :=
  { progress with
    writeError := error.or progress.writeError
    chunkIndex := progress.chunkIndex + 1 }

end InstallProgress

/-- Where the loop over the chunks stops, and whether it has seen the last one. -/
structure ReceivedChunks (Record : Type) where
  progress : InstallProgress
  sawLast : Bool
  node : SnapshotContext Record

def receiveChunks : List (SnapshotChunk × ChunkOutcome) → InstallProgress →
    SnapshotContext Record → ReceivedChunks Record
  | [], progress, node => ⟨progress, false, node⟩
  | (chunk, outcome) :: rest, progress, node =>
    let written := (node.raiseTerm chunk.term).writeSnapshotChunk outcome progress.chunkIndex
      chunk.data chunk.isLast
    let progress := (progress.receive chunk).wrote written.1
    if chunk.isLast then ⟨progress, true, written.2⟩
    else receiveChunks rest progress written.2

/-- The state of the node after the loop. -/
def takeOver (lastSequence : ℕ) (node : SnapshotContext Record) : SnapshotContext Record :=
  { node with
    context := { node.context with
      commitIndex := lastSequence
      logStore := node.context.logStore.filter fun entry => lastSequence < entry.sequence }
    lastApplied := lastSequence }

/-- `broken` tells whether the stream ends with an error, which the call returns at once. -/
def installSnapshot (chunks : List (SnapshotChunk × ChunkOutcome)) (broken : Bool)
    (node : SnapshotContext Record) : Option SnapshotResponse × SnapshotContext Record :=
  let received := receiveChunks chunks .start node
  if broken ∧ received.sawLast = false then (none, received.node)
  else
    (some ⟨received.node.context.currentTerm, received.progress.writeError.isNone,
      received.progress.writeError.getD "", received.progress.totalBytes⟩,
      takeOver received.progress.lastSequence received.node)

/-! ## A snapshot that is cut into chunks -/

structure Snapshot where
  term : ℕ
  lastIncludedSequence : ℕ
  lastIncludedTerm : ℕ

namespace Snapshot

def cut (snapshot : Snapshot) : List (List UInt8) → List SnapshotChunk
  | [] => []
  | data :: rest =>
    ⟨snapshot.term, snapshot.lastIncludedSequence, snapshot.lastIncludedTerm, data,
      rest = []⟩ :: snapshot.cut rest

def deliver (snapshot : Snapshot) (pieces : List (List UInt8)) (outcomes : List ChunkOutcome) :
    List (SnapshotChunk × ChunkOutcome) :=
  (snapshot.cut pieces).zip outcomes

end Snapshot

def AllWritten : List (List UInt8) → List ChunkOutcome → Prop
  | [], _ => False
  | _ :: _, [] => False
  | _ :: rest, outcome :: outcomes =>
    outcome.failure = none ∧ if rest = [] then outcome.metaFailure = none
      else AllWritten rest outcomes

instance decidableAllWritten : ∀ pieces outcomes, Decidable (AllWritten pieces outcomes)
  | [], _ => .isFalse id
  | _ :: _, [] => .isFalse id
  | _ :: rest, outcome :: outcomes =>
    have := decidableAllWritten rest outcomes
    inferInstanceAs (Decidable (outcome.failure = none ∧
      if rest = [] then outcome.metaFailure = none else AllWritten rest outcomes))

/-- A snapshot that does not arrive whole changes nothing, and one that does is in the files
and is where the log goes on. -/
structure HandsOver (codec : RecordCodec Record) (snapshot : Snapshot)
    (pieces : List (List UInt8)) (outcomes : List ChunkOutcome) (node : SnapshotContext Record)
    (after : SnapshotContext Record) : Prop where
  unchanged : ¬AllWritten pieces outcomes → after.context.logStore = node.context.logStore ∧
    after.context.commitIndex = node.context.commitIndex ∧ after.lastApplied = node.lastApplied
  data : AllWritten pieces outcomes → after.dir.dat = some pieces.flatten
  described : AllWritten pieces outcomes →
    after.dir.metaFile.map SnapshotMeta.sequence = some snapshot.lastIncludedSequence
  accepted : AllWritten pieces outcomes → ∀ request : AppendEntriesRequest,
    request.prevLogSequence = snapshot.lastIncludedSequence →
    request.prevLogTerm = snapshot.lastIncludedTerm →
    after.context.currentTerm ≤ request.term →
    (ReplicationServiceImpl.appendEntries codec request after.context).1.success = true

/-- A whole snapshot is one of an empty log for a node with nothing committed. From one that
is not whole, nothing is taken over that the node has not got. -/
def SnapshotFits (snapshot : Snapshot) (pieces : List (List UInt8)) (outcomes : List ChunkOutcome)
    (broken : Bool) (node : SnapshotContext Record) : Prop :=
  if AllWritten pieces outcomes then
    snapshot.lastIncludedSequence = 0 ∧ node.context.commitIndex = 0
  else
    broken = true ∧ (pieces = [] ∨ outcomes.length < pieces.length) ∨
      let lastSequence :=
        if pieces = [] ∨ outcomes = [] then 0 else snapshot.lastIncludedSequence
      node.context.commitIndex = lastSequence ∧ node.lastApplied = lastSequence ∧
        ∀ entry ∈ node.context.logStore, lastSequence < entry.sequence

instance (snapshot : Snapshot) (pieces : List (List UInt8)) (outcomes : List ChunkOutcome)
    (broken : Bool) (node : SnapshotContext Record) :
    Decidable (SnapshotFits snapshot pieces outcomes broken node) :=
  inferInstanceAs (Decidable (if AllWritten pieces outcomes then _ ∧ _ else _ ∨ _ ∧ _ ∧ _))

structure SameLog (before after : SnapshotContext Record) : Prop where
  logStore : after.context.logStore = before.context.logStore
  commitIndex : after.context.commitIndex = before.context.commitIndex
  lastApplied : after.lastApplied = before.lastApplied

theorem SameLog.trans {first second third : SnapshotContext Record} (left : SameLog first second)
    (right : SameLog second third) : SameLog first third where
  logStore := right.logStore.trans left.logStore
  commitIndex := right.commitIndex.trans left.commitIndex
  lastApplied := right.lastApplied.trans left.lastApplied

theorem sameLog_raiseTerm (term : ℕ) (node : SnapshotContext Record) :
    SameLog node (node.raiseTerm term) := by
  unfold SnapshotContext.raiseTerm
  split_ifs
  · exact ⟨rfl, rfl, rfl⟩
  · exact ⟨rfl, rfl, rfl⟩

theorem sameLog_writeSnapshotChunk (outcome : ChunkOutcome) (chunkIndex : ℕ) (data : List UInt8)
    (isLast : Bool) (node : SnapshotContext Record) :
    SameLog node (node.writeSnapshotChunk outcome chunkIndex data isLast).2 := by
  unfold SnapshotContext.writeSnapshotChunk
  dsimp only
  split
  · exact ⟨rfl, rfl, rfl⟩
  · split_ifs
    · exact ⟨rfl, rfl, rfl⟩
    · exact ⟨rfl, rfl, rfl⟩

theorem sameLog_receiveChunks (chunks : List (SnapshotChunk × ChunkOutcome))
    (progress : InstallProgress) (node : SnapshotContext Record) :
    SameLog node (receiveChunks chunks progress node).node := by
  induction chunks generalizing progress node with
  | nil => exact ⟨rfl, rfl, rfl⟩
  | cons first rest induction =>
    rcases first with ⟨chunk, outcome⟩
    have written := (sameLog_raiseTerm chunk.term node).trans
      (sameLog_writeSnapshotChunk outcome progress.chunkIndex chunk.data chunk.isLast
        (node.raiseTerm chunk.term))
    rw [receiveChunks]
    split_ifs
    · exact written
    · exact written.trans (induction _ _)

/-! ## What the loop has seen -/

section Delivery

variable (snapshot : Snapshot) (progress : InstallProgress) (node : SnapshotContext Record)

theorem sawLast_iff (pieces : List (List UInt8)) (outcomes : List ChunkOutcome) :
    (receiveChunks (snapshot.deliver pieces outcomes) progress node).sawLast = true ↔
      pieces ≠ [] ∧ pieces.length ≤ outcomes.length := by
  induction pieces generalizing outcomes progress node with
  | nil => exact iff_of_false Bool.false_ne_true fun both => both.1 rfl
  | cons data rest induction =>
    cases outcomes with
    | nil => exact iff_of_false Bool.false_ne_true fun both => by simp at both
    | cons outcome outcomes =>
      simp only [Snapshot.deliver, Snapshot.cut, List.zip_cons_cons, receiveChunks,
        decide_eq_true_eq]
      split_ifs with isLast
      · rw [isLast]
        simp
      · refine (induction _ _ outcomes).trans ?_
        simp [isLast]

theorem lastSequence_receiveChunks (pieces : List (List UInt8)) (outcomes : List ChunkOutcome) :
    (receiveChunks (snapshot.deliver pieces outcomes) progress node).progress.lastSequence =
      if pieces = [] ∨ outcomes = [] then progress.lastSequence
      else snapshot.lastIncludedSequence := by
  induction pieces generalizing outcomes progress node with
  | nil => rfl
  | cons data rest induction =>
    cases outcomes with
    | nil => rfl
    | cons outcome outcomes =>
      rw [if_neg (by simp)]
      simp only [Snapshot.deliver, Snapshot.cut, List.zip_cons_cons, receiveChunks,
        decide_eq_true_eq]
      split_ifs with isLast
      · rfl
      · refine (induction _ _ outcomes).trans ?_
        simp [InstallProgress.wrote, InstallProgress.receive]

/-- What the file has of the snapshot before the next chunk. -/
def WrittenSoFar (prior : List UInt8) (chunkIndex : ℕ) (dir : SnapshotDir) : Prop :=
  chunkIndex = 0 ∧ prior = [] ∨ chunkIndex ≠ 0 ∧ dir.dat = some prior

theorem writeData_of_writtenSoFar {outcome : ChunkOutcome}
    (soFar : WrittenSoFar prior chunkIndex dir) (works : outcome.failure = none)
    (data : List UInt8) :
    dir.writeData outcome chunkIndex data = (none, { dir with dat := some (prior ++ data) }) := by
  rw [SnapshotDir.writeData, works]
  rcases soFar with ⟨isFirst, isEmpty⟩ | ⟨notFirst, isPrior⟩
  · dsimp only
    rw [if_pos isFirst, isEmpty, List.nil_append]
  · dsimp only
    rw [if_neg notFirst, isPrior]

theorem dir_raiseTerm (term : ℕ) : (node.raiseTerm term).dir = node.dir := by
  unfold SnapshotContext.raiseTerm
  split_ifs <;> rfl

theorem dir_receiveChunks (written : AllWritten pieces outcomes)
    (soFar : WrittenSoFar prior progress.chunkIndex node.dir) :
    (receiveChunks (snapshot.deliver pieces outcomes) progress node).node.dir.dat =
        some (prior ++ pieces.flatten) ∧
      (receiveChunks (snapshot.deliver pieces outcomes) progress node).node.dir.metaFile.map
        SnapshotMeta.sequence = some node.context.commitIndex := by
  induction pieces generalizing outcomes progress node prior with
  | nil => exact absurd written id
  | cons data rest induction =>
    cases outcomes with
    | nil => exact absurd written id
    | cons outcome outcomes =>
      have works : outcome.failure = none := written.1
      have later := written.2
      rw [← dir_raiseTerm node snapshot.term] at soFar
      have dataWritten := writeData_of_writtenSoFar soFar works data
      have sameCommit := (sameLog_raiseTerm snapshot.term node).commitIndex
      simp only [Snapshot.deliver, Snapshot.cut, List.zip_cons_cons, receiveChunks,
        decide_eq_true_eq]
      split_ifs at later ⊢ with isLast
      · simp [SnapshotContext.writeSnapshotChunk, dataWritten, isLast, later,
          SnapshotDir.writeMeta, sameCommit]
      · have node_eq : (node.raiseTerm snapshot.term).writeSnapshotChunk outcome
            progress.chunkIndex data (decide (rest = [])) =
            (none, { node.raiseTerm snapshot.term with
              dir := { (node.raiseTerm snapshot.term).dir with
                dat := some (prior ++ data) } }) := by
          simp [SnapshotContext.writeSnapshotChunk, dataWritten, isLast]
        rw [node_eq]
        have next : WrittenSoFar (prior ++ data) ((progress.receive ⟨snapshot.term,
            snapshot.lastIncludedSequence, snapshot.lastIncludedTerm, data,
            decide (rest = [])⟩).wrote none).chunkIndex
            { (node.raiseTerm snapshot.term).dir with dat := some (prior ++ data) } :=
          .inr ⟨Nat.succ_ne_zero _, rfl⟩
        have rest := induction _ { node.raiseTerm snapshot.term with
          dir := { (node.raiseTerm snapshot.term).dir with
            dat := some (prior ++ data) } } later next
        rw [List.flatten_cons, ← List.append_assoc, ← sameCommit]
        exact rest

end Delivery

theorem AllWritten.lengths (written : AllWritten pieces outcomes) :
    pieces ≠ [] ∧ pieces.length ≤ outcomes.length := by
  induction pieces generalizing outcomes with
  | nil => exact absurd written id
  | cons data rest induction =>
    cases outcomes with
    | nil => exact absurd written id
    | cons outcome outcomes =>
      refine ⟨List.cons_ne_nil _ _, ?_⟩
      have later := written.2
      split_ifs at later with isLast
      · rw [isLast]
        simp
      · simpa using (induction later).2

theorem checkLogConsistency_takeOver (sequence term : ℕ) (node : SnapshotContext Record) :
    (takeOver sequence node).context.checkLogConsistency sequence term = decide (sequence = 0) := by
  rw [ReplicationContext.checkLogConsistency]
  split_ifs with isZero
  · exact (decide_eq_true isZero).symm
  · have gone : (takeOver sequence node).context.logStore.find?
        (fun entry => entry.sequence = sequence) = none := by
      rw [List.find?_eq_none]
      intro entry member isSequence
      have larger := of_decide_eq_true (List.mem_filter.mp member).2
      rw [of_decide_eq_true isSequence] at larger
      exact lt_irrefl _ larger
    rw [gone, decide_eq_false isZero]
    rfl

theorem updateTerm_checkLogConsistency (request : AppendEntriesRequest) (sequence term : ℕ)
    (context : ReplicationContext Record) :
    (ReplicationServiceImpl.updateTerm request context).checkLogConsistency sequence term =
      context.checkLogConsistency sequence term := by
  rw [ReplicationContext.checkLogConsistency, ReplicationServiceImpl.updateTerm_logStore]
  rfl

theorem success_iff (codec : RecordCodec Record) {request : AppendEntriesRequest}
    {context : ReplicationContext Record} (current : context.currentTerm ≤ request.term) :
    (ReplicationServiceImpl.appendEntries codec request context).1.success = true ↔
      context.checkLogConsistency request.prevLogSequence request.prevLogTerm = true := by
  rw [ReplicationServiceImpl.appendEntries, if_neg (Nat.not_lt.mpr current)]
  dsimp only
  rw [updateTerm_checkLogConsistency]
  split_ifs with inconsistent <;> simp [inconsistent]

theorem installSnapshot_snd {chunks : List (SnapshotChunk × ChunkOutcome)} {broken : Bool}
    {node : SnapshotContext Record}
    (ends : ¬(broken = true ∧ (receiveChunks chunks .start node).sawLast = false)) :
    (installSnapshot chunks broken node).2 =
      takeOver (receiveChunks chunks .start node).progress.lastSequence
        (receiveChunks chunks .start node).node := by
  rw [installSnapshot]
  rw [if_neg ends]

/-- A call hands a snapshot over exactly if the snapshot fits. -/
theorem installSnapshot_handsOver_iff (codec : RecordCodec Record) (snapshot : Snapshot)
    (pieces : List (List UInt8)) (outcomes : List ChunkOutcome) (broken : Bool)
    (node : SnapshotContext Record) :
    HandsOver codec snapshot pieces outcomes node
        (installSnapshot (snapshot.deliver pieces outcomes) broken node).2 ↔
      SnapshotFits snapshot pieces outcomes broken node := by
  have sawLast := sawLast_iff snapshot .start node pieces outcomes
  have lastSequence := lastSequence_receiveChunks snapshot .start node pieces outcomes
  have sameLog := sameLog_receiveChunks (snapshot.deliver pieces outcomes) .start node
  unfold SnapshotFits
  by_cases written : AllWritten pieces outcomes
  · have lengths := written.lengths
    have ends : ¬(broken = true ∧
        (receiveChunks (snapshot.deliver pieces outcomes) .start node).sawLast = false) := by
      rw [sawLast.mpr lengths]
      simp
    have files := dir_receiveChunks snapshot .start node written
      (.inl ⟨rfl, rfl⟩ : WrittenSoFar [] 0 node.dir)
    have someOutcome : ¬(pieces = [] ∨ outcomes = []) := by
      intro none
      rcases none with none | none
      · exact lengths.1 none
      · rw [none] at lengths
        exact lengths.1 (List.length_eq_zero_iff.mp (Nat.le_zero.mp lengths.2))
    rw [if_neg someOutcome] at lastSequence
    rw [if_pos written, installSnapshot_snd ends, lastSequence]
    constructor
    · intro handsOver
      have described := handsOver.described written
      have isZero : snapshot.lastIncludedSequence = 0 := by
        have accepted := handsOver.accepted written ⟨_, "", snapshot.lastIncludedSequence,
          snapshot.lastIncludedTerm, [], 0⟩ rfl rfl le_rfl
        rw [success_iff codec le_rfl, checkLogConsistency_takeOver] at accepted
        exact of_decide_eq_true accepted
      refine ⟨isZero, ?_⟩
      rw [← Option.some_inj, ← files.2, ← isZero]
      exact described
    · intro fits
      refine ⟨fun notWritten => absurd written notWritten, fun _ => files.1, fun _ => ?_, ?_⟩
      · rw [fits.1, ← fits.2]
        exact files.2
      · intro _ request isSequence isTerm current
        rw [success_iff codec current, isSequence, checkLogConsistency_takeOver]
        exact decide_eq_true fits.1
  · rw [if_neg written]
    have only : ∀ after : SnapshotContext Record,
        HandsOver codec snapshot pieces outcomes node after ↔ SameLog node after := by
      intro after
      constructor
      · intro handsOver
        have unchanged := handsOver.unchanged written
        exact ⟨unchanged.1, unchanged.2.1, unchanged.2.2⟩
      · intro same
        exact ⟨fun _ => ⟨same.logStore, same.commitIndex, same.lastApplied⟩,
          fun whole => absurd whole written, fun whole => absurd whole written,
          fun whole => absurd whole written⟩
    rw [only]
    by_cases returns : broken = true ∧
        (receiveChunks (snapshot.deliver pieces outcomes) .start node).sawLast = false
    · have incomplete : pieces = [] ∨ outcomes.length < pieces.length := by
        by_contra complete
        rw [not_or, not_lt] at complete
        rw [sawLast.mpr complete] at returns
        exact absurd returns.2 (by decide)
      refine iff_of_true ?_ (.inl ⟨returns.1, incomplete⟩)
      rw [installSnapshot]
      rw [if_pos returns]
      exact sameLog
    · have complete : ¬(broken = true ∧ (pieces = [] ∨ outcomes.length < pieces.length)) := by
        intro incomplete
        apply returns
        refine ⟨incomplete.1, ?_⟩
        rw [Bool.eq_false_iff, ne_eq, sawLast]
        intro both
        rcases incomplete.2 with none | short
        · exact both.1 none
        · exact absurd both.2 (not_le.mpr short)
      rw [installSnapshot_snd returns, lastSequence, or_iff_right complete]
      have started : InstallProgress.start.lastSequence = 0 := rfl
      rw [started]
      dsimp only
      constructor
      · intro same
        refine ⟨same.commitIndex.symm, same.lastApplied.symm, ?_⟩
        have kept := same.logStore
        dsimp only [takeOver] at kept
        rw [sameLog.logStore, List.filter_eq_self] at kept
        intro entry member
        exact of_decide_eq_true (kept entry member)
      · intro fits
        refine ⟨?_, fits.1.symm, fits.2.1.symm⟩
        dsimp only [takeOver]
        rw [sameLog.logStore, List.filter_eq_self]
        intro entry member
        exact decide_eq_true (fits.2.2 entry member)

def behindNode : SnapshotContext Unit where
  context :=
    { nodeId := "b"
      roleManager := .new "b" .Slave
      currentTerm := 1
      votedFor := none
      commitIndex := 0
      logStore := [⟨1, 1, (), 0⟩, ⟨2, 1, (), 0⟩] }
  lastApplied := 0
  dir := ⟨none, none⟩

def writes : ChunkOutcome where
  failure := none
  metaFailure := none
  timestamp := 0

def failsToWrite : ChunkOutcome where
  failure := some ⟨"No space left on device (os error 28)", some []⟩
  metaFailure := none
  timestamp := 0

def trivialCodec : RecordCodec Unit := FollowerCall.unitCodec

/-- A stream that breaks off before its end changes nothing. -/
example : SnapshotFits ⟨1, 2, 1⟩ [[1], [2]] [writes] true behindNode := by decide

/-- A snapshot whose only chunk is not written takes the entries of the node with it, and one
that is written is not where the Master can go on. -/
theorem notWritten_not_handsOver :
    ¬HandsOver trivialCodec ⟨1, 2, 1⟩ [[1]] [failsToWrite] behindNode
      (installSnapshot (Snapshot.deliver ⟨1, 2, 1⟩ [[1]] [failsToWrite]) false behindNode).2 ∧
    ¬HandsOver trivialCodec ⟨1, 2, 1⟩ [[1]] [writes] behindNode
      (installSnapshot (Snapshot.deliver ⟨1, 2, 1⟩ [[1]] [writes]) false behindNode).2 := by
  constructor
  · intro handsOver
    have unchanged := (handsOver.unchanged (by decide)).2.1
    revert unchanged
    decide
  · intro handsOver
    have accepted := handsOver.accepted (by decide) ⟨1, "a", 2, 1, [], 2⟩ rfl rfl (by decide)
    revert accepted
    decide

end QAExchange
