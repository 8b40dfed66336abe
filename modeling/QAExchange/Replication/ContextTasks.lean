import Mathlib.Algebra.Group.Nat.Defs
import QAExchange.Foundation.Interleaving
import QAExchange.Replication.InstallSnapshot

/-! # Requests that share a context

The handlers of the gRPC service run side by side. Each lock that a handler takes is a
step of its own. `append_entries` and `request_vote` hold the lock of the term over
several steps, the others let go of it at once.
-/

namespace QAExchange

open Foundation ReplicationServiceImpl

variable {Record : Type}

structure HeartbeatRequest where
  term : ℕ
  leaderId : String
  leaderCommit : ℕ
  timestamp : ℤ
  deriving DecidableEq

/-- Of the status only the lag, which is computed from the context. -/
structure HeartbeatResponse where
  term : ℕ
  nodeId : String
  lastLogSequence : ℕ
  healthy : Bool
  replicationLagMs : ℕ
  deriving DecidableEq

/-- The context and its locks. `votedIn` is a history variable: the term of the last vote. -/
structure SharedContext (Record : Type) where
  node : SnapshotContext Record
  termLocked : Bool
  voteLocked : Bool
  votedIn : ℕ

inductive ContextCall
  | appendEntries (request : AppendEntriesRequest)
  | heartbeat (request : HeartbeatRequest)
  | requestVote (request : VoteRequest)
  /-- A message that cannot be read is `none`. -/
  | streamAppendEntries (messages : List (Option AppendEntriesRequest))
  | installSnapshot (chunks : List (Option SnapshotChunk))

inductive ContextAnswer
  | append (response : AppendEntriesResponse)
  | heartbeat (response : HeartbeatResponse)
  | vote (response : VoteResponse)
  | stream (responses : List (Option AppendEntriesResponse))
  | snapshot (response : Option SnapshotResponse)
  deriving DecidableEq

/-- Who updates the commit index, and what comes after. -/
inductive CommitUpdate
  | append (response : AppendEntriesResponse)
  | heartbeat (term : ℕ)
  | stream (rest : List (Option AppendEntriesRequest))
      (responses : List (Option AppendEntriesResponse))
  deriving DecidableEq

/-- The point that a handler has reached: the next lock that it takes. -/
inductive ContextTask
  | appendTerm (request : AppendEntriesRequest)
  | appendVote (request : AppendEntriesRequest)
  | appendSlave (request : AppendEntriesRequest)
  | appendCheck (request : AppendEntriesRequest) (term : ℕ)
  | appendLog (request : AppendEntriesRequest) (term : ℕ)
  | commitRead (requestTerm leaderCommit : ℕ) (caller : CommitUpdate)
  | commitWrite (requestTerm newCommit : ℕ) (caller : CommitUpdate)
  | heartbeatRead (request : HeartbeatRequest)
  | heartbeatTerm (request : HeartbeatRequest) (term : ℕ)
  | heartbeatVote (request : HeartbeatRequest) (term : ℕ)
  | heartbeatSlave (request : HeartbeatRequest) (term : ℕ)
  | heartbeatStatus (term : ℕ)
  | heartbeatApplied (term commit : ℕ)
  | heartbeatLast (term replicationLagMs : ℕ)
  | voteTerm (request : VoteRequest)
  | voteVote (request : VoteRequest)
  | voteRole (request : VoteRequest)
  | voteLog (request : VoteRequest)
  | streamRead (messages : List (Option AppendEntriesRequest))
      (responses : List (Option AppendEntriesResponse))
  | streamTerm (request : AppendEntriesRequest) (term : ℕ)
      (rest : List (Option AppendEntriesRequest)) (responses : List (Option AppendEntriesResponse))
  | streamSlave (request : AppendEntriesRequest) (term : ℕ)
      (rest : List (Option AppendEntriesRequest)) (responses : List (Option AppendEntriesResponse))
  | streamLog (request : AppendEntriesRequest) (term : ℕ)
      (rest : List (Option AppendEntriesRequest)) (responses : List (Option AppendEntriesResponse))
  | snapshotRead (chunks : List (Option SnapshotChunk)) (progress : InstallProgress) (term : ℕ)
  | snapshotTerm (chunk : SnapshotChunk) (rest : List (Option SnapshotChunk))
      (progress : InstallProgress)
  | snapshotData (chunk : SnapshotChunk) (rest : List (Option SnapshotChunk))
      (progress : InstallProgress)
  | snapshotMetaTerm (chunk : SnapshotChunk) (progress : InstallProgress)
  | snapshotMetaCommit (chunk : SnapshotChunk) (progress : InstallProgress) (term : ℕ)
  | snapshotCommit (progress : InstallProgress) (term : ℕ)
  | snapshotApplied (progress : InstallProgress) (term : ℕ)
  | snapshotLog (progress : InstallProgress) (term : ℕ)
  | snapshotAnswer (progress : InstallProgress)
  | done (answer : ContextAnswer)
  deriving DecidableEq

namespace CommitUpdate

def next : CommitUpdate → ContextTask
  | .append response => .done (.append response)
  | .heartbeat term => .heartbeatStatus term
  | .stream rest responses => .streamRead rest responses

end CommitUpdate

namespace SharedContext

def context (shared : SharedContext Record) : ReplicationContext Record := shared.node.context

def onContext (change : ReplicationContext Record → ReplicationContext Record)
    (shared : SharedContext Record) : SharedContext Record :=
  { shared with node := { shared.node with context := change shared.node.context } }

def setTerm (term : ℕ) (shared : SharedContext Record) : SharedContext Record :=
  shared.onContext fun context => { context with currentTerm := term }

def resetVote (shared : SharedContext Record) : SharedContext Record :=
  shared.onContext fun context => { context with votedFor := none }

def becomeSlave (leaderId : String) (shared : SharedContext Record) : SharedContext Record :=
  shared.onContext fun context =>
    { context with roleManager := context.roleManager.becomeSlave leaderId }

def setDir (dir : SnapshotDir) (shared : SharedContext Record) : SharedContext Record :=
  { shared with node := { shared.node with dir := dir } }

end SharedContext

namespace ContextTask

def afterChunk (chunk : SnapshotChunk) (rest : List (Option SnapshotChunk))
    (progress : InstallProgress) : ContextTask :=
  if chunk.isLast then .snapshotCommit progress chunk.term
  else .snapshotRead rest progress chunk.term

def advance (codec : RecordCodec Record) (outcome : ChunkOutcome) (shared : SharedContext Record)
    (task : ContextTask) : ContextTask × SharedContext Record :=
  let currentTerm := shared.context.currentTerm
  match task with
  | .appendTerm request =>
    if shared.termLocked then (task, shared)
    else if request.term < currentTerm then
      (.done (.append ⟨currentTerm, false, 0, "Term outdated"⟩), shared)
    else if currentTerm < request.term then
      (.appendVote request, { shared.setTerm request.term with termLocked := true })
    else (.appendCheck request currentTerm, shared)
  | .appendVote request =>
    if shared.voteLocked then (task, shared) else (.appendSlave request, shared.resetVote)
  | .appendSlave request =>
    (.appendCheck request currentTerm,
      { shared.becomeSlave request.leaderId with termLocked := false })
  | .appendCheck request term =>
    if shared.context.checkLogConsistency request.prevLogSequence request.prevLogTerm = false then
      (.done (.append ⟨term, false, 0, "Log inconsistency"⟩), shared)
    else (.appendLog request term, shared)
  | .appendLog request term =>
    let entries := request.entries.map (protoToInternalLogEntry codec)
    if entries = [] then
      (.commitRead request.term request.leaderCommit
        (.append ⟨term, true, shared.context.getLastLogInfo.1, ""⟩), shared)
    else
      (.commitRead request.term request.leaderCommit
        (.append ⟨term, true, (shared.context.appendEntries entries).1, ""⟩),
        shared.onContext fun context => (context.appendEntries entries).2)
  | .commitRead requestTerm leaderCommit caller =>
    (.commitWrite requestTerm (min leaderCommit shared.context.getLastLogInfo.1) caller, shared)
  | .commitWrite _ newCommit caller =>
    (caller.next,
      if shared.context.commitIndex < newCommit then
        shared.onContext fun context => { context with commitIndex := newCommit }
      else shared)
  | .heartbeatRead request =>
    if shared.termLocked then (task, shared)
    else if currentTerm < request.term then (.heartbeatTerm request currentTerm, shared)
    else (.commitRead request.term request.leaderCommit (.heartbeat currentTerm), shared)
  | .heartbeatTerm request term =>
    if shared.termLocked then (task, shared)
    else (.heartbeatVote request term, shared.setTerm request.term)
  | .heartbeatVote request term =>
    if shared.voteLocked then (task, shared)
    else (.heartbeatSlave request term, shared.resetVote)
  | .heartbeatSlave request term =>
    (.commitRead request.term request.leaderCommit (.heartbeat term),
      shared.becomeSlave request.leaderId)
  | .heartbeatStatus term => (.heartbeatApplied term shared.context.commitIndex, shared)
  | .heartbeatApplied term commit =>
    (.heartbeatLast term ((commit - shared.node.lastApplied) * 10 % 2 ^ 64), shared)
  | .heartbeatLast term replicationLagMs =>
    (.done (.heartbeat ⟨term, shared.context.nodeId, shared.context.getLastLogInfo.1, true,
      replicationLagMs⟩), shared)
  | .voteTerm request =>
    if shared.termLocked then (task, shared)
    else (.voteVote request, { shared with termLocked := true })
  | .voteVote request =>
    if shared.voteLocked then (task, shared)
    else if request.term < currentTerm then
      (.done (.vote ⟨currentTerm, false, shared.context.nodeId⟩),
        { shared with termLocked := false })
    else if currentTerm < request.term then
      (.voteRole request, { (shared.setTerm request.term).resetVote with voteLocked := true })
    else
      match shared.context.votedFor with
      | none => (.voteLog request, { shared with voteLocked := true })
      | some candidateId =>
        (.done (.vote ⟨currentTerm, decide (candidateId = request.candidateId),
          shared.context.nodeId⟩), { shared with termLocked := false })
  | .voteRole request =>
    (.voteLog request, shared.onContext fun context =>
      { context with roleManager := context.roleManager.setRole .Slave })
  | .voteLog request =>
    if ReplicationServiceImpl.LogOk request shared.context then
      (.done (.vote ⟨currentTerm, true, shared.context.nodeId⟩),
        { shared.onContext fun context =>
            { context with votedFor := some request.candidateId } with
          termLocked := false
          voteLocked := false
          votedIn := currentTerm })
    else
      (.done (.vote ⟨currentTerm, false, shared.context.nodeId⟩),
        { shared with termLocked := false, voteLocked := false })
  | .streamRead [] responses => (.done (.stream responses), shared)
  | .streamRead (none :: rest) responses => (.streamRead rest (responses ++ [none]), shared)
  | .streamRead (some request :: rest) responses =>
    if shared.termLocked then (task, shared)
    else if request.term < currentTerm then
      (.streamRead rest (responses ++ [some ⟨currentTerm, false, 0, "Term outdated"⟩]), shared)
    else if currentTerm < request.term then
      (.streamTerm request currentTerm rest responses, shared)
    else (.streamLog request currentTerm rest responses, shared)
  | .streamTerm request term rest responses =>
    if shared.termLocked then (task, shared)
    else (.streamSlave request term rest responses, shared.setTerm request.term)
  | .streamSlave request term rest responses =>
    (.streamLog request term rest responses, shared.becomeSlave request.leaderId)
  | .streamLog request term rest responses =>
    let entries := request.entries.map (protoToInternalLogEntry codec)
    (.commitRead request.term request.leaderCommit (.stream rest
        (responses ++ [some ⟨term, true, (shared.context.appendEntries entries).1, ""⟩])),
      shared.onContext fun context => (context.appendEntries entries).2)
  | .snapshotRead [] progress term => (.snapshotCommit progress term, shared)
  | .snapshotRead (none :: _) _ _ => (.done (.snapshot none), shared)
  | .snapshotRead (some chunk :: rest) progress _ =>
    if shared.termLocked then (task, shared)
    else if currentTerm < chunk.term then (.snapshotTerm chunk rest progress, shared)
    else (.snapshotData chunk rest progress, shared)
  | .snapshotTerm chunk rest progress =>
    if shared.termLocked then (task, shared)
    else (.snapshotData chunk rest progress, shared.setTerm chunk.term)
  | .snapshotData chunk rest progress =>
    let written := shared.node.dir.writeData outcome progress.chunkIndex chunk.data
    if written.1 = none ∧ chunk.isLast then
      (.snapshotMetaTerm chunk progress, shared.setDir written.2)
    else (afterChunk chunk rest ((progress.receive chunk).wrote written.1),
      shared.setDir written.2)
  | .snapshotMetaTerm chunk progress =>
    if shared.termLocked then (task, shared)
    else (.snapshotMetaCommit chunk progress currentTerm, shared)
  | .snapshotMetaCommit chunk progress term =>
    let described := shared.node.dir.writeMeta outcome term shared.context.commitIndex
    (.snapshotCommit ((progress.receive chunk).wrote described.1) chunk.term,
      shared.setDir described.2)
  | .snapshotCommit progress term =>
    (.snapshotApplied progress term, shared.onContext fun context =>
      { context with commitIndex := progress.lastSequence })
  | .snapshotApplied progress term =>
    (.snapshotLog progress term,
      { shared with node := { shared.node with lastApplied := progress.lastSequence } })
  | .snapshotLog progress _ =>
    (.snapshotAnswer progress, shared.onContext fun context => { context with
      logStore := context.logStore.filter fun entry =>
        progress.lastSequence < entry.sequence })
  | .snapshotAnswer progress =>
    if shared.termLocked then (task, shared)
    else (.done (.snapshot (some ⟨currentTerm, progress.writeError.isNone,
      progress.writeError.getD "", progress.totalBytes⟩)), shared)
  | .done answer => (.done answer, shared)

end ContextTask

def contextService (codec : RecordCodec Record) :
    Service (SharedContext Record) ContextTask ContextCall ChunkOutcome where
  start
    | .appendEntries request => .appendTerm request
    | .heartbeat request => .heartbeatRead request
    | .requestVote request => .voteTerm request
    | .streamAppendEntries messages => .streamRead messages []
    | .installSnapshot chunks => .snapshotRead chunks .start 0
  advance := ContextTask.advance codec

namespace ContextTask

theorem solo_head {codec : RecordCodec Record} (outcome : ChunkOutcome)
    {task next : ContextTask} {shared after : SharedContext Record}
    {last : ContextTask × SharedContext Record}
    (advances : task.advance codec outcome shared = (next, after))
    (rest : (contextService codec).Solo (next, after) last) :
    (contextService codec).Solo (task, shared) last := by
  apply Service.Solo.head (contextService codec) outcome
  rw [← advances] at rest
  exact rest

theorem solo_commit (codec : RecordCodec Record) (outcome : ChunkOutcome)
    (shared : SharedContext Record) (requestTerm leaderCommit : ℕ) (caller : CommitUpdate) :
    (contextService codec).Solo (.commitRead requestTerm leaderCommit caller, shared)
      (caller.next, shared.onContext (ReplicationContext.updateCommitIndex leaderCommit)) := by
  have written : (ContextTask.commitWrite requestTerm
      (min leaderCommit shared.context.getLastLogInfo.1) caller).advance codec outcome shared =
      (caller.next, shared.onContext (ReplicationContext.updateCommitIndex leaderCommit)) := by
    unfold advance ReplicationContext.updateCommitIndex SharedContext.onContext
      SharedContext.context
    dsimp only
    split_ifs
    · rfl
    · rfl
  exact solo_head outcome rfl (solo_head outcome written .refl)

theorem solo_appendCheck (codec : RecordCodec Record) (outcome : ChunkOutcome)
    (request : AppendEntriesRequest) (shared : SharedContext Record)
    (current : shared.context.currentTerm = request.term) :
    (contextService codec).Solo (.appendCheck request shared.context.currentTerm, shared)
      (.done (.append (appendEntries codec request shared.context).1),
        shared.onContext fun context => (appendEntries codec request context).2) := by
  have sameTerm : updateTerm request shared.context = shared.context :=
    if_neg (Nat.not_lt.mpr current.ge)
  have answer : appendEntries codec request shared.context =
      if shared.context.checkLogConsistency request.prevLogSequence request.prevLogTerm = false then
        (⟨shared.context.currentTerm, false, 0, "Log inconsistency"⟩, shared.context)
      else
        let entries := request.entries.map (protoToInternalLogEntry codec)
        let appended := if entries = [] then (shared.context.getLastLogInfo.1, shared.context)
          else shared.context.appendEntries entries
        (⟨shared.context.currentTerm, true, appended.1, ""⟩,
          appended.2.updateCommitIndex request.leaderCommit) := by
    rw [appendEntries, if_neg (Nat.not_lt.mpr current.le), sameTerm]
  have context : (shared.onContext fun context =>
      (appendEntries codec request context).2) =
      shared.onContext fun _ =>
        (appendEntries codec request shared.context).2 := rfl
  rw [context, answer]
  by_cases inconsistent :
      shared.context.checkLogConsistency request.prevLogSequence request.prevLogTerm = false
  · rw [if_pos inconsistent]
    exact solo_head outcome (if_pos inconsistent) .refl
  · have checked : (ContextTask.appendCheck request shared.context.currentTerm).advance codec
        outcome shared = (.appendLog request shared.context.currentTerm, shared) :=
      if_neg inconsistent
    rw [if_neg inconsistent]
    dsimp only
    by_cases empty : request.entries.map (protoToInternalLogEntry codec) = []
    · have kept : (ContextTask.appendLog request shared.context.currentTerm).advance codec
          outcome shared = (.commitRead request.term request.leaderCommit
            (.append ⟨shared.context.currentTerm, true, shared.context.getLastLogInfo.1, ""⟩),
            shared) :=
        if_pos empty
      rw [if_pos empty]
      exact solo_head outcome checked
        (solo_head outcome kept (solo_commit codec outcome shared _ _ _))
    · have appended : (ContextTask.appendLog request shared.context.currentTerm).advance codec
          outcome shared = (.commitRead request.term request.leaderCommit
            (.append ⟨shared.context.currentTerm, true, (shared.context.appendEntries
              (request.entries.map (protoToInternalLogEntry codec))).1, ""⟩),
            shared.onContext fun context =>
              (context.appendEntries (request.entries.map (protoToInternalLogEntry codec))).2) :=
        if_neg empty
      rw [if_neg empty]
      exact solo_head outcome checked
        (solo_head outcome appended (solo_commit codec outcome _ _ _ _))

/-- A handler that finds the locks free and runs alone does what `appendEntries` does. -/
theorem solo_appendEntries (codec : RecordCodec Record) (outcome : ChunkOutcome)
    (request : AppendEntriesRequest) (anyLocks : SharedContext Record) :
    let shared := { anyLocks with termLocked := false, voteLocked := false }
    (contextService codec).Solo (.appendTerm request, shared)
      (.done (.append (appendEntries codec request shared.context).1),
        shared.onContext fun context => (appendEntries codec request context).2) := by
  intro shared
  have termFree : shared.termLocked = false := rfl
  have voteFree : shared.voteLocked = false := rfl
  clear_value shared
  have unlocked : ¬shared.termLocked = true := Bool.eq_false_iff.mp termFree
  rcases Nat.lt_trichotomy request.term shared.context.currentTerm with stale | same | higher
  · have answer : appendEntries codec request shared.context =
        (⟨shared.context.currentTerm, false, 0, "Term outdated"⟩, shared.context) :=
      if_pos stale
    have context : (shared.onContext fun context =>
        (appendEntries codec request context).2) =
        shared.onContext fun _ =>
          (appendEntries codec request shared.context).2 := rfl
    rw [context, answer]
    exact solo_head outcome ((if_neg unlocked).trans (if_pos stale)) .refl
  · have notStale : ¬request.term < shared.context.currentTerm := by omega
    have notHigher : ¬shared.context.currentTerm < request.term := by omega
    have began : (ContextTask.appendTerm request).advance codec outcome shared =
        (.appendCheck request shared.context.currentTerm, shared) :=
      (if_neg unlocked).trans ((if_neg notStale).trans (if_neg notHigher))
    exact solo_head outcome began (solo_appendCheck codec outcome request shared same.symm)
  · have notStale : ¬request.term < shared.context.currentTerm := by omega
    let inTerm : SharedContext Record := { shared.setTerm request.term with termLocked := true }
    have began : (ContextTask.appendTerm request).advance codec outcome shared =
        (.appendVote request, inTerm) :=
      (if_neg unlocked).trans ((if_neg notStale).trans (if_pos higher))
    have voted : (ContextTask.appendVote request).advance codec outcome inTerm =
        (.appendSlave request, inTerm.resetVote) :=
      if_neg (Bool.eq_false_iff.mp voteFree)
    let raised : SharedContext Record :=
      { inTerm.resetVote.becomeSlave request.leaderId with termLocked := false }
    have isRaised : raised.context =
        updateTerm request shared.context :=
      (if_pos higher).symm
    have sameAnswer : appendEntries codec request raised.context =
        appendEntries codec request shared.context := by
      have current : ¬request.term < raised.context.currentTerm := lt_irrefl request.term
      have twice : updateTerm request raised.context = raised.context :=
        if_neg (lt_irrefl request.term)
      rw [appendEntries, if_neg current, twice,
        appendEntries, if_neg notStale, isRaised]
    have alone := solo_appendCheck codec outcome request raised rfl
    have after : (raised.onContext fun context =>
        (appendEntries codec request context).2) =
        shared.onContext fun context =>
          (appendEntries codec request context).2 := by
      have left : (raised.onContext fun context =>
          (appendEntries codec request context).2) =
          raised.onContext fun _ =>
            (appendEntries codec request raised.context).2 := rfl
      rw [left, sameAnswer]
      unfold SharedContext.onContext
      rw [termFree]
      rfl
    rw [sameAnswer, after] at alone
    exact solo_head outcome began (solo_head outcome voted (solo_head outcome rfl alone))

end ContextTask

end QAExchange
