import QAExchange.Replication.LogReplicator

/-! # The gRPC service of a node

The service has a term, a vote and a log of its own. Of the role manager that it
shares with the failover coordinator it only sets the role and the Master.
-/

namespace QAExchange

structure RecordCodec (Record : Type) where
  encode : Record → List UInt8
  decode : List UInt8 → Option Record
  encode_ne_nil : ∀ record, encode record ≠ []
  decode_encode : ∀ record, decode (encode record) = some record
  /-- The record that stands for bytes that are none. -/
  checkpoint : ℕ → ℤ → Record

structure ProtoLogEntry where
  sequence : ℕ
  term : ℕ
  recordData : List UInt8
  timestamp : ℤ
  deriving DecidableEq

structure AppendEntriesRequest where
  term : ℕ
  leaderId : String
  prevLogSequence : ℕ
  prevLogTerm : ℕ
  entries : List ProtoLogEntry
  leaderCommit : ℕ
  deriving DecidableEq

structure AppendEntriesResponse where
  term : ℕ
  success : Bool
  matchSequence : ℕ
  error : String
  deriving DecidableEq

structure VoteRequest where
  term : ℕ
  candidateId : String
  lastLogSequence : ℕ
  lastLogTerm : ℕ
  deriving DecidableEq

structure VoteResponse where
  term : ℕ
  voteGranted : Bool
  voterId : String
  deriving DecidableEq

structure ReplicationContext (Record : Type) where
  nodeId : String
  roleManager : RoleManager
  currentTerm : ℕ
  votedFor : Option String
  commitIndex : ℕ
  logStore : List (LogEntry Record)

variable {Record : Type}

def protoToInternalLogEntry (codec : RecordCodec Record) (proto : ProtoLogEntry) :
    LogEntry Record where
  sequence := proto.sequence
  term := proto.term
  record :=
    if proto.recordData = [] then codec.checkpoint proto.sequence proto.timestamp
    else (codec.decode proto.recordData).getD (codec.checkpoint proto.sequence proto.timestamp)
  timestamp := proto.timestamp

def internalToProtoLogEntry (codec : RecordCodec Record) (entry : LogEntry Record) :
    ProtoLogEntry where
  sequence := entry.sequence
  term := entry.term
  recordData := codec.encode entry.record
  timestamp := entry.timestamp

/-- Entries that are sent arrive as they are. -/
@[simp] theorem protoToInternal_internalToProto (codec : RecordCodec Record)
    (entry : LogEntry Record) :
    protoToInternalLogEntry codec (internalToProtoLogEntry codec entry) = entry := by
  unfold protoToInternalLogEntry internalToProtoLogEntry
  rw [if_neg (codec.encode_ne_nil _), codec.decode_encode, Option.getD_some]

namespace ReplicationContext

def new (nodeId : String) (roleManager : RoleManager) : ReplicationContext Record where
  nodeId := nodeId
  roleManager := roleManager
  currentTerm := 0
  votedFor := none
  commitIndex := 0
  logStore := []

def getLastLogInfo (context : ReplicationContext Record) : ℕ × ℕ := lastLog context.logStore

def checkLogConsistency (prevSequence prevTerm : ℕ) (context : ReplicationContext Record) : Bool :=
  if prevSequence = 0 then true
  else
    ((context.logStore.find? fun entry => entry.sequence = prevSequence).map
      fun entry => decide (entry.term = prevTerm)).getD false

def pushEntry (logs : List (LogEntry Record)) (entry : LogEntry Record) : List (LogEntry Record) :=
  (logs.filter fun old => old.sequence < entry.sequence ∨ old.term = entry.term) ++ [entry]

/-- The last sequence number, 0 for no entries, and the context with the entries in its log. -/
def appendEntries (entries : List (LogEntry Record)) (context : ReplicationContext Record) :
    ℕ × ReplicationContext Record :=
  ((entries.getLast?.map LogEntry.sequence).getD 0, { context with
    logStore := (entries.foldl pushEntry context.logStore).insertionSort
      fun first second => first.sequence ≤ second.sequence })

def updateCommitIndex (leaderCommit : ℕ) (context : ReplicationContext Record) :
    ReplicationContext Record :=
  let newCommit := min leaderCommit context.getLastLogInfo.1
  if context.commitIndex < newCommit then { context with commitIndex := newCommit } else context

@[simp] theorem updateCommitIndex_logStore (leaderCommit : ℕ)
    (context : ReplicationContext Record) :
    (context.updateCommitIndex leaderCommit).logStore = context.logStore := by
  unfold updateCommitIndex
  dsimp only
  split_ifs <;> rfl

def merged (entries logs : List (LogEntry Record)) : List (LogEntry Record) :=
  (entries.foldl pushEntry logs).insertionSort fun first second => first.sequence ≤ second.sequence

@[simp] theorem appendEntries_logStore (entries : List (LogEntry Record))
    (context : ReplicationContext Record) :
    (context.appendEntries entries).2.logStore = merged entries context.logStore := rfl

end ReplicationContext

namespace ReplicationServiceImpl

open ReplicationContext

def updateTerm (request : AppendEntriesRequest) (context : ReplicationContext Record) :
    ReplicationContext Record :=
  if context.currentTerm < request.term then
    { context with
      currentTerm := request.term
      votedFor := none
      roleManager := context.roleManager.becomeSlave request.leaderId }
  else context

/-- The stream does not forget the vote. -/
def updateTermOfStream (request : AppendEntriesRequest) (context : ReplicationContext Record) :
    ReplicationContext Record :=
  if context.currentTerm < request.term then
    { context with
      currentTerm := request.term
      roleManager := context.roleManager.becomeSlave request.leaderId }
  else context

def appendEntries (codec : RecordCodec Record) (request : AppendEntriesRequest)
    (context : ReplicationContext Record) : AppendEntriesResponse × ReplicationContext Record :=
  if request.term < context.currentTerm then
    (⟨context.currentTerm, false, 0, "Term outdated"⟩, context)
  else
    let context := updateTerm request context
    if context.checkLogConsistency request.prevLogSequence request.prevLogTerm = false then
      (⟨context.currentTerm, false, 0, "Log inconsistency"⟩, context)
    else
      let entries := request.entries.map (protoToInternalLogEntry codec)
      let appended :=
        if entries = [] then (context.getLastLogInfo.1, context)
        else context.appendEntries entries
      (⟨context.currentTerm, true, appended.1, ""⟩,
        appended.2.updateCommitIndex request.leaderCommit)

/-- One message of the stream. The answer carries the term from before the request. -/
def streamAppendEntries (codec : RecordCodec Record) (request : AppendEntriesRequest)
    (context : ReplicationContext Record) : AppendEntriesResponse × ReplicationContext Record :=
  let currentTerm := context.currentTerm
  if currentTerm ≤ request.term then
    let context := updateTermOfStream request context
    let entries := request.entries.map (protoToInternalLogEntry codec)
    let appended := context.appendEntries entries
    (⟨currentTerm, true, appended.1, ""⟩, appended.2.updateCommitIndex request.leaderCommit)
  else (⟨currentTerm, false, 0, "Term outdated"⟩, context)

@[simp] theorem updateTerm_logStore (request : AppendEntriesRequest)
    (context : ReplicationContext Record) :
    (updateTerm request context).logStore = context.logStore := by
  unfold updateTerm
  split_ifs <;> rfl

@[simp] theorem updateTermOfStream_logStore (request : AppendEntriesRequest)
    (context : ReplicationContext Record) :
    (updateTermOfStream request context).logStore = context.logStore := by
  unfold updateTermOfStream
  split_ifs <;> rfl

def LogOk (request : VoteRequest) (context : ReplicationContext Record) : Prop :=
  context.getLastLogInfo.2 < request.lastLogTerm ∨
    request.lastLogTerm = context.getLastLogInfo.2 ∧
      context.getLastLogInfo.1 ≤ request.lastLogSequence

instance decidableLogOk (request : VoteRequest) (context : ReplicationContext Record) :
    Decidable (LogOk request context) := inferInstanceAs (Decidable (_ ∨ _ ∧ _))

def requestVote (request : VoteRequest) (context : ReplicationContext Record) :
    VoteResponse × ReplicationContext Record :=
  if request.term < context.currentTerm then
    (⟨context.currentTerm, false, context.nodeId⟩, context)
  else
    let context :=
      if context.currentTerm < request.term then
        { context with
          currentTerm := request.term
          votedFor := none
          roleManager := context.roleManager.setRole .Slave }
      else context
    match context.votedFor with
    | none =>
      if LogOk request context then
        (⟨context.currentTerm, true, context.nodeId⟩,
          { context with votedFor := some request.candidateId })
      else (⟨context.currentTerm, false, context.nodeId⟩, context)
    | some candidateId =>
      (⟨context.currentTerm, decide (candidateId = request.candidateId), context.nodeId⟩, context)

end ReplicationServiceImpl

end QAExchange
