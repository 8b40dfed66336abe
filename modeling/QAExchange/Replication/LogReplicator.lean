import Mathlib.Data.List.AList
import Mathlib.Data.List.Sort
import QAExchange.Replication.RoleManager

/-! # Log replication

The log of a node, and what a Master knows about the logs of its slaves. The
records are of any type.
-/

namespace QAExchange

structure LogEntry (Record : Type) where
  sequence : ℕ
  term : ℕ
  record : Record
  timestamp : ℤ
  deriving DecidableEq

structure ReplicationRequest (Record : Type) where
  term : ℕ
  leaderId : String
  prevLogSequence : ℕ
  prevLogTerm : ℕ
  entries : List (LogEntry Record)
  leaderCommit : ℕ
  deriving DecidableEq

structure ReplicationResponse where
  term : ℕ
  success : Bool
  matchSequence : ℕ
  error : Option String
  deriving DecidableEq

structure LogReplicator (Record : Type) where
  roleManager : RoleManager
  batchSize : ℕ
  pendingLogs : List (LogEntry Record)
  slaveMatchIndex : AList fun _ : String => ℕ
  slaveNextIndex : AList fun _ : String => ℕ
  commitIndex : ℕ

variable {Record : Type}

/-- Sequence number and term at the end of a log, `(0, 0)` for an empty one. -/
def lastLog (log : List (LogEntry Record)) : ℕ × ℕ :=
  (log.getLast?.map fun entry => (entry.sequence, entry.term)).getD (0, 0)

theorem lastLog_concat (before : List (LogEntry Record)) (entry : LogEntry Record) :
    lastLog (before ++ [entry]) = (entry.sequence, entry.term) := by
  rw [lastLog, List.getLast?_concat]
  rfl

namespace LogReplicator

def new (roleManager : RoleManager) (batchSize : ℕ) : LogReplicator Record where
  roleManager := roleManager
  batchSize := batchSize
  pendingLogs := []
  slaveMatchIndex := ∅
  slaveNextIndex := ∅
  commitIndex := 0

def onRoles (change : RoleManager → RoleManager) (replicator : LogReplicator Record) :
    LogReplicator Record :=
  { replicator with roleManager := change replicator.roleManager }

def appendLog (sequence : ℕ) (record : Record) (timestamp : ℤ)
    (replicator : LogReplicator Record) : Except String Unit × LogReplicator Record :=
  if replicator.roleManager.role ≠ .Master then (.error "Only master can append logs", replicator)
  else
    let entry := ⟨sequence, replicator.roleManager.currentTerm, record, timestamp⟩
    (.ok (), { replicator with pendingLogs := replicator.pendingLogs ++ [entry] })

def nextIndex (slaveId : String) (replicator : LogReplicator Record) : ℕ :=
  (replicator.slaveNextIndex.lookup slaveId).getD 1

/-- The entries that `create_replication_request` sends. -/
def nextEntries (slaveId : String) (replicator : LogReplicator Record) : List (LogEntry Record) :=
  (replicator.pendingLogs.filter fun entry => replicator.nextIndex slaveId ≤ entry.sequence).take
    replicator.batchSize

/-- Sequence and term of the entry before the next one, `(0, 0)` if it is not there. -/
def previousLog (slaveId : String) (replicator : LogReplicator Record) : ℕ × ℕ :=
  if 1 < replicator.nextIndex slaveId then
    match replicator.pendingLogs.find? fun entry =>
        entry.sequence = replicator.nextIndex slaveId - 1 with
    | some entry => (entry.sequence, entry.term)
    | none => (0, 0)
  else (0, 0)

def createReplicationRequest (slaveId : String) (replicator : LogReplicator Record) :
    Option (ReplicationRequest Record) :=
  if replicator.roleManager.role ≠ .Master then none
  else if replicator.nextEntries slaveId = [] then none
  else some
    { term := replicator.roleManager.currentTerm
      leaderId := replicator.roleManager.nodeId
      prevLogSequence := (replicator.previousLog slaveId).1
      prevLogTerm := (replicator.previousLog slaveId).2
      entries := replicator.nextEntries slaveId
      leaderCommit := replicator.commitIndex }

def majorityIndex (matchIndex : AList fun _ : String => ℕ) : Option ℕ :=
  let indices := (matchIndex.entries.map Sigma.snd).insertionSort (· ≤ ·)
  indices[indices.length / 2]?

def updateCommitIndex (replicator : LogReplicator Record) : LogReplicator Record :=
  match majorityIndex replicator.slaveMatchIndex with
  | some index =>
    if replicator.commitIndex < index then { replicator with commitIndex := index }
    else replicator
  | none => replicator

def handleReplicationResponse (slaveId : String) (response : ReplicationResponse)
    (replicator : LogReplicator Record) : LogReplicator Record :=
  if replicator.roleManager.role ≠ .Master then replicator
  else if replicator.roleManager.currentTerm < response.term then
    replicator.onRoles fun roles => (roles.setTerm response.term).setRole .Slave
  else if response.success then
    updateCommitIndex { replicator with
      slaveMatchIndex := replicator.slaveMatchIndex.insert slaveId response.matchSequence
      slaveNextIndex := replicator.slaveNextIndex.insert slaveId (response.matchSequence + 1) }
  else if 1 < replicator.nextIndex slaveId then
    { replicator with slaveNextIndex :=
        replicator.slaveNextIndex.insert slaveId (replicator.nextIndex slaveId - 1) }
  else replicator

/-- The sequence number of the last entry of a request, 0 for an empty one. -/
def lastSequence (request : ReplicationRequest Record) : ℕ :=
  (request.entries.getLast?.map LogEntry.sequence).getD 0

/-- What a slave does with the entries of a Master. The answer carries the term
from before the request. -/
def applyLogs (request : ReplicationRequest Record) (replicator : LogReplicator Record) :
    ReplicationResponse × LogReplicator Record :=
  let currentTerm := replicator.roleManager.currentTerm
  if request.term < currentTerm then
    (⟨currentTerm, false, 0, some "Stale term"⟩, replicator)
  else
    let replicator := replicator.onRoles fun roles =>
      (roles.setTerm request.term).becomeSlave request.leaderId
    (⟨currentTerm, true, lastSequence request, none⟩, { replicator with
      pendingLogs := replicator.pendingLogs ++ request.entries
      commitIndex :=
        if replicator.commitIndex < request.leaderCommit then
          min request.leaderCommit (lastSequence request)
        else replicator.commitIndex })

def registerSlave (slaveId : String) (replicator : LogReplicator Record) : LogReplicator Record :=
  { replicator with
    slaveMatchIndex := replicator.slaveMatchIndex.insert slaveId 0
    slaveNextIndex := replicator.slaveNextIndex.insert slaveId 1 }

def unregisterSlave (slaveId : String) (replicator : LogReplicator Record) : LogReplicator Record :=
  { replicator with
    slaveMatchIndex := replicator.slaveMatchIndex.erase slaveId
    slaveNextIndex := replicator.slaveNextIndex.erase slaveId }

/-! ## What the methods change -/

variable (replicator : LogReplicator Record)

@[simp] theorem updateCommitIndex_roleManager :
    replicator.updateCommitIndex.roleManager = replicator.roleManager := by
  unfold updateCommitIndex
  split
  · split_ifs <;> rfl
  · rfl

@[simp] theorem updateCommitIndex_pendingLogs :
    replicator.updateCommitIndex.pendingLogs = replicator.pendingLogs := by
  unfold updateCommitIndex
  split
  · split_ifs <;> rfl
  · rfl

theorem appendLog_pendingLogs (sequence : ℕ) (record : Record) (timestamp : ℤ) :
    (replicator.appendLog sequence record timestamp).2.pendingLogs =
      replicator.pendingLogs ++
        if replicator.roleManager.role = .Master then
          [⟨sequence, replicator.roleManager.currentTerm, record, timestamp⟩]
        else [] := by
  unfold appendLog
  by_cases master : replicator.roleManager.role = .Master
  · rw [if_neg (not_not.mpr master), if_pos master]
  · rw [if_pos master, if_neg master, List.append_nil]

theorem handleReplicationResponse_pendingLogs (slaveId : String) (response : ReplicationResponse) :
    (replicator.handleReplicationResponse slaveId response).pendingLogs =
      replicator.pendingLogs := by
  unfold handleReplicationResponse
  split_ifs
  · rfl
  · rfl
  · exact updateCommitIndex_pendingLogs _
  · rfl
  · rfl

theorem applyLogs_pendingLogs (request : ReplicationRequest Record) :
    (replicator.applyLogs request).2.pendingLogs =
      replicator.pendingLogs ++
        if request.term < replicator.roleManager.currentTerm then [] else request.entries := by
  unfold applyLogs
  by_cases stale : request.term < replicator.roleManager.currentTerm
  · rw [if_pos stale, if_pos stale, List.append_nil]
  · rw [if_neg stale, if_neg stale]
    rfl

theorem applyLogs_commitIndex (request : ReplicationRequest Record) :
    (replicator.applyLogs request).2.commitIndex =
      if request.term < replicator.roleManager.currentTerm then replicator.commitIndex
      else if replicator.commitIndex < request.leaderCommit then
        min request.leaderCommit (lastSequence request)
      else replicator.commitIndex := by
  unfold applyLogs
  by_cases stale : request.term < replicator.roleManager.currentTerm
  · rw [if_pos stale, if_pos stale]
  · rw [if_neg stale, if_neg stale]
    rfl

theorem updateCommitIndex_commitIndex :
    replicator.updateCommitIndex.commitIndex =
      max replicator.commitIndex ((majorityIndex replicator.slaveMatchIndex).getD 0) := by
  unfold updateCommitIndex
  split
  · rename_i index majority
    rw [majority, Option.getD_some]
    split_ifs with higher
    · exact (Nat.max_eq_right (Nat.le_of_lt higher)).symm
    · exact (Nat.max_eq_left (Nat.le_of_not_lt higher)).symm
  · rename_i none
    rw [none]
    exact (Nat.max_eq_left (Nat.zero_le _)).symm

theorem handleReplicationResponse_commitIndex (slaveId : String) (response : ReplicationResponse) :
    (replicator.handleReplicationResponse slaveId response).commitIndex =
      if replicator.roleManager.role = .Master ∧
          response.term ≤ replicator.roleManager.currentTerm ∧ response.success = true then
        max replicator.commitIndex ((majorityIndex
          (replicator.slaveMatchIndex.insert slaveId response.matchSequence)).getD 0)
      else replicator.commitIndex := by
  unfold handleReplicationResponse
  by_cases heard : replicator.roleManager.role = .Master ∧
      response.term ≤ replicator.roleManager.currentTerm ∧ response.success = true
  · rw [if_pos heard, if_neg (not_not.mpr heard.1), if_neg (Nat.not_lt.mpr heard.2.1),
      if_pos heard.2.2, updateCommitIndex_commitIndex]
  · rw [if_neg heard]
    split_ifs with slave higher success
    · rfl
    · rfl
    · exact absurd ⟨not_not.mp slave, Nat.not_lt.mp higher, success⟩ heard
    · rfl
    · rfl

theorem applyLogs_roleManager (request : ReplicationRequest Record) :
    (replicator.applyLogs request).2.roleManager =
      if request.term < replicator.roleManager.currentTerm then replicator.roleManager
      else (replicator.roleManager.setTerm request.term).becomeSlave request.leaderId := by
  unfold applyLogs
  dsimp only
  split_ifs <;> rfl

end LogReplicator

end QAExchange
