import QAExchange.Foundation.Runs
import QAExchange.Replication.LogReplicator

/-! # Failover

The coordinator of a node takes part in elections. The requests for votes and
their answers go through a network that is not part of a node.
-/

namespace QAExchange

structure FailoverConfig where
  minVotesRequired : ℕ

/-- `votesReceived` has the voters of each term. -/
structure FailoverCoordinator (Record : Type) where
  logReplicator : LogReplicator Record
  config : FailoverConfig
  votesReceived : ℕ → Option (List String)
  clusterNodes : List String

variable {Record : Type}

namespace FailoverCoordinator

def new (logReplicator : LogReplicator Record) (config : FailoverConfig)
    (clusterNodes : List String) : FailoverCoordinator Record where
  logReplicator := logReplicator
  config := config
  votesReceived _ := none
  clusterNodes := clusterNodes

def roleManager (coordinator : FailoverCoordinator Record) : RoleManager :=
  coordinator.logReplicator.roleManager

def onReplicator (change : LogReplicator Record → LogReplicator Record)
    (coordinator : FailoverCoordinator Record) : FailoverCoordinator Record :=
  { coordinator with logReplicator := change coordinator.logReplicator }

def onRoles (change : RoleManager → RoleManager) (coordinator : FailoverCoordinator Record) :
    FailoverCoordinator Record :=
  coordinator.onReplicator fun replicator => replicator.onRoles change

/-- One turn of `start_failover_detector` after the Master's heartbeat is overdue. -/
def detectFailure (coordinator : FailoverCoordinator Record) : FailoverCoordinator Record :=
  if coordinator.roleManager.role = .Slave then coordinator.onRoles RoleManager.becomeCandidate
  else coordinator

def voteCount (term : ℕ) (coordinator : FailoverCoordinator Record) : ℕ :=
  ((coordinator.votesReceived term).getD []).length

def registerSlaves (coordinator : FailoverCoordinator Record) : FailoverCoordinator Record :=
  coordinator.onReplicator fun replicator =>
    (coordinator.clusterNodes.filter fun node => node ≠ coordinator.roleManager.nodeId).foldl
      (fun replicator node => replicator.registerSlave node) replicator

def checkElectionResult (term : ℕ) (coordinator : FailoverCoordinator Record) :
    FailoverCoordinator Record :=
  if coordinator.config.minVotesRequired ≤ coordinator.voteCount term then
    (coordinator.onRoles RoleManager.becomeMaster).registerSlaves
  else coordinator

def startVotes (coordinator : FailoverCoordinator Record) : FailoverCoordinator Record :=
  { coordinator with
    votesReceived := Function.update (fun _ => none) coordinator.roleManager.currentTerm
      (some [coordinator.roleManager.nodeId]) }

def startElection (coordinator : FailoverCoordinator Record) : FailoverCoordinator Record :=
  if coordinator.roleManager.role ≠ .Candidate then coordinator
  else coordinator.startVotes.checkElectionResult coordinator.roleManager.currentTerm

def followTerm (term : ℕ) (roles : RoleManager) : RoleManager :=
  if roles.currentTerm < term then (roles.setTerm term).setRole .Slave else roles

def handleVoteRequest (candidateId : String) (candidateTerm lastLogSequence : ℕ)
    (coordinator : FailoverCoordinator Record) : (Bool × ℕ) × FailoverCoordinator Record :=
  let coordinator := coordinator.onRoles (followTerm candidateTerm)
  let currentTerm := coordinator.roleManager.currentTerm
  if currentTerm ≤ candidateTerm ∧ coordinator.roleManager.votedFor = none ∧
      coordinator.logReplicator.commitIndex ≤ lastLogSequence then
    ((true, currentTerm), coordinator.onRoles fun roles => (roles.voteFor candidateId).2)
  else ((false, currentTerm), coordinator)

def countVote (term : ℕ) (voterId : String) (coordinator : FailoverCoordinator Record) :
    FailoverCoordinator Record :=
  { coordinator with
    votesReceived := Function.update coordinator.votesReceived term
      (some ((coordinator.votesReceived term).getD [] ++ [voterId])) }

def handleVoteResponse (voterId : String) (granted : Bool) (term : ℕ)
    (coordinator : FailoverCoordinator Record) : FailoverCoordinator Record :=
  let currentTerm := coordinator.roleManager.currentTerm
  if coordinator.roleManager.role ≠ .Candidate then coordinator
  else if currentTerm < term then
    coordinator.onRoles fun roles => (roles.setTerm term).setRole .Slave
  else if granted ∧ term = currentTerm then
    (coordinator.countVote currentTerm voterId).checkElectionResult currentTerm
  else coordinator

end FailoverCoordinator

end QAExchange

/-! ## A cluster of nodes

The nodes exchange messages through a network that keeps every message: it can
deliver one late, before an older one, several times or never. Each handler runs
to its end before the next one of its node.
-/

namespace QAExchange

open Foundation FailoverCoordinator

variable {Record : Type}

inductive NodeEvent (Record : Type)
  | detectFailure
  | startElection
  | voteRequest (candidateId : String) (candidateTerm lastLogSequence : ℕ)
  | voteResponse (voterId : String) (granted : Bool) (term : ℕ)
  | appendLog (sequence : ℕ) (record : Record) (timestamp : ℤ)
  | createReplicationRequest (slaveId : String)
  | applyLogs (request : ReplicationRequest Record)
  | replicationResponse (slaveId : String) (response : ReplicationResponse)

inductive ClusterMessage (Record : Type)
  | voteRequest (candidateId : String) (candidateTerm lastLogSequence : ℕ)
  | voteResponse (candidateId voterId : String) (granted : Bool) (term : ℕ)
  | replicationRequest (slaveId : String) (request : ReplicationRequest Record)
  | replicationResponse (leaderId slaveId : String) (response : ReplicationResponse)
  deriving DecidableEq

def lastLogSequence (log : List (LogEntry Record)) : ℕ :=
  (log.getLast?.map LogEntry.sequence).getD 0

namespace FailoverCoordinator

def log (coordinator : FailoverCoordinator Record) : List (LogEntry Record) :=
  coordinator.logReplicator.pendingLogs

def handle : NodeEvent Record → FailoverCoordinator Record → FailoverCoordinator Record
  | .detectFailure, node => node.detectFailure
  | .startElection, node => node.startElection
  | .voteRequest candidateId candidateTerm lastLogSequence, node =>
    (node.handleVoteRequest candidateId candidateTerm lastLogSequence).2
  | .voteResponse voterId granted term, node => node.handleVoteResponse voterId granted term
  | .appendLog sequence record timestamp, node =>
    node.onReplicator fun replicator => (replicator.appendLog sequence record timestamp).2
  | .createReplicationRequest _, node => node
  | .applyLogs request, node => node.onReplicator fun replicator => (replicator.applyLogs request).2
  | .replicationResponse slaveId response, node =>
    node.onReplicator fun replicator => replicator.handleReplicationResponse slaveId response

def sends : NodeEvent Record → FailoverCoordinator Record → List (ClusterMessage Record)
  | .startElection, node =>
    if node.roleManager.role ≠ .Candidate then []
    else [.voteRequest node.roleManager.nodeId node.roleManager.currentTerm
      (QAExchange.lastLogSequence node.log)]
  | .voteRequest candidateId candidateTerm lastLogSequence, node =>
    let answer := (node.handleVoteRequest candidateId candidateTerm lastLogSequence).1
    [.voteResponse candidateId node.roleManager.nodeId answer.1 answer.2]
  | .createReplicationRequest slaveId, node =>
    ((node.logReplicator.createReplicationRequest slaveId).map
      (ClusterMessage.replicationRequest slaveId)).toList
  | .applyLogs request, node =>
    [.replicationResponse request.leaderId node.roleManager.nodeId
      (node.logReplicator.applyLogs request).1]
  | .detectFailure, _ | .voteResponse .., _ | .appendLog .., _ | .replicationResponse .., _ => []

end FailoverCoordinator

/-- `elected` is a history variable: the terms in which nodes became Master. -/
structure Cluster (Record : Type) where
  node : String → FailoverCoordinator Record
  network : List (ClusterMessage Record)
  elected : List (ℕ × String)

namespace Cluster

/-- The terms in which an event makes a node Master. -/
def wins (before after : FailoverCoordinator Record) : List (ℕ × String) :=
  if before.roleManager.role ≠ .Master ∧ after.roleManager.role = .Master then
    [(after.roleManager.currentTerm, after.roleManager.nodeId)]
  else []

def step (cluster : Cluster Record) (input : String × NodeEvent Record) : Cluster Record :=
  let before := cluster.node input.1
  let after := before.handle input.2
  { node := Function.update cluster.node input.1 after
    network := cluster.network ++ before.sends input.2
    elected := cluster.elected ++ wins before after }

def messageOf (input : String × NodeEvent Record) : Option (ClusterMessage Record) :=
  match input.2 with
  | .voteRequest candidateId candidateTerm lastLogSequence =>
    some (.voteRequest candidateId candidateTerm lastLogSequence)
  | .voteResponse voterId granted term => some (.voteResponse input.1 voterId granted term)
  | .applyLogs request => some (.replicationRequest input.1 request)
  | .replicationResponse slaveId response =>
    some (.replicationResponse input.1 slaveId response)
  | .detectFailure | .startElection | .appendLog .. | .createReplicationRequest _ => none

def Delivered (cluster : Cluster Record) (input : String × NodeEvent Record) : Prop :=
  ∀ message ∈ messageOf input, message ∈ cluster.network

/-- The nodes before they hear of each other. `setup` tells the role, the least
number of votes, the batch size and the known nodes of each. -/
structure Setup where
  role : String → NodeRole
  minVotesRequired : String → ℕ
  batchSize : String → ℕ
  clusterNodes : String → List String

def start (setup : Setup) : Cluster Record where
  node id := .new (.new (.new id (setup.role id)) (setup.batchSize id))
    ⟨setup.minVotesRequired id⟩ (setup.clusterNodes id)
  network := []
  elected := []

variable (cluster : Cluster Record) (input : String × NodeEvent Record)

theorem step_node_self : (cluster.step input).node input.1 =
    (cluster.node input.1).handle input.2 := Function.update_self ..

theorem step_node_other {id : String} (other : id ≠ input.1) :
    (cluster.step input).node id = cluster.node id := Function.update_of_ne other ..

theorem step_network : (cluster.step input).network =
    cluster.network ++ (cluster.node input.1).sends input.2 := rfl

theorem step_elected : (cluster.step input).elected =
    cluster.elected ++ wins (cluster.node input.1) ((cluster.node input.1).handle input.2) := rfl

variable {cluster input}

theorem of_replicationRequest_step
    (inNetwork : .replicationRequest slave request ∈ (cluster.step input).network) :
    .replicationRequest slave request ∈ cluster.network ∨
      input.2 = .createReplicationRequest slave ∧
        (cluster.node input.1).logReplicator.createReplicationRequest slave = some request := by
  rw [step_network, List.mem_append] at inNetwork
  apply inNetwork.imp_right
  intro new
  rcases input with ⟨id, event⟩
  cases event with
  | createReplicationRequest slaveId =>
    rw [sends, Option.mem_toList, Option.map_eq_some_iff] at new
    rcases new with ⟨created, isCreated, isSame⟩
    cases isSame
    exact ⟨rfl, isCreated⟩
  | startElection =>
    dsimp only [sends] at new
    split_ifs at new <;> simp at new
  | voteRequest candidateId candidateTerm lastLogSequence => simp [sends] at new
  | applyLogs applied => simp [sends] at new
  | detectFailure | voteResponse | appendLog | replicationResponse => cases new

theorem of_replicationResponse_step
    (inNetwork : .replicationResponse leader slave response ∈ (cluster.step input).network) :
    .replicationResponse leader slave response ∈ cluster.network ∨
      ∃ request, input.2 = .applyLogs request ∧ leader = request.leaderId ∧
        slave = (cluster.node input.1).roleManager.nodeId ∧
        response = ((cluster.node input.1).logReplicator.applyLogs request).1 := by
  rw [step_network, List.mem_append] at inNetwork
  apply inNetwork.imp_right
  intro new
  rcases input with ⟨id, event⟩
  cases event with
  | applyLogs request =>
    rw [sends, List.mem_singleton,
      ClusterMessage.replicationResponse.injEq] at new
    exact ⟨request, rfl, new⟩
  | startElection =>
    dsimp only [sends] at new
    split_ifs at new <;> simp at new
  | voteRequest candidateId candidateTerm lastLogSequence => simp [sends] at new
  | createReplicationRequest slaveId => simp [sends] at new
  | detectFailure | voteResponse | appendLog | replicationResponse => cases new

variable (cluster input)

theorem step_forall_node (holds : String → FailoverCoordinator Record → Prop)
    (before : ∀ id, holds id (cluster.node id))
    (handled : holds input.1 ((cluster.node input.1).handle input.2)) (id : String) :
    holds id ((cluster.step input).node id) := by
  by_cases same : id = input.1
  · subst same
    rw [step_node_self]
    exact handled
  · rw [step_node_other _ _ same]
    exact before id

end Cluster

end QAExchange
