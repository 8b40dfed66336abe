import QAExchange.Replication.Cluster

/-! # What the handlers of a node do

No handler takes back the vote of a term, only an election counts votes, and a
node becomes Master only with enough of them.
-/

namespace QAExchange

open RoleManager LogReplicator

variable {Record : Type}

structure RoleManager.Extends (before after : RoleManager) : Prop where
  nodeId : after.nodeId = before.nodeId
  term : before.currentTerm ≤ after.currentTerm
  vote : after.currentTerm = before.currentTerm → ∀ candidateId,
    before.votedFor = some candidateId → after.votedFor = some candidateId
  candidate : (before.role = .Candidate → before.votedFor = some before.nodeId) →
    after.role = .Candidate → after.votedFor = some after.nodeId

namespace RoleManager

theorem Extends.refl (roles : RoleManager) : Extends roles roles :=
  ⟨rfl, le_rfl, fun _ _ voted => voted, id⟩

theorem Extends.trans (early : Extends first second) (late : Extends second third) :
    Extends first third where
  nodeId := late.nodeId.trans early.nodeId
  term := early.term.trans late.term
  vote same candidateId voted := by
    have inSecond : second.currentTerm = first.currentTerm :=
      le_antisymm (same ▸ late.term) early.term
    exact late.vote (same.trans inSecond.symm) candidateId (early.vote inSecond candidateId voted)
  candidate self := late.candidate (early.candidate self)

theorem extends_setTerm {roles after : RoleManager} (nodeId : after.nodeId = roles.nodeId)
    (sameTerm : after.currentTerm = (roles.setTerm term).currentTerm)
    (sameVote : after.votedFor = (roles.setTerm term).votedFor) (slave : after.role ≠ .Candidate) :
    Extends roles after where
  nodeId := nodeId
  term := by
    rw [sameTerm, setTerm_currentTerm]
    exact le_max_left _ _
  vote same candidateId voted := by
    rw [sameTerm, setTerm_currentTerm] at same
    have reached : term ≤ roles.currentTerm := by
      rw [← same]
      exact le_max_right _ _
    rw [sameVote, setTerm_of_le reached, voted]
  candidate _ isCandidate := absurd isCandidate slave

theorem extends_stepDown (term : ℕ) (roles : RoleManager) :
    Extends roles ((roles.setTerm term).setRole .Slave) :=
  extends_setTerm (roles.setTerm_nodeId term) rfl rfl (by simp)

theorem extends_follow (term : ℕ) (masterId : String) (roles : RoleManager) :
    Extends roles ((roles.setTerm term).becomeSlave masterId) :=
  extends_setTerm (roles.setTerm_nodeId term) rfl rfl (by simp)

theorem extends_becomeMaster (roles : RoleManager) : Extends roles roles.becomeMaster :=
  ⟨rfl, le_rfl, fun _ _ voted => voted, fun _ isCandidate => by cases isCandidate⟩

theorem extends_becomeCandidate (roles : RoleManager) : Extends roles roles.becomeCandidate where
  nodeId := rfl
  term := by simp
  vote same := by simp at same
  candidate _ _ := rfl

theorem extends_followTerm (term : ℕ) (roles : RoleManager) :
    Extends roles (FailoverCoordinator.followTerm term roles) := by
  unfold FailoverCoordinator.followTerm
  split_ifs
  · exact extends_stepDown term roles
  · exact .refl roles

theorem extends_voteFor (candidateId : String) (roles : RoleManager) :
    Extends roles (roles.voteFor candidateId).2 := by
  rw [voteFor]
  cases noVote : roles.votedFor with
  | none =>
    refine ⟨rfl, le_rfl, fun _ other voted => ?_, fun self isCandidate => ?_⟩
    · rw [noVote] at voted
      cases voted
    · have voted := self isCandidate
      rw [noVote] at voted
      cases voted
  | some _ => exact .refl roles

end RoleManager

namespace FailoverCoordinator

variable (node : FailoverCoordinator Record)

@[simp] theorem onRoles_roleManager (change : RoleManager → RoleManager) :
    (node.onRoles change).roleManager = change node.roleManager := rfl

@[simp] theorem onRoles_votesReceived (change : RoleManager → RoleManager) :
    (node.onRoles change).votesReceived = node.votesReceived := rfl

@[simp] theorem onRoles_config (change : RoleManager → RoleManager) :
    (node.onRoles change).config = node.config := rfl

@[simp] theorem registerSlaves_roleManager :
    node.registerSlaves.roleManager = node.roleManager := by
  have kept : ∀ (slaves : List String) (replicator : LogReplicator Record),
      (slaves.foldl (fun replicator slave => replicator.registerSlave slave)
        replicator).roleManager = replicator.roleManager := by
    intro slaves
    induction slaves with
    | nil => exact fun _ => rfl
    | cons slave slaves induction => exact fun replicator => induction _
  exact kept _ _

@[simp] theorem registerSlaves_votesReceived :
    node.registerSlaves.votesReceived = node.votesReceived := rfl

@[simp] theorem registerSlaves_config : node.registerSlaves.config = node.config := rfl

theorem checkElectionResult_roleManager (term : ℕ) : (node.checkElectionResult term).roleManager =
      if node.config.minVotesRequired ≤ node.voteCount term then node.roleManager.becomeMaster
      else node.roleManager := by
  unfold checkElectionResult
  split_ifs <;> simp

@[simp] theorem checkElectionResult_votesReceived (term : ℕ) :
    (node.checkElectionResult term).votesReceived = node.votesReceived := by
  unfold checkElectionResult
  split_ifs <;> simp

@[simp] theorem checkElectionResult_config (term : ℕ) :
    (node.checkElectionResult term).config = node.config := by
  unfold checkElectionResult
  split_ifs <;> simp

theorem extends_checkElectionResult (term : ℕ) :
    node.roleManager.Extends (node.checkElectionResult term).roleManager := by
  rw [checkElectionResult_roleManager]
  split_ifs
  · exact extends_becomeMaster _
  · exact .refl _

theorem extends_handleVoteRequest (candidateId : String) (candidateTerm lastLogSequence : ℕ) :
    node.roleManager.Extends
      (node.handleVoteRequest candidateId candidateTerm lastLogSequence).2.roleManager := by
  have follows := extends_followTerm candidateTerm node.roleManager
  unfold handleVoteRequest
  dsimp only
  split_ifs
  · exact follows.trans (extends_voteFor candidateId _)
  · exact follows

theorem extends_handleVoteResponse (voterId : String) (granted : Bool) (term : ℕ) :
    node.roleManager.Extends (node.handleVoteResponse voterId granted term).roleManager := by
  unfold handleVoteResponse
  dsimp only
  split_ifs
  · exact .refl _
  · exact extends_stepDown term _
  · exact extends_checkElectionResult (node.countVote _ voterId) _
  · exact .refl _

theorem extends_applyLogs (request : ReplicationRequest Record)
    (replicator : LogReplicator Record) :
    replicator.roleManager.Extends (replicator.applyLogs request).2.roleManager := by
  rw [applyLogs_roleManager]
  split_ifs
  · exact .refl _
  · exact extends_follow _ _ _

theorem extends_handleReplicationResponse (slaveId : String) (response : ReplicationResponse)
    (replicator : LogReplicator Record) :
    replicator.roleManager.Extends
      (replicator.handleReplicationResponse slaveId response).roleManager := by
  unfold handleReplicationResponse
  split_ifs
  · exact .refl _
  · exact extends_stepDown response.term _
  · rw [updateCommitIndex_roleManager]
    exact .refl _
  · exact .refl _
  · exact .refl _

theorem handle_extends (event : NodeEvent Record) :
    node.roleManager.Extends (node.handle event).roleManager := by
  cases event with
  | detectFailure =>
    rw [handle, detectFailure]
    split_ifs
    · exact extends_becomeCandidate _
    · exact .refl _
  | startElection =>
    rw [handle, startElection]
    split_ifs
    · exact .refl _
    · exact extends_checkElectionResult node.startVotes _
  | voteRequest candidateId candidateTerm lastLogSequence =>
    exact node.extends_handleVoteRequest _ _ _
  | voteResponse voterId granted term => exact node.extends_handleVoteResponse _ _ _
  | appendLog sequence record timestamp =>
    rw [handle, onReplicator, roleManager, roleManager, appendLog]
    split_ifs <;> exact .refl _
  | createReplicationRequest slaveId => exact .refl _
  | applyLogs request => exact extends_applyLogs request _
  | replicationResponse slaveId response => exact extends_handleReplicationResponse _ _ _

theorem handleVoteRequest_granted {candidateId : String} {candidateTerm lastLogSequence : ℕ}
    (granted : (node.handleVoteRequest candidateId candidateTerm lastLogSequence).1.1 = true) :
    let after := (node.handleVoteRequest candidateId candidateTerm lastLogSequence).2.roleManager
    after.currentTerm =
      (node.handleVoteRequest candidateId candidateTerm lastLogSequence).1.2 ∧
    after.votedFor = some candidateId ∧
    (node.roleManager.currentTerm = after.currentTerm → node.roleManager.votedFor = none) := by
  revert granted
  unfold handleVoteRequest
  dsimp only
  split_ifs with canVote
  · intro _
    rcases canVote with ⟨_, noVote, _⟩
    rw [onRoles_roleManager] at noVote
    simp only [onRoles_roleManager, voteFor_of_none noVote, true_and]
    intro same
    unfold followTerm at same noVote
    split_ifs at same noVote with later
    · simp only [setRole_currentTerm, setTerm_currentTerm] at same
      omega
    · exact noVote
  · intro granted
    cases granted

theorem startElection_roleManager (candidate : node.roleManager.role = .Candidate) :
    node.startElection.roleManager.currentTerm = node.roleManager.currentTerm ∧
    node.startElection.roleManager.votedFor = node.roleManager.votedFor := by
  rw [startElection, if_neg (not_not.mpr candidate), checkElectionResult_roleManager]
  split_ifs <;> exact ⟨rfl, rfl⟩

@[simp] theorem checkElectionResult_clusterNodes (term : ℕ) :
    (node.checkElectionResult term).clusterNodes = node.clusterNodes := by
  unfold checkElectionResult
  split_ifs <;> rfl

theorem handle_settings (event : NodeEvent Record) :
    (node.handle event).clusterNodes = node.clusterNodes ∧
      (node.handle event).config = node.config := by
  cases event with
  | detectFailure =>
    rw [handle, detectFailure]
    split_ifs <;> exact ⟨rfl, rfl⟩
  | startElection =>
    rw [handle, startElection]
    split_ifs
    · exact ⟨rfl, rfl⟩
    · exact ⟨checkElectionResult_clusterNodes _ _, checkElectionResult_config _ _⟩
  | voteRequest candidateId candidateTerm lastLogSequence =>
    rw [handle, handleVoteRequest]
    split_ifs <;> exact ⟨rfl, rfl⟩
  | voteResponse voterId granted term =>
    rw [handle, handleVoteResponse]
    split_ifs
    · exact ⟨rfl, rfl⟩
    · exact ⟨rfl, rfl⟩
    · exact ⟨checkElectionResult_clusterNodes _ _, checkElectionResult_config _ _⟩
    · exact ⟨rfl, rfl⟩
  | appendLog | createReplicationRequest | applyLogs | replicationResponse => exact ⟨rfl, rfl⟩

theorem handle_votesReceived (event : NodeEvent Record) (term : ℕ) :
    (node.handle event).votesReceived term = node.votesReceived term ∨
    (node.handle event).votesReceived term = none ∨
    (event = .startElection ∧ node.roleManager.role = .Candidate ∧
      term = node.roleManager.currentTerm ∧
      (node.handle event).votesReceived term = some [node.roleManager.nodeId]) ∨
    ∃ voterId, event = .voteResponse voterId true term ∧
      node.roleManager.role = .Candidate ∧ term = node.roleManager.currentTerm ∧
      (node.handle event).votesReceived term =
        some ((node.votesReceived term).getD [] ++ [voterId]) := by
  cases event with
  | detectFailure =>
    left
    rw [handle, detectFailure]
    split_ifs <;> rfl
  | startElection =>
    rw [handle, startElection]
    split_ifs with other
    · exact .inl rfl
    · rw [checkElectionResult_votesReceived]
      right
      by_cases same : term = node.roleManager.currentTerm
      · subst same
        have counted := Function.update_self node.roleManager.currentTerm
          (some [node.roleManager.nodeId]) fun _ => none
        exact .inr (.inl ⟨rfl, not_not.mp other, rfl, counted⟩)
      · have forgot := Function.update_of_ne same (some [node.roleManager.nodeId]) fun _ => none
        exact .inl forgot
  | voteRequest candidateId candidateTerm lastLogSequence =>
    left
    rw [handle, handleVoteRequest]
    split_ifs <;> rfl
  | voteResponse voterId granted answered =>
    rw [handle, handleVoteResponse]
    split_ifs with other later counted
    · exact .inl rfl
    · exact .inl rfl
    · rcases counted with ⟨rfl, rfl⟩
      rw [checkElectionResult_votesReceived]
      by_cases same : term = node.roleManager.currentTerm
      · subst same
        have counted := Function.update_self node.roleManager.currentTerm
          (some ((node.votesReceived node.roleManager.currentTerm).getD [] ++ [voterId]))
          node.votesReceived
        exact .inr (.inr (.inr ⟨voterId, rfl, not_not.mp other, rfl, counted⟩))
      · exact .inl (Function.update_of_ne same _ _)
    · exact .inl rfl
  | appendLog | createReplicationRequest | applyLogs | replicationResponse => exact .inl rfl

theorem checkElectionResult_wins (other : node.roleManager.role ≠ .Master)
    (master : (node.checkElectionResult term).roleManager.role = .Master) :
    node.config.minVotesRequired ≤ node.voteCount term := by
  rw [checkElectionResult_roleManager] at master
  split_ifs at master with enough
  · exact enough
  · exact absurd master other

/-- Only a candidate becomes Master, when it starts an election or gets a vote for its term. -/
theorem handle_elects (other : node.roleManager.role ≠ .Master)
    (master : (node.handle event).roleManager.role = .Master) :
    node.roleManager.role = .Candidate ∧ (event = .startElection ∨
      ∃ voterId, event = .voteResponse voterId true node.roleManager.currentTerm) := by
  cases event with
  | detectFailure =>
    rw [handle, detectFailure] at master
    split_ifs at master
    · cases master
    · exact absurd master other
  | startElection =>
    rw [handle, startElection] at master
    split_ifs at master with noCandidate
    · exact absurd master other
    · exact ⟨not_not.mp noCandidate, .inl rfl⟩
  | voteRequest candidateId candidateTerm lastLogSequence =>
    have kept : ∀ candidateId (roles : RoleManager),
        (roles.voteFor candidateId).2.role = roles.role := by
      intro candidateId roles
      unfold voteFor
      split <;> rfl
    have follows : (role (followTerm candidateTerm node.roleManager)) ≠ .Master := by
      unfold followTerm
      split_ifs
      · simp
      · exact other
    rw [handle, handleVoteRequest] at master
    split_ifs at master
    · exact absurd ((kept _ _).symm.trans master) follows
    · exact absurd master follows
  | voteResponse voterId granted term =>
    rw [handle, handleVoteResponse] at master
    split_ifs at master with noCandidate later counted
    · exact absurd master other
    · cases master
    · rcases counted with ⟨rfl, rfl⟩
      exact ⟨not_not.mp noCandidate, .inr ⟨voterId, rfl⟩⟩
    · exact absurd master other
  | appendLog sequence record timestamp =>
    rw [handle, onReplicator, roleManager, appendLog] at master
    split_ifs at master <;> exact absurd master other
  | createReplicationRequest slaveId => exact absurd master other
  | applyLogs request =>
    rw [handle, onReplicator, roleManager, applyLogs_roleManager] at master
    split_ifs at master
    · exact absurd master other
    · cases master
  | replicationResponse slaveId response =>
    have same : node.logReplicator.handleReplicationResponse slaveId response =
        node.logReplicator := if_pos other
    rw [handle, onReplicator, same] at master
    exact absurd master other

def votesWith : NodeEvent Record → FailoverCoordinator Record → ℕ
  | .startElection, _ => 1
  | .voteResponse _ granted term, node =>
    if granted ∧ term = node.roleManager.currentTerm then node.voteCount term + 1 else 0
  | _, _ => 0

/-- A node becomes Master of its term when the event gives it enough votes. -/
theorem handle_master (other : node.roleManager.role ≠ .Master)
    (master : (node.handle event).roleManager.role = .Master) :
    node.config.minVotesRequired ≤ node.votesWith event ∧
    (node.handle event).voteCount node.roleManager.currentTerm = node.votesWith event ∧
    (node.handle event).roleManager.currentTerm = node.roleManager.currentTerm := by
  have counted : ∀ (counting : FailoverCoordinator Record) (term : ℕ),
      (counting.checkElectionResult term).roleManager.currentTerm =
        counting.roleManager.currentTerm := by
    intro counting term
    rw [checkElectionResult_roleManager]
    split_ifs <;> rfl
  rcases node.handle_elects other master with ⟨candidate, rfl | ⟨voterId, rfl⟩⟩
  · rw [handle, startElection, if_neg (not_not.mpr candidate)] at master ⊢
    have enough := checkElectionResult_wins node.startVotes other master
    have one : node.startVotes.voteCount node.roleManager.currentTerm = 1 := by
      simp [voteCount, startVotes]
    rw [one] at enough
    refine ⟨enough, ?_, counted node.startVotes _⟩
    rw [voteCount, checkElectionResult_votesReceived]
    exact one
  · have isVote : true = true ∧ node.roleManager.currentTerm = node.roleManager.currentTerm :=
      ⟨rfl, rfl⟩
    rw [handle, handleVoteResponse, if_neg (not_not.mpr candidate), if_neg (lt_irrefl _),
      if_pos isVote] at master ⊢
    have enough := checkElectionResult_wins (node.countVote _ voterId) other master
    have oneMore : (node.countVote node.roleManager.currentTerm voterId).voteCount
        node.roleManager.currentTerm = node.voteCount node.roleManager.currentTerm + 1 := by
      simp [voteCount, countVote]
    rw [oneMore] at enough
    rw [votesWith, if_pos isVote]
    refine ⟨enough, ?_, counted (node.countVote _ voterId) _⟩
    rw [voteCount, checkElectionResult_votesReceived]
    exact oneMore

/-- A node becomes Master only with enough votes for its term. -/
theorem handle_wins (event : NodeEvent Record) (other : node.roleManager.role ≠ .Master)
    (master : (node.handle event).roleManager.role = .Master) :
    node.config.minVotesRequired ≤
      (node.handle event).voteCount (node.handle event).roleManager.currentTerm := by
  rcases node.handle_master other master with ⟨enough, counted, sameTerm⟩
  rw [sameTerm, counted]
  exact enough

def appends : NodeEvent Record → FailoverCoordinator Record → List (LogEntry Record)
  | .appendLog sequence record timestamp, node =>
    if node.roleManager.role = .Master then
      [⟨sequence, node.roleManager.currentTerm, record, timestamp⟩]
    else []
  | .applyLogs request, node =>
    if request.term < node.roleManager.currentTerm then [] else request.entries
  | .detectFailure, _ | .startElection, _ | .voteRequest .., _ | .voteResponse .., _
  | .createReplicationRequest _, _ | .replicationResponse .., _ => []

@[simp] theorem onRoles_log (change : RoleManager → RoleManager) :
    (node.onRoles change).log = node.log := rfl

theorem registerSlaves_log_commitIndex :
    node.registerSlaves.log = node.log ∧
    node.registerSlaves.logReplicator.commitIndex = node.logReplicator.commitIndex := by
  have kept : ∀ (slaves : List String) (replicator : LogReplicator Record),
      (slaves.foldl (fun replicator slave => replicator.registerSlave slave)
        replicator).pendingLogs = replicator.pendingLogs ∧
      (slaves.foldl (fun replicator slave => replicator.registerSlave slave)
        replicator).commitIndex = replicator.commitIndex := by
    intro slaves
    induction slaves with
    | nil => exact fun _ => ⟨rfl, rfl⟩
    | cons slave slaves induction => exact fun replicator => induction _
  exact kept _ _

theorem checkElectionResult_log_commitIndex (term : ℕ) :
    (node.checkElectionResult term).log = node.log ∧
    (node.checkElectionResult term).logReplicator.commitIndex =
      node.logReplicator.commitIndex := by
  unfold checkElectionResult
  split_ifs
  · exact registerSlaves_log_commitIndex _
  · exact ⟨rfl, rfl⟩

def movesCommit : NodeEvent Record → Bool
  | .applyLogs _ | .replicationResponse .. => true
  | .detectFailure | .startElection | .voteRequest .. | .voteResponse .. | .appendLog ..
  | .createReplicationRequest _ => false

theorem handle_log (event : NodeEvent Record) :
    (node.handle event).log = node.log ++ node.appends event := by
  cases event with
  | detectFailure =>
    rw [handle, detectFailure, appends, List.append_nil]
    split_ifs <;> rfl
  | startElection =>
    rw [handle, startElection, appends, List.append_nil]
    split_ifs
    · rfl
    · exact (checkElectionResult_log_commitIndex node.startVotes _).1
  | voteRequest candidateId candidateTerm lastLogSequence =>
    rw [handle, handleVoteRequest, appends, List.append_nil]
    split_ifs <;> rfl
  | voteResponse voterId granted term =>
    rw [handle, handleVoteResponse, appends, List.append_nil]
    split_ifs
    · rfl
    · rfl
    · exact (checkElectionResult_log_commitIndex (node.countVote _ voterId) _).1
    · rfl
  | appendLog sequence record timestamp => exact appendLog_pendingLogs _ _ _ _
  | createReplicationRequest slaveId => exact (List.append_nil _).symm
  | applyLogs request => exact applyLogs_pendingLogs _ _
  | replicationResponse slaveId response =>
    rw [appends, List.append_nil]
    exact handleReplicationResponse_pendingLogs _ _ _

theorem handle_commitIndex_of_not_moves (still : movesCommit event = false) :
    (node.handle event).logReplicator.commitIndex = node.logReplicator.commitIndex := by
  cases event with
  | detectFailure =>
    rw [handle, detectFailure]
    split_ifs <;> rfl
  | startElection =>
    rw [handle, startElection]
    split_ifs
    · rfl
    · exact (checkElectionResult_log_commitIndex node.startVotes _).2
  | voteRequest candidateId candidateTerm lastLogSequence =>
    rw [handle, handleVoteRequest]
    split_ifs <;> rfl
  | voteResponse voterId granted term =>
    rw [handle, handleVoteResponse]
    split_ifs
    · rfl
    · rfl
    · exact (checkElectionResult_log_commitIndex (node.countVote _ voterId) _).2
    · rfl
  | appendLog sequence record timestamp =>
    rw [handle, onReplicator, appendLog]
    split_ifs <;> rfl
  | createReplicationRequest slaveId => rfl
  | applyLogs request => cases still
  | replicationResponse slaveId response => cases still

end FailoverCoordinator

end QAExchange
