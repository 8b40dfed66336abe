import QAExchange.Foundation.OrderedLog
import QAExchange.Replication.NodeHandlers

/-! # Log matching

A slave appends the entries of a request without a look at its own log. As long
as every request that it takes begins where its log ends, each log is the
beginning of a Master's log, and what a slave has confirmed is the same on both
sides.
-/

namespace QAExchange

open Foundation FailoverCoordinator LogReplicator

variable {Record : Type}

def AgreeUpTo (sequence : ℕ) (first second : List (LogEntry Record)) : Prop :=
  first.filter (fun entry => entry.sequence ≤ sequence) =
    second.filter (fun entry => entry.sequence ≤ sequence)

def Matched (sequence : ℕ) (first second : List (LogEntry Record)) : Prop :=
  ∃ before entry, before ++ [entry] <+: first ∧ before ++ [entry] <+: second ∧
    entry.sequence = sequence

def EndsAt (sequence : ℕ) (log : List (LogEntry Record)) : Prop :=
  ∃ before entry, log = before ++ [entry] ∧ entry.sequence = sequence

variable {sequence : ℕ} {first second : List (LogEntry Record)}

theorem EndsAt.matched (endsAt : EndsAt sequence common) (inFirst : common <+: first)
    (inSecond : common <+: second) : Matched sequence first second := by
  rcases endsAt with ⟨before, entry, rfl, same⟩
  exact ⟨before, entry, inFirst, inSecond, same⟩

theorem Matched.mono (matched : Matched sequence first second) (firstPrefix : first <+: longFirst)
    (secondPrefix : second <+: longSecond) : Matched sequence longFirst longSecond := by
  rcases matched with ⟨before, entry, inFirst, inSecond, same⟩
  exact ⟨before, entry, inFirst.trans firstPrefix, inSecond.trans secondPrefix, same⟩

theorem Matched.agreeUpTo (matched : Matched sequence first second)
    (firstAscending : Ascending LogEntry.sequence first)
    (secondAscending : Ascending LogEntry.sequence second) : AgreeUpTo sequence first second := by
  rcases matched with ⟨before, entry, inFirst, inSecond, rfl⟩
  rw [AgreeUpTo, firstAscending.filter_le_last inFirst, secondAscending.filter_le_last inSecond]

/-! ## What the handlers do to the indices of the slaves -/

namespace LogReplicator

theorem foldl_registerSlave_lookup (slaves : List String) (slaveId : String)
    (replicator : LogReplicator Record) :
    let after := slaves.foldl (fun replicator slave => replicator.registerSlave slave) replicator
    after.slaveMatchIndex.lookup slaveId =
      (if slaveId ∈ slaves then some 0 else replicator.slaveMatchIndex.lookup slaveId) ∧
    after.slaveNextIndex.lookup slaveId =
      (if slaveId ∈ slaves then some 1 else replicator.slaveNextIndex.lookup slaveId) := by
  induction slaves generalizing replicator with
  | nil => exact ⟨rfl, rfl⟩
  | cons slave slaves induction =>
    have later := induction (replicator.registerSlave slave)
    dsimp only at later ⊢
    rw [List.foldl_cons, later.1, later.2, registerSlave]
    by_cases same : slaveId = slave
    · subst same
      rw [AList.lookup_insert, AList.lookup_insert, if_pos (List.mem_cons_self ..),
        if_pos (List.mem_cons_self ..), ite_self, ite_self]
      exact ⟨rfl, rfl⟩
    · rw [AList.lookup_insert_ne same, AList.lookup_insert_ne same]
      simp only [List.mem_cons, same, false_or, and_self]

theorem updateCommitIndex_lookup (slaveId : String) (replicator : LogReplicator Record) :
    replicator.updateCommitIndex.slaveMatchIndex.lookup slaveId =
      replicator.slaveMatchIndex.lookup slaveId ∧
    replicator.updateCommitIndex.slaveNextIndex.lookup slaveId =
      replicator.slaveNextIndex.lookup slaveId := by
  unfold updateCommitIndex
  split
  · split_ifs <;> exact ⟨rfl, rfl⟩
  · exact ⟨rfl, rfl⟩

theorem handleReplicationResponse_lookup (slave : String) (response : ReplicationResponse)
    (slaveId : String) (replicator : LogReplicator Record) :
    let after := replicator.handleReplicationResponse slave response
    (slaveId = slave ∧ response.success = true ∧
      after.slaveMatchIndex.lookup slaveId = some response.matchSequence ∧
      after.slaveNextIndex.lookup slaveId = some (response.matchSequence + 1)) ∨
    (after.slaveMatchIndex.lookup slaveId = replicator.slaveMatchIndex.lookup slaveId ∧
      after.nextIndex slaveId ≤ replicator.nextIndex slaveId) := by
  unfold handleReplicationResponse
  split_ifs with other later success ahead
  · exact .inr ⟨rfl, le_rfl⟩
  · exact .inr ⟨rfl, le_rfl⟩
  · dsimp only
    rw [nextIndex, (updateCommitIndex_lookup slaveId _).1, (updateCommitIndex_lookup slaveId _).2]
    by_cases same : slaveId = slave
    · subst same
      rw [AList.lookup_insert, AList.lookup_insert]
      exact .inl ⟨rfl, success, rfl, rfl⟩
    · rw [AList.lookup_insert_ne same, AList.lookup_insert_ne same]
      exact .inr ⟨rfl, le_rfl⟩
  · refine .inr ⟨rfl, ?_⟩
    by_cases same : slaveId = slave
    · subst same
      dsimp only [nextIndex]
      rw [AList.lookup_insert, Option.getD_some]
      exact Nat.sub_le _ _
    · rw [nextIndex, AList.lookup_insert_ne same]
      exact le_rfl
  · exact .inr ⟨rfl, le_rfl⟩

variable {replicator : LogReplicator Record}

theorem handleReplicationResponse_heard (slaveId : String) {response : ReplicationResponse}
    (heard : replicator.roleManager.role = .Master ∧
      response.term ≤ replicator.roleManager.currentTerm ∧ response.success = true) :
    (replicator.handleReplicationResponse slaveId response).roleManager =
      replicator.roleManager ∧
    (replicator.handleReplicationResponse slaveId response).slaveMatchIndex =
      replicator.slaveMatchIndex.insert slaveId response.matchSequence := by
  rw [handleReplicationResponse, if_neg (not_not.mpr heard.1), if_neg (Nat.not_lt.mpr heard.2.1),
    if_pos heard.2.2]
  refine ⟨updateCommitIndex_roleManager _, ?_⟩
  unfold updateCommitIndex
  split
  · split_ifs <;> rfl
  · rfl

theorem createReplicationRequest_some
    (created : replicator.createReplicationRequest slaveId = some request) :
    request.term = replicator.roleManager.currentTerm ∧
      request.leaderId = replicator.roleManager.nodeId ∧
      request.entries = replicator.nextEntries slaveId ∧ replicator.nextEntries slaveId ≠ [] ∧
      (request.prevLogSequence, request.prevLogTerm) = replicator.previousLog slaveId ∧
      request.leaderCommit = replicator.commitIndex := by
  unfold createReplicationRequest at created
  split_ifs at created with _ some'
  rw [← Option.some.inj created]
  exact ⟨rfl, rfl, rfl, some', rfl, rfl⟩

theorem applyLogs_success (success : (replicator.applyLogs request).1.success = true) :
    replicator.roleManager.currentTerm ≤ request.term ∧
      (replicator.applyLogs request).1.matchSequence = lastSequence request := by
  revert success
  unfold applyLogs
  by_cases stale : request.term < replicator.roleManager.currentTerm
  · rw [if_pos stale]
    intro success
    cases success
  · rw [if_neg stale]
    exact fun _ => ⟨Nat.not_lt.mp stale, rfl⟩

end LogReplicator

namespace FailoverCoordinator

variable (node : FailoverCoordinator Record)

def matchIndex (slaveId : String) : Option ℕ := node.logReplicator.slaveMatchIndex.lookup slaveId

theorem registerSlaves_lookup (slaveId : String) :
    let registered := slaveId ∈ node.clusterNodes ∧ slaveId ≠ node.roleManager.nodeId
    node.registerSlaves.matchIndex slaveId =
      (if registered then some 0 else node.matchIndex slaveId) ∧
    node.registerSlaves.logReplicator.nextIndex slaveId =
      (if registered then 1 else node.logReplicator.nextIndex slaveId) := by
  rcases foldl_registerSlave_lookup
      (node.clusterNodes.filter fun id => id ≠ node.roleManager.nodeId) slaveId
      node.logReplicator with ⟨isMatch, isNext⟩
  simp only [List.mem_filter, decide_eq_true_eq] at isMatch isNext
  refine ⟨isMatch, (congrArg (Option.getD · 1) isNext).trans ?_⟩
  split_ifs <;> rfl

theorem checkElectionResult_lookup (term : ℕ) (slaveId : String) :
    ((node.checkElectionResult term).matchIndex slaveId = node.matchIndex slaveId ∨
      (node.checkElectionResult term).matchIndex slaveId = some 0 ∧
        slaveId ∈ node.clusterNodes ∧ slaveId ≠ node.roleManager.nodeId) ∧
    ((node.checkElectionResult term).logReplicator.nextIndex slaveId =
        node.logReplicator.nextIndex slaveId ∨
      (node.checkElectionResult term).logReplicator.nextIndex slaveId = 1) := by
  unfold checkElectionResult
  split_ifs
  · rcases (node.onRoles RoleManager.becomeMaster).registerSlaves_lookup slaveId with
      ⟨isMatch, isNext⟩
    rw [isMatch, isNext]
    by_cases registered : slaveId ∈ (node.onRoles RoleManager.becomeMaster).clusterNodes ∧
        slaveId ≠ (node.onRoles RoleManager.becomeMaster).roleManager.nodeId
    · rw [if_pos registered, if_pos registered]
      exact ⟨.inr ⟨rfl, registered⟩, .inr rfl⟩
    · rw [if_neg registered, if_neg registered]
      exact ⟨.inl rfl, .inl rfl⟩
  · exact ⟨.inl rfl, .inl rfl⟩

theorem checkElectionResult_registers (node : FailoverCoordinator Record)
    (other : node.roleManager.role ≠ .Master)
    (master : (node.checkElectionResult term).roleManager.role = .Master)
    (isNode : slave ∈ node.clusterNodes) (notSelf : slave ≠ node.roleManager.nodeId) :
    (node.checkElectionResult term).matchIndex slave = some 0 := by
  unfold checkElectionResult at master ⊢
  split_ifs at master ⊢
  · exact ((node.onRoles RoleManager.becomeMaster).registerSlaves_lookup slave).1.trans
      (if_pos ⟨isNode, notSelf⟩)
  · exact absurd master other

theorem handle_registers {node : FailoverCoordinator Record}
    (other : node.roleManager.role ≠ .Master)
    (master : (node.handle event).roleManager.role = .Master) (isNode : slave ∈ node.clusterNodes)
    (notSelf : slave ≠ node.roleManager.nodeId) :
    (node.handle event).matchIndex slave = some 0 := by
  rcases node.handle_elects other master with ⟨candidate, rfl | ⟨voterId, rfl⟩⟩
  · rw [handle, startElection, if_neg (not_not.mpr candidate)] at master ⊢
    exact checkElectionResult_registers node.startVotes other master isNode notSelf
  · have isVote : true = true ∧ node.roleManager.currentTerm = node.roleManager.currentTerm :=
      ⟨rfl, rfl⟩
    rw [handle, handleVoteResponse, if_neg (not_not.mpr candidate), if_neg (lt_irrefl _),
      if_pos isVote] at master ⊢
    exact checkElectionResult_registers (node.countVote _ voterId) other master isNode notSelf

theorem handle_lookup (event : NodeEvent Record) (slaveId : String) :
    (((node.handle event).matchIndex slaveId = node.matchIndex slaveId ∨
        (node.handle event).matchIndex slaveId = some 0 ∧
          slaveId ∈ node.clusterNodes ∧ slaveId ≠ node.roleManager.nodeId) ∧
      (node.handle event).logReplicator.nextIndex slaveId ≤
        max (node.logReplicator.nextIndex slaveId) 1) ∨
    ∃ response, event = .replicationResponse slaveId response ∧ response.success = true ∧
      (node.handle event).matchIndex slaveId = some response.matchSequence ∧
      (node.handle event).logReplicator.nextIndex slaveId = response.matchSequence + 1 := by
  have voted : ∀ (counting : FailoverCoordinator Record) (term : ℕ),
      counting.logReplicator = node.logReplicator → counting.clusterNodes = node.clusterNodes →
      ((counting.checkElectionResult term).matchIndex slaveId = node.matchIndex slaveId ∨
        (counting.checkElectionResult term).matchIndex slaveId = some 0 ∧
          slaveId ∈ node.clusterNodes ∧ slaveId ≠ node.roleManager.nodeId) ∧
      (counting.checkElectionResult term).logReplicator.nextIndex slaveId ≤
        max (node.logReplicator.nextIndex slaveId) 1 := by
    intro counting term same sameNodes
    rcases counting.checkElectionResult_lookup term slaveId with ⟨matchKept, nextKept⟩
    have sameMatch : counting.matchIndex slaveId = node.matchIndex slaveId :=
      congrArg (fun replicator => replicator.slaveMatchIndex.lookup slaveId) same
    rw [sameMatch, sameNodes, roleManager, same] at matchKept
    rw [same] at nextKept
    exact ⟨matchKept, by omega⟩
  cases event with
  | detectFailure =>
    rw [handle, detectFailure]
    split_ifs <;> exact .inl ⟨.inl rfl, le_max_left _ _⟩
  | startElection =>
    rw [handle, startElection]
    split_ifs
    · exact .inl ⟨.inl rfl, le_max_left _ _⟩
    · exact .inl (voted node.startVotes _ rfl rfl)
  | voteRequest candidateId candidateTerm lastLogSequence =>
    rw [handle, handleVoteRequest]
    split_ifs <;> exact .inl ⟨.inl rfl, le_max_left _ _⟩
  | voteResponse voterId granted term =>
    rw [handle, handleVoteResponse]
    split_ifs
    · exact .inl ⟨.inl rfl, le_max_left _ _⟩
    · exact .inl ⟨.inl rfl, le_max_left _ _⟩
    · exact .inl (voted (node.countVote _ voterId) _ rfl rfl)
    · exact .inl ⟨.inl rfl, le_max_left _ _⟩
  | appendLog sequence record timestamp =>
    rw [handle, onReplicator, appendLog]
    split_ifs <;> exact .inl ⟨.inl rfl, le_max_left _ _⟩
  | createReplicationRequest slave => exact .inl ⟨.inl rfl, le_max_left _ _⟩
  | applyLogs request =>
    rw [handle, onReplicator, applyLogs]
    dsimp only
    split_ifs <;> exact .inl ⟨.inl rfl, le_max_left _ _⟩
  | replicationResponse slave response =>
    rw [handle, onReplicator, matchIndex, nextIndex]
    dsimp only
    rcases node.logReplicator.handleReplicationResponse_lookup slave response slaveId with
      ⟨rfl, success, sameMatch, sameNext⟩ | ⟨sameMatch, lower⟩
    · refine .inr ⟨response, rfl, success, sameMatch, ?_⟩
      rw [sameNext, Option.getD_some]
    · exact .inl ⟨.inl sameMatch, lower.trans (le_max_left _ _)⟩

theorem handle_term_of_master (event : NodeEvent Record) (before : node.roleManager.role = .Master)
    (after : (node.handle event).roleManager.role = .Master) :
    (node.handle event).roleManager.currentTerm = node.roleManager.currentTerm := by
  have noSlave : node.roleManager.role ≠ .Slave := by simp [before]
  have noCandidate : node.roleManager.role ≠ .Candidate := by simp [before]
  cases event with
  | detectFailure => rw [handle, detectFailure, if_neg noSlave]
  | startElection => rw [handle, startElection, if_pos noCandidate]
  | voteRequest candidateId candidateTerm lastLogSequence =>
    have kept : ∀ roles : RoleManager, (roles.voteFor candidateId).2.role = roles.role ∧
        (roles.voteFor candidateId).2.currentTerm = roles.currentTerm := by
      intro roles
      unfold RoleManager.voteFor
      split <;> exact ⟨rfl, rfl⟩
    have follows : (followTerm candidateTerm node.roleManager).role = .Master →
        (followTerm candidateTerm node.roleManager).currentTerm =
          node.roleManager.currentTerm := by
      unfold followTerm
      split_ifs
      · intro isMaster
        cases isMaster
      · exact fun _ => rfl
    rw [handle, handleVoteRequest] at after ⊢
    split_ifs at after ⊢
    · exact (kept _).2.trans (follows ((kept _).1.symm.trans after))
    · exact follows after
  | voteResponse voterId granted term => rw [handle, handleVoteResponse, if_pos noCandidate]
  | appendLog sequence record timestamp =>
    rw [handle, onReplicator, appendLog]
    split_ifs <;> rfl
  | createReplicationRequest slaveId => rfl
  | applyLogs request =>
    have roles : (node.handle (.applyLogs request)).roleManager = _ :=
      node.logReplicator.applyLogs_roleManager request
    rw [roles] at after ⊢
    split_ifs at after ⊢
    · rfl
    · cases after
  | replicationResponse slaveId response =>
    rw [handle, onReplicator, roleManager, handleReplicationResponse] at after ⊢
    split_ifs at after ⊢
    · rfl
    · cases after
    · rw [updateCommitIndex_roleManager]
      rfl
    · rfl
    · rfl

end FailoverCoordinator

namespace Cluster

/-! ## The runs -/

def deploy (setup : Setup) : Cluster Record :=
  { start setup with
    node := fun id =>
      if setup.role id = .Master then ((start setup).node id).registerSlaves
      else (start setup).node id }

def Setup.MasteredBy (master : Option String) (setup : Setup) : Prop :=
  ∀ id, setup.role id = .Master ↔ master = some id

/-- The Masters with their terms. The first one is Master of term 0. -/
def rulers (master : Option String) (cluster : Cluster Record) : List (ℕ × String) :=
  master.toList.map (Prod.mk 0) ++ cluster.elected

def Successive (master : Option String) (cluster : Cluster Record)
    (input : String × NodeEvent Record) : Prop :=
  ∀ won ∈ wins (cluster.node input.1) ((cluster.node input.1).handle input.2),
    ∀ ruler ∈ cluster.rulers master, ruler.1 = won.1 → ruler.2 = won.2

def Increasing (cluster : Cluster Record) (input : String × NodeEvent Record) : Prop :=
  match input.2 with
  | .appendLog sequence _ _ =>
    (cluster.node input.1).roleManager.role = .Master →
      ∀ entry ∈ (cluster.node input.1).log, entry.sequence < sequence
  | _ => True

/-- Sequence numbers of a Master begin at 1, and a request that is not stale begins after
the last entry of the node that gets it. -/
def ContinuesLog (cluster : Cluster Record) (input : String × NodeEvent Record) : Prop :=
  match input.2 with
  | .appendLog sequence _ _ =>
    (cluster.node input.1).roleManager.role = .Master → 0 < sequence
  | .applyLogs request =>
    (cluster.node input.1).roleManager.currentTerm ≤ request.term →
      lastLog (cluster.node input.1).log = (request.prevLogSequence, request.prevLogTerm)
  | _ => True

/-- Every log is in increasing order, and a Master and a slave agree up to the match index. -/
structure LogsMatch (cluster : Cluster Record) : Prop where
  ascending : ∀ id, Ascending LogEntry.sequence (cluster.node id).log
  agree : ∀ master slave sequence, (cluster.node master).roleManager.role = .Master →
    (cluster.node master).matchIndex slave = some sequence →
      AgreeUpTo sequence (cluster.node slave).log (cluster.node master).log

/-- A request holds a piece of the log of the Master that sent it. It tells the end of what
comes before, unless the slave has entries already. -/
def Sent (cluster : Cluster Record) (slave : String) (request : ReplicationRequest Record) : Prop :=
  ∃ base, base ++ request.entries <+: (cluster.node request.leaderId).log ∧
    request.entries ≠ [] ∧
    (lastLog base = (request.prevLogSequence, request.prevLogTerm) ∨
      request.prevLogSequence = 0 ∧ (cluster.node slave).log ≠ [])

/-- What holds of the logs after every step. -/
structure LogsInvariant (master : Option String) (cluster : Cluster Record) : Prop where
  nodeId : ∀ id, (cluster.node id).roleManager.nodeId = id
  oneRuler : ∀ term first second, (term, first) ∈ cluster.rulers master →
    (term, second) ∈ cluster.rulers master → first = second
  rules : ∀ id, (cluster.node id).roleManager.role = .Master →
    ((cluster.node id).roleManager.currentTerm, id) ∈ cluster.rulers master
  positive : ∀ id, ∀ entry ∈ (cluster.node id).log, 0 < entry.sequence
  ascending : ∀ id, Ascending LogEntry.sequence (cluster.node id).log
  owned : ∀ id before entry, before ++ [entry] <+: (cluster.node id).log →
    ∃ owner, (entry.term, owner) ∈ cluster.rulers master ∧
      before ++ [entry] <+: (cluster.node owner).log
  sent : ∀ slave request, .replicationRequest slave request ∈ cluster.network →
    cluster.Sent slave request
  ahead : ∀ id slave, 1 < (cluster.node id).logReplicator.nextIndex slave →
    (cluster.node slave).log ≠ []
  answered : ∀ leader slave response,
    .replicationResponse leader slave response ∈ cluster.network → response.success = true →
      Matched response.matchSequence (cluster.node slave).log (cluster.node leader).log
  matched : ∀ id slave sequence, (cluster.node id).matchIndex slave = some sequence →
    sequence = 0 ∨ Matched sequence (cluster.node slave).log (cluster.node id).log

section Logs

variable {master : Option String} {cluster : Cluster Record}

theorem log_prefix_step (cluster : Cluster Record) (input : String × NodeEvent Record)
    (id : String) : (cluster.node id).log <+: ((cluster.step input).node id).log := by
  by_cases acts : id = input.1
  · subst acts
    rw [step_node_self, handle_log]
    exact List.prefix_append _ _
  · rw [step_node_other _ _ acts]

theorem rulers_step (cluster : Cluster Record) (input : String × NodeEvent Record) :
    (cluster.step input).rulers master = cluster.rulers master ++
      wins (cluster.node input.1) ((cluster.node input.1).handle input.2) := by
  rw [rulers, step_elected, ← List.append_assoc]
  rfl

theorem LogsInvariant.oneRuler_step (invariant : LogsInvariant master cluster)
    (successive : Successive master cluster input) (term : ℕ) (first second : String)
    (isFirst : (term, first) ∈ (cluster.step input).rulers master)
    (isSecond : (term, second) ∈ (cluster.step input).rulers master) : first = second := by
  rw [rulers_step, List.mem_append] at isFirst isSecond
  rcases isFirst with knownFirst | wonFirst
  · rcases isSecond with knownSecond | wonSecond
    · exact invariant.oneRuler term first second knownFirst knownSecond
    · exact successive _ wonSecond _ knownFirst rfl
  · rcases isSecond with knownSecond | wonSecond
    · exact (successive _ wonFirst _ knownSecond rfl).symm
    · unfold wins at wonFirst wonSecond
      split_ifs at wonFirst wonSecond
      · rw [List.mem_singleton] at wonFirst wonSecond
        exact congrArg Prod.snd (wonFirst.trans wonSecond.symm)
      · cases wonFirst

theorem LogsInvariant.rules_step (invariant : LogsInvariant master cluster) (id : String)
    (isMaster : ((cluster.step input).node id).roleManager.role = .Master) :
    (((cluster.step input).node id).roleManager.currentTerm, id) ∈
      (cluster.step input).rulers master := by
  rw [rulers_step]
  by_cases acts : id = input.1
  · subst acts
    rw [step_node_self] at isMaster ⊢
    by_cases was : (cluster.node input.1).roleManager.role = .Master
    · rw [handle_term_of_master _ _ was isMaster]
      exact List.mem_append_left _ (invariant.rules _ was)
    · apply List.mem_append_right
      have sameId := ((cluster.node input.1).handle_extends input.2).nodeId
      rw [wins, if_pos ⟨was, isMaster⟩, sameId, invariant.nodeId]
      exact List.mem_singleton_self _
  · rw [step_node_other _ _ acts] at isMaster ⊢
    exact List.mem_append_left _ (invariant.rules id isMaster)

section

variable (invariant : LogsInvariant master cluster)
include invariant

/-- A request that begins after the last entry of a slave extends the slave's log to a piece
of the Master's log. -/
theorem LogsInvariant.extends_log (isSent : cluster.Sent slave request)
    (continues : lastLog (cluster.node slave).log =
      (request.prevLogSequence, request.prevLogTerm)) :
    (cluster.node slave).log ++ request.entries <+: (cluster.node request.leaderId).log := by
  rcases isSent with ⟨base, within, _, info⟩
  have baseWithin : base <+: (cluster.node request.leaderId).log :=
    (List.prefix_append _ _).trans within
  have basePositive : ∀ entry ∈ base, 0 < entry.sequence :=
    fun entry member => invariant.positive _ entry (baseWithin.subset member)
  suffices same : (cluster.node slave).log = base by rwa [same]
  rcases List.eq_nil_or_concat' (cluster.node slave).log with empty | ⟨before, last, whole⟩
  · rw [empty] at continues info
    rcases info with sameLast | ⟨_, notEmpty⟩
    · rcases List.eq_nil_or_concat' base with none | ⟨early, end', rfl⟩
      · rw [empty, none]
      · rw [← continues, lastLog_concat] at sameLast
        have positive := basePositive end' (by simp)
        exact absurd (congrArg Prod.fst sameLast) (Nat.ne_of_gt positive)
    · exact absurd rfl notEmpty
  · have positive := invariant.positive slave last (by rw [whole]; simp)
    rw [whole, lastLog_concat] at continues
    rcases info with sameLast | ⟨first, _⟩
    · rw [← continues] at sameLast
      rcases List.eq_nil_or_concat' base with rfl | ⟨early, end', rfl⟩
      · exact absurd (congrArg Prod.fst sameLast) (Nat.ne_of_lt positive)
      · rw [lastLog_concat, Prod.mk.injEq] at sameLast
        rcases invariant.owned slave before last (by rw [whole]) with
          ⟨owner, rules, inOwner⟩
        rcases invariant.owned _ early end' baseWithin with ⟨owner', rules', inOwner'⟩
        rw [sameLast.2] at rules'
        rw [invariant.oneRuler _ _ _ rules' rules] at inOwner'
        rw [whole]
        exact (invariant.ascending owner).prefix_eq inOwner inOwner' sameLast.1.symm
    · rw [Prod.mk.injEq] at continues
      omega

/-- A log gets one entry of the node as a Master, or becomes a piece of the log of a node. -/
theorem LogsInvariant.log_step (delivered : Delivered cluster input)
    (increasing : Increasing cluster input) (continues : ContinuesLog cluster input) (id : String) :
    (∃ entry, ((cluster.step input).node id).log = (cluster.node id).log ++ [entry] ∧
      0 < entry.sequence ∧ (∀ earlier ∈ (cluster.node id).log, earlier.sequence < entry.sequence) ∧
      entry.term = (cluster.node id).roleManager.currentTerm ∧
      (entry.term, id) ∈ cluster.rulers master) ∨
    ∃ leader, ((cluster.step input).node id).log <+: (cluster.node leader).log := by
  by_cases acts : id = input.1
  · subst acts
    rw [step_node_self, handle_log]
    rcases input with ⟨id, event⟩
    have same : ∃ leader, (cluster.node id).log ++ [] <+: (cluster.node leader).log :=
      ⟨id, by rw [List.append_nil]⟩
    cases event with
    | appendLog sequence record timestamp =>
      dsimp only [appends]
      split_ifs with isMaster
      · have rules := invariant.rules id isMaster
        exact .inl ⟨_, rfl, continues isMaster, increasing isMaster, rfl, rules⟩
      · exact .inr same
    | applyLogs request =>
      dsimp only [appends]
      split_ifs with stale
      · exact .inr same
      · have isSent := invariant.sent id request (delivered _ rfl)
        exact .inr ⟨_, invariant.extends_log isSent (continues (Nat.not_lt.mp stale))⟩
    | detectFailure | startElection | voteRequest | voteResponse | createReplicationRequest
    | replicationResponse => exact .inr same
  · rw [step_node_other _ _ acts]
    exact .inr ⟨id, List.prefix_refl _⟩

theorem LogsInvariant.positive_step (delivered : Delivered cluster input)
    (increasing : Increasing cluster input) (continues : ContinuesLog cluster input) (id : String) :
    ∀ entry ∈ ((cluster.step input).node id).log, 0 < entry.sequence := by
  intro entry member
  rcases invariant.log_step delivered increasing continues id with
    ⟨new, appended, positive, _⟩ | ⟨leader, within⟩
  · rw [appended, List.mem_append, List.mem_singleton] at member
    rcases member with old | rfl
    · exact invariant.positive id entry old
    · exact positive
  · exact invariant.positive leader entry (within.subset member)

theorem LogsInvariant.ascending_step (delivered : Delivered cluster input)
    (increasing : Increasing cluster input) (continues : ContinuesLog cluster input) (id : String) :
    Ascending LogEntry.sequence ((cluster.step input).node id).log := by
  rcases invariant.log_step delivered increasing continues id with
    ⟨new, appended, _, above, _⟩ | ⟨leader, within⟩
  · rw [appended]
    exact ascending_append_singleton.mpr ⟨invariant.ascending id, above⟩
  · exact (invariant.ascending leader).of_initial within

theorem LogsInvariant.owned_step (delivered : Delivered cluster input)
    (increasing : Increasing cluster input) (continues : ContinuesLog cluster input) (id : String)
    (before : List (LogEntry Record)) (entry : LogEntry Record)
    (within : before ++ [entry] <+: ((cluster.step input).node id).log) :
    ∃ owner, (entry.term, owner) ∈ (cluster.step input).rulers master ∧
      before ++ [entry] <+: ((cluster.step input).node owner).log := by
  have known : ∀ holder, before ++ [entry] <+: (cluster.node holder).log →
      ∃ owner, (entry.term, owner) ∈ (cluster.step input).rulers master ∧
        before ++ [entry] <+: ((cluster.step input).node owner).log := by
    intro holder inHolder
    rcases invariant.owned holder before entry inHolder with ⟨owner, rules, inOwner⟩
    refine ⟨owner, ?_, inOwner.trans (log_prefix_step cluster input owner)⟩
    rw [rulers_step]
    exact List.mem_append_left _ rules
  rcases invariant.log_step delivered increasing continues id with
    ⟨new, appended, _, _, _, rules⟩ | ⟨leader, inLeader⟩
  · rw [appended] at within
    rcases List.prefix_concat_iff.mp within with whole | inside
    · rcases List.append_inj' whole rfl with ⟨rfl, sameEntry⟩
      cases sameEntry
      refine ⟨id, ?_, ?_⟩
      · rw [rulers_step]
        exact List.mem_append_left _ rules
      · rw [appended]
    · exact known id inside
  · exact known leader (within.trans inLeader)

end

theorem Sent.step (isSent : cluster.Sent slave request) (input : String × NodeEvent Record) :
    (cluster.step input).Sent slave request := by
  rcases isSent with ⟨base, within, some', info⟩
  refine ⟨base, within.trans (log_prefix_step cluster input _), some', info.imp_right ?_⟩
  exact fun known => ⟨known.1, (log_prefix_step cluster input slave).ne_nil known.2⟩

theorem LogsInvariant.sent_created (invariant : LogsInvariant master cluster) {id : String}
    (created : (cluster.node id).logReplicator.createReplicationRequest slave = some request) :
    cluster.Sent slave request := by
  rcases createReplicationRequest_some created with
    ⟨_, leader, entries, some', previous, _⟩
  replace leader : request.leaderId = id := leader.trans (invariant.nodeId id)
  have inOrder := invariant.ascending id
  refine ⟨(cluster.node id).log.filter fun entry =>
    entry.sequence < (cluster.node id).logReplicator.nextIndex slave, ?_, ?_, ?_⟩
  · rw [leader, entries]
    calc _ <+: _ := (List.prefix_append_right_inj _).mpr (List.take_prefix _ _)
      _ = (cluster.node id).log := inOrder.split _
  · rw [entries]
    exact some'
  rw [previous]
  unfold previousLog at previous ⊢
  by_cases ahead : 1 < (cluster.node id).logReplicator.nextIndex slave
  · rw [if_pos ahead] at previous ⊢
    cases found : (cluster.node id).logReplicator.pendingLogs.find? fun entry =>
        entry.sequence = (cluster.node id).logReplicator.nextIndex slave - 1 with
    | none =>
      rw [found] at previous
      exact .inr ⟨congrArg Prod.fst previous, invariant.ahead id slave ahead⟩
    | some entry =>
      have chosen := List.find?_some found
      have isPrevious := of_decide_eq_true chosen
      have isLast : ((cluster.node id).log.filter fun entry => entry.sequence <
          (cluster.node id).logReplicator.nextIndex slave).getLast? = some entry := by
        apply Ascending.getLast?_eq (List.Pairwise.filter _ inOrder)
        · rw [List.mem_filter, decide_eq_true_eq]
          exact ⟨List.mem_of_find?_eq_some found, by omega⟩
        · intro other member
          have below := of_decide_eq_true (List.mem_filter.mp member).2
          omega
      rw [lastLog, isLast]
      exact .inl rfl
  · rw [if_neg ahead] at previous ⊢
    have none : (cluster.node id).log.filter (fun entry =>
        entry.sequence < (cluster.node id).logReplicator.nextIndex slave) = [] := by
      rw [List.filter_eq_nil_iff]
      intro entry member below
      have positive := invariant.positive id entry member
      have isBelow := of_decide_eq_true below
      omega
    rw [none]
    exact .inl rfl

theorem LogsInvariant.sent_step (invariant : LogsInvariant master cluster) (slave : String)
    (request : ReplicationRequest Record)
    (inNetwork : .replicationRequest slave request ∈ (cluster.step input).network) :
    (cluster.step input).Sent slave request := by
  rcases of_replicationRequest_step inNetwork with known | ⟨_, isCreated⟩
  · exact (invariant.sent slave request known).step input
  · exact (invariant.sent_created isCreated).step input

theorem matched_step (cluster : Cluster Record) (input : String × NodeEvent Record)
    (matched : Matched sequence (cluster.node slave).log (cluster.node leader).log) :
    Matched sequence ((cluster.step input).node slave).log ((cluster.step input).node leader).log :=
  matched.mono (log_prefix_step cluster input slave) (log_prefix_step cluster input leader)

section

variable (invariant : LogsInvariant master cluster)
include invariant

theorem LogsInvariant.applied (delivered : Delivered cluster (slave, .applyLogs request))
    (continues : ContinuesLog cluster (slave, .applyLogs request))
    (fresh : (cluster.node slave).roleManager.currentTerm ≤ request.term) :
    ((cluster.node slave).handle (.applyLogs request)).log <+: (cluster.node request.leaderId).log ∧
    EndsAt (lastSequence request)
      ((cluster.node slave).handle (.applyLogs request)).log := by
  have isSent := invariant.sent slave request (delivered _ rfl)
  rw [handle_log, appends, if_neg (Nat.not_lt.mpr fresh)]
  refine ⟨invariant.extends_log isSent (continues fresh), ?_⟩
  rcases isSent with ⟨_, _, some', _⟩
  rcases List.eq_nil_or_concat' request.entries with none | ⟨early, last, entries⟩
  · exact absurd none some'
  · refine ⟨(cluster.node slave).log ++ early, last, ?_, ?_⟩
    · rw [entries, List.append_assoc]
    · rw [lastSequence, entries, List.getLast?_concat]
      rfl

theorem LogsInvariant.answered_step (delivered : Delivered cluster input)
    (continues : ContinuesLog cluster input) (leader slave : String)
    (response : ReplicationResponse)
    (inNetwork : .replicationResponse leader slave response ∈ (cluster.step input).network)
    (success : response.success = true) :
    Matched response.matchSequence ((cluster.step input).node slave).log
      ((cluster.step input).node leader).log := by
  rcases of_replicationResponse_step inNetwork with
    known | ⟨request, isEvent, rfl, isSlave, rfl⟩
  · exact matched_step cluster input (invariant.answered _ slave _ known success)
  · rw [invariant.nodeId] at isSlave
    subst isSlave
    rcases input with ⟨slave, event⟩
    cases isEvent
    rcases applyLogs_success success with ⟨fresh, sameSequence⟩
    rcases invariant.applied delivered continues fresh with ⟨within, endsAt⟩
    rw [sameSequence, step_node_self cluster (slave, _)]
    exact endsAt.matched (List.prefix_refl _) (within.trans (log_prefix_step cluster _ _))

theorem LogsInvariant.lookup_step (delivered : Delivered cluster input) (id slave : String) :
    (1 < ((cluster.step input).node id).logReplicator.nextIndex slave →
      ((cluster.step input).node slave).log ≠ []) ∧
    ∀ sequence, ((cluster.step input).node id).matchIndex slave = some sequence →
      sequence = 0 ∨ Matched sequence ((cluster.step input).node slave).log
        ((cluster.step input).node id).log := by
  have stillAhead : 1 < (cluster.node id).logReplicator.nextIndex slave →
      ((cluster.step input).node slave).log ≠ [] := fun isAhead =>
    (log_prefix_step cluster input slave).ne_nil (invariant.ahead id slave isAhead)
  have stillMatched : ∀ sequence, (cluster.node id).matchIndex slave = some sequence →
      sequence = 0 ∨ Matched sequence ((cluster.step input).node slave).log
        ((cluster.step input).node id).log := fun sequence isMatch =>
    (invariant.matched id slave sequence isMatch).imp_right (matched_step cluster input)
  by_cases acts : id = input.1
  · subst acts
    rw [step_node_self cluster input] at *
    rcases (cluster.node input.1).handle_lookup input.2 slave with
      ⟨sameMatch, nextKept⟩ | ⟨response, isResponse, success, newMatch, _⟩
    · refine ⟨fun isAhead => stillAhead (by omega), fun sequence isMatch => ?_⟩
      rcases sameMatch with same | ⟨zero, _⟩
      · rw [same] at isMatch
        exact stillMatched sequence isMatch
      · rw [zero] at isMatch
        exact .inl (Option.some.inj isMatch).symm
    · have inNetwork : .replicationResponse input.1 slave response ∈ cluster.network := by
        apply delivered
        rw [messageOf, isResponse]
        rfl
      have answered := matched_step cluster input
        (invariant.answered input.1 slave response inNetwork success)
      rw [step_node_self cluster input] at answered
      refine ⟨fun _ => ?_, fun sequence isMatch => ?_⟩
      · rcases answered with ⟨before, entry, within, _⟩
        exact within.ne_nil (List.concat_ne_nil entry before)
      · rw [newMatch] at isMatch
        rw [← Option.some.inj isMatch]
        exact .inr answered
  · rw [step_node_other _ _ acts] at *
    exact ⟨stillAhead, stillMatched⟩

theorem LogsInvariant.step (delivered : Delivered cluster input)
    (successive : Successive master cluster input) (increasing : Increasing cluster input)
    (continues : ContinuesLog cluster input) : LogsInvariant master (cluster.step input) where
  nodeId := step_forall_node cluster input (fun id node => node.roleManager.nodeId = id)
    invariant.nodeId (((cluster.node input.1).handle_extends input.2).nodeId.trans
      (invariant.nodeId _))
  oneRuler := invariant.oneRuler_step successive
  rules := invariant.rules_step
  positive := invariant.positive_step delivered increasing continues
  ascending := invariant.ascending_step delivered increasing continues
  owned := invariant.owned_step delivered increasing continues
  sent := invariant.sent_step
  ahead id slave := (invariant.lookup_step delivered id slave).1
  answered := invariant.answered_step delivered continues
  matched id slave := (invariant.lookup_step delivered id slave).2

end

variable (Record) in
theorem deploy_node (setup : Setup) (id : String) :
    let node := (deploy setup : Cluster Record).node id
    node.log = [] ∧ node.logReplicator.commitIndex = 0 ∧ node.roleManager.nodeId = id ∧
      node.roleManager.role = setup.role id ∧ node.roleManager.currentTerm = 0 ∧
      node.config.minVotesRequired = setup.minVotesRequired id ∧
      ∀ slave, node.logReplicator.nextIndex slave = 1 := by
  dsimp only [deploy]
  split_ifs
  · have kept := registerSlaves_log_commitIndex
      ((start setup : Cluster Record).node id)
    refine ⟨kept.1, kept.2, ?_, ?_, ?_, rfl, fun slave => ?_⟩
    · rw [registerSlaves_roleManager]
      rfl
    · rw [registerSlaves_roleManager]
      rfl
    · rw [registerSlaves_roleManager]
      rfl
    · rw [(((start setup : Cluster Record).node id).registerSlaves_lookup slave).2]
      split_ifs <;> rfl
  · exact ⟨rfl, rfl, rfl, rfl, rfl, rfl, fun _ => rfl⟩

theorem deploy_matchIndex (setup : Setup) (id slave : String) :
    ((deploy setup : Cluster Record).node id).matchIndex slave =
      if setup.role id = .Master ∧ slave ∈ setup.clusterNodes id ∧ slave ≠ id then some 0
      else none := by
  dsimp only [deploy]
  by_cases isMaster : setup.role id = .Master
  · rw [if_pos isMaster, (((start setup : Cluster Record).node id).registerSlaves_lookup slave).1]
    simp only [isMaster, true_and]
    rfl
  · rw [if_neg isMaster, if_neg fun registered => isMaster registered.1]
    rfl

theorem LogsInvariant.start {setup : Setup} (mastered : setup.MasteredBy master) :
    LogsInvariant master (deploy setup : Cluster Record) where
  nodeId id := (deploy_node Record setup id).2.2.1
  oneRuler term first second isFirst isSecond := by
    have only : ∀ id, (term, id) ∈ (deploy setup : Cluster Record).rulers master →
        master = some id := by
      intro id member
      rw [rulers, deploy, Cluster.start, List.append_nil, List.mem_map] at member
      rcases member with ⟨_, isMaster, same⟩
      rw [Option.mem_toList] at isMaster
      rw [Prod.mk.injEq] at same
      rw [← same.2]
      exact isMaster
    exact Option.some.inj ((only first isFirst).symm.trans (only second isSecond))
  rules id isMaster := by
    rcases deploy_node Record setup id with ⟨_, _, _, sameRole, sameTerm, _⟩
    rw [sameRole, mastered id] at isMaster
    rw [sameTerm, rulers, isMaster]
    exact List.mem_append_left _ (List.mem_singleton_self _)
  positive id entry member := by
    rw [(deploy_node Record setup id).1] at member
    cases member
  ascending id := by
    rw [(deploy_node Record setup id).1]
    exact List.Pairwise.nil
  owned id before entry within := by
    rw [(deploy_node Record setup id).1, List.prefix_nil] at within
    exact absurd within (List.concat_ne_nil entry before)
  sent _ _ member := by cases member
  ahead id slave isAhead := by
    have first := (deploy_node Record setup id).2.2.2.2.2.2 slave
    omega
  answered _ _ _ member := by cases member
  matched id slave sequence isMatch := by
    left
    rw [deploy_matchIndex] at isMatch
    split_ifs at isMatch
    exact (Option.some.inj isMatch).symm

theorem LogsInvariant.logsMatch (invariant : LogsInvariant master cluster) : cluster.LogsMatch where
  ascending := invariant.ascending
  agree id slave sequence _ isMatch := by
    rcases invariant.matched id slave sequence isMatch with rfl | matched
    · have none : ∀ holder, (cluster.node holder).log.filter
          (fun entry => entry.sequence ≤ 0) = [] := by
        intro holder
        rw [List.filter_eq_nil_iff]
        intro entry member atMost
        have positive := invariant.positive holder entry member
        have isZero := of_decide_eq_true atMost
        omega
      rw [AgreeUpTo, none, none]
    · exact matched.agreeUpTo (invariant.ascending slave) (invariant.ascending id)

theorem deploy_votesReceived (setup : Setup) (id : String) (term : ℕ) :
    ((deploy setup : Cluster Record).node id).votesReceived term = none := by
  dsimp only [deploy]
  split_ifs <;> rfl

theorem deploy_clusterNodes (setup : Setup) (id : String) :
    ((deploy setup : Cluster Record).node id).clusterNodes = setup.clusterNodes id := by
  dsimp only [deploy]
  split_ifs <;> rfl

end Logs

/-- In every run of successive Masters with increasing sequence numbers in which every request
that is taken begins where the slave's log ends, the logs match after every step. -/
theorem logsMatch_continuesLog {master : Option String} {setup : Setup}
    (mastered : setup.MasteredBy master) {inputs : List (String × NodeEvent Record)}
    (along : Along step (fun cluster input =>
      (Delivered cluster input ∧ Successive master cluster input ∧ Increasing cluster input) ∧
        ContinuesLog cluster input) inputs (deploy setup)) :
    (inputs.foldl step (deploy setup)).LogsMatch := by
  have invariant : LogsInvariant master (inputs.foldl step (deploy setup)) := by
    apply foldl_along (LogsInvariant master) _ along (.start mastered)
    intro cluster input invariant allowed
    rcases allowed with ⟨⟨delivered, successive, increasing⟩, continues⟩
    exact invariant.step delivered successive increasing continues
  exact invariant.logsMatch

/-! ## A request that arrives twice -/

instance decidableSuccessive (master : Option String) (cluster : Cluster Record)
    (input : String × NodeEvent Record) : Decidable (Successive master cluster input) :=
  inferInstanceAs (Decidable (∀ won ∈ wins _ _, ∀ ruler ∈ cluster.rulers master, _ → _))

instance decidableIncreasing (cluster : Cluster Record) :
    ∀ input : String × NodeEvent Record, Decidable (Increasing cluster input)
  | (id, .appendLog sequence _ _) =>
    inferInstanceAs (Decidable ((cluster.node id).roleManager.role = .Master →
      ∀ entry ∈ (cluster.node id).log, entry.sequence < sequence))
  | (_, .detectFailure) | (_, .startElection) | (_, .voteRequest ..) | (_, .voteResponse ..)
  | (_, .createReplicationRequest _) | (_, .applyLogs _) | (_, .replicationResponse ..) =>
    .isTrue trivial

instance decidableContinuesLog (cluster : Cluster Record) :
    ∀ input : String × NodeEvent Record, Decidable (ContinuesLog cluster input)
  | (id, .appendLog sequence _ _) =>
    inferInstanceAs (Decidable ((cluster.node id).roleManager.role = .Master → 0 < sequence))
  | (id, .applyLogs request) =>
    inferInstanceAs (Decidable ((cluster.node id).roleManager.currentTerm ≤ request.term →
      lastLog (cluster.node id).log = (request.prevLogSequence, request.prevLogTerm)))
  | (_, .detectFailure) | (_, .startElection) | (_, .voteRequest ..) | (_, .voteResponse ..)
  | (_, .createReplicationRequest _) | (_, .replicationResponse ..) => .isTrue trivial

instance decidableDelivered [DecidableEq Record] (cluster : Cluster Record)
    (input : String × NodeEvent Record) : Decidable (Delivered cluster input) :=
  inferInstanceAs (Decidable (∀ message ∈ messageOf input, message ∈ cluster.network))

/-- The Master `a` with two slaves, of which one vote is enough besides its own. -/
def threeNodes : Setup where
  role id := if id = "a" then .Master else .Slave
  minVotesRequired _ := 2
  batchSize _ := 100
  clusterNodes _ := ["a", "b", "c"]

theorem threeNodes_masteredBy : threeNodes.MasteredBy (some "a") := by
  intro id
  simp [threeNodes, eq_comm]

/-- The first entry of `a`, in a request for `b`. -/
def firstRequest : ReplicationRequest Unit := ⟨0, "a", 0, 0, [⟨1, 0, (), 0⟩], 0⟩

/-- `b` takes an entry of `a` and confirms it, gets a second one, and becomes Master itself. -/
def entriesInOrder : List (String × NodeEvent Unit) :=
  [("a", .appendLog 1 () 0), ("a", .createReplicationRequest "b"), ("b", .applyLogs firstRequest),
    ("a", .replicationResponse "b" ⟨0, true, 1, none⟩), ("a", .appendLog 2 () 0),
    ("a", .createReplicationRequest "b"), ("b", .applyLogs ⟨0, "a", 1, 0, [⟨2, 0, (), 0⟩], 1⟩),
    ("b", .detectFailure), ("b", .startElection), ("c", .voteRequest "b" 1 2),
    ("b", .voteResponse "c" true 1), ("b", .appendLog 3 () 0),
    ("b", .createReplicationRequest "a")]

theorem entriesInOrder_logsMatch : (entriesInOrder.foldl step (deploy threeNodes)).LogsMatch := by
  apply logsMatch_continuesLog threeNodes_masteredBy
  decide +kernel

/-- `b` gets the same request twice. -/
def requestTwice : List (String × NodeEvent Unit) :=
  [("a", .appendLog 1 () 0), ("a", .createReplicationRequest "b"), ("b", .applyLogs firstRequest),
    ("b", .applyLogs firstRequest)]

/-- The log of a slave has the entry of a repeated request twice. -/
theorem requestTwice_not_logsMatch :
    Along step (fun cluster input => Delivered cluster input ∧ Successive (some "a") cluster input ∧
      Increasing cluster input) requestTwice (deploy threeNodes) ∧
      ¬(requestTwice.foldl step (deploy threeNodes)).LogsMatch := by
  refine ⟨by decide +kernel, fun logsMatch => ?_⟩
  have ascending := logsMatch.ascending "b"
  revert ascending
  unfold Ascending
  decide +kernel

end Cluster

end QAExchange
