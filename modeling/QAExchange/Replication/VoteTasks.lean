import QAExchange.Foundation.Interleaving
import QAExchange.Replication.Cluster
import QAExchange.Replication.ReplicationContext

/-! # Votes of one node

A node votes on three paths: for a candidate that asks the failover coordinator, for
one that asks the gRPC service, and for itself. The coordinator tests the vote in one
step and sets it in another, and the service has a term and a vote of its own.
-/

namespace QAExchange

open Foundation FailoverCoordinator

variable {Record : Type}

/-- What the paths share. `grants` is a history variable: the terms and candidates of all
votes. -/
structure VotingNode (Record : Type) where
  context : ReplicationContext Record
  replicatorCommit : ℕ
  grants : List (ℕ × String)

inductive VoteCall
  | handleVoteRequest (candidateId : String) (candidateTerm lastLogSequence : ℕ)
  | requestVote (request : VoteRequest)
  | becomeCandidate

/-- The point that a call has reached. A call that is done has its answer, if it gives one. -/
inductive VoteTask
  | getTerm (candidateId : String) (candidateTerm lastLogSequence : ℕ)
  | setTerm (candidateId : String) (candidateTerm lastLogSequence : ℕ)
  | setRole (candidateId : String) (candidateTerm lastLogSequence : ℕ)
  | getTermAgain (candidateId : String) (candidateTerm lastLogSequence : ℕ)
  | getVotedFor (candidateId : String) (candidateTerm lastLogSequence currentTerm : ℕ)
  | voteFor (candidateId : String) (currentTerm : ℕ)
  | requestVote (request : VoteRequest)
  | becomeCandidate
  | incrementTerm
  | voteForSelf (term : ℕ)
  | done (answer : Option (Bool × ℕ))

namespace VotingNode

def roles (node : VotingNode Record) : RoleManager := node.context.roleManager

def onRoles (change : RoleManager → RoleManager) (node : VotingNode Record) : VotingNode Record :=
  { node with context := { node.context with roleManager := change node.context.roleManager } }

def grant (term : ℕ) (candidateId : String) (node : VotingNode Record) : VotingNode Record :=
  { node with grants := node.grants ++ [(term, candidateId)] }

/-- One step of a call. The results of `vote_for` are dropped. -/
def advance (node : VotingNode Record) : VoteTask → VoteTask × VotingNode Record
  | .getTerm candidateId candidateTerm lastLogSequence =>
    if node.roles.currentTerm < candidateTerm then
      (.setTerm candidateId candidateTerm lastLogSequence, node)
    else (.getTermAgain candidateId candidateTerm lastLogSequence, node)
  | .setTerm candidateId candidateTerm lastLogSequence =>
    (.setRole candidateId candidateTerm lastLogSequence,
      node.onRoles (RoleManager.setTerm candidateTerm))
  | .setRole candidateId candidateTerm lastLogSequence =>
    (.getTermAgain candidateId candidateTerm lastLogSequence,
      node.onRoles (RoleManager.setRole .Slave))
  | .getTermAgain candidateId candidateTerm lastLogSequence =>
    (.getVotedFor candidateId candidateTerm lastLogSequence node.roles.currentTerm, node)
  | .getVotedFor candidateId candidateTerm lastLogSequence currentTerm =>
    if currentTerm ≤ candidateTerm ∧ node.roles.votedFor = none ∧
        node.replicatorCommit ≤ lastLogSequence then (.voteFor candidateId currentTerm, node)
    else (.done (some (false, currentTerm)), node)
  | .voteFor candidateId currentTerm =>
    (.done (some (true, currentTerm)),
      (node.onRoles fun roles => (roles.voteFor candidateId).2).grant currentTerm candidateId)
  | .requestVote request =>
    let answer := ReplicationServiceImpl.requestVote request node.context
    let node := { node with context := answer.2 }
    (.done (some (answer.1.voteGranted, answer.1.term)),
      if answer.1.voteGranted then node.grant answer.1.term request.candidateId else node)
  | .becomeCandidate => (.incrementTerm, node.onRoles (RoleManager.setRole .Candidate))
  | .incrementTerm =>
    (.voteForSelf (node.roles.currentTerm + 1), node.onRoles RoleManager.incrementTerm)
  | .voteForSelf term =>
    (.done none, (node.onRoles fun roles => (roles.voteFor roles.nodeId).2).grant term
      node.roles.nodeId)
  | .done answer => (.done answer, node)

end VotingNode

def votes (Record : Type) : Service (VotingNode Record) VoteTask VoteCall Unit where
  start
    | .handleVoteRequest candidateId candidateTerm lastLogSequence =>
      .getTerm candidateId candidateTerm lastLogSequence
    | .requestVote request => .requestVote request
    | .becomeCandidate => .becomeCandidate
  advance _ := VotingNode.advance

/-- The second half of `handleVoteRequest`, after the node has followed the candidate's term. -/
theorem getTermAgain_solo (coordinator : FailoverCoordinator Record) (node : VotingNode Record)
    (candidateId : String) (candidateTerm lastLogSequence : ℕ) (sameRoles : node.roles =
      followTerm candidateTerm coordinator.roleManager)
    (sameCommit : node.replicatorCommit = coordinator.logReplicator.commitIndex) :
    ∃ after : VotingNode Record,
      (votes Record).Solo (.getTermAgain candidateId candidateTerm lastLogSequence, node)
        (.done (some (coordinator.handleVoteRequest candidateId candidateTerm
          lastLogSequence).1), after) ∧
      after.roles = (coordinator.handleVoteRequest candidateId candidateTerm
        lastLogSequence).2.roleManager := by
  have answer : coordinator.handleVoteRequest candidateId candidateTerm lastLogSequence =
      if node.roles.currentTerm ≤ candidateTerm ∧ node.roles.votedFor = none ∧
          node.replicatorCommit ≤ lastLogSequence then
        ((true, node.roles.currentTerm), (coordinator.onRoles
          (followTerm candidateTerm)).onRoles fun roles =>
            (roles.voteFor candidateId).2)
      else ((false, node.roles.currentTerm),
        coordinator.onRoles (followTerm candidateTerm)) := by
    rw [sameRoles, sameCommit]
    rfl
  rw [answer]
  by_cases canVote : node.roles.currentTerm ≤ candidateTerm ∧ node.roles.votedFor = none ∧
      node.replicatorCommit ≤ lastLogSequence
  · refine ⟨(node.onRoles fun roles => (roles.voteFor candidateId).2).grant
      node.roles.currentTerm candidateId, ?_, ?_⟩
    · apply Service.Solo.head (votes Record) ()
      apply Service.Solo.head (votes Record) ()
      dsimp only [votes, VotingNode.advance]
      rw [if_pos canVote, if_pos canVote]
      apply Service.Solo.head (votes Record) ()
      exact Relation.ReflTransGen.refl
    · rw [if_pos canVote]
      exact congrArg (fun roles => (roles.voteFor candidateId).2) sameRoles
  · refine ⟨node, ?_, ?_⟩
    · apply Service.Solo.head (votes Record) ()
      apply Service.Solo.head (votes Record) ()
      dsimp only [votes, VotingNode.advance]
      rw [if_neg canVote, if_neg canVote]
      exact Relation.ReflTransGen.refl
    · rw [if_neg canVote]
      exact sameRoles

/-- A request that has the coordinator for itself is answered as `handleVoteRequest` does. -/
theorem handleVoteRequest_solo (coordinator : FailoverCoordinator Record)
    (context : ReplicationContext Record) (grants : List (ℕ × String)) (candidateId : String)
    (candidateTerm lastLogSequence : ℕ) :
    let node : VotingNode Record := ⟨{ context with roleManager := coordinator.roleManager },
      coordinator.logReplicator.commitIndex, grants⟩
    ∃ after : VotingNode Record,
      (votes Record).Solo ((votes Record).start (.handleVoteRequest candidateId candidateTerm
          lastLogSequence), node)
        (.done (some (coordinator.handleVoteRequest candidateId candidateTerm
          lastLogSequence).1), after) ∧
      after.roles = (coordinator.handleVoteRequest candidateId candidateTerm
        lastLogSequence).2.roleManager := by
  intro node
  have sameRoles : node.roles = coordinator.roleManager := rfl
  have sameCommit : node.replicatorCommit = coordinator.logReplicator.commitIndex := rfl
  clear_value node
  by_cases later : node.roles.currentTerm < candidateTerm
  · have follows : ((node.onRoles (RoleManager.setTerm candidateTerm)).onRoles
        (RoleManager.setRole .Slave)).roles =
        followTerm candidateTerm coordinator.roleManager := by
      rw [followTerm, ← sameRoles, if_pos later]
      rfl
    rcases getTermAgain_solo coordinator _ candidateId candidateTerm lastLogSequence follows
      sameCommit with ⟨after, solo, roles⟩
    refine ⟨after, ?_, roles⟩
    apply Service.Solo.head (votes Record) ()
    dsimp only [votes, VotingNode.advance]
    rw [if_pos later]
    apply Service.Solo.head (votes Record) ()
    apply Service.Solo.head (votes Record) ()
    exact solo
  · have follows : node.roles =
        followTerm candidateTerm coordinator.roleManager := by
      rw [followTerm, ← sameRoles, if_neg later]
    rcases getTermAgain_solo coordinator _ candidateId candidateTerm lastLogSequence follows
      sameCommit with ⟨after, solo, roles⟩
    refine ⟨after, ?_, roles⟩
    apply Service.Solo.head (votes Record) ()
    dsimp only [votes, VotingNode.advance]
    rw [if_neg later]
    exact solo

def VotingNode.OneVotePerTerm (node : VotingNode Record) : Prop :=
  ∀ term first second, (term, first) ∈ node.grants → (term, second) ∈ node.grants → first = second

namespace VotingNode

def RolesOpen (term : ℕ) (candidateId : String) (node : VotingNode Record) : Prop :=
  node.roles.currentTerm < term ∨ node.roles.currentTerm = term ∧
    (node.roles.votedFor = none ∨ node.roles.votedFor = some candidateId)

def ContextOpen (term : ℕ) (candidateId : String) (node : VotingNode Record) : Prop :=
  node.context.currentTerm < term ∨ node.context.currentTerm = term ∧
    (node.context.votedFor = none ∨ node.context.votedFor = some candidateId)

def Votes (request : VoteRequest) (context : ReplicationContext Record) : Prop :=
  (context.currentTerm < request.term ∨
      context.currentTerm = request.term ∧ context.votedFor = none) ∧
    ReplicationServiceImpl.LogOk request context ∨
  context.currentTerm = request.term ∧ context.votedFor = some request.candidateId

/-- A vote is recorded while the role manager is still in the term in which the vote was
tested, and neither side has a vote for another candidate in it. -/
def VotesOnce (node : VotingNode Record) : VoteTask → Prop
  | .voteFor candidateId currentTerm =>
    node.roles.currentTerm = currentTerm ∧ node.RolesOpen currentTerm candidateId ∧
      node.ContextOpen currentTerm candidateId
  | .voteForSelf term =>
    node.roles.currentTerm = term ∧ node.RolesOpen term node.roles.nodeId ∧
      node.ContextOpen term node.roles.nodeId
  | .requestVote request =>
    Votes request node.context → node.RolesOpen request.term request.candidateId
  | _ => True

/-- A term and a vote that do not forget a vote while its term lasts. -/
def Recalls (currentTerm : ℕ) (votedFor : Option String) (vote : ℕ × String) : Prop :=
  vote.1 ≤ currentTerm ∧ (currentTerm = vote.1 → votedFor = some vote.2)

theorem Recalls.eq_of_open (recalls : Recalls currentTerm votedFor (term, first))
    (isOpen : currentTerm < term ∨
      currentTerm = term ∧ (votedFor = none ∨ votedFor = some second)) : first = second := by
  rcases recalls with ⟨reached, holds⟩
  rcases isOpen with earlier | ⟨rfl, none | some'⟩
  · exact absurd reached (Nat.not_le.mpr earlier)
  · rw [holds rfl] at none
    cases none
  · exact Option.some.inj ((holds rfl).symm.trans some')

theorem Recalls.later {currentTerm later : ℕ} {votedFor : Option String} {vote : ℕ × String}
    (recalls : Recalls currentTerm votedFor vote) (isLater : currentTerm < later)
    (votedLater : Option String) : Recalls later votedLater vote := by
  rcases recalls with ⟨reached, _⟩
  exact ⟨by omega, fun same => by omega⟩

/-- What holds of the votes after every step. -/
structure VotesRecalled (node : VotingNode Record) : Prop where
  recalled : ∀ vote ∈ node.grants, Recalls node.roles.currentTerm node.roles.votedFor vote ∨
    Recalls node.context.currentTerm node.context.votedFor vote
  once : node.OneVotePerTerm

section Step

variable {node : VotingNode Record}

theorem VotesRecalled.grant (recalled : node.VotesRecalled) {term : ℕ} {candidateId : String}
    (rolesOpen : node.RolesOpen term candidateId) (contextOpen : node.ContextOpen term candidateId)
    (isRecalled : Recalls node.roles.currentTerm node.roles.votedFor (term, candidateId) ∨
      Recalls node.context.currentTerm node.context.votedFor (term, candidateId)) :
    (node.grant term candidateId).VotesRecalled := by
  have same : ∀ first, (term, first) ∈ node.grants → first = candidateId := by
    intro first member
    rcases recalled.recalled _ member with byRoles | byContext
    · exact byRoles.eq_of_open rolesOpen
    · exact byContext.eq_of_open contextOpen
  refine ⟨fun vote member => ?_, fun voteTerm first second isFirst isSecond => ?_⟩
  · rcases List.mem_append.mp member with old | new
    · exact recalled.recalled vote old
    · rw [List.mem_singleton.mp new]
      exact isRecalled
  · rcases List.mem_append.mp isFirst with oldFirst | newFirst
    · rcases List.mem_append.mp isSecond with oldSecond | newSecond
      · exact recalled.once voteTerm first second oldFirst oldSecond
      · cases List.mem_singleton.mp newSecond
        exact same first oldFirst
    · cases List.mem_singleton.mp newFirst
      rcases List.mem_append.mp isSecond with oldSecond | newSecond
      · exact (same second oldSecond).symm
      · cases List.mem_singleton.mp newSecond
        rfl

theorem VotesRecalled.onRoles (recalled : node.VotesRecalled)
    (keeps : ∀ vote, Recalls node.roles.currentTerm node.roles.votedFor vote →
      Recalls (change node.roles).currentTerm (change node.roles).votedFor vote) :
    (node.onRoles change).VotesRecalled :=
  ⟨fun vote member => (recalled.recalled vote member).imp_left (keeps vote), recalled.once⟩

theorem recalls_setTerm (roles : RoleManager) (term : ℕ)
    (recalls : Recalls roles.currentTerm roles.votedFor vote) :
    Recalls (roles.setTerm term).currentTerm (roles.setTerm term).votedFor vote := by
  unfold RoleManager.setTerm
  split_ifs with later
  · exact recalls.later later none
  · exact recalls

theorem recalls_voteFor (roles : RoleManager) (candidateId : String)
    (recalls : Recalls roles.currentTerm roles.votedFor vote) :
    Recalls (roles.voteFor candidateId).2.currentTerm (roles.voteFor candidateId).2.votedFor
      vote := by
  unfold RoleManager.voteFor
  split
  · rename_i noVote
    refine ⟨recalls.1, fun same => ?_⟩
    rw [noVote] at recalls
    cases recalls.2 same
  · exact recalls

theorem VotesRecalled.voteFor (recalled : node.VotesRecalled)
    (inTerm : node.roles.currentTerm = term) (rolesOpen : node.RolesOpen term candidateId)
    (contextOpen : node.ContextOpen term candidateId) :
    ((node.onRoles fun roles => (roles.voteFor candidateId).2).grant term
      candidateId).VotesRecalled := by
  have voted : (node.roles.voteFor candidateId).2.currentTerm = term ∧
      (node.roles.voteFor candidateId).2.votedFor = some candidateId := by
    rcases rolesOpen with earlier | ⟨_, none | some'⟩
    · omega
    · rw [RoleManager.voteFor_of_none none]
      exact ⟨inTerm, rfl⟩
    · rw [RoleManager.voteFor, some']
      exact ⟨inTerm, some'⟩
  apply VotesRecalled.grant (recalled.onRoles fun vote => recalls_voteFor node.roles candidateId)
  · exact .inr ⟨voted.1, .inr voted.2⟩
  · exact contextOpen
  · exact .inl ⟨voted.1.ge, fun _ => voted.2⟩

/-- The service keeps its votes while the term lasts, and leaves the votes of the role manager
alone. -/
theorem requestVote_keeps (request : VoteRequest) (context : ReplicationContext Record) :
    let after := (ReplicationServiceImpl.requestVote request context).2
    (∀ vote, Recalls context.currentTerm context.votedFor vote →
      Recalls after.currentTerm after.votedFor vote) ∧
    after.roleManager.currentTerm = context.roleManager.currentTerm ∧
    after.roleManager.votedFor = context.roleManager.votedFor ∧
    after.roleManager.nodeId = context.roleManager.nodeId := by
  unfold ReplicationServiceImpl.requestVote
  by_cases stale : request.term < context.currentTerm
  · rw [if_pos stale]
    exact ⟨fun _ => id, rfl, rfl, rfl⟩
  rw [if_neg stale]
  by_cases later : context.currentTerm < request.term
  · rw [if_pos later]
    dsimp only
    split_ifs
    all_goals exact ⟨fun _ recalls => recalls.later later _, rfl, rfl, rfl⟩
  · rw [if_neg later]
    dsimp only
    split
    · rename_i noVote
      split_ifs
      · refine ⟨fun vote recalls => ⟨recalls.1, fun same => ?_⟩, rfl, rfl, rfl⟩
        rw [noVote] at recalls
        cases recalls.2 same
      · exact ⟨fun _ => id, rfl, rfl, rfl⟩
    · exact ⟨fun _ => id, rfl, rfl, rfl⟩

theorem requestVote_granted {request : VoteRequest} {context : ReplicationContext Record}
    (granted : (ReplicationServiceImpl.requestVote request context).1.voteGranted = true) :
    let answer := ReplicationServiceImpl.requestVote request context
    Votes request context ∧ answer.1.term = request.term ∧
      answer.2.currentTerm = request.term ∧ answer.2.votedFor = some request.candidateId := by
  unfold ReplicationServiceImpl.requestVote at granted ⊢
  by_cases stale : request.term < context.currentTerm
  · rw [if_pos stale] at granted
    cases granted
  rw [if_neg stale] at granted ⊢
  by_cases later : context.currentTerm < request.term
  · rw [if_pos later] at granted ⊢
    dsimp only at granted ⊢
    split_ifs at granted ⊢ with logOk
    exact ⟨.inl ⟨.inl later, logOk⟩, rfl, rfl, rfl⟩
  · have inTerm := le_antisymm (Nat.not_lt.mp stale) (Nat.not_lt.mp later)
    rw [if_neg later] at granted ⊢
    dsimp only at granted ⊢
    split at granted
    · rename_i noVote
      split_ifs at granted with logOk
      simp only [if_pos logOk]
      exact ⟨.inl ⟨.inr ⟨inTerm, noVote⟩, logOk⟩, inTerm, inTerm, trivial⟩
    · rename_i candidateId voted
      have same := of_decide_eq_true granted
      rw [same] at voted
      simp only [voted]
      exact ⟨.inr ⟨inTerm, voted⟩, inTerm, inTerm, trivial⟩

theorem VotesRecalled.requestVote (recalled : node.VotesRecalled) (request : VoteRequest)
    (rolesOpen : Votes request node.context → node.RolesOpen request.term request.candidateId) :
    (node.advance (.requestVote request)).2.VotesRecalled := by
  rcases requestVote_keeps request node.context with ⟨kept, sameTerm, sameVote, _⟩
  have answered : VotesRecalled { node with
      context := (ReplicationServiceImpl.requestVote request node.context).2 } := by
    refine ⟨fun vote member => ?_, recalled.once⟩
    rcases recalled.recalled vote member with byRoles | byContext
    · left
      change Recalls (ReplicationServiceImpl.requestVote request
        node.context).2.roleManager.currentTerm _ vote
      rw [sameTerm]
      change Recalls _ (ReplicationServiceImpl.requestVote request
        node.context).2.roleManager.votedFor vote
      rw [sameVote]
      exact byRoles
    · exact .inr (kept vote byContext)
  dsimp only [advance]
  split_ifs with granted
  · rcases requestVote_granted granted with ⟨votes, answerTerm, contextTerm, contextVote⟩
    rw [answerTerm]
    apply answered.grant
    · have before := rolesOpen votes
      unfold RolesOpen roles at before ⊢
      rw [sameTerm, sameVote]
      exact before
    · exact .inr ⟨contextTerm, .inr contextVote⟩
    · exact .inr ⟨contextTerm.ge, fun _ => contextVote⟩
  · exact answered

theorem VotesRecalled.advance (recalled : node.VotesRecalled) (task : VoteTask)
    (votesOnce : node.VotesOnce task) : (node.advance task).2.VotesRecalled := by
  cases task with
  | getTerm =>
    dsimp only [VotingNode.advance]
    split_ifs <;> exact recalled
  | setTerm candidateId candidateTerm lastLogSequence =>
    exact recalled.onRoles fun vote => recalls_setTerm node.roles candidateTerm
  | setRole => exact recalled.onRoles fun _ => id
  | getTermAgain => exact recalled
  | getVotedFor =>
    dsimp only [VotingNode.advance]
    split_ifs <;> exact recalled
  | voteFor candidateId currentTerm =>
    exact recalled.voteFor votesOnce.1 votesOnce.2.1 votesOnce.2.2
  | requestVote request => exact recalled.requestVote request votesOnce
  | becomeCandidate => exact recalled.onRoles fun _ => id
  | incrementTerm =>
    apply recalled.onRoles
    intro vote recalls
    exact recalls.later (Nat.lt_succ_self _) none
  | voteForSelf term => exact recalled.voteFor votesOnce.1 votesOnce.2.1 votesOnce.2.2
  | done => exact recalled

end Step

def TurnVotesOnce (pool : Pool (VotingNode Record) VoteTask) : Turn VoteCall Unit → Prop
  | .call _ => True
  | .step _ index => ∀ task ∈ pool.tasks[index]?, pool.shared.VotesOnce task

/-- In every schedule in which each vote is recorded in the term in which it was tested, with no
vote for another candidate on either side, the node votes for at most one candidate in a term. -/
theorem oneVotePerTerm_votesOnce (context : ReplicationContext Record) (replicatorCommit : ℕ)
    {turns : List (Turn VoteCall Unit)}
    (obeys : (votes Record).Obeys TurnVotesOnce turns ⟨⟨context, replicatorCommit, []⟩, []⟩) :
    ((votes Record).run turns ⟨⟨context, replicatorCommit, []⟩, []⟩).shared.OneVotePerTerm := by
  have recalled : VotesRecalled
      ((votes Record).run turns ⟨⟨context, replicatorCommit, []⟩, []⟩).shared := by
    apply (votes Record).run_preserves (fun pool => pool.shared.VotesRecalled) _ _ turns _ obeys
    · exact ⟨fun _ member => (by cases member), fun _ _ _ member => by cases member⟩
    · exact fun _ _ recalled => recalled
    · intro shared before task after input recalled allowed
      exact recalled.advance task (allowed task (by simp))
  exact recalled.once

/-! ## Two candidates -/

instance decidableRolesOpen (term : ℕ) (candidateId : String) (node : VotingNode Record) :
    Decidable (node.RolesOpen term candidateId) :=
  inferInstanceAs (Decidable (_ ∨ _ ∧ (_ ∨ _)))

instance decidableContextOpen (term : ℕ) (candidateId : String) (node : VotingNode Record) :
    Decidable (node.ContextOpen term candidateId) :=
  inferInstanceAs (Decidable (_ ∨ _ ∧ (_ ∨ _)))

instance decidableVotes (request : VoteRequest) (context : ReplicationContext Record) :
    Decidable (Votes request context) := inferInstanceAs (Decidable ((_ ∨ _ ∧ _) ∧ _ ∨ _ ∧ _))

instance decidableVotesOnce (node : VotingNode Record) :
    ∀ task : VoteTask, Decidable (node.VotesOnce task)
  | .voteFor candidateId currentTerm =>
    inferInstanceAs (Decidable (node.roles.currentTerm = currentTerm ∧
      node.RolesOpen currentTerm candidateId ∧ node.ContextOpen currentTerm candidateId))
  | .voteForSelf term =>
    inferInstanceAs (Decidable (node.roles.currentTerm = term ∧
      node.RolesOpen term node.roles.nodeId ∧ node.ContextOpen term node.roles.nodeId))
  | .requestVote request =>
    inferInstanceAs (Decidable (Votes request node.context →
      node.RolesOpen request.term request.candidateId))
  | .getTerm .. | .setTerm .. | .setRole .. | .getTermAgain .. | .getVotedFor ..
  | .becomeCandidate | .incrementTerm | .done _ => .isTrue trivial

instance decidableTurnVotesOnce (pool : Pool (VotingNode Record) VoteTask) :
    ∀ turn : Turn VoteCall Unit, Decidable (TurnVotesOnce pool turn)
  | .call _ => .isTrue trivial
  | .step _ index =>
    inferInstanceAs (Decidable (∀ task ∈ pool.tasks[index]?, pool.shared.VotesOnce task))

def newContext : ReplicationContext Unit := .new "b" (.new "b" .Slave)

def twoCandidates : List (Turn VoteCall Unit) :=
  [.call (.handleVoteRequest "a" 1 0), .call (.handleVoteRequest "c" 1 0)]

/-- One request after the other, then a candidacy of the node itself, and at last a request to the
service in the next term. -/
def oneByOne : List (Turn VoteCall Unit) :=
  twoCandidates ++ List.replicate 6 (.step () 0) ++ List.replicate 3 (.step () 1) ++
    .call .becomeCandidate :: List.replicate 3 (.step () 2) ++
    [.call (.requestVote ⟨3, "d", 0, 0⟩), .step () 3]

theorem oneByOne_oneVotePerTerm :
    ((votes Unit).run oneByOne ⟨⟨newContext, 0, []⟩, []⟩).shared.OneVotePerTerm := by
  apply oneVotePerTerm_votesOnce
  decide +kernel

/-- Both requests find no vote before one of them sets it. -/
def bothTestFirst : List (Turn VoteCall Unit) :=
  twoCandidates ++ List.replicate 5 (.step () 0) ++ List.replicate 3 (.step () 1) ++
    [.step () 0, .step () 1]

/-- The node votes for both candidates of term 1. -/
theorem bothTestFirst_not_oneVotePerTerm :
    ¬((votes Unit).run bothTestFirst ⟨⟨newContext, 0, []⟩, []⟩).shared.OneVotePerTerm := by
  have granted : ((votes Unit).run bothTestFirst ⟨⟨newContext, 0, []⟩, []⟩).shared.grants =
      [(1, "a"), (1, "c")] := by decide +kernel
  intro once
  have same := once 1 "a" "c" (by rw [granted]; simp) (by rw [granted]; simp)
  revert same
  decide

end VotingNode

end QAExchange
