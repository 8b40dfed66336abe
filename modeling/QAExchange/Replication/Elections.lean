import QAExchange.Foundation.Quorum
import QAExchange.Replication.NodeHandlers

/-! # Election safety

A node votes once in a term, and two quorums share a voter. So two nodes can win
the same term only if one of them counts a vote twice.
-/

namespace QAExchange.Cluster

open Foundation FailoverCoordinator

variable {Record : Type}

def Voted (cluster : Cluster Record) (voter : String) (term : ℕ) (candidate : String) : Prop :=
  .voteResponse candidate voter true term ∈ cluster.network ∨
    voter = candidate ∧ ∃ last, .voteRequest candidate term last ∈ cluster.network

def OneMasterPerTerm (cluster : Cluster Record) : Prop :=
  ∀ term first second, (term, first) ∈ cluster.elected → (term, second) ∈ cluster.elected →
    first = second

/-- Every node starts as a Master or a slave, and needs more votes than half of the members. -/
structure Setup.Electable (members : List String) (setup : Setup) : Prop where
  role : ∀ id, setup.role id ≠ .Candidate
  majority : ∀ id, members.length / 2 < setup.minVotesRequired id

/-- Only members take part. Vote requests and answers come from the network, with any
sequence number in a request; all other calls come with any arguments. -/
def VotesDelivered (members : List String) (cluster : Cluster Record)
    (input : String × NodeEvent Record) : Prop :=
  input.1 ∈ members ∧
    match input.2 with
    | .voteRequest candidateId candidateTerm _ =>
      ∃ last, .voteRequest candidateId candidateTerm last ∈ cluster.network
    | .voteResponse voterId granted term =>
      .voteResponse input.1 voterId granted term ∈ cluster.network
    | _ => True

def CountsOnce (cluster : Cluster Record) (input : String × NodeEvent Record) : Prop :=
  match input.2 with
  | .voteResponse voterId true term =>
    (cluster.node input.1).roleManager.role = .Candidate →
      (cluster.node input.1).roleManager.currentTerm = term →
        voterId ∉ ((cluster.node input.1).votesReceived term).getD []
  | _ => True

def asksFor (candidateId : String) (candidateTerm : ℕ) : ClusterMessage Record → Bool
  | .voteRequest candidate term _ => candidate = candidateId ∧ term = candidateTerm
  | .voteResponse .. | .replicationRequest .. | .replicationResponse .. => false

theorem any_asksFor {network : List (ClusterMessage Record)} {candidateId : String} {term : ℕ} :
    network.any (asksFor candidateId term) = true ↔
      ∃ last, .voteRequest candidateId term last ∈ network := by
  rw [List.any_eq_true]
  constructor
  · rintro ⟨message, member, asks⟩
    cases message <;> simp only [asksFor, decide_eq_true_eq, Bool.false_eq_true] at asks
    rcases asks with ⟨rfl, rfl⟩
    exact ⟨_, member⟩
  · rintro ⟨last, member⟩
    exact ⟨_, member, by simp [asksFor]⟩

instance decidableVotesDelivered [DecidableEq Record] (members : List String)
    (cluster : Cluster Record) :
    ∀ input : String × NodeEvent Record, Decidable (VotesDelivered members cluster input)
  | (id, .voteRequest candidateId candidateTerm _) =>
    have : Decidable (∃ last, .voteRequest candidateId candidateTerm last ∈
        cluster.network) := decidable_of_iff _ any_asksFor
    inferInstanceAs (Decidable (id ∈ members ∧ ∃ last, .voteRequest candidateId candidateTerm
      last ∈ cluster.network))
  | (id, .voteResponse ..) =>
    inferInstanceAs (Decidable (id ∈ members ∧ _ ∈ cluster.network))
  | (id, .detectFailure) | (id, .startElection) | (id, .appendLog ..)
  | (id, .createReplicationRequest _) | (id, .applyLogs _) | (id, .replicationResponse ..) =>
    inferInstanceAs (Decidable (id ∈ members ∧ True))

instance decidableCountsOnce (cluster : Cluster Record) :
    ∀ input : String × NodeEvent Record, Decidable (CountsOnce cluster input)
  | (id, .voteResponse voterId true term) =>
    inferInstanceAs (Decidable ((cluster.node id).roleManager.role = .Candidate →
      (cluster.node id).roleManager.currentTerm = term →
        voterId ∉ ((cluster.node id).votesReceived term).getD []))
  | (_, .voteResponse _ false _) | (_, .voteRequest ..) | (_, .detectFailure)
  | (_, .startElection) | (_, .appendLog ..) | (_, .createReplicationRequest _)
  | (_, .applyLogs _) | (_, .replicationResponse ..) => .isTrue trivial

/-- What holds of the votes after every step. -/
structure VotesInvariant (members : List String) (cluster : Cluster Record) : Prop where
  nodeId : ∀ id, (cluster.node id).roleManager.nodeId = id
  candidate : ∀ id, (cluster.node id).roleManager.role = .Candidate →
    (cluster.node id).roleManager.votedFor = some id
  majority : ∀ id, members.length / 2 < (cluster.node id).config.minVotesRequired
  member : ∀ voter term candidate, cluster.Voted voter term candidate → voter ∈ members
  backed : ∀ voter term candidate, cluster.Voted voter term candidate →
    term ≤ (cluster.node voter).roleManager.currentTerm ∧
    ((cluster.node voter).roleManager.currentTerm = term →
      (cluster.node voter).roleManager.votedFor = some candidate)
  unique : ∀ voter term first second, cluster.Voted voter term first →
    cluster.Voted voter term second → first = second
  distinct : ∀ id term, (((cluster.node id).votesReceived term).getD []).Nodup
  counted : ∀ id term, ∀ voter ∈ ((cluster.node id).votesReceived term).getD [],
    cluster.Voted voter term id
  elected : ∀ term id, (term, id) ∈ cluster.elected →
    ∃ voters, IsQuorum members voters ∧ ∀ voter ∈ voters, cluster.Voted voter term id

section Votes

variable {members : List String} {cluster : Cluster Record}
  {input : String × NodeEvent Record}

variable {voter : String} {term : ℕ} {candidate : String}

theorem Voted.step (voted : cluster.Voted voter term candidate)
    (input : String × NodeEvent Record) : (cluster.step input).Voted voter term candidate := by
  rcases voted with answered | ⟨own, last, asked⟩
  · exact .inl (List.mem_append_left _ answered)
  · exact .inr ⟨own, last, List.mem_append_left _ asked⟩

/-- A new vote is given in the answer to a request, or by a candidate that starts an election. -/
theorem voted_of_step (nodeId : ∀ id, (cluster.node id).roleManager.nodeId = id)
    (voted : (cluster.step input).Voted voter term candidate) :
    cluster.Voted voter term candidate ∨
    voter = input.1 ∧
      ((∃ candidateTerm last, input.2 = .voteRequest candidate candidateTerm last ∧
          ((cluster.node voter).handleVoteRequest candidate candidateTerm last).1 = (true, term)) ∨
        input.2 = .startElection ∧ (cluster.node voter).roleManager.role = .Candidate ∧
          (cluster.node voter).roleManager.currentTerm = term ∧ candidate = voter) := by
  rcases voted with answered | ⟨rfl, last, asked⟩
  · rw [step_network, List.mem_append] at answered
    rcases answered with known | sent
    · exact .inl (.inl known)
    · rcases input with ⟨id, event⟩
      cases event with
      | voteRequest candidateId candidateTerm lastLogSequence =>
        simp only [sends, List.mem_singleton, ClusterMessage.voteResponse.injEq]
          at sent
        rcases sent with ⟨rfl, rfl, granted, rfl⟩
        rw [nodeId]
        exact .inr ⟨rfl, .inl ⟨candidateTerm, lastLogSequence, rfl, by rw [granted]⟩⟩
      | startElection =>
        simp only [sends] at sent
        split_ifs at sent <;> simp at sent
      | createReplicationRequest slaveId => simp [sends] at sent
      | applyLogs request => simp [sends] at sent
      | detectFailure | voteResponse | appendLog | replicationResponse => cases sent
  · rw [step_network, List.mem_append] at asked
    rcases asked with known | sent
    · exact .inl (.inr ⟨rfl, last, known⟩)
    · rcases input with ⟨id, event⟩
      cases event with
      | startElection =>
        simp only [sends] at sent
        split_ifs at sent with isCandidate
        · cases sent
        simp only [List.mem_singleton, ClusterMessage.voteRequest.injEq] at sent
        rcases sent with ⟨rfl, rfl, _⟩
        rw [nodeId]
        exact .inr ⟨rfl, .inr ⟨rfl, not_not.mp isCandidate, rfl, rfl⟩⟩
      | voteRequest candidateId candidateTerm lastLogSequence =>
        simp [sends] at sent
      | createReplicationRequest slaveId => simp [sends] at sent
      | applyLogs request => simp [sends] at sent
      | detectFailure | voteResponse | appendLog | replicationResponse => cases sent

theorem VotesInvariant.voted_step (invariant : VotesInvariant members cluster)
    (voted : (cluster.step input).Voted voter term candidate) :
    cluster.Voted voter term candidate ∨
    voter = input.1 ∧
      ((cluster.step input).node voter).roleManager.currentTerm = term ∧
      ((cluster.step input).node voter).roleManager.votedFor = some candidate ∧
      ((cluster.node voter).roleManager.currentTerm = term → ∀ other,
        (cluster.node voter).roleManager.votedFor = some other → other = candidate) := by
  rcases voted_of_step invariant.nodeId voted with known | ⟨rfl, new⟩
  · exact .inl known
  refine .inr ⟨rfl, ?_⟩
  rw [step_node_self]
  rcases new with ⟨candidateTerm, last, isRequest, answer⟩ | ⟨starts, isCandidate, sameTerm, rfl⟩
  · rcases handleVoteRequest_granted _ (congrArg Prod.fst answer) with
      ⟨toldTerm, sameVote, open'⟩
    have isTerm := toldTerm.trans (congrArg Prod.snd answer)
    rw [isRequest]
    refine ⟨isTerm, sameVote, fun same other hadVoted => ?_⟩
    rw [open' (same.trans isTerm.symm)] at hadVoted
    cases hadVoted
  · have voted := invariant.candidate input.1 isCandidate
    have started := startElection_roleManager _ isCandidate
    rw [starts]
    refine ⟨started.1.trans sameTerm, started.2.trans voted, fun _ other hadVoted => ?_⟩
    exact Option.some.inj (hadVoted.symm.trans voted)

theorem VotesInvariant.step (invariant : VotesInvariant members cluster)
    (delivered : VotesDelivered members cluster input) (countsOnce : CountsOnce cluster input) :
    VotesInvariant members (cluster.step input) := by
  have extends' := (cluster.node input.1).handle_extends input.2
  have nodeId : ∀ id, ((cluster.step input).node id).roleManager.nodeId = id :=
    step_forall_node cluster input (fun id node => node.roleManager.nodeId = id)
      invariant.nodeId (extends'.nodeId.trans (invariant.nodeId _))
  have backed : ∀ voter term candidate, (cluster.step input).Voted voter term candidate →
      term ≤ ((cluster.step input).node voter).roleManager.currentTerm ∧
      (((cluster.step input).node voter).roleManager.currentTerm = term →
        ((cluster.step input).node voter).roleManager.votedFor = some candidate) := by
    intro voter term candidate voted
    rcases invariant.voted_step voted with known | ⟨rfl, sameTerm, sameVote, _⟩
    · rcases invariant.backed voter term candidate known with ⟨reached, holds⟩
      by_cases acts : voter = input.1
      · subst acts
        rw [step_node_self]
        refine ⟨reached.trans extends'.term, fun same => ?_⟩
        have before := le_antisymm (same ▸ extends'.term) reached
        exact extends'.vote (same.trans before.symm) candidate (holds before)
      · rw [step_node_other _ _ acts]
        exact ⟨reached, holds⟩
    · exact ⟨sameTerm.ge, fun _ => sameVote⟩
  have distinctCounted : ∀ id term,
      ((((cluster.step input).node id).votesReceived term).getD []).Nodup ∧
      ∀ voter ∈ (((cluster.step input).node id).votesReceived term).getD [],
        (cluster.step input).Voted voter term id := by
    intro id term
    have before : (((cluster.node id).votesReceived term).getD []).Nodup ∧
        ∀ voter ∈ ((cluster.node id).votesReceived term).getD [],
          (cluster.step input).Voted voter term id :=
      ⟨invariant.distinct id term,
        fun voter member => (invariant.counted id term voter member).step input⟩
    by_cases acts : id = input.1
    · subst acts
      rw [step_node_self]
      rcases (cluster.node input.1).handle_votesReceived input.2 term with
        same | empty | ⟨starts, candidate, rfl, counted⟩ | ⟨voterId, answers, candidate, isTerm, counted⟩
      · rw [same]
        exact before
      · rw [empty]
        exact ⟨List.nodup_nil, fun voter member => by cases member⟩
      · rw [counted, invariant.nodeId]
        refine ⟨List.nodup_singleton _, fun voter member => ?_⟩
        rw [Option.getD_some, List.mem_singleton] at member
        subst member
        have asks : .voteRequest input.1 (cluster.node input.1).roleManager.currentTerm
            (lastLogSequence (cluster.node input.1).log) ∈ (cluster.node input.1).sends input.2 := by
          rw [starts, sends, if_neg (not_not.mpr candidate),
            invariant.nodeId]
          exact List.mem_singleton_self _
        exact .inr ⟨rfl, _, List.mem_append_right _ asks⟩
      · rw [counted, Option.getD_some]
        rcases input with ⟨id, event⟩
        change event = _ at answers
        subst answers
        refine ⟨List.nodup_append.mpr ⟨before.1, List.nodup_singleton _, ?_⟩, ?_⟩
        · rintro voter member _ (_ | ⟨_, ⟨⟩⟩) rfl
          exact countsOnce candidate isTerm.symm member
        · intro voter member
          rcases List.mem_append.mp member with known | new
          · exact before.2 voter known
          · rw [List.mem_singleton] at new
            subst new
            exact .inl (List.mem_append_left _ delivered.2)
    · rw [step_node_other _ _ acts]
      exact before
  refine ⟨nodeId, ?_, ?_, ?_, backed, ?_, fun id term => (distinctCounted id term).1,
    fun id term => (distinctCounted id term).2, ?_⟩
  · refine step_forall_node cluster input (fun id node => node.roleManager.role = .Candidate →
      node.roleManager.votedFor = some id) invariant.candidate ?_
    intro isCandidate
    have self := extends'.candidate (fun was => by
      rw [invariant.nodeId]
      exact invariant.candidate _ was) isCandidate
    rwa [extends'.nodeId, invariant.nodeId] at self
  · refine step_forall_node cluster input (fun _ node => members.length / 2 <
      node.config.minVotesRequired) invariant.majority ?_
    rw [(handle_settings _ _).2]
    exact invariant.majority _
  · intro voter term candidate voted
    rcases invariant.voted_step voted with known | ⟨rfl, _⟩
    · exact invariant.member voter term candidate known
    · exact delivered.1
  · intro voter term first second isFirst isSecond
    rcases invariant.voted_step isFirst with knownFirst | ⟨rfl, sameTerm, firstVote, firstOpen⟩
    · rcases invariant.voted_step isSecond with knownSecond | ⟨rfl, sameTerm, _, secondOpen⟩
      · exact invariant.unique voter term first second knownFirst knownSecond
      · rcases invariant.backed _ term first knownFirst with ⟨reached, holds⟩
        rw [step_node_self] at sameTerm
        have before := le_antisymm (sameTerm ▸ extends'.term) reached
        exact secondOpen before first (holds before)
    · rcases invariant.voted_step isSecond with knownSecond | ⟨_, _, secondVote, _⟩
      · rcases invariant.backed _ term second knownSecond with ⟨reached, holds⟩
        rw [step_node_self] at sameTerm
        have before := le_antisymm (sameTerm ▸ extends'.term) reached
        exact (firstOpen before second (holds before)).symm
      · exact Option.some.inj (firstVote.symm.trans secondVote)
  · intro term id elected
    rw [step_elected, List.mem_append] at elected
    rcases elected with known | won
    · rcases invariant.elected term id known with ⟨voters, quorum, all⟩
      exact ⟨voters, quorum, fun voter member => (all voter member).step input⟩
    · unfold wins at won
      split_ifs at won with becomes
      · rw [List.mem_singleton, Prod.mk.injEq, extends'.nodeId, invariant.nodeId] at won
        rcases won with ⟨rfl, rfl⟩
        rcases distinctCounted input.1 _ with ⟨distinct, counted⟩
        rw [step_node_self] at distinct counted
        refine ⟨_, ⟨distinct, fun voter member => ?_, ?_⟩, counted⟩
        · rcases invariant.voted_step (counted voter member) with voted | ⟨rfl, _⟩
          · exact invariant.member _ _ _ voted
          · exact delivered.1
        · have enough := (cluster.node input.1).handle_wins input.2 becomes.1 becomes.2
          have majority := invariant.majority input.1
          rw [voteCount] at enough
          omega
      · cases won

theorem VotesInvariant.start {setup : Setup} (electable : setup.Electable members) :
    VotesInvariant members (start setup : Cluster Record) where
  nodeId _ := rfl
  candidate id isCandidate := absurd isCandidate (electable.role id)
  majority id := electable.majority id
  member _ _ _ voted := by rcases voted with answered | ⟨_, _, asked⟩ <;> contradiction
  backed _ _ _ voted := by rcases voted with answered | ⟨_, _, asked⟩ <;> contradiction
  unique _ _ _ _ voted := by rcases voted with answered | ⟨_, _, asked⟩ <;> contradiction
  distinct _ _ := List.nodup_nil
  counted _ _ _ member := by cases member
  elected _ _ member := by cases member

theorem VotesInvariant.oneMasterPerTerm (invariant : VotesInvariant members cluster) :
    cluster.OneMasterPerTerm := by
  intro term first second firstWon secondWon
  rcases invariant.elected term first firstWon with ⟨firstVoters, firstQuorum, forFirst⟩
  rcases invariant.elected term second secondWon with ⟨secondVoters, secondQuorum, forSecond⟩
  rcases firstQuorum.exists_mem_both secondQuorum with ⟨voter, inFirst, inSecond⟩
  exact invariant.unique voter term first second (forFirst voter inFirst)
    (forSecond voter inSecond)

end Votes

/-- In every run in which no candidate counts two votes of one voter for a term, no two
nodes become Master in the same term. -/
theorem oneMasterPerTerm_countsOnce {members : List String} {setup : Setup}
    (electable : setup.Electable members) {inputs : List (String × NodeEvent Record)}
    (along : Along step (fun cluster input =>
      VotesDelivered members cluster input ∧ CountsOnce cluster input) inputs (start setup)) :
    (inputs.foldl step (start setup)).OneMasterPerTerm := by
  have invariant : VotesInvariant members (inputs.foldl step (start setup)) := by
    apply foldl_along (VotesInvariant members) _ along (.start electable)
    intro cluster input invariant allowed
    exact invariant.step allowed.1 allowed.2
  exact invariant.oneMasterPerTerm

/-! ## Four nodes -/

def fourNodes : List String := ["a", "b", "c", "d"]

/-- Four slaves, of which three must vote for a Master. -/
def fourSlaves : Setup where
  role _ := .Slave
  minVotesRequired _ := 3
  batchSize _ := 100
  clusterNodes _ := fourNodes

theorem fourSlaves_electable : fourSlaves.Electable fourNodes where
  role _ := by simp [fourSlaves]
  majority _ := show 2 < 3 by decide

def splitVote : List (String × NodeEvent Unit) :=
  [("a", .detectFailure), ("c", .detectFailure), ("a", .startElection), ("c", .startElection),
    ("b", .voteRequest "a" 1 0), ("d", .voteRequest "c" 1 0)]

def votesTwice : List (String × NodeEvent Unit) :=
  splitVote ++ [("a", .voteResponse "b" true 1), ("a", .voteResponse "b" true 1),
    ("c", .voteResponse "d" true 1), ("c", .voteResponse "d" true 1)]

/-- The candidate `c` is refused by `b` and steps down when `a` wins and replicates. -/
def votesOnce : List (String × NodeEvent Unit) :=
  splitVote ++ [("b", .voteRequest "c" 1 0), ("a", .voteResponse "b" true 1),
    ("c", .voteResponse "b" false 1), ("c", .voteResponse "d" true 1),
    ("c", .applyLogs ⟨2, "a", 0, 0, [], 0⟩), ("c", .voteResponse "d" true 1)]

theorem votesOnce_oneMaster : (votesOnce.foldl step (start fourSlaves)).OneMasterPerTerm := by
  apply oneMasterPerTerm_countsOnce fourSlaves_electable
  decide +kernel

/-- Votes that are counted twice make two Masters of one term. -/
theorem votesTwice_twoMasters :
    Along step (VotesDelivered fourNodes) votesTwice (start fourSlaves) ∧
      ¬(votesTwice.foldl step (start fourSlaves)).OneMasterPerTerm := by
  have elected : (votesTwice.foldl step (start fourSlaves)).elected = [(1, "a"), (1, "c")] := by
    decide +kernel
  refine ⟨by decide +kernel, fun oneMaster => ?_⟩
  have same := oneMaster 1 "a" "c" (by rw [elected]; simp) (by rw [elected]; simp)
  revert same
  decide

end QAExchange.Cluster
