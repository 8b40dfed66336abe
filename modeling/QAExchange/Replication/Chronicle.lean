import QAExchange.Replication.CommitIndex
import QAExchange.Replication.Elections
import QAExchange.Replication.LogMatching

/-! # The chronicle of a cluster

All states that the nodes have gone through, and the logs with which Masters came to
power. It is a history variable: no node reads it.
-/

namespace QAExchange

open Foundation

variable {Record : Type}

structure Reign (Record : Type) where
  term : ℕ
  master : String
  log : List (LogEntry Record)

/-- `seen` has the terms and logs of each node. -/
structure Chronicle (Record : Type) where
  seen : String → List (ℕ × List (LogEntry Record))
  reigns : List (Reign Record)

namespace Chronicle

def start (master : Option String) : Chronicle Record where
  seen _ := [(0, [])]
  reigns := master.toList.map fun id => ⟨0, id, []⟩

def step (cluster : Cluster Record) (input : String × NodeEvent Record)
    (chronicle : Chronicle Record) : Chronicle Record :=
  let after := (cluster.node input.1).handle input.2
  { seen := Function.update chronicle.seen input.1
      (chronicle.seen input.1 ++ [(after.roleManager.currentTerm, after.log)])
    reigns := chronicle.reigns ++
      (Cluster.wins (cluster.node input.1) after).map fun won => ⟨won.1, won.2, after.log⟩ }

def Stored (id : String) (term : ℕ) (log : List (LogEntry Record)) (sequence : ℕ)
    (chronicle : Chronicle Record) : Prop :=
  ∃ was ∈ chronicle.seen id, was.1 ≤ term ∧ was.2 <+: log ∧ EndsAt sequence was.2

variable {chronicle : Chronicle Record} {cluster : Cluster Record}
  {input : String × NodeEvent Record}

theorem seen_step_self : (chronicle.step cluster input).seen input.1 =
    chronicle.seen input.1 ++ [(((cluster.step input).node input.1).roleManager.currentTerm,
      ((cluster.step input).node input.1).log)] := by
  rw [Cluster.step_node_self]
  exact Function.update_self ..

theorem seen_step_other {id : String} (other : id ≠ input.1) :
    (chronicle.step cluster input).seen id = chronicle.seen id := Function.update_of_ne other ..

theorem seen_step {id : String} {was : ℕ × List (LogEntry Record)}
    (inSeen : was ∈ chronicle.seen id) : was ∈ (chronicle.step cluster input).seen id := by
  by_cases acts : id = input.1
  · subst acts
    rw [seen_step_self]
    exact List.mem_append_left _ inSeen
  · rw [seen_step_other acts]
    exact inSeen

/-- The states after a step are the states before it and the one that the node is in. -/
theorem of_mem_seen_step {id : String} {was : ℕ × List (LogEntry Record)}
    (inSeen : was ∈ (chronicle.step cluster input).seen id) :
    was ∈ chronicle.seen id ∨
    was = (((cluster.step input).node id).roleManager.currentTerm,
      ((cluster.step input).node id).log) := by
  by_cases acts : id = input.1
  · subst acts
    rw [seen_step_self, List.mem_append, List.mem_singleton] at inSeen
    exact inSeen
  · rw [seen_step_other acts] at inSeen
    exact .inl inSeen

theorem reigns_step : (chronicle.step cluster input).reigns = chronicle.reigns ++
    (Cluster.wins (cluster.node input.1) ((cluster.step input).node input.1)).map
      fun won => ⟨won.1, won.2, ((cluster.step input).node input.1).log⟩ := by
  rw [Cluster.step_node_self]
  rfl

theorem Stored.step {id : String} {term later sequence : ℕ}
    {log longer : List (LogEntry Record)} (stored : chronicle.Stored id term log sequence)
    (notEarlier : term ≤ later) (grows : log <+: longer) :
    (chronicle.step cluster input).Stored id later longer sequence := by
  rcases stored with ⟨was, inSeen, inTerm, within, endsAt⟩
  exact ⟨was, seen_step inSeen, inTerm.trans notEarlier, within.trans grows, endsAt⟩

end Chronicle

namespace Cluster

variable {master : Option String} {cluster : Cluster Record} {chronicle : Chronicle Record}
  {input : String × NodeEvent Record}

theorem term_le_step (cluster : Cluster Record) (input : String × NodeEvent Record) (id : String) :
    (cluster.node id).roleManager.currentTerm ≤
      ((cluster.step input).node id).roleManager.currentTerm := by
  by_cases acts : id = input.1
  · subst acts
    rw [step_node_self]
    exact ((cluster.node input.1).handle_extends input.2).term
  · rw [step_node_other _ _ acts]

structure Recorded (master : Option String) (cluster : Cluster Record)
    (chronicle : Chronicle Record) : Prop where
  rulers : chronicle.reigns.map (fun reign => (reign.term, reign.master)) = cluster.rulers master
  now : ∀ id, ((cluster.node id).roleManager.currentTerm, (cluster.node id).log) ∈
    chronicle.seen id
  past : ∀ id, ∀ was ∈ chronicle.seen id,
    was.1 ≤ (cluster.node id).roleManager.currentTerm ∧ was.2 <+: (cluster.node id).log
  later : ∀ id, ∀ was ∈ chronicle.seen id, ∀ then' ∈ chronicle.seen id,
    was.1 < then'.1 → was.2 <+: then'.2
  began : ∀ reign ∈ chronicle.reigns, reign.log <+: (cluster.node reign.master).log ∧
    ∀ entry ∈ reign.log, entry.term < reign.term
  owned : ∀ id before entry, before ++ [entry] <+: (cluster.node id).log →
    ∃ reign ∈ chronicle.reigns, reign.term = entry.term ∧ reign.log <+: before ∧
      before ++ [entry] <+: (cluster.node reign.master).log
  terms : ∀ id, ∀ entry ∈ (cluster.node id).log,
    entry.term ≤ (cluster.node id).roleManager.currentTerm
  inOrder : ∀ id, (cluster.node id).log.Pairwise fun first second => first.term ≤ second.term
  requests : ∀ slave request, .replicationRequest slave request ∈ cluster.network →
    request.term ≤ (cluster.node request.leaderId).roleManager.currentTerm ∧
    ∀ entry ∈ request.entries, entry.term ≤ request.term
  answers : ∀ leader slave response,
    .replicationResponse leader slave response ∈ cluster.network → response.success = true →
      chronicle.Stored slave (cluster.node leader).roleManager.currentTerm
        (cluster.node leader).log response.matchSequence
  matched : ∀ id slave sequence, (cluster.node id).matchIndex slave = some sequence →
    sequence = 0 ∨ chronicle.Stored slave (cluster.node id).roleManager.currentTerm
      (cluster.node id).log sequence

/-- A candidate gets the last vote that it needs only in a term above those of all Masters so
far. -/
def InTermOrder (master : Option String) (cluster : Cluster Record)
    (input : String × NodeEvent Record) : Prop :=
  (cluster.node input.1).roleManager.role = .Candidate →
    (cluster.node input.1).config.minVotesRequired ≤ (cluster.node input.1).votesWith input.2 →
      ∀ ruler ∈ cluster.rulers master, ruler.1 < (cluster.node input.1).roleManager.currentTerm

theorem InTermOrder.of_wins (inTermOrder : InTermOrder master cluster input)
    (nodeId : ∀ id, (cluster.node id).roleManager.nodeId = id)
    (isWon : won ∈ wins (cluster.node input.1) ((cluster.node input.1).handle input.2)) :
    won.2 = input.1 ∧ (∀ ruler ∈ cluster.rulers master, ruler.1 < won.1) ∧
      ((cluster.node input.1).handle input.2).log = (cluster.node input.1).log := by
  unfold wins at isWon
  split_ifs at isWon with becomes
  · rw [List.mem_singleton] at isWon
    subst isWon
    rcases (cluster.node input.1).handle_elects becomes.1 becomes.2 with ⟨candidate, elects⟩
    rcases (cluster.node input.1).handle_master becomes.1 becomes.2 with ⟨enough, _, sameTerm⟩
    refine ⟨?_, ?_, ?_⟩
    · exact (((cluster.node input.1).handle_extends input.2).nodeId).trans (nodeId input.1)
    · dsimp only
      rw [sameTerm]
      exact inTermOrder candidate enough
    · rw [FailoverCoordinator.handle_log]
      rcases elects with starts | ⟨voterId, answers⟩
      · rw [starts, FailoverCoordinator.appends, List.append_nil]
      · rw [answers, FailoverCoordinator.appends, List.append_nil]
  · cases isWon

theorem InTermOrder.successive (inTermOrder : InTermOrder master cluster input)
    (nodeId : ∀ id, (cluster.node id).roleManager.nodeId = id) :
    Successive master cluster input := by
  intro won isWon ruler isRuler sameTerm
  have above := (inTermOrder.of_wins nodeId isWon).2.1 ruler isRuler
  omega

namespace Recorded

section

variable (recorded : Recorded master cluster chronicle)
include recorded

theorem reign_of_ruler {term : ℕ} {id : String} (rules : (term, id) ∈ cluster.rulers master) :
    ∃ log, ⟨term, id, log⟩ ∈ chronicle.reigns := by
  rw [← recorded.rulers, List.mem_map] at rules
  rcases rules with ⟨⟨_, _, log⟩, isReign, same⟩
  cases same
  exact ⟨log, isReign⟩

theorem ruler_of_reign (isReign : reign ∈ chronicle.reigns) :
    (reign.term, reign.master) ∈ cluster.rulers master := by
  rw [← recorded.rulers]
  exact List.mem_map_of_mem isReign

theorem rulers_step :
    (chronicle.step cluster input).reigns.map (fun reign => (reign.term, reign.master)) =
      (cluster.step input).rulers master := by
  rw [Chronicle.reigns_step, List.map_append, recorded.rulers, Cluster.rulers_step,
    List.map_map, step_node_self]
  exact congrArg _ (List.map_id' _)

theorem now_step (input : String × NodeEvent Record) (id : String) :
    (((cluster.step input).node id).roleManager.currentTerm, ((cluster.step input).node id).log) ∈
      (chronicle.step cluster input).seen id := by
  by_cases acts : id = input.1
  · subst acts
    rw [Chronicle.seen_step_self]
    exact List.mem_append_right _ (List.mem_singleton_self _)
  · rw [Chronicle.seen_step_other acts, step_node_other _ _ acts]
    exact recorded.now id

theorem past_step (id : String) (was : ℕ × List (LogEntry Record))
    (inSeen : was ∈ (chronicle.step cluster input).seen id) :
    was.1 ≤ ((cluster.step input).node id).roleManager.currentTerm ∧
      was.2 <+: ((cluster.step input).node id).log := by
  rcases Chronicle.of_mem_seen_step inSeen with old | rfl
  · rcases recorded.past id was old with ⟨inTerm, within⟩
    exact ⟨inTerm.trans (term_le_step cluster input id),
      within.trans (log_prefix_step cluster input id)⟩
  · exact ⟨le_rfl, List.prefix_refl _⟩

theorem later_step (id : String) (was : ℕ × List (LogEntry Record))
    (inSeen : was ∈ (chronicle.step cluster input).seen id) (then' : ℕ × List (LogEntry Record))
    (thenSeen : then' ∈ (chronicle.step cluster input).seen id) (earlier : was.1 < then'.1) :
    was.2 <+: then'.2 := by
  rcases Chronicle.of_mem_seen_step inSeen with old | rfl
  · rcases Chronicle.of_mem_seen_step thenSeen with thenOld | rfl
    · exact recorded.later id was old then' thenOld earlier
    · exact (recorded.past id was old).2.trans (log_prefix_step cluster input id)
  · have atMost := (recorded.past_step id then' thenSeen).1
    exact absurd earlier (Nat.not_lt.mpr atMost)

theorem began_step (logs : LogsInvariant master cluster)
    (inTermOrder : InTermOrder master cluster input) (reign : Reign Record)
    (isReign : reign ∈ (chronicle.step cluster input).reigns) :
    reign.log <+: ((cluster.step input).node reign.master).log ∧
      ∀ entry ∈ reign.log, entry.term < reign.term := by
  rw [Chronicle.reigns_step, step_node_self, List.mem_append, List.mem_map] at isReign
  rcases isReign with old | ⟨won, isWon, rfl⟩
  · rcases recorded.began reign old with ⟨within, before⟩
    exact ⟨within.trans (log_prefix_step cluster input _), before⟩
  · rcases inTermOrder.of_wins logs.nodeId isWon with ⟨sameId, above, sameLog⟩
    dsimp only
    refine ⟨?_, fun entry member => ?_⟩
    · rw [sameId, step_node_self]
    · rw [sameLog] at member
      rcases List.append_of_mem member with ⟨before, after, whole⟩
      rcases recorded.owned input.1 before entry (by simp [whole]) with ⟨owner, isOwner, sameTerm, _⟩
      rw [← sameTerm]
      exact above _ (recorded.ruler_of_reign isOwner)

theorem owned_step (logs : LogsInvariant master cluster) (delivered : Delivered cluster input)
    (increasing : Increasing cluster input) (continues : ContinuesLog cluster input) (id : String)
    (before : List (LogEntry Record)) (entry : LogEntry Record)
    (within : before ++ [entry] <+: ((cluster.step input).node id).log) :
    ∃ reign ∈ (chronicle.step cluster input).reigns, reign.term = entry.term ∧
      reign.log <+: before ∧
      before ++ [entry] <+: ((cluster.step input).node reign.master).log := by
  have stays : ∀ reign ∈ chronicle.reigns, reign ∈ (chronicle.step cluster input).reigns := by
    intro reign isReign
    rw [Chronicle.reigns_step]
    exact List.mem_append_left _ isReign
  have known : ∀ holder, before ++ [entry] <+: (cluster.node holder).log →
      ∃ reign ∈ (chronicle.step cluster input).reigns, reign.term = entry.term ∧
        reign.log <+: before ∧
        before ++ [entry] <+: ((cluster.step input).node reign.master).log := by
    intro holder inHolder
    rcases recorded.owned holder before entry inHolder with
      ⟨reign, isReign, sameTerm, began, inOwner⟩
    exact ⟨reign, stays reign isReign, sameTerm, began,
      inOwner.trans (log_prefix_step cluster input _)⟩
  rcases logs.log_step delivered increasing continues id with
    ⟨new, appended, _, _, _, rules⟩ | ⟨leader, inLeader⟩
  · rw [appended] at within
    rcases List.prefix_concat_iff.mp within with whole | inside
    · rcases List.append_inj' whole rfl with ⟨rfl, sameEntry⟩
      cases sameEntry
      rcases recorded.reign_of_ruler rules with ⟨log, isReign⟩
      refine ⟨_, stays _ isReign, rfl, (recorded.began _ isReign).1, ?_⟩
      rw [appended]
    · exact known id inside
  · exact known leader (within.trans inLeader)

theorem terms_step (delivered : Delivered cluster input) (id : String) :
    ∀ entry ∈ ((cluster.step input).node id).log,
      entry.term ≤ ((cluster.step input).node id).roleManager.currentTerm := by
  have old : ∀ entry ∈ (cluster.node id).log,
      entry.term ≤ ((cluster.step input).node id).roleManager.currentTerm := fun entry member =>
    (recorded.terms id entry member).trans (term_le_step cluster input id)
  by_cases acts : id = input.1
  · subst acts
    intro entry member
    have extends' := (cluster.node input.1).handle_extends input.2
    rw [step_node_self] at old member ⊢
    rw [FailoverCoordinator.handle_log, List.mem_append] at member
    rcases member with known | new
    · exact old entry known
    · rcases input with ⟨id, event⟩
      cases event with
      | appendLog sequence record timestamp =>
        dsimp only [FailoverCoordinator.appends] at new
        split_ifs at new
        · rw [List.mem_singleton.mp new]
          exact extends'.term
        · cases new
      | applyLogs request =>
        dsimp only [FailoverCoordinator.appends] at new
        split_ifs at new with stale
        · cases new
        · have inRequest := (recorded.requests id request (delivered _ rfl)).2 entry new
          have roles : ((cluster.node id).handle (.applyLogs request)).roleManager = _ :=
            (cluster.node id).logReplicator.applyLogs_roleManager request
          have notStale : ¬request.term <
            (cluster.node id).logReplicator.roleManager.currentTerm := stale
          rw [if_neg notStale] at roles
          dsimp only
          rw [roles, RoleManager.becomeSlave_currentTerm, RoleManager.setTerm_currentTerm]
          exact inRequest.trans (le_max_right _ _)
      | detectFailure | startElection | voteRequest | voteResponse | createReplicationRequest
      | replicationResponse => cases new
  · rw [step_node_other _ _ acts]
    exact recorded.terms id

theorem inOrder_step (logs : LogsInvariant master cluster) (delivered : Delivered cluster input)
    (increasing : Increasing cluster input) (continues : ContinuesLog cluster input) (id : String) :
    ((cluster.step input).node id).log.Pairwise fun first second => first.term ≤ second.term := by
  rcases logs.log_step delivered increasing continues id with
    ⟨new, appended, _, _, current, _⟩ | ⟨leader, within⟩
  · rw [appended, List.pairwise_append]
    refine ⟨recorded.inOrder id, List.pairwise_singleton _ _, fun entry member other isNew => ?_⟩
    rw [List.mem_singleton.mp isNew, current]
    exact recorded.terms id entry member
  · exact (recorded.inOrder leader).sublist within.sublist

theorem requests_step (logs : LogsInvariant master cluster) (slave : String)
    (request : ReplicationRequest Record)
    (inNetwork : .replicationRequest slave request ∈ (cluster.step input).network) :
    request.term ≤ ((cluster.step input).node request.leaderId).roleManager.currentTerm ∧
      ∀ entry ∈ request.entries, entry.term ≤ request.term := by
  rcases of_replicationRequest_step inNetwork with known | ⟨_, isCreated⟩
  · rcases recorded.requests slave request known with ⟨reached, within⟩
    exact ⟨reached.trans (term_le_step cluster input _), within⟩
  · rcases LogReplicator.createReplicationRequest_some isCreated with
      ⟨sameTerm, leader, entries, _⟩
    replace leader : request.leaderId = input.1 := leader.trans (logs.nodeId _)
    rw [sameTerm, leader]
    refine ⟨term_le_step cluster input input.1, fun entry member => ?_⟩
    rw [entries] at member
    exact recorded.terms _ entry (List.mem_of_mem_filter (List.mem_of_mem_take member))

theorem answers_step (logs : LogsInvariant master cluster) (delivered : Delivered cluster input)
    (continues : ContinuesLog cluster input) (leader slave : String)
    (response : ReplicationResponse)
    (inNetwork : .replicationResponse leader slave response ∈ (cluster.step input).network)
    (success : response.success = true) : (chronicle.step cluster input).Stored slave
      ((cluster.step input).node leader).roleManager.currentTerm
      ((cluster.step input).node leader).log response.matchSequence := by
  have now := recorded.now_step input slave
  rcases of_replicationResponse_step inNetwork with
    known | ⟨request, isEvent, rfl, isSlave, rfl⟩
  · exact (recorded.answers _ slave _ known success).step (term_le_step cluster input _)
      (log_prefix_step cluster input _)
  · rw [logs.nodeId] at isSlave
    subst isSlave
    rcases input with ⟨slave, event⟩
    cases isEvent
    rcases LogReplicator.applyLogs_success success with ⟨fresh, sameSequence⟩
    rcases logs.applied delivered continues fresh with ⟨within, endsAt⟩
    have roles : ((cluster.node slave).handle (.applyLogs request)).roleManager = _ :=
      (cluster.node slave).logReplicator.applyLogs_roleManager request
    rw [if_neg (Nat.not_lt.mpr fresh)] at roles
    have reached := (recorded.requests slave request (delivered _ rfl)).1
    refine ⟨_, now, ?_, ?_, ?_⟩
    · rw [step_node_self cluster (slave, _), roles, RoleManager.becomeSlave_currentTerm,
        RoleManager.setTerm_currentTerm, max_eq_right fresh]
      exact reached.trans (term_le_step cluster _ _)
    · rw [step_node_self cluster (slave, _)]
      exact within.trans (log_prefix_step cluster _ _)
    · rw [step_node_self cluster (slave, _), sameSequence]
      exact endsAt

theorem matched_step (delivered : Delivered cluster input) (id slave : String) (sequence : ℕ)
    (isMatch : ((cluster.step input).node id).matchIndex slave = some sequence) :
    sequence = 0 ∨ (chronicle.step cluster input).Stored slave
      ((cluster.step input).node id).roleManager.currentTerm
      ((cluster.step input).node id).log sequence := by
  have still : (cluster.node id).matchIndex slave = some sequence → sequence = 0 ∨
      (chronicle.step cluster input).Stored slave
        ((cluster.step input).node id).roleManager.currentTerm
        ((cluster.step input).node id).log sequence := fun isMatch =>
    (recorded.matched id slave sequence isMatch).imp_right fun stored =>
      stored.step (term_le_step cluster input id) (log_prefix_step cluster input id)
  by_cases acts : id = input.1
  · subst acts
    rw [step_node_self] at isMatch
    rcases (cluster.node input.1).handle_lookup input.2 slave with
      ⟨sameMatch, _⟩ | ⟨response, isResponse, success, newMatch, _⟩
    · rcases sameMatch with same | ⟨zero, _⟩
      · exact still (same.symm.trans isMatch)
      · exact .inl (Option.some.inj (zero.symm.trans isMatch)).symm
    · have inNetwork : .replicationResponse input.1 slave response ∈ cluster.network := by
        apply delivered
        rw [messageOf, isResponse]
        rfl
      rw [← Option.some.inj (newMatch.symm.trans isMatch)]
      exact .inr ((recorded.answers input.1 slave response inNetwork success).step
        (term_le_step cluster input input.1) (log_prefix_step cluster input input.1))
  · rw [step_node_other _ _ acts] at isMatch
    exact still isMatch

theorem step (logs : LogsInvariant master cluster) (delivered : Delivered cluster input)
    (increasing : Increasing cluster input) (continues : ContinuesLog cluster input)
    (inTermOrder : InTermOrder master cluster input) :
    Recorded master (cluster.step input) (chronicle.step cluster input) where
  rulers := recorded.rulers_step
  now := recorded.now_step input
  past := recorded.past_step
  later := recorded.later_step
  began := recorded.began_step logs inTermOrder
  owned := recorded.owned_step logs delivered increasing continues
  terms := recorded.terms_step delivered
  inOrder := recorded.inOrder_step logs delivered increasing continues
  requests := recorded.requests_step logs
  answers := recorded.answers_step logs delivered continues
  matched := recorded.matched_step delivered

end

theorem start (master : Option String) (setup : Setup) :
    Recorded master (deploy setup : Cluster Record) (.start master) where
  rulers := by
    rw [Chronicle.start, List.map_map, Cluster.rulers, deploy, Cluster.start, List.append_nil]
    rfl
  now id := by
    rcases deploy_node Record setup id with ⟨noLog, _, _, _, noTerm, _⟩
    rw [noLog, noTerm]
    exact List.mem_singleton_self _
  past id was inSeen := by
    rw [List.mem_singleton.mp inSeen]
    exact ⟨Nat.zero_le _, List.nil_prefix⟩
  later id was inSeen then' thenSeen earlier := by
    rw [List.mem_singleton.mp inSeen]
    exact List.nil_prefix
  began reign isReign := by
    rcases List.mem_map.mp isReign with ⟨id, _, rfl⟩
    exact ⟨List.nil_prefix, fun _ member => by cases member⟩
  owned id before entry within := by
    rw [(deploy_node Record setup id).1, List.prefix_nil] at within
    exact absurd within (List.concat_ne_nil entry before)
  terms id entry member := by
    rw [(deploy_node Record setup id).1] at member
    cases member
  inOrder id := by
    rw [(deploy_node Record setup id).1]
    exact List.Pairwise.nil
  requests _ _ member := by cases member
  answers _ _ _ member := by cases member
  matched id slave sequence isMatch := by
    left
    rw [deploy_matchIndex] at isMatch
    split_ifs at isMatch
    exact (Option.some.inj isMatch).symm

end Recorded

end Cluster

end QAExchange
