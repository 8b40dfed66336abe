import QAExchange.Replication.Chronicle

/-! # Leader completeness

An entry that a Master has committed is in the log of every later Master. For this
a vote must go only to a candidate whose log is not behind the voter's, and a Master
must count only entries of its own term. The handlers test neither.
-/

namespace QAExchange

open Foundation FailoverCoordinator

variable {Record : Type}

/-- A log is not behind another one: it ends in a later term, or in the same term not earlier. -/
def UpToDate (log other : List (LogEntry Record)) : Prop :=
  (lastLog other).2 < (lastLog log).2 ∨
    (lastLog other).2 = (lastLog log).2 ∧ (lastLog other).1 ≤ (lastLog log).1

theorem UpToDate.refl (log : List (LogEntry Record)) : UpToDate log log := .inr ⟨rfl, le_rfl⟩

namespace FailoverCoordinator

def MayVote (candidateTerm lastLogSequence : ℕ) (node : FailoverCoordinator Record) : Prop :=
  (node.roleManager.currentTerm < candidateTerm ∨
    node.roleManager.currentTerm = candidateTerm ∧ node.roleManager.votedFor = none) ∧
  node.logReplicator.commitIndex ≤ lastLogSequence

theorem mayVote_of_granted {node : FailoverCoordinator Record} {candidateId : String}
    {candidateTerm lastLogSequence : ℕ}
    (granted : (node.handleVoteRequest candidateId candidateTerm lastLogSequence).1.1 = true) :
    node.MayVote candidateTerm lastLogSequence := by
  unfold handleVoteRequest at granted
  dsimp only at granted
  split_ifs at granted with canVote
  rcases canVote with ⟨reached, noVote, commit⟩
  refine ⟨?_, commit⟩
  rw [onRoles_roleManager] at reached noVote
  unfold followTerm at reached noVote
  split_ifs at reached noVote with later
  · exact .inl later
  · exact .inr ⟨le_antisymm reached (Nat.not_lt.mp later), noVote⟩

end FailoverCoordinator

namespace Cluster

/-- A vote goes only to a candidate whose log is not behind the log of the voter. -/
def VotesUpToDate (cluster : Cluster Record) (input : String × NodeEvent Record) : Prop :=
  match input.2 with
  | .voteRequest candidateId candidateTerm lastLogSequence =>
    (cluster.node input.1).MayVote candidateTerm lastLogSequence →
      UpToDate (cluster.node candidateId).log (cluster.node input.1).log
  | _ => True

/-- An answer raises the commit index of a Master only to an entry of the Master's term. -/
def CommitsOwnTerm (cluster : Cluster Record) (input : String × NodeEvent Record) : Prop :=
  match input.2 with
  | .replicationResponse slaveId response =>
    let node := cluster.node input.1
    node.Hears response →
      node.logReplicator.commitIndex < node.majorityWith slaveId response →
        ∀ entry ∈ node.log, entry.sequence = node.majorityWith slaveId response →
          entry.term = node.roleManager.currentTerm
  | _ => True

/-- Behind each vote stands a state of the voter in the term, and a log of the candidate that
was not behind. Behind each Master that was elected stand the votes of a quorum. -/
structure Backed (members : List String) (cluster : Cluster Record)
    (chronicle : Chronicle Record) : Prop where
  voted : ∀ voter term candidate, cluster.Voted voter term candidate →
    ∃ was ∈ chronicle.seen voter, was.1 = term ∧
      ∃ log, log <+: (cluster.node candidate).log ∧ UpToDate log was.2
  elected : ∀ reign ∈ chronicle.reigns, 0 < reign.term →
    ∃ voters, IsQuorum members voters ∧ ∀ voter ∈ voters,
      ∃ was ∈ chronicle.seen voter, was.1 = reign.term ∧
        ∃ log, log <+: reign.log ∧ UpToDate log was.2

section Completeness

variable {members : List String} {master : Option String} {cluster : Cluster Record}
  {chronicle : Chronicle Record} {input : String × NodeEvent Record}

theorem Backed.voted_step (backed : Backed members cluster chronicle)
    (recorded : Recorded master cluster chronicle) (logs : LogsInvariant master cluster)
    (upToDate : VotesUpToDate cluster input) (voter : String) (term : ℕ) (candidate : String)
    (voted : (cluster.step input).Voted voter term candidate) :
    ∃ was ∈ (chronicle.step cluster input).seen voter, was.1 = term ∧
      ∃ log, log <+: ((cluster.step input).node candidate).log ∧ UpToDate log was.2 := by
  rcases voted_of_step logs.nodeId voted with known | ⟨rfl, new⟩
  · rcases backed.voted voter term candidate known with ⟨was, inSeen, sameTerm, log, within, isBehind⟩
    exact ⟨was, Chronicle.seen_step inSeen, sameTerm, log,
      within.trans (log_prefix_step cluster input candidate), isBehind⟩
  · refine ⟨_, recorded.now_step input input.1, ?_⟩
    rw [step_node_self, handle_log]
    rcases new with ⟨candidateTerm, last, isRequest, answer⟩ | ⟨starts, isCandidate, sameTerm, rfl⟩
    · have granted := congrArg Prod.fst answer
      rcases handleVoteRequest_granted _ granted with ⟨toldTerm, _⟩
      rw [VotesUpToDate, isRequest] at upToDate
      rw [isRequest, appends, List.append_nil]
      exact ⟨toldTerm.trans (congrArg Prod.snd answer), _, log_prefix_step cluster input candidate,
        upToDate (mayVote_of_granted granted)⟩
    · have started := startElection_roleManager _ isCandidate
      rw [starts, appends, List.append_nil]
      exact ⟨started.1.trans sameTerm, _, log_prefix_step cluster input input.1, .refl _⟩

theorem Backed.step (backed : Backed members cluster chronicle)
    (recorded : Recorded master cluster chronicle) (logs : LogsInvariant master cluster)
    (votes : VotesInvariant members (cluster.step input)) (upToDate : VotesUpToDate cluster input) :
    Backed members (cluster.step input) (chronicle.step cluster input) where
  voted := backed.voted_step recorded logs upToDate
  elected reign isReign positive := by
    rw [Chronicle.reigns_step, List.mem_append, List.mem_map] at isReign
    rcases isReign with old | ⟨won, isWon, rfl⟩
    · rcases backed.elected reign old positive with ⟨voters, quorum, all⟩
      refine ⟨voters, quorum, fun voter member => ?_⟩
      rcases all voter member with ⟨was, inSeen, rest⟩
      exact ⟨was, Chronicle.seen_step inSeen, rest⟩
    · have elected : won ∈ (cluster.step input).elected := by
        rw [step_elected, ← step_node_self]
        exact List.mem_append_right _ isWon
      have isActor : won.2 = input.1 := by
        unfold wins at isWon
        split_ifs at isWon
        · rw [List.mem_singleton.mp isWon]
          exact votes.nodeId input.1
        · cases isWon
      rcases votes.elected won.1 won.2 elected with ⟨voters, quorum, all⟩
      refine ⟨voters, quorum, fun voter member => ?_⟩
      have behind := backed.voted_step recorded logs upToDate voter won.1 won.2 (all voter member)
      rw [isActor] at behind
      exact behind

/-! ## Secured entries -/

/-- A piece of the log of a Master that ends with an entry of its term, and that a quorum has had
in this term or before. -/
def Secured (members : List String) (master : Option String) (cluster : Cluster Record)
    (chronicle : Chronicle Record) (term : ℕ) (log : List (LogEntry Record)) : Prop :=
  ∃ owner, (term, owner) ∈ cluster.rulers master ∧ log <+: (cluster.node owner).log ∧
    (∃ before entry, log = before ++ [entry] ∧ entry.term = term) ∧
    ∃ group, IsQuorum members group ∧
      ∀ member ∈ group, ∃ was ∈ chronicle.seen member, was.1 ≤ term ∧ log <+: was.2

variable {part log : List (LogEntry Record)} {term : ℕ}

/-- A log that is not behind another one has everything of a term of it, if the Masters of all
later terms have it. -/
theorem Recorded.prefix_of_upToDate (recorded : Recorded master cluster chronicle)
    (logs : LogsInvariant master cluster)
    (ends : ∃ before entry, part = before ++ [entry] ∧ entry.term = term)
    (inVoter : part <+: voterLog) (voterPrefix : voterLog <+: (cluster.node voter).log)
    (candidatePrefix : log <+: (cluster.node candidate).log)
    (below : ∀ entry ∈ log, entry.term < bound)
    (laterMasters : ∀ reign ∈ chronicle.reigns, term < reign.term → reign.term < bound →
      part <+: reign.log) (upToDate : UpToDate log voterLog) : part <+: log := by
  rcases ends with ⟨before, entry, isPart, sameTerm⟩
  rcases List.eq_nil_or_concat' voterLog with none | ⟨voterBefore, voterLast, isVoterLog⟩
  · rw [none, List.prefix_nil, isPart] at inVoter
    exact absurd inVoter (List.concat_ne_nil entry before)
  have notEarlier : term ≤ voterLast.term := by
    have inOrder := (recorded.inOrder voter).sublist voterPrefix.sublist
    have member : entry ∈ voterLog := inVoter.subset (by rw [isPart]; simp)
    rw [isVoterLog, List.pairwise_append] at inOrder
    rw [isVoterLog, List.mem_append, List.mem_singleton] at member
    rw [← sameTerm]
    rcases member with earlier | rfl
    · exact inOrder.2.2 entry earlier voterLast (List.mem_singleton_self _)
    · exact le_rfl
  have positive : 0 < voterLast.sequence :=
    logs.positive voter voterLast (voterPrefix.subset (by rw [isVoterLog]; simp))
  rcases List.eq_nil_or_concat' log with rfl | ⟨logBefore, last, isLog⟩
  · rw [UpToDate, isVoterLog, lastLog_concat] at upToDate
    change voterLast.term < 0 ∨ voterLast.term = 0 ∧ voterLast.sequence ≤ 0 at upToDate
    omega
  rw [UpToDate, isVoterLog, isLog, lastLog_concat, lastLog_concat] at upToDate
  dsimp only at upToDate
  rw [isLog] at candidatePrefix
  rw [isVoterLog] at voterPrefix
  rcases recorded.owned candidate logBefore last candidatePrefix with
    ⟨reign, isReign, reignTerm, began, inOwner⟩
  rcases upToDate with later | ⟨same, atMost⟩
  · have bounded := below last (by rw [isLog]; simp)
    have inReign := laterMasters reign isReign (by omega) (by omega)
    rw [isLog]
    exact (inReign.trans began).trans (List.prefix_append _ _)
  · rcases recorded.owned voter voterBefore voterLast voterPrefix with
      ⟨voterReign, isVoterReign, voterTerm, _, inVoterOwner⟩
    have oneOwner : voterReign.master = reign.master := by
      apply logs.oneRuler reign.term
      · rw [reignTerm, ← same, ← voterTerm]
        exact recorded.ruler_of_reign isVoterReign
      · exact recorded.ruler_of_reign isReign
    rw [oneOwner] at inVoterOwner
    have within := (logs.ascending reign.master).prefix_of_le inVoterOwner inOwner atMost
    rw [isLog]
    rw [isVoterLog] at inVoter
    exact inVoter.trans within

theorem Secured.prefix_reign (secured : Secured members master cluster chronicle term part)
    (recorded : Recorded master cluster chronicle) (logs : LogsInvariant master cluster)
    (backed : Backed members cluster chronicle) :
    ∀ bound, ∀ reign ∈ chronicle.reigns, reign.term = bound → term < bound →
      part <+: reign.log := by
  rcases secured with ⟨owner, rules, inOwner, ends, group, quorum, had⟩
  intro bound
  induction bound using Nat.strong_induction_on with
  | _ bound induction =>
    rintro reign isReign rfl later
    rcases backed.elected reign isReign (Nat.zero_lt_of_lt later) with ⟨voters, isQuorum, voted⟩
    -- One of the voters had the secured entries before it voted.
    rcases quorum.exists_mem_both isQuorum with ⟨voter, inGroup, isVoter⟩
    rcases had voter inGroup with ⟨was, inSeen, inTerm, hasPart⟩
    rcases voted voter isVoter with ⟨then', thenSeen, thenTerm, log, within, upToDate⟩
    have kept := recorded.later voter was inSeen then' thenSeen (by omega)
    rcases recorded.began reign isReign with ⟨began, below⟩
    have inLog : part <+: log := by
      apply recorded.prefix_of_upToDate logs ends (hasPart.trans kept)
        (recorded.past voter then' thenSeen).2 (within.trans began)
        (fun entry member => below entry (within.subset member)) _ upToDate
      intro other isOther laterTerm earlierTerm
      exact induction other.term earlierTerm other isOther rfl laterTerm
    exact inLog.trans within

theorem Secured.step (secured : Secured members master cluster chronicle term part) :
    Secured members master (cluster.step input) (chronicle.step cluster input) term part := by
  rcases secured with ⟨owner, rules, inOwner, ends, group, quorum, had⟩
  refine ⟨owner, ?_, inOwner.trans (log_prefix_step cluster input owner), ends, group, quorum, ?_⟩
  · rw [rulers_step]
    exact List.mem_append_left _ rules
  · intro member inGroup
    rcases had member inGroup with ⟨was, inSeen, rest⟩
    exact ⟨was, Chronicle.seen_step inSeen, rest⟩

def Held (members : List String) (master : Option String) (cluster : Cluster Record)
    (chronicle : Chronicle Record) (index : ℕ) (log : List (LogEntry Record)) : Prop :=
  index = 0 ∨ ∃ part, part <+: log ∧ (∃ sequence, index ≤ sequence ∧ EndsAt sequence part) ∧
    ∃ term whole, Secured members master cluster chronicle term whole ∧ part <+: whole

variable {index : ℕ}

section

variable (held : Held members master cluster chronicle index log)
include held

theorem Held.mono (within : log <+: longer) :
    Held members master cluster chronicle index longer := by
  rcases held with none | ⟨part, inLog, rest⟩
  · exact .inl none
  · exact .inr ⟨part, inLog.trans within, rest⟩

theorem Held.step (input : String × NodeEvent Record) :
    Held members master (cluster.step input) (chronicle.step cluster input) index log := by
  rcases held with none | ⟨part, inLog, ends, term, whole, secured, inWhole⟩
  · exact .inl none
  · exact .inr ⟨part, inLog, ends, term, whole, secured.step, inWhole⟩

/-- A piece of the log of a Master holds what the Master holds, as far as the piece goes. -/
theorem Held.of_piece (within : piece <+: log) (endsAt : EndsAt last piece) :
    Held members master cluster chronicle (min index last) piece := by
  rcases held with none | ⟨part, inLog, ⟨sequence, reaches, ends⟩, term, whole, secured, inWhole⟩
  · rw [none, Nat.zero_min]
    exact .inl rfl
  · right
    rcases List.prefix_or_prefix_of_prefix inLog within with inPiece | inPart
    · exact ⟨part, inPiece, ⟨sequence, (min_le_left _ _).trans reaches, ends⟩, term, whole, secured,
        inWhole⟩
    · exact ⟨piece, List.prefix_refl _, ⟨last, min_le_right _ _, endsAt⟩, term, whole, secured,
        inPart.trans inWhole⟩

end

/-! ## The registered slaves -/

structure Registered (members : List String) (cluster : Cluster Record) : Prop where
  clusterNodes : ∀ id node, node ∈ (cluster.node id).clusterNodes ↔ node ∈ members
  slaves : ∀ id slave sequence, (cluster.node id).matchIndex slave = some sequence →
    slave ∈ members ∧ slave ≠ id
  all : ∀ id, (cluster.node id).roleManager.role = .Master → ∀ slave ∈ members, slave ≠ id →
    (cluster.node id).matchIndex slave ≠ none
  requests : ∀ slave request, .replicationRequest slave request ∈ cluster.network →
    slave ≠ request.leaderId
  answers : ∀ leader slave response,
    .replicationResponse leader slave response ∈ cluster.network → slave ∈ members ∧ slave ≠ leader

/-- Members only, with messages of the network. A Master sends no request to itself. -/
def AmongMembers (members : List String) (cluster : Cluster Record)
    (input : String × NodeEvent Record) : Prop :=
  input.1 ∈ members ∧ Delivered cluster input ∧
    match input.2 with
    | .createReplicationRequest slaveId => slaveId ≠ input.1
    | _ => True

theorem Registered.slaves_step (registered : Registered members cluster)
    (nodeId : ∀ id, (cluster.node id).roleManager.nodeId = id)
    (among : AmongMembers members cluster input) (id slave : String) (sequence : ℕ)
    (isMatch : ((cluster.step input).node id).matchIndex slave = some sequence) :
    slave ∈ members ∧ slave ≠ id := by
  by_cases acts : id = input.1
  · subst acts
    rw [step_node_self] at isMatch
    rcases (cluster.node input.1).handle_lookup input.2 slave with
      ⟨same | ⟨_, isNode, notSelf⟩, _⟩ | ⟨response, isResponse, _⟩
    · exact registered.slaves input.1 slave sequence (same.symm.trans isMatch)
    · rw [nodeId] at notSelf
      exact ⟨(registered.clusterNodes _ slave).mp isNode, notSelf⟩
    · apply registered.answers input.1 slave response
      apply among.2.1
      rw [messageOf, isResponse]
      rfl
  · rw [step_node_other _ _ acts] at isMatch
    exact registered.slaves id slave sequence isMatch

theorem Registered.all_step (registered : Registered members cluster)
    (nodeId : ∀ id, (cluster.node id).roleManager.nodeId = id) (id : String)
    (isMaster : ((cluster.step input).node id).roleManager.role = .Master) (slave : String)
    (isMember : slave ∈ members) (notSelf : slave ≠ id) :
    ((cluster.step input).node id).matchIndex slave ≠ none := by
  by_cases acts : id = input.1
  · subst acts
    rw [step_node_self] at isMaster ⊢
    by_cases was : (cluster.node input.1).roleManager.role = .Master
    · rcases (cluster.node input.1).handle_lookup input.2 slave with
        ⟨same | ⟨zero, _⟩, _⟩ | ⟨response, _, _, sameMatch, _⟩
      · rw [same]
        exact registered.all input.1 was slave isMember notSelf
      · simp [zero]
      · simp [sameMatch]
    · have isNode := (registered.clusterNodes input.1 slave).mpr isMember
      rw [handle_registers was isMaster isNode (by rwa [nodeId])]
      simp
  · rw [step_node_other _ _ acts] at isMaster ⊢
    exact registered.all id isMaster slave isMember notSelf

theorem Registered.step (registered : Registered members cluster)
    (nodeId : ∀ id, (cluster.node id).roleManager.nodeId = id)
    (among : AmongMembers members cluster input) : Registered members (cluster.step input) where
  clusterNodes := step_forall_node cluster input
    (fun _ node => ∀ other, other ∈ node.clusterNodes ↔ other ∈ members) registered.clusterNodes
    (by
      rw [(handle_settings _ _).1]
      exact registered.clusterNodes input.1)
  slaves := registered.slaves_step nodeId among
  all := registered.all_step nodeId
  requests slave request inNetwork := by
    rcases of_replicationRequest_step inNetwork with known | ⟨isEvent, isCreated⟩
    · exact registered.requests slave request known
    · rcases input with ⟨id, event⟩
      cases isEvent
      rw [(LogReplicator.createReplicationRequest_some isCreated).2.1]
      have leader := nodeId id
      change _ ≠ (cluster.node id).roleManager.nodeId
      rw [leader]
      exact among.2.2
  answers leader slave response inNetwork := by
    rcases of_replicationResponse_step inNetwork with
      known | ⟨request, isEvent, rfl, isSlave, _⟩
    · exact registered.answers _ slave response known
    · rw [nodeId] at isSlave
      subst isSlave
      rcases input with ⟨slave, event⟩
      cases isEvent
      exact ⟨among.1, registered.requests slave request (among.2.1 _ rfl)⟩

def reaching (index : ℕ) (node : FailoverCoordinator Record) : List (Sigma fun _ : String => ℕ) :=
  node.logReplicator.slaveMatchIndex.entries.filter fun entry => index ≤ entry.2

variable {id : String}

theorem Registered.isQuorum (registered : Registered members cluster) (nodup : members.Nodup)
    (isMember : id ∈ members) (isMaster : (cluster.node id).roleManager.role = .Master)
    (majority : LogReplicator.majorityIndex (cluster.node id).logReplicator.slaveMatchIndex =
      some index) : IsQuorum members (id :: (reaching index (cluster.node id)).map Sigma.fst) := by
  have isSlave : ∀ entry ∈ reaching index (cluster.node id),
      entry.1 ∈ members ∧ entry.1 ≠ id := fun entry member =>
    registered.slaves id entry.1 entry.2 (AList.mem_lookup_iff.mpr (List.mem_of_mem_filter member))
  refine ⟨?_, ?_, ?_⟩
  · rw [List.nodup_cons]
    refine ⟨fun member => ?_, ?_⟩
    · rcases List.mem_map.mp member with ⟨entry, isEntry, same⟩
      exact (isSlave entry isEntry).2 same
    · have keys := (cluster.node id).logReplicator.slaveMatchIndex.nodupKeys
      exact List.NodupKeys.sublist List.filter_sublist keys
  · intro member inGroup
    rcases List.mem_cons.mp inGroup with rfl | inSlaves
    · exact isMember
    · rcases List.mem_map.mp inSlaves with ⟨entry, isEntry, rfl⟩
      exact (isSlave entry isEntry).1
  · rw [LogReplicator.majorityIndex, List.length_insertionSort] at majority
    have half := length_le_two_mul_filter_middle majority
    rw [List.filter_map, List.length_map, List.length_map] at half
    have others : (members.erase id).length ≤
        (cluster.node id).logReplicator.slaveMatchIndex.entries.length := by
      rw [← List.length_map Sigma.fst]
      apply ((nodup.erase id).subperm _).length_le
      intro slave isOther
      rcases (nodup.mem_erase_iff).mp isOther with ⟨notSelf, inMembers⟩
      have some' := Option.isSome_iff_ne_none.mpr
        (registered.all id isMaster slave inMembers notSelf)
      exact AList.mem_keys.mp (AList.lookup_isSome.mp some')
    rw [List.length_erase_of_mem isMember] at others
    rw [List.length_cons, List.length_map]
    have positive := List.length_pos_of_mem isMember
    change _ ≤ 2 * (reaching index (cluster.node id)).length at half
    omega

/-- A log of a Master up to its majority index is secured, if it ends there with an entry of
the Master's term. -/
theorem Registered.held (registered : Registered members cluster)
    (recorded : Recorded master cluster chronicle) (logs : LogsInvariant master cluster)
    (nodup : members.Nodup) (isMember : id ∈ members)
    (isMaster : (cluster.node id).roleManager.role = .Master) (positive : 0 < index)
    (majority : LogReplicator.majorityIndex (cluster.node id).logReplicator.slaveMatchIndex =
      some index) (ownTerm : ∀ entry ∈ (cluster.node id).log, entry.sequence = index →
      entry.term = (cluster.node id).roleManager.currentTerm) :
    Held members master cluster chronicle index (cluster.node id).log := by
  have stored : ∀ slave sequence, index ≤ sequence →
      (cluster.node id).matchIndex slave = some sequence →
        chronicle.Stored slave (cluster.node id).roleManager.currentTerm (cluster.node id).log
          sequence := by
    intro slave sequence reaches isMatch
    rcases recorded.matched id slave sequence isMatch with none | stored
    · omega
    · exact stored
  have isIndex : ∃ slave, (cluster.node id).matchIndex slave = some index := by
    have isMiddle := majority
    rw [LogReplicator.majorityIndex] at isMiddle
    have inValues := (List.mem_insertionSort _).mp (List.mem_of_getElem? isMiddle)
    rcases List.mem_map.mp inValues with ⟨entry, inEntries, rfl⟩
    exact ⟨entry.1, AList.mem_lookup_iff.mpr inEntries⟩
  rcases isIndex with ⟨slave, isMatch⟩
  rcases stored slave index le_rfl isMatch with ⟨⟨_, part⟩, _, _, within, endsAt⟩
  refine .inr ⟨part, within, ⟨index, le_rfl, endsAt⟩, (cluster.node id).roleManager.currentTerm,
    part, ?_, List.prefix_refl _⟩
  rcases endsAt with ⟨before, last, rfl, isLast⟩
  have sameTerm := ownTerm last (within.subset (by simp)) isLast
  refine ⟨id, logs.rules id isMaster, within, ⟨before, last, rfl, sameTerm⟩, _,
    registered.isQuorum nodup isMember isMaster majority, fun member inGroup => ?_⟩
  rcases List.mem_cons.mp inGroup with rfl | inSlaves
  · exact ⟨_, recorded.now member, le_rfl, within⟩
  · rcases List.mem_map.mp inSlaves with ⟨entry, isEntry, rfl⟩
    rcases List.mem_filter.mp isEntry with ⟨inEntries, reaches⟩
    have atLeast := of_decide_eq_true reaches
    rcases stored entry.1 entry.2 atLeast (AList.mem_lookup_iff.mpr inEntries) with
      ⟨⟨_, had⟩, inSeen, inTerm, hadWithin, hadBefore, hadLast, rfl, isHadLast⟩
    refine ⟨_, inSeen, inTerm, ?_⟩
    exact (logs.ascending id).prefix_of_le within hadWithin (by omega)

structure Committing (members : List String) (master : Option String) (cluster : Cluster Record)
    (chronicle : Chronicle Record) : Prop where
  nodes : ∀ id, Held members master cluster chronicle
    (cluster.node id).logReplicator.commitIndex (cluster.node id).log
  requests : ∀ slave request, .replicationRequest slave request ∈ cluster.network →
    Held members master cluster chronicle request.leaderCommit
      (cluster.node request.leaderId).log

section

variable (committing : Committing members master cluster chronicle)
include committing

theorem Committing.requests_step (nodeId : ∀ id, (cluster.node id).roleManager.nodeId = id)
    (slave : String) (request : ReplicationRequest Record)
    (inNetwork : .replicationRequest slave request ∈ (cluster.step input).network) :
    Held members master (cluster.step input) (chronicle.step cluster input) request.leaderCommit
      ((cluster.step input).node request.leaderId).log := by
  rcases of_replicationRequest_step inNetwork with known | ⟨_, isCreated⟩
  · exact ((committing.requests slave request known).step input).mono
      (log_prefix_step cluster input _)
  · rcases LogReplicator.createReplicationRequest_some isCreated with ⟨_, leader, _, _, _, commit⟩
    replace leader : request.leaderId = input.1 := leader.trans (nodeId _)
    rw [commit, leader]
    exact ((committing.nodes _).step _).mono (log_prefix_step cluster _ _)

theorem Committing.heard
    (registered : Registered members (cluster.step (id, .replicationResponse slave response)))
    (recorded : Recorded master (cluster.step (id, .replicationResponse slave response))
      (chronicle.step cluster (id, .replicationResponse slave response)))
    (logs : LogsInvariant master (cluster.step (id, .replicationResponse slave response)))
    (nodup : members.Nodup) (isMember : id ∈ members)
    (commitsOwnTerm : CommitsOwnTerm cluster (id, .replicationResponse slave response)) :
    Held members master (cluster.step (id, .replicationResponse slave response))
      (chronicle.step cluster (id, .replicationResponse slave response))
      ((cluster.node id).handle (.replicationResponse slave response)).logReplicator.commitIndex
      ((cluster.step (id, .replicationResponse slave response)).node id).log := by
  have same := ((committing.nodes id).step (id, .replicationResponse slave response)).mono
    (log_prefix_step cluster (id, .replicationResponse slave response) id)
  have commit : ((cluster.node id).handle
      (.replicationResponse slave response)).logReplicator.commitIndex =
        if (cluster.node id).Hears response then
          max (cluster.node id).logReplicator.commitIndex
            ((cluster.node id).majorityWith slave response)
        else (cluster.node id).logReplicator.commitIndex :=
    (cluster.node id).logReplicator.handleReplicationResponse_commitIndex slave response
  rw [commit]
  by_cases hears : (cluster.node id).Hears response
  · rw [if_pos hears]
    by_cases higher : (cluster.node id).logReplicator.commitIndex <
        (cluster.node id).majorityWith slave response
    · rw [max_eq_right higher.le]
      rcases LogReplicator.handleReplicationResponse_heard slave hears with
        ⟨sameRoles, newMatch⟩
      have node := step_node_self cluster (id, .replicationResponse slave response)
      have log := (cluster.node id).handle_log (.replicationResponse slave response)
      rw [appends, List.append_nil, ← node] at log
      have roles : ((cluster.step (id, .replicationResponse slave response)).node
          id).roleManager = (cluster.node id).roleManager := by
        rw [node]
        exact sameRoles
      have positive := Nat.zero_lt_of_lt higher
      apply registered.held recorded logs nodup isMember _ positive
      · rw [node]
        dsimp only [handle, onReplicator]
        rw [newMatch]
        have some' : (cluster.node id).majorityWith slave response ≠ 0 := by omega
        unfold majorityWith at some' ⊢
        cases isMajority : LogReplicator.majorityIndex
            ((cluster.node id).logReplicator.slaveMatchIndex.insert slave
              response.matchSequence) with
        | none =>
          rw [isMajority] at some'
          exact absurd rfl some'
        | some index => rfl
      · rw [log, roles]
        exact commitsOwnTerm hears higher
      · rw [roles]
        exact hears.1
    · rw [max_eq_left (Nat.not_lt.mp higher)]
      exact same
  · rw [if_neg hears]
    exact same

theorem Committing.nodes_step (logs : LogsInvariant master cluster)
    (delivered : Delivered cluster input) (continues : ContinuesLog cluster input)
    (registeredAfter : Registered members (cluster.step input))
    (recordedAfter : Recorded master (cluster.step input) (chronicle.step cluster input))
    (logsAfter : LogsInvariant master (cluster.step input)) (nodup : members.Nodup)
    (isMember : input.1 ∈ members) (commitsOwnTerm : CommitsOwnTerm cluster input) (id : String) :
    Held members master (cluster.step input) (chronicle.step cluster input)
      ((cluster.step input).node id).logReplicator.commitIndex
      ((cluster.step input).node id).log := by
  have same := ((committing.nodes id).step input).mono (log_prefix_step cluster input id)
  by_cases acts : id = input.1
  · subst acts
    have node := step_node_self cluster input
    rw [congrArg (fun node => node.logReplicator.commitIndex) node]
    by_cases moves : movesCommit input.2
    · rcases input with ⟨id, event⟩
      cases event with
      | applyLogs request =>
        have commit : ((cluster.node id).handle
            (.applyLogs request)).logReplicator.commitIndex = _ :=
          (cluster.node id).logReplicator.applyLogs_commitIndex request
        rw [commit]
        split_ifs with stale higher
        · exact same
        · rcases logs.applied delivered continues (Nat.not_lt.mp stale) with ⟨within, endsAt⟩
          have sent := committing.requests id request (delivered _ rfl)
          rw [node]
          exact (sent.of_piece within endsAt).step _
        · exact same
      | replicationResponse slave response =>
        exact committing.heard registeredAfter recordedAfter logsAfter nodup isMember
          commitsOwnTerm
      | detectFailure | startElection | voteRequest | voteResponse | appendLog
      | createReplicationRequest => cases moves
    · rw [handle_commitIndex_of_not_moves _ (Bool.eq_false_iff.mpr moves)]
      exact same
  · rw [congrArg (fun node => node.logReplicator.commitIndex) (step_node_other _ _ acts)]
    exact same

end

/-! ## Runs -/

/-- What each step must do so that later Masters have all committed entries: count no vote
twice, elect Masters in the order of their terms, vote for a log that is not behind, commit
entries of the own term only, and extend logs where they end. -/
def KeepsCommitted (master : Option String) (cluster : Cluster Record)
    (input : String × NodeEvent Record) : Prop :=
  CountsOnce cluster input ∧ InTermOrder master cluster input ∧ VotesUpToDate cluster input ∧
    CommitsOwnTerm cluster input ∧ Increasing cluster input ∧ ContinuesLog cluster input

structure Setup.Replicated (members : List String) (master : Option String) (setup : Setup) :
    Prop where
  nodup : members.Nodup
  electable : setup.Electable members
  mastered : setup.MasteredBy master
  clusterNodes : ∀ id node, node ∈ setup.clusterNodes id ↔ node ∈ members

/-- Every entry that a Master has committed is in the log of every node that becomes Master
later in the run. -/
def CommittedSurvive (inputs : List (String × NodeEvent Record)) (cluster : Cluster Record) :
    Prop :=
  ∀ first more input rest, inputs = first ++ (more ++ input :: rest) →
    let committed := first.foldl step cluster
    let before := more.foldl step committed
    ∀ id, (committed.node id).roleManager.role = .Master → ∀ entry ∈ (committed.node id).log,
      entry.sequence ≤ (committed.node id).logReplicator.commitIndex →
        (before.node input.1).roleManager.role ≠ .Master →
          ((before.step input).node input.1).roleManager.role = .Master →
            entry ∈ ((before.step input).node input.1).log

/-- What holds of a cluster and its chronicle after every step. -/
structure FailoverInvariant (members : List String) (master : Option String)
    (cluster : Cluster Record) (chronicle : Chronicle Record) : Prop where
  logs : LogsInvariant master cluster
  votes : VotesInvariant members cluster
  recorded : Recorded master cluster chronicle
  backed : Backed members cluster chronicle
  registered : Registered members cluster
  committing : Committing members master cluster chronicle

theorem AmongMembers.votesDelivered (among : AmongMembers members cluster input) :
    VotesDelivered members cluster input := by
  rcases input with ⟨id, event⟩
  rcases among with ⟨isMember, delivered, _⟩
  refine ⟨isMember, ?_⟩
  cases event with
  | voteRequest candidateId candidateTerm lastLogSequence => exact ⟨_, delivered _ rfl⟩
  | voteResponse voterId granted term => exact delivered _ rfl
  | detectFailure | startElection | appendLog | createReplicationRequest | applyLogs
  | replicationResponse => trivial

theorem FailoverInvariant.step (invariant : FailoverInvariant members master cluster chronicle)
    (nodup : members.Nodup) (among : AmongMembers members cluster input)
    (keeps : KeepsCommitted master cluster input) :
    FailoverInvariant members master (cluster.step input) (chronicle.step cluster input) := by
  rcases invariant with ⟨logs, votes, recorded, backed, registered, committing⟩
  rcases keeps with ⟨countsOnce, inTermOrder, upToDate, commitsOwnTerm, increasing, continues⟩
  have delivered := among.2.1
  have logsAfter := logs.step delivered (inTermOrder.successive logs.nodeId) increasing continues
  have votesAfter := votes.step among.votesDelivered countsOnce
  have recordedAfter := recorded.step logs delivered increasing continues inTermOrder
  have registeredAfter := registered.step logs.nodeId among
  exact ⟨logsAfter, votesAfter, recordedAfter, backed.step recorded logs votesAfter upToDate,
    registeredAfter, committing.nodes_step logs delivered continues registeredAfter recordedAfter
      logsAfter nodup among.1 commitsOwnTerm, committing.requests_step logs.nodeId⟩

theorem VotesInvariant.deploy {setup : Setup} (electable : setup.Electable members) :
    VotesInvariant members (deploy setup : Cluster Record) where
  nodeId id := (deploy_node Record setup id).2.2.1
  candidate id isCandidate := by
    rw [(deploy_node Record setup id).2.2.2.1] at isCandidate
    exact absurd isCandidate (electable.role id)
  majority id := by
    rw [(deploy_node Record setup id).2.2.2.2.2.1]
    exact electable.majority id
  member _ _ _ voted := by rcases voted with answered | ⟨_, _, asked⟩ <;> contradiction
  backed _ _ _ voted := by rcases voted with answered | ⟨_, _, asked⟩ <;> contradiction
  unique _ _ _ _ voted := by rcases voted with answered | ⟨_, _, asked⟩ <;> contradiction
  distinct id term := by
    rw [deploy_votesReceived]
    exact List.nodup_nil
  counted id term voter member := by
    rw [deploy_votesReceived] at member
    cases member
  elected _ _ member := by cases member

theorem FailoverInvariant.start {setup : Setup} (replicated : setup.Replicated members master) :
    FailoverInvariant members master (deploy setup : Cluster Record) (.start master) where
  logs := .start replicated.mastered
  votes := .deploy replicated.electable
  recorded := .start master setup
  backed :=
    { voted := fun _ _ _ voted => by
        rcases voted with answered | ⟨_, _, asked⟩ <;> contradiction
      elected := fun reign isReign positive => by
        rcases List.mem_map.mp isReign with ⟨id, _, rfl⟩
        exact absurd positive (lt_irrefl 0) }
  registered :=
    { clusterNodes := fun id node => by
        rw [deploy_clusterNodes]
        exact replicated.clusterNodes id node
      slaves := fun id slave sequence isMatch => by
        rw [deploy_matchIndex] at isMatch
        split_ifs at isMatch with registered
        exact ⟨(replicated.clusterNodes id slave).mp registered.2.1, registered.2.2⟩
      all := fun id isMaster slave isMember notSelf => by
        rw [(deploy_node Record setup id).2.2.2.1] at isMaster
        have isNode := (replicated.clusterNodes id slave).mpr isMember
        rw [deploy_matchIndex, if_pos ⟨isMaster, isNode, notSelf⟩]
        exact Option.some_ne_none 0
      requests := fun _ _ member => by cases member
      answers := fun _ _ _ member => by cases member }
  committing :=
    { nodes := fun id => .inl (deploy_node Record setup id).2.1
      requests := fun _ _ member => by cases member }

theorem FailoverInvariant.secured_of_committed
    (invariant : FailoverInvariant members master cluster chronicle)
    (member : entry ∈ (cluster.node id).log)
    (committed : entry.sequence ≤ (cluster.node id).logReplicator.commitIndex) :
    ∃ term whole, Secured members master cluster chronicle term whole ∧ entry ∈ whole := by
  have positive := invariant.logs.positive id entry member
  rcases invariant.committing.nodes id with none | ⟨part, within, reaches, term, whole, secured, inWhole⟩
  · omega
  · rcases reaches with ⟨sequence, reached, before, last, rfl, rfl⟩
    refine ⟨term, whole, secured, inWhole.subset ?_⟩
    rw [← (invariant.logs.ascending id).filter_le_last within, List.mem_filter, decide_eq_true_eq]
    exact ⟨member, committed.trans reached⟩

theorem FailoverInvariant.prefix_of_wins
    (invariant : FailoverInvariant members master cluster chronicle) (nodup : members.Nodup)
    (among : AmongMembers members cluster input) (keeps : KeepsCommitted master cluster input)
    (secured : Secured members master cluster chronicle term whole)
    (other : (cluster.node input.1).roleManager.role ≠ .Master)
    (isMaster : ((cluster.step input).node input.1).roleManager.role = .Master) :
    whole <+: ((cluster.step input).node input.1).log := by
  have after := invariant.step nodup among keeps
  have isWon : (((cluster.step input).node input.1).roleManager.currentTerm, input.1) ∈
      wins (cluster.node input.1) ((cluster.node input.1).handle input.2) := by
    rw [step_node_self] at isMaster
    rw [wins, if_pos ⟨other, isMaster⟩, List.mem_singleton, step_node_self]
    have sameId := after.logs.nodeId input.1
    rw [step_node_self] at sameId
    rw [sameId]
  have later : term < ((cluster.step input).node input.1).roleManager.currentTerm := by
    rcases secured with ⟨owner, rules, _⟩
    exact (keeps.2.1.of_wins invariant.logs.nodeId isWon).2.1 _ rules
  have isReign : ⟨((cluster.step input).node input.1).roleManager.currentTerm, input.1,
      ((cluster.step input).node input.1).log⟩ ∈ (chronicle.step cluster input).reigns := by
    rw [Chronicle.reigns_step, step_node_self] at *
    exact List.mem_append_right _ (List.mem_map.mpr ⟨_, isWon, rfl⟩)
  exact secured.step.prefix_reign after.recorded after.logs after.backed _ _ isReign rfl later

end Completeness

/-- In every run in which each step does what keeps committed entries, a later Master has them. -/
theorem committedSurvive_keepsCommitted {members : List String} {master : Option String}
    {setup : Setup} (replicated : setup.Replicated members master)
    {inputs : List (String × NodeEvent Record)} (along : Along step (fun cluster input =>
      AmongMembers members cluster input ∧ KeepsCommitted master cluster input) inputs
      (deploy setup)) : CommittedSurvive inputs (deploy setup) := by
  rintro first more input rest rfl
  intro committed before id _ entry member isCommitted other isMaster
  rw [along_append, along_append] at along
  rcases along with ⟨alongFirst, alongMore, ⟨among, keeps⟩, _⟩
  have early : ∃ chronicle, FailoverInvariant members master committed chronicle := by
    apply foldl_along (fun cluster => ∃ chronicle, FailoverInvariant members master cluster
      chronicle) _ alongFirst ⟨_, .start replicated⟩
    rintro cluster input ⟨chronicle, invariant⟩ ⟨among, keeps⟩
    exact ⟨_, invariant.step replicated.nodup among keeps⟩
  rcases early with ⟨chronicle, invariant⟩
  rcases invariant.secured_of_committed member isCommitted with ⟨term, whole, secured, inWhole⟩
  have late : ∃ chronicle, FailoverInvariant members master before chronicle ∧
      Secured members master before chronicle term whole := by
    apply foldl_along (fun cluster => ∃ chronicle, FailoverInvariant members master cluster
      chronicle ∧ Secured members master cluster chronicle term whole) _ alongMore
      ⟨chronicle, invariant, secured⟩
    rintro cluster input ⟨chronicle, invariant, secured⟩ ⟨among, keeps⟩
    exact ⟨_, invariant.step replicated.nodup among keeps, secured.step⟩
  rcases late with ⟨chronicle, invariant, secured⟩
  exact (invariant.prefix_of_wins replicated.nodup among keeps secured other isMaster).subset inWhole

/-! ## A Master with an empty log -/

instance decidableUpToDate (log other : List (LogEntry Record)) : Decidable (UpToDate log other) :=
  inferInstanceAs (Decidable (_ ∨ _ ∧ _))

instance decidableMayVote (candidateTerm lastLogSequence : ℕ) (node : FailoverCoordinator Record) :
    Decidable (node.MayVote candidateTerm lastLogSequence) :=
  inferInstanceAs (Decidable ((_ ∨ _ ∧ _) ∧ _))

instance decidableInTermOrder (master : Option String) (cluster : Cluster Record)
    (input : String × NodeEvent Record) : Decidable (InTermOrder master cluster input) :=
  inferInstanceAs (Decidable (_ → _ → ∀ ruler ∈ cluster.rulers master, _))

instance decidableVotesUpToDate (cluster : Cluster Record) :
    ∀ input : String × NodeEvent Record, Decidable (VotesUpToDate cluster input)
  | (id, .voteRequest candidateId candidateTerm lastLogSequence) =>
    inferInstanceAs (Decidable ((cluster.node id).MayVote candidateTerm lastLogSequence →
      UpToDate (cluster.node candidateId).log (cluster.node id).log))
  | (_, .detectFailure) | (_, .startElection) | (_, .voteResponse ..) | (_, .appendLog ..)
  | (_, .createReplicationRequest _) | (_, .applyLogs _) | (_, .replicationResponse ..) =>
    .isTrue trivial

instance decidableCommitsOwnTerm (cluster : Cluster Record) :
    ∀ input : String × NodeEvent Record, Decidable (CommitsOwnTerm cluster input)
  | (id, .replicationResponse slaveId response) =>
    inferInstanceAs (Decidable ((cluster.node id).Hears response →
      (cluster.node id).logReplicator.commitIndex <
        (cluster.node id).majorityWith slaveId response →
        ∀ entry ∈ (cluster.node id).log,
          entry.sequence = (cluster.node id).majorityWith slaveId response →
            entry.term = (cluster.node id).roleManager.currentTerm))
  | (_, .detectFailure) | (_, .startElection) | (_, .voteRequest ..) | (_, .voteResponse ..)
  | (_, .appendLog ..) | (_, .createReplicationRequest _) | (_, .applyLogs _) => .isTrue trivial

instance decidableAmongMembers [DecidableEq Record] (members : List String)
    (cluster : Cluster Record) :
    ∀ input : String × NodeEvent Record, Decidable (AmongMembers members cluster input)
  | (id, .createReplicationRequest slaveId) =>
    inferInstanceAs (Decidable (id ∈ members ∧ Delivered cluster _ ∧ slaveId ≠ id))
  | (id, .detectFailure) | (id, .startElection) | (id, .voteRequest ..) | (id, .voteResponse ..)
  | (id, .appendLog ..) | (id, .applyLogs _) | (id, .replicationResponse ..) =>
    inferInstanceAs (Decidable (id ∈ members ∧ Delivered cluster _ ∧ True))

instance decidableKeepsCommitted (master : Option String) (cluster : Cluster Record)
    (input : String × NodeEvent Record) : Decidable (KeepsCommitted master cluster input) :=
  inferInstanceAs (Decidable (_ ∧ _ ∧ _ ∧ _ ∧ _ ∧ _))

theorem threeNodes_replicated : threeNodes.Replicated ["a", "b", "c"] (some "a") where
  nodup := by decide
  electable :=
    { role := fun id => by
        unfold threeNodes
        dsimp only
        split_ifs <;> simp
      majority := fun _ => show 1 < 2 by decide }
  mastered := threeNodes_masteredBy
  clusterNodes _ _ := Iff.rfl

theorem entriesInOrder_committedSurvive : CommittedSurvive entriesInOrder (deploy threeNodes) := by
  apply committedSurvive_keepsCommitted threeNodes_replicated
  decide +kernel

/-- The Master `a` commits an entry that `b` has. -/
def commitFirst : List (String × NodeEvent Unit) :=
  [("a", .appendLog 1 () 0), ("a", .createReplicationRequest "b"), ("b", .applyLogs firstRequest),
    ("a", .replicationResponse "b" ⟨0, true, 1, none⟩)]

/-- `c` has no entry, and gets the vote of `b`. -/
def electEmpty : List (String × NodeEvent Unit) :=
  [("c", .detectFailure), ("c", .startElection), ("b", .voteRequest "c" 1 0)]

/-- A node with an empty log becomes Master after an entry was committed. -/
theorem electEmpty_not_committedSurvive :
    Along step (AmongMembers ["a", "b", "c"])
      (commitFirst ++ (electEmpty ++ [("c", .voteResponse "b" true 1)])) (deploy threeNodes) ∧
    ¬CommittedSurvive (commitFirst ++ (electEmpty ++ [("c", .voteResponse "b" true 1)]))
      (deploy threeNodes) := by
  refine ⟨by decide +kernel, fun survive => ?_⟩
  have member := survive commitFirst electEmpty _ [] rfl "a" (by decide +kernel) ⟨1, 0, (), 0⟩
    (by decide +kernel) (by decide +kernel) (by decide +kernel) (by decide +kernel)
  revert member
  decide +kernel

end Cluster

end QAExchange
