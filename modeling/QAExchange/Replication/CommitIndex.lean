import QAExchange.Replication.NodeHandlers

/-! # The commit index of a node

A slave sets its commit index from the end of the request that it has just got.
This is right exactly if the request does not end before the commit index, and
its entries close the log up to there.
-/

namespace QAExchange

open Foundation

variable {Record : Type}

/-- The log has an entry for every sequence number from 1 to `last`. -/
def HasAll (log : List (LogEntry Record)) (last : ℕ) : Prop :=
  ∀ sequence ∈ List.range' 1 last, sequence ∈ log.map LogEntry.sequence

instance decidableHasAll (log : List (LogEntry Record)) (last : ℕ) : Decidable (HasAll log last) :=
  inferInstanceAs (Decidable (∀ sequence ∈ List.range' 1 last, _))

/-- The largest number up to which the log has all entries. -/
def lastOfAll (log : List (LogEntry Record)) : ℕ :=
  Nat.findGreatest (HasAll log) log.length

variable {log : List (LogEntry Record)} {last : ℕ}

theorem hasAll_iff :
    HasAll log last ↔ ∀ sequence, 0 < sequence → sequence ≤ last →
      ∃ entry ∈ log, entry.sequence = sequence := by
  unfold HasAll
  simp only [List.mem_range'_1, List.mem_map]
  constructor
  · intro all sequence positive atMost
    exact all sequence ⟨positive, by omega⟩
  · intro all sequence inside
    exact all sequence inside.1 (by omega)

theorem HasAll.length (all : HasAll log last) : last ≤ log.length := by
  have counted := (List.subperm_of_subset List.nodup_range' all).length_le
  rwa [List.length_range', List.length_map] at counted

theorem HasAll.mono {earlier : ℕ} (all : HasAll log last) (before : earlier ≤ last) :
    HasAll log earlier := by
  rw [hasAll_iff] at *
  exact fun sequence positive atMost => all sequence positive (atMost.trans before)

theorem HasAll.append (all : HasAll log last) (more : List (LogEntry Record)) :
    HasAll (log ++ more) last := by
  rw [hasAll_iff] at *
  intro sequence positive atMost
  rcases all sequence positive atMost with ⟨entry, member, same⟩
  exact ⟨entry, List.mem_append_left _ member, same⟩

theorem le_lastOfAll : last ≤ lastOfAll log ↔ HasAll log last := by
  have none : HasAll log 0 := fun _ member => by cases member
  constructor
  · intro atMost
    exact (Nat.findGreatest_spec (Nat.zero_le _) none : HasAll log (lastOfAll log)).mono atMost
  · intro all
    exact Nat.le_findGreatest all.length all

namespace FailoverCoordinator

/-- From one state to the next the commit index does not fall, and it stays within
the numbers up to which the log has all entries. -/
structure CommitRight (before after : FailoverCoordinator Record) : Prop where
  grows : before.logReplicator.commitIndex ≤ after.logReplicator.commitIndex
  covered : after.logReplicator.commitIndex ≤ lastOfAll after.log

def Hears (response : ReplicationResponse) (node : FailoverCoordinator Record) : Prop :=
  node.roleManager.role = .Master ∧ response.term ≤ node.roleManager.currentTerm ∧
    response.success = true

instance decidableHears (response : ReplicationResponse) (node : FailoverCoordinator Record) :
    Decidable (node.Hears response) := inferInstanceAs (Decidable (_ ∧ _ ∧ _))

def majorityWith (slaveId : String) (response : ReplicationResponse)
    (node : FailoverCoordinator Record) : ℕ :=
  (LogReplicator.majorityIndex
    (node.logReplicator.slaveMatchIndex.insert slaveId response.matchSequence)).getD 0

/-- A request that is not stale and brings a higher commit value does not end before the
commit index, and with its entries the log has all numbers up to its end or that value.
The answers of slaves raise the majority index over the commit index only as far as the log
has all entries. -/
def ClosesLog (node : FailoverCoordinator Record) : NodeEvent Record → Prop
  | .applyLogs request =>
    node.roleManager.currentTerm ≤ request.term →
      node.logReplicator.commitIndex < request.leaderCommit →
        node.logReplicator.commitIndex ≤ LogReplicator.lastSequence request ∧
        HasAll (node.log ++ request.entries)
          (min request.leaderCommit (LogReplicator.lastSequence request))
  | .replicationResponse slaveId response =>
    node.Hears response →
      node.logReplicator.commitIndex < node.majorityWith slaveId response →
        HasAll node.log (node.majorityWith slaveId response)
  | _ => True

variable {node : FailoverCoordinator Record}

theorem applyLogs_commitRight_iff (request : ReplicationRequest Record)
    (covered : node.logReplicator.commitIndex ≤ lastOfAll node.log) :
    CommitRight node (node.handle (.applyLogs request)) ↔ ClosesLog node (.applyLogs request) := by
  have log := node.handle_log (.applyLogs request)
  have commit : (node.handle (.applyLogs request)).logReplicator.commitIndex = _ :=
    node.logReplicator.applyLogs_commitIndex request
  by_cases stale : request.term < node.roleManager.currentTerm
  · have same := commit.trans (if_pos stale)
    rw [appends, if_pos stale, List.append_nil] at log
    refine iff_of_true ⟨same.ge, ?_⟩ fun fresh => absurd stale (Nat.not_lt.mpr fresh)
    rw [same, log]
    exact covered
  rw [appends, if_neg stale] at log
  replace commit := commit.trans (if_neg stale)
  by_cases higher : node.logReplicator.commitIndex < request.leaderCommit
  · rw [if_pos higher] at commit
    constructor
    · rintro ⟨grows, inside⟩ _ _
      rw [commit] at grows inside
      rw [log] at inside
      exact ⟨grows.trans (min_le_right _ _), le_lastOfAll.mp inside⟩
    · intro closes
      rcases closes (Nat.not_lt.mp stale) higher with ⟨ends, all⟩
      refine ⟨?_, ?_⟩
      · rw [commit]
        exact le_min higher.le ends
      · rw [commit, log]
        exact le_lastOfAll.mpr all
  · rw [if_neg higher] at commit
    refine iff_of_true ⟨commit.ge, ?_⟩ fun _ isHigher => absurd isHigher higher
    rw [commit, log]
    exact le_lastOfAll.mpr ((le_lastOfAll.mp covered).append _)

theorem replicationResponse_commitRight_iff (slaveId : String) (response : ReplicationResponse)
    (covered : node.logReplicator.commitIndex ≤ lastOfAll node.log) :
    CommitRight node (node.handle (.replicationResponse slaveId response)) ↔
      ClosesLog node (.replicationResponse slaveId response) := by
  have log := node.handle_log (.replicationResponse slaveId response)
  rw [appends, List.append_nil] at log
  have right : CommitRight node (node.handle (.replicationResponse slaveId response)) ↔
      node.logReplicator.commitIndex ≤
        (node.handle (.replicationResponse slaveId response)).logReplicator.commitIndex ∧
      HasAll node.log
        (node.handle (.replicationResponse slaveId response)).logReplicator.commitIndex := by
    rw [← le_lastOfAll, ← log]
    exact ⟨fun right => ⟨right.grows, right.covered⟩, fun both => ⟨both.1, both.2⟩⟩
  have commit : (node.handle
      (.replicationResponse slaveId response)).logReplicator.commitIndex =
        if node.Hears response then
          max node.logReplicator.commitIndex (node.majorityWith slaveId response)
        else node.logReplicator.commitIndex :=
    node.logReplicator.handleReplicationResponse_commitIndex slaveId response
  rw [right, commit]
  by_cases hears : node.Hears response
  · rw [if_pos hears]
    by_cases higher : node.logReplicator.commitIndex < node.majorityWith slaveId response
    · rw [max_eq_right higher.le]
      exact ⟨fun both _ _ => both.2, fun closes => ⟨higher.le, closes hears higher⟩⟩
    · rw [max_eq_left (Nat.not_lt.mp higher)]
      exact iff_of_true ⟨le_rfl, le_lastOfAll.mp covered⟩ fun _ isHigher => absurd isHigher higher
  · rw [if_neg hears]
    exact iff_of_true ⟨le_rfl, le_lastOfAll.mp covered⟩ fun isHeard => absurd isHeard hears

theorem commitRight_iff (event : NodeEvent Record)
    (covered : node.logReplicator.commitIndex ≤ lastOfAll node.log) :
    CommitRight node (node.handle event) ↔ ClosesLog node event := by
  by_cases moves : movesCommit event
  · cases event with
    | applyLogs request => exact applyLogs_commitRight_iff request covered
    | replicationResponse slaveId response =>
      exact replicationResponse_commitRight_iff slaveId response covered
    | detectFailure | startElection | voteRequest | voteResponse | appendLog
    | createReplicationRequest => cases moves
  · have commit := node.handle_commitIndex_of_not_moves (Bool.eq_false_iff.mpr moves)
    have right : CommitRight node (node.handle event) := by
      refine ⟨commit.ge, ?_⟩
      rw [commit, handle_log]
      exact le_lastOfAll.mpr ((le_lastOfAll.mp covered).append _)
    refine iff_of_true right ?_
    cases event with
    | applyLogs | replicationResponse => exact absurd rfl moves
    | detectFailure | startElection | voteRequest | voteResponse | appendLog
    | createReplicationRequest => trivial

/-- In every run of a node the commit index is right after every step, exactly if every
step closes the log. -/
theorem commitRight_along_iff (roles : RoleManager) (batchSize : ℕ) (config : FailoverConfig)
    (clusterNodes : List String) (events : List (NodeEvent Record)) :
    Along (fun node event => handle event node) (fun node event =>
        CommitRight node (handle event node)) events
      (.new (.new roles batchSize) config clusterNodes) ↔
    Along (fun node event => handle event node) ClosesLog events
      (.new (.new roles batchSize) config clusterNodes) := by
  have general : ∀ (events : List (NodeEvent Record)) (node : FailoverCoordinator Record),
      node.logReplicator.commitIndex ≤ lastOfAll node.log →
      (Along (fun node event => handle event node) (fun node event =>
        CommitRight node (handle event node)) events node ↔
      Along (fun node event => handle event node) ClosesLog events node) := by
    intro events
    induction events with
    | nil => exact fun _ _ => Iff.rfl
    | cons event events induction =>
      intro node covered
      refine (and_congr_right fun right => ?_).trans
        (and_congr_left fun _ => commitRight_iff event covered)
      exact induction _ right.covered
  exact general events _ (Nat.zero_le _)

def newSlave : FailoverCoordinator Unit :=
  .new (.new (.new "b" .Slave) 100) ⟨2⟩ ["a", "b", "c"]

def entryOf (sequence : ℕ) : LogEntry Unit := ⟨sequence, 1, (), 0⟩

/-- Three entries of which two are committed, and a heartbeat with all three. -/
def entriesThenHeartbeat : List (NodeEvent Unit) :=
  [.applyLogs ⟨1, "a", 0, 0, [entryOf 1, entryOf 2, entryOf 3], 2⟩,
    .applyLogs ⟨1, "a", 3, 1, [], 3⟩]

/-- The heartbeat sets the commit index back to 0. -/
theorem heartbeat_not_commitRight :
    ¬Along (fun node event => handle event node) (fun node event =>
      CommitRight node (handle event node)) entriesThenHeartbeat newSlave := by
  rintro ⟨_, right, _⟩
  have grows := right.grows
  revert grows
  decide

end FailoverCoordinator

end QAExchange
