import QAExchange.Replication.LogMatching
import QAExchange.Replication.ReplicationContext

/-! # The log behind the gRPC service

An entry that is pushed drops only those of another term from its place on. So the
log stays right exactly if a request finds what comes before it, and each entry in
its way is in conflict with it and not committed.
-/

namespace QAExchange

open Foundation ReplicationContext

variable {Record : Type}

/-- The logs of the Masters, one for each term. Their entries are without gaps and in the order
of their terms, and what stands up to an entry is the log of the Master of that entry's term. -/
structure MasterLogs (Record : Type) where
  log : ℕ → List (LogEntry Record)
  consecutive : ∀ term, Consecutive LogEntry.sequence (log term)
  inOrder : ∀ term, (log term).Pairwise fun first second => first.term ≤ second.term
  matching : ∀ term before entry, before ++ [entry] <+: log term →
    before ++ [entry] <+: log entry.term

inductive FollowerCall
  | appendEntries (request : AppendEntriesRequest)
  | streamAppendEntries (request : AppendEntriesRequest)

namespace FollowerCall

def request : FollowerCall → AppendEntriesRequest
  | .appendEntries request | .streamAppendEntries request => request

def handle (codec : RecordCodec Record) (context : ReplicationContext Record) :
    FollowerCall → AppendEntriesResponse × ReplicationContext Record
  | .appendEntries request => ReplicationServiceImpl.appendEntries codec request context
  | .streamAppendEntries request =>
    ReplicationServiceImpl.streamAppendEntries codec request context

/-- A request with a slice of the log of its Master, and with the end of what comes before. -/
def Sent (codec : RecordCodec Record) (masters : MasterLogs Record)
    (request : AppendEntriesRequest) : Prop :=
  ∃ before slice, before ++ slice <+: masters.log request.term ∧
    request.entries = slice.map (internalToProtoLogEntry codec) ∧
    lastLog before = (request.prevLogSequence, request.prevLogTerm)

/-- After a call the log has no gaps, it has kept all committed entries, and after a success it
agrees with the Master's log as far as the answer tells. -/
structure LogRight (codec : RecordCodec Record) (masters : MasterLogs Record)
    (context : ReplicationContext Record) (call : FollowerCall) : Prop where
  consecutive : Consecutive LogEntry.sequence (call.handle codec context).2.logStore
  committed : ∀ entry ∈ context.logStore, entry.sequence ≤ context.commitIndex →
    entry ∈ (call.handle codec context).2.logStore
  agrees : (call.handle codec context).1.success = true →
    AgreeUpTo (call.handle codec context).1.matchSequence
      (call.handle codec context).2.logStore (masters.log call.request.term)

/-- The call is not stale, and if the service looks for what comes before, it finds it. -/
def Accepted (context : ReplicationContext Record) : FollowerCall → Prop
  | .appendEntries request => context.currentTerm ≤ request.term ∧
      context.checkLogConsistency request.prevLogSequence request.prevLogTerm = true
  | .streamAppendEntries request => context.currentTerm ≤ request.term

/-- What comes before the entries of a request is in the log, and each entry in their way is not
committed and has another term than the first of them. If a request of the unary call has no
entries, the last entry of the log is in the log of the Master. -/
def Fits (masters : MasterLogs Record) (context : ReplicationContext Record)
    (call : FollowerCall) : Prop :=
  Accepted context call →
    match call.request.entries with
    | [] =>
      match call with
      | .appendEntries request =>
        ∀ entry ∈ context.logStore.getLast?, entry ∈ masters.log request.term
      | .streamAppendEntries _ => True
    | first :: _ =>
      context.checkLogConsistency call.request.prevLogSequence call.request.prevLogTerm = true ∧
      ∀ old ∈ context.logStore, first.sequence ≤ old.sequence →
        context.commitIndex < old.sequence ∧ old.term ≠ first.term

variable (codec : RecordCodec Record) (context : ReplicationContext Record)

/-- A unary call without entries, as a heartbeat. -/
def IsEmpty : FollowerCall → Prop
  | .appendEntries request => request.entries = []
  | .streamAppendEntries _ => False

variable {call : FollowerCall}

theorem handle_of_not_accepted (rejected : ¬Accepted context call) :
    (call.handle codec context).1.success = false ∧
      (call.handle codec context).2.logStore = context.logStore := by
  cases call with
  | appendEntries request =>
    dsimp only [handle, ReplicationServiceImpl.appendEntries]
    by_cases stale : request.term < context.currentTerm
    · rw [if_pos stale]
      exact ⟨rfl, rfl⟩
    · have sameLog := ReplicationServiceImpl.updateTerm_logStore request context
      have lost : (ReplicationServiceImpl.updateTerm request context).checkLogConsistency
          request.prevLogSequence request.prevLogTerm = false := by
        rw [checkLogConsistency, sameLog]
        rw [Bool.eq_false_iff]
        exact fun found => rejected ⟨Nat.not_lt.mp stale, found⟩
      rw [if_neg stale, if_pos lost]
      exact ⟨rfl, sameLog⟩
  | streamAppendEntries request =>
    have stale : ¬context.currentTerm ≤ request.term := rejected
    dsimp only [handle, ReplicationServiceImpl.streamAppendEntries]
    rw [if_neg stale]
    exact ⟨rfl, rfl⟩

/-- A call that is accepted succeeds. A unary call without entries leaves the log alone, and any
other one puts its entries into it. -/
theorem handle_of_accepted (accepted : Accepted context call) :
    (call.handle codec context).1.success = true ∧
    (call.IsEmpty → (call.handle codec context).2.logStore = context.logStore ∧
      (call.handle codec context).1.matchSequence = (lastLog context.logStore).1) ∧
    (¬call.IsEmpty →
      let entries := call.request.entries.map (protoToInternalLogEntry codec)
      (call.handle codec context).2.logStore =
        merged entries context.logStore ∧
      (call.handle codec context).1.matchSequence =
        (entries.getLast?.map LogEntry.sequence).getD 0) := by
  cases call with
  | appendEntries request =>
    rcases accepted with ⟨notStale, found⟩
    have sameLog := ReplicationServiceImpl.updateTerm_logStore request context
    have consistent : ¬(ReplicationServiceImpl.updateTerm request context).checkLogConsistency
        request.prevLogSequence request.prevLogTerm = false := by
      rw [checkLogConsistency, sameLog]
      exact fun lost => Bool.false_ne_true (lost.symm.trans found)
    dsimp only [handle, ReplicationServiceImpl.appendEntries]
    rw [if_neg (Nat.not_lt.mpr notStale), if_neg consistent]
    refine ⟨rfl, fun isEmpty => ?_, fun notEmpty => ?_⟩
    · have noEntries : request.entries = [] := isEmpty
      rw [if_pos (by rw [noEntries]; rfl), updateCommitIndex_logStore,
        getLastLogInfo, sameLog]
      exact ⟨rfl, rfl⟩
    · have someEntries : request.entries.map (protoToInternalLogEntry codec) ≠ [] :=
        fun none => notEmpty (List.map_eq_nil_iff.mp none)
      rw [if_neg someEntries, updateCommitIndex_logStore,
        appendEntries_logStore, sameLog]
      exact ⟨rfl, rfl⟩
  | streamAppendEntries request =>
    have notStale : context.currentTerm ≤ request.term := accepted
    dsimp only [handle, ReplicationServiceImpl.streamAppendEntries]
    rw [if_pos notStale]
    refine ⟨rfl, fun isEmpty => isEmpty.elim, fun _ => ?_⟩
    rw [updateCommitIndex_logStore,
      appendEntries_logStore,
      ReplicationServiceImpl.updateTermOfStream_logStore]
    exact ⟨rfl, rfl⟩

/-- Every entry of a request drops what it is in conflict with, and stands at the end. -/
theorem foldl_pushEntry (ascending : Ascending LogEntry.sequence entries)
    (logs : List (LogEntry Record)) :
    entries.foldl pushEntry logs =
      logs.filter (fun old => ∀ entry ∈ entries,
        old.sequence < entry.sequence ∨ old.term = entry.term) ++ entries := by
  induction entries generalizing logs with
  | nil => simp
  | cons first entries induction =>
    have rest := List.pairwise_cons.mp ascending
    have stays : [first].filter (fun old => decide (∀ entry ∈ entries,
        old.sequence < entry.sequence ∨ old.term = entry.term)) = [first] := by
      rw [List.filter_eq_self]
      intro entry member
      rw [List.mem_singleton.mp member]
      exact decide_eq_true fun later inEntries => .inl (rest.1 later inEntries)
    rw [List.foldl_cons, induction rest.2, pushEntry, List.filter_append,
      stays, List.filter_filter, List.append_assoc, List.singleton_append]
    congr 1
    apply List.filter_congr
    intro old _
    simp only [List.mem_cons, forall_eq_or_imp, ← Bool.decide_and]
    exact decide_eq_decide.mpr and_comm

variable {codec context} {masters : MasterLogs Record} {logs : List (LogEntry Record)}

def Known (masters : MasterLogs Record) (logs : List (LogEntry Record)) : Prop :=
  ∃ term, logs <+: masters.log term

theorem Known.consecutive (known : Known masters logs) : Consecutive LogEntry.sequence logs := by
  rcases known with ⟨term, within⟩
  exact (masters.consecutive term).of_initial within

variable {entry : LogEntry Record}

theorem exists_prefix_of_mem (member : entry ∈ logs) : ∃ before, before ++ [entry] <+: logs := by
  rcases List.append_of_mem member with ⟨before, after, rfl⟩
  exact ⟨before, after, by rw [List.append_assoc, List.singleton_append]⟩

variable {before : List (LogEntry Record)}

theorem Known.owned (known : Known masters logs) (within : before ++ [entry] <+: logs) :
    before ++ [entry] <+: masters.log entry.term := by
  rcases known with ⟨term, isPrefix⟩
  exact masters.matching term before entry (within.trans isPrefix)

theorem Known.prefix_eq (known : Known masters logs) (otherKnown : Known masters other)
    (within : before ++ [entry] <+: logs) (otherWithin : otherBefore ++ [otherEntry] <+: other)
    (sameSequence : entry.sequence = otherEntry.sequence)
    (sameTerm : entry.term = otherEntry.term) :
    before ++ [entry] = otherBefore ++ [otherEntry] := by
  have owned := known.owned within
  have otherOwned := otherKnown.owned otherWithin
  rw [← sameTerm] at otherOwned
  exact (masters.consecutive entry.term).ascending.prefix_eq owned otherOwned sameSequence

/-- An entry of a later part of a log comes with the earlier ones of its term's Master. -/
theorem Known.mem_of_le (known : Known masters logs) (member : old ∈ logs)
    (owned : entry ∈ masters.log old.term) (atMost : entry.sequence ≤ old.sequence) :
    entry ∈ logs := by
  rcases exists_prefix_of_mem member with ⟨before, within⟩
  have inOwner := known.owned within
  have ascending := (masters.consecutive old.term).ascending
  apply within.subset
  rw [← ascending.filter_le_last inOwner, List.mem_filter, decide_eq_true_eq]
  exact ⟨owned, atMost⟩

theorem checkLogConsistency_iff (consecutive : Consecutive LogEntry.sequence context.logStore)
    {sequence : ℕ} (positive : 0 < sequence) :
    context.checkLogConsistency sequence term = true ↔
      ∃ entry ∈ context.logStore, entry.sequence = sequence ∧ entry.term = term := by
  rw [checkLogConsistency, if_neg (Nat.ne_of_gt positive)]
  cases found : context.logStore.find? fun entry => entry.sequence = sequence with
  | none =>
    refine iff_of_false (by simp) ?_
    rintro ⟨entry, member, same, _⟩
    exact List.find?_eq_none.mp found entry member (decide_eq_true same)
  | some entry =>
    have member := List.mem_of_find?_eq_some found
    have chosen := List.find?_some found
    have sameSequence := of_decide_eq_true chosen
    simp only [Option.map_some, Option.getD_some, decide_eq_true_eq]
    constructor
    · exact fun sameTerm => ⟨entry, member, sameSequence, sameTerm⟩
    · rintro ⟨other, isMember, same, rfl⟩
      rw [consecutive.ascending.eq_of_number_eq member isMember (sameSequence.trans same.symm)]

/-! ## A request with entries -/

section Entries

/-- What the log keeps is what comes before the request, if the service finds its end. -/
theorem filter_eq_before (known : Known masters context.logStore)
    (within : before ++ first :: rest <+: masters.log term)
    (found : context.checkLogConsistency (lastLog before).1 (lastLog before).2 = true) :
    context.logStore.filter (fun old => old.sequence < first.sequence) = before := by
  have firstWithin : before ++ [first] <+: masters.log term := by
    refine List.IsPrefix.trans ?_ within
    exact (List.prefix_append_right_inj before).mpr ⟨rest, rfl⟩
  have place := (masters.consecutive term).number_eq firstWithin
  rcases List.eq_nil_or_concat' before with rfl | ⟨early, previous, rfl⟩
  · rw [List.filter_eq_nil_iff]
    intro old member below
    have positive := known.consecutive.positive member
    have isBelow := of_decide_eq_true below
    change first.sequence = 1 at place
    omega
  · have previousWithin : early ++ [previous] <+: masters.log term :=
      (List.prefix_append _ _).trans firstWithin
    have previousPlace := (masters.consecutive term).number_eq previousWithin
    rw [lastLog_concat] at found
    rcases (checkLogConsistency_iff known.consecutive (by omega)).mp found with
      ⟨entry, member, sameSequence, sameTerm⟩
    rcases exists_prefix_of_mem member with ⟨entryBefore, entryWithin⟩
    have same := known.prefix_eq ⟨term, List.prefix_refl _⟩ entryWithin previousWithin sameSequence
      sameTerm
    rw [← same, ← known.consecutive.ascending.filter_le_last entryWithin]
    apply List.filter_congr
    intro old _
    rw [List.length_append, List.length_singleton] at place
    exact decide_eq_decide.mpr (by omega)

theorem merged_eq (known : Known masters context.logStore)
    (within : before ++ first :: rest <+: masters.log term)
    (found : context.checkLogConsistency (lastLog before).1 (lastLog before).2 = true)
    (otherTerm : ∀ old ∈ context.logStore, first.sequence ≤ old.sequence →
      old.term ≠ first.term) :
    merged (first :: rest) context.logStore = before ++ first :: rest := by
  have ascending := ((masters.consecutive term).of_initial within).ascending
  have sliceAscending := (List.pairwise_append.mp ascending).2.1
  have kept : context.logStore.filter (fun old => ∀ entry ∈ first :: rest,
      old.sequence < entry.sequence ∨ old.term = entry.term) = before := by
    rw [← filter_eq_before known within found]
    apply List.filter_congr
    intro old member
    apply decide_eq_decide.mpr
    constructor
    · intro keeps
      by_contra notBelow
      have above := Nat.not_lt.mp notBelow
      rcases keeps first (List.mem_cons_self ..) with below | sameTerm
      · exact notBelow below
      · exact otherTerm old member above sameTerm
    · intro below entry inSlice
      left
      rcases List.mem_cons.mp inSlice with rfl | later
      · exact below
      · exact below.trans ((List.pairwise_cons.mp sliceAscending).1 entry later)
  rw [merged, foldl_pushEntry sliceAscending, kept]
  exact (ascending.imp fun less => Nat.le_of_lt less).insertionSort_eq

theorem first_not_mem (ascending : Ascending LogEntry.sequence (first :: rest))
    (consecutive : Consecutive LogEntry.sequence (merged (first :: rest) logs)) : first ∉ logs := by
  intro member
  have nodup : (merged (first :: rest) logs).Nodup := by
    apply consecutive.ascending.imp
    rintro one other less rfl
    exact lt_irrefl _ less
  rw [merged, foldl_pushEntry ascending,
    (List.perm_insertionSort _ _).nodup_iff] at nodup
  apply (List.nodup_append.mp nodup).2.2 first _ first (List.mem_cons_self ..) rfl
  rw [List.mem_filter, decide_eq_true_eq]
  refine ⟨member, fun entry inSlice => ?_⟩
  rcases List.mem_cons.mp inSlice with rfl | later
  · exact .inr rfl
  · exact .inl ((List.pairwise_cons.mp ascending).1 entry later)

theorem mem_merged (ascending : Ascending LogEntry.sequence (first :: rest)) :
    entry ∈ merged (first :: rest) logs →
      (entry ∈ logs ∧ (entry.sequence < first.sequence ∨ entry.term = first.term)) ∨
      entry ∈ first :: rest := by
  intro member
  rw [merged, foldl_pushEntry ascending, List.mem_insertionSort,
    List.mem_append, List.mem_filter, decide_eq_true_eq] at member
  exact member.imp_left fun kept => ⟨kept.1, kept.2 first (List.mem_cons_self ..)⟩

/-- The last sequence number of a request. -/
def lastOf (entries : List (LogEntry Record)) : ℕ :=
  (entries.getLast?.map LogEntry.sequence).getD 0

theorem endsAt_lastOf (before : List (LogEntry Record)) (first : LogEntry Record)
    (rest : List (LogEntry Record)) : EndsAt (lastOf (first :: rest)) (before ++ first :: rest) := by
  rcases List.eq_nil_or_concat' (first :: rest) with none | ⟨early, last, entries⟩
  · cases none
  · refine ⟨before ++ early, last, ?_, ?_⟩
    · rw [entries, List.append_assoc]
    · rw [lastOf, entries, List.getLast?_concat]
      rfl

/-- What comes before a request was in the log, if the log agrees with the Master's log after it. -/
theorem checkLogConsistency_of_agrees (known : Known masters context.logStore)
    (within : before ++ first :: rest <+: masters.log term)
    (agrees : AgreeUpTo (lastOf (first :: rest))
      (merged (first :: rest) context.logStore) (masters.log term)) :
    context.checkLogConsistency (lastLog before).1 (lastLog before).2 = true := by
  have ascending := ((masters.consecutive term).of_initial within).ascending
  rcases List.eq_nil_or_concat' before with rfl | ⟨early, previous, rfl⟩
  · exact if_pos rfl
  · have inOrder := List.pairwise_append.mp ascending
    have isPrevious : previous ∈ early ++ [previous] :=
      List.mem_append_right _ (List.mem_singleton_self _)
    have inMaster : previous ∈ masters.log term :=
      within.subset (List.mem_append_left _ isPrevious)
    have atMost : previous.sequence ≤ lastOf (first :: rest) := by
      rcases endsAt_lastOf (early ++ [previous]) first rest with ⟨_, last, whole, isLast⟩
      rw [← isLast]
      apply ascending.le_last
      · rw [whole, List.getLast?_concat]
        rfl
      · exact List.mem_append_left _ isPrevious
    have inMerged : previous ∈
        merged (first :: rest) context.logStore := by
      have filtered : previous ∈ (masters.log term).filter
          (fun entry => entry.sequence ≤ lastOf (first :: rest)) := by
        rw [List.mem_filter, decide_eq_true_eq]
        exact ⟨inMaster, atMost⟩
      rw [← agrees] at filtered
      exact List.mem_of_mem_filter filtered
    rw [lastLog_concat]
    have positive := (masters.consecutive term).positive inMaster
    apply (checkLogConsistency_iff known.consecutive positive).mpr
    rcases mem_merged inOrder.2.1 inMerged with ⟨inLog, _⟩ | inSlice
    · exact ⟨previous, inLog, rfl, rfl⟩
    · exact absurd (inOrder.2.2 previous isPrevious previous inSlice) (lt_irrefl _)

/-- An entry in the way of a request has another term than the first one, if the log stays without
gaps, and is not committed, if committed entries stay. -/
theorem otherTerm_of_right (known : Known masters context.logStore)
    (within : before ++ first :: rest <+: masters.log term)
    (consecutive : Consecutive LogEntry.sequence (merged (first :: rest) context.logStore))
    (committed : ∀ entry ∈ context.logStore, entry.sequence ≤ context.commitIndex →
      entry ∈ merged (first :: rest) context.logStore)
    (member : old ∈ context.logStore) (inTheWay : first.sequence ≤ old.sequence) :
    context.commitIndex < old.sequence ∧ old.term ≠ first.term := by
  have ascending := (List.pairwise_append.mp
    ((masters.consecutive term).of_initial within).ascending).2.1
  have notThere := first_not_mem ascending consecutive
  have firstWithin : before ++ [first] <+: masters.log term := by
    refine List.IsPrefix.trans ?_ within
    exact (List.prefix_append_right_inj before).mpr ⟨rest, rfl⟩
  have otherTerm : old.term ≠ first.term := by
    intro same
    apply notThere
    apply known.mem_of_le member _ inTheWay
    rw [same]
    exact (masters.matching term before first firstWithin).subset (by simp)
  refine ⟨?_, otherTerm⟩
  by_contra notCommitted
  have inMerged := committed old member (Nat.not_lt.mp notCommitted)
  rcases mem_merged ascending inMerged with ⟨_, below | sameTerm⟩ | inSlice
  · omega
  · exact otherTerm sameTerm
  · -- The entry is in the Master's log as well, and so is all that stands before it.
    have inMaster : old ∈ masters.log term :=
      within.subset (List.mem_append_right _ inSlice)
    rcases exists_prefix_of_mem inMaster with ⟨oldBefore, oldWithin⟩
    have inOwner := masters.matching term oldBefore old oldWithin
    apply notThere
    apply known.mem_of_le member (inOwner.subset _) inTheWay
    rw [← (masters.consecutive term).ascending.filter_le_last oldWithin, List.mem_filter,
      decide_eq_true_eq]
    exact ⟨firstWithin.subset (by simp), inTheWay⟩

end Entries

/-! ## One call -/

theorem logRight_iff_of_same (known : Known masters context.logStore)
    (same : (call.handle codec context).2.logStore = context.logStore) :
    LogRight codec masters context call ↔
      ((call.handle codec context).1.success = true →
        AgreeUpTo (call.handle codec context).1.matchSequence context.logStore
          (masters.log call.request.term)) := by
  constructor
  · intro right success
    have agrees := right.agrees success
    rwa [same] at agrees
  · intro agrees
    refine ⟨?_, ?_, ?_⟩
    · rw [same]
      exact known.consecutive
    · rw [same]
      exact fun entry member _ => member
    · rw [same]
      exact agrees

/-- A log agrees with the log of a Master up to its end exactly if the Master has its last
entry. -/
theorem agreeUpTo_last_iff (known : Known masters logs) (term : ℕ) :
    AgreeUpTo (lastLog logs).1 logs (masters.log term) ↔
      ∀ entry ∈ logs.getLast?, entry ∈ masters.log term := by
  rcases List.eq_nil_or_concat' logs with rfl | ⟨before, last, rfl⟩
  · refine iff_of_true ?_ fun entry isLast => by cases isLast
    rw [AgreeUpTo, List.filter_nil]
    symm
    rw [List.filter_eq_nil_iff]
    intro entry member atMost
    have positive := (masters.consecutive term).positive member
    have isZero : entry.sequence ≤ 0 := of_decide_eq_true atMost
    omega
  · have isLast : last ∈ before ++ [last] := List.mem_append_right _ (List.mem_singleton_self _)
    rw [lastLog_concat, List.getLast?_concat]
    constructor
    · rintro agrees entry ⟨⟩
      have filtered : last ∈ (before ++ [last]).filter
          (fun entry => entry.sequence ≤ last.sequence) := by
        rw [List.mem_filter, decide_eq_true_eq]
        exact ⟨isLast, le_rfl⟩
      rw [agrees] at filtered
      exact List.mem_of_mem_filter filtered
    · intro inMaster
      rcases exists_prefix_of_mem (inMaster last rfl) with ⟨masterBefore, masterWithin⟩
      have same := known.prefix_eq ⟨term, List.prefix_refl _⟩ (List.prefix_refl _) masterWithin
        rfl rfl
      rw [← same] at masterWithin
      exact Matched.agreeUpTo ⟨before, last, List.prefix_refl _, masterWithin, rfl⟩
        known.consecutive.ascending (masters.consecutive term).ascending

theorem decoded (codec : RecordCodec Record) (slice : List (LogEntry Record)) :
    (slice.map (internalToProtoLogEntry codec)).map (protoToInternalLogEntry codec) = slice := by
  rw [List.map_map]
  exact (List.map_congr_left fun entry _ => protoToInternal_internalToProto codec entry).trans
    (List.map_id' slice)

theorem merged_nil (consecutive : Consecutive LogEntry.sequence logs) : merged [] logs = logs :=
  (consecutive.ascending.imp fun less => Nat.le_of_lt less).insertionSort_eq

section

variable (known : Known masters context.logStore)
include known

theorem logRight_iff_of_nil (accepted : Accepted context call) (none : call.request.entries = []) :
    LogRight codec masters context call ↔ Fits masters context call := by
  rcases handle_of_accepted codec context accepted with ⟨success, empty, entries⟩
  cases call with
  | appendEntries request =>
    rcases empty none with ⟨same, sequence⟩
    have fits : Fits masters context (.appendEntries request) ↔
        ∀ entry ∈ context.logStore.getLast?, entry ∈ masters.log request.term := by
      unfold Fits
      rw [none]
      exact ⟨fun holds => holds accepted, fun holds _ => holds⟩
    rw [logRight_iff_of_same known same, sequence, fits]
    exact ⟨fun agrees => (agreeUpTo_last_iff known _).mp (agrees success),
      fun inMaster _ => (agreeUpTo_last_iff known _).mpr inMaster⟩
  | streamAppendEntries request =>
    rcases entries id with ⟨same, sequence⟩
    rw [none] at same sequence
    replace same := same.trans (merged_nil known.consecutive)
    have fits : Fits masters context (.streamAppendEntries request) := by
      unfold Fits
      rw [none]
      exact fun _ => trivial
    rw [logRight_iff_of_same known same, sequence]
    refine iff_of_true (fun _ => ?_) fits
    have nothing : ∀ {log : List (LogEntry Record)}, Consecutive LogEntry.sequence log →
        log.filter (fun entry => entry.sequence ≤ 0) = [] := by
      intro log consecutive
      rw [List.filter_eq_nil_iff]
      intro entry member atMost
      have positive := consecutive.positive member
      have isZero := of_decide_eq_true atMost
      omega
    exact (nothing known.consecutive).trans (nothing (masters.consecutive _)).symm

theorem logRight_iff_of_cons (accepted : Accepted context call)
    (within : before ++ first :: rest <+: masters.log call.request.term)
    (entries : call.request.entries = (first :: rest).map (internalToProtoLogEntry codec))
    (previous : lastLog before = (call.request.prevLogSequence, call.request.prevLogTerm)) :
    LogRight codec masters context call ↔ Fits masters context call := by
  have notEmpty : ¬call.IsEmpty := by
    intro empty
    cases call with
    | appendEntries request =>
      have none : request.entries = [] := empty
      rw [FollowerCall.request, none] at entries
      cases entries
    | streamAppendEntries request => exact empty
  rcases handle_of_accepted codec context accepted with ⟨success, _, handled⟩
  rcases handled notEmpty with ⟨log, sequence⟩
  rw [entries, decoded] at log sequence
  change _ = lastOf (first :: rest) at sequence
  have fits : Fits masters context call ↔
      context.checkLogConsistency (lastLog before).1 (lastLog before).2 = true ∧
      ∀ old ∈ context.logStore, first.sequence ≤ old.sequence →
        context.commitIndex < old.sequence ∧ old.term ≠ first.term := by
    unfold Fits
    rw [entries, previous]
    exact ⟨fun holds => holds accepted, fun holds _ => holds⟩
  rw [fits]
  constructor
  · rintro ⟨consecutive, committed, agrees⟩
    rw [log] at consecutive committed agrees
    rw [sequence] at agrees
    exact ⟨checkLogConsistency_of_agrees known within (agrees success),
      fun old member inTheWay =>
        otherTerm_of_right known within consecutive committed member inTheWay⟩
  · rintro ⟨found, inTheWay⟩
    have whole := merged_eq known within found fun old member above =>
      (inTheWay old member above).2
    rw [whole] at log
    have consecutive := (masters.consecutive call.request.term).of_initial within
    refine ⟨?_, fun entry member isCommitted => ?_, fun _ => ?_⟩
    · rw [log]
      exact consecutive
    · rw [log, ← filter_eq_before known within found]
      apply List.mem_append_left
      rw [List.mem_filter, decide_eq_true_eq]
      refine ⟨member, ?_⟩
      by_contra notBelow
      have above := (inTheWay entry member (Nat.not_lt.mp notBelow)).1
      omega
    · rw [log, sequence]
      exact ((endsAt_lastOf before first rest).matched (List.prefix_refl _) within).agreeUpTo
        consecutive.ascending (masters.consecutive _).ascending

/-- One call does right exactly if it fits, and then the log is still a beginning of the log of
a Master. -/
theorem logRight_iff (sent : Sent codec masters call.request) :
    LogRight codec masters context call ↔ Fits masters context call := by
  by_cases accepted : Accepted context call
  · rcases sent with ⟨before, slice, within, entries, previous⟩
    cases slice with
    | nil => exact logRight_iff_of_nil known accepted entries
    | cons first rest => exact logRight_iff_of_cons known accepted within entries previous
  · rcases handle_of_not_accepted codec context accepted with ⟨failed, same⟩
    rw [logRight_iff_of_same known same]
    refine iff_of_true (fun success => ?_) fun isAccepted => absurd isAccepted accepted
    exact absurd (failed.symm.trans success) Bool.false_ne_true

theorem known_of_right (sent : Sent codec masters call.request)
    (right : LogRight codec masters context call) :
    Known masters (call.handle codec context).2.logStore := by
  by_cases accepted : Accepted context call
  · rcases sent with ⟨before, slice, within, entries, previous⟩
    rcases handle_of_accepted codec context accepted with ⟨success, empty, handled⟩
    by_cases isEmpty : call.IsEmpty
    · rw [(empty isEmpty).1]
      exact known
    · rcases handled isEmpty with ⟨log, sequence⟩
      rw [entries, decoded] at log sequence
      cases slice with
      | nil =>
        rw [log, merged_nil known.consecutive]
        exact known
      | cons first rest =>
        change _ = lastOf (first :: rest) at sequence
        have agrees := right.agrees success
        rw [log, sequence] at agrees
        have consecutive := right.consecutive
        have committed := right.committed
        rw [log] at consecutive committed
        rw [log, merged_eq known within (checkLogConsistency_of_agrees known within agrees)
          fun old member inTheWay =>
            (otherTerm_of_right known within consecutive committed member inTheWay).2]
        exact ⟨_, within⟩
  · rw [(handle_of_not_accepted codec context accepted).2]
    exact known

end

/-- In every sequence of requests of Masters the log is right after every call, exactly if every
call fits. -/
theorem logRight_along_iff (codec : RecordCodec Record) (masters : MasterLogs Record)
    (nodeId : String) (roles : RoleManager) {calls : List FollowerCall}
    (sent : ∀ call ∈ calls, Sent codec masters call.request) :
    Along (fun context call => (handle codec context call).2) (LogRight codec masters) calls
      (.new nodeId roles) ↔
    Along (fun context call => (handle codec context call).2) (Fits masters) calls
      (.new nodeId roles) := by
  have general : ∀ context : ReplicationContext Record, Known masters context.logStore →
      (Along (fun context call => (handle codec context call).2) (LogRight codec masters) calls
        context ↔
      Along (fun context call => (handle codec context call).2) (Fits masters) calls context) := by
    induction calls with
    | nil => exact fun _ _ => Iff.rfl
    | cons call calls induction =>
      intro context known
      have isSent := sent call (List.mem_cons_self ..)
      have rest := induction fun other member => sent other (List.mem_cons_of_mem _ member)
      refine (and_congr_right fun right => ?_).trans
        (and_congr_left fun _ => logRight_iff known isSent)
      exact rest _ (known_of_right known isSent right)
  exact general _ ⟨0, List.nil_prefix⟩

/-! ## A request that is sent again -/

def unitCodec : RecordCodec Unit where
  encode _ := [0]
  decode _ := some ()
  encode_ne_nil _ := by decide
  decode_encode _ := rfl
  checkpoint _ _ := ()

def firstEntry : LogEntry Unit := ⟨1, 1, (), 0⟩

def secondEntry (term : ℕ) : LogEntry Unit := ⟨2, term, (), 0⟩

/-- The Master of term 1 has two entries, and the Master of term 2 has the first of them and one
of its own. -/
def twoMasters : MasterLogs Unit where
  log
    | 0 => []
    | 1 => [firstEntry, secondEntry 1]
    | _ + 2 => [firstEntry, secondEntry 2]
  consecutive
    | 0 => rfl
    | 1 => rfl
    | _ + 2 => rfl
  inOrder
    | 0 => List.Pairwise.nil
    | 1 => by simp [firstEntry, secondEntry]
    | _ + 2 => by simp [firstEntry, secondEntry]
  matching term before entry within := by
    have ofTwo : ∀ second : LogEntry Unit, before ++ [entry] <+: [firstEntry] ++ [second] →
        before ++ [entry] = [firstEntry] ++ [second] ∨ before ++ [entry] = [] ++ [firstEntry] := by
      intro second inside
      rcases List.prefix_concat_iff.mp inside with whole | early
      · exact .inl whole
      · have inOne : before ++ [entry] <+: [] ++ [firstEntry] := early
        rcases List.prefix_concat_iff.mp inOne with first | none
        · exact .inr first
        · exact absurd (List.prefix_nil.mp none) (List.concat_ne_nil entry before)
    match term, within with
    | 0, within => exact absurd (List.prefix_nil.mp within) (List.concat_ne_nil entry before)
    | 1, within =>
      rcases ofTwo (secondEntry 1) within with whole | first
      · rcases List.append_inj' whole rfl with ⟨rfl, same⟩
        cases same
        exact List.prefix_refl _
      · rcases List.append_inj' first rfl with ⟨rfl, same⟩
        cases same
        exact ⟨_, rfl⟩
    | _ + 2, within =>
      rcases ofTwo (secondEntry 2) within with whole | first
      · rcases List.append_inj' whole rfl with ⟨rfl, same⟩
        cases same
        exact List.prefix_refl _
      · rcases List.append_inj' first rfl with ⟨rfl, same⟩
        cases same
        exact ⟨_, rfl⟩

def bothEntries : AppendEntriesRequest :=
  ⟨1, "a", 0, 0, [firstEntry, secondEntry 1].map (internalToProtoLogEntry unitCodec), 1⟩

def otherEntry : AppendEntriesRequest :=
  ⟨2, "c", 1, 1, [secondEntry 2].map (internalToProtoLogEntry unitCodec), 1⟩

theorem bothEntries_sent : Sent unitCodec twoMasters bothEntries :=
  ⟨[], [firstEntry, secondEntry 1], List.prefix_refl _, rfl, rfl⟩

theorem otherEntry_sent : Sent unitCodec twoMasters otherEntry :=
  ⟨[firstEntry], [secondEntry 2], List.prefix_refl _, rfl, rfl⟩

def newFollower : ReplicationContext Unit := .new "b" (.new "b" .Slave)

/-- A change of the Master replaces an entry that is not committed. -/
theorem changeOfMaster_logRight :
    Along (fun context call => (handle unitCodec context call).2) (LogRight unitCodec twoMasters)
      [.appendEntries bothEntries, .streamAppendEntries otherEntry] newFollower := by
  apply (logRight_along_iff unitCodec twoMasters "b" (.new "b" .Slave) _).mpr
  · refine ⟨fun _ => ⟨rfl, fun old member => by cases member⟩, fun _ => ⟨?_, ?_⟩, trivial⟩
    · decide +kernel
    · decide +kernel
  · intro call member
    rcases List.mem_cons.mp member with rfl | rest
    · exact bothEntries_sent
    · rw [List.mem_singleton.mp rest]
      exact otherEntry_sent

/-- A request that is sent again stands in the log twice. -/
theorem sentAgain_not_logRight :
    (∀ call ∈ [appendEntries bothEntries, appendEntries bothEntries],
      Sent unitCodec twoMasters call.request) ∧
    ¬Along (fun context call => (handle unitCodec context call).2)
      (LogRight unitCodec twoMasters) [appendEntries bothEntries, appendEntries bothEntries]
      newFollower := by
  refine ⟨fun call member => ?_, ?_⟩
  · rcases List.mem_cons.mp member with rfl | rest
    · exact bothEntries_sent
    · rw [List.mem_singleton.mp rest]
      exact bothEntries_sent
  · rintro ⟨_, right, _⟩
    have consecutive := right.consecutive
    revert consecutive
    unfold Consecutive
    decide +kernel

end FollowerCall

end QAExchange
