import QAExchange.Replication.ContextTasks

/-! # Stale leaders and monotone progress

The term and the commit index must not fall, a vote must be one of the current term, and
a request of an older term must not change the log. Each handler can break one of these
rules in one of its steps, and the steps that keep them are known from the state before.
-/

namespace QAExchange

open Foundation ContextTask

variable {Record : Type}

namespace ContextTask

/-- The term of the request that a handler works on; a snapshot has that of its last chunk. -/
def requestTerm : ContextTask → Option ℕ
  | .appendTerm request | .appendVote request | .appendSlave request | .appendCheck request _
  | .appendLog request _ => some request.term
  | .commitRead requestTerm _ _ | .commitWrite requestTerm _ _ => some requestTerm
  | .heartbeatRead request | .heartbeatTerm request _ | .heartbeatVote request _
  | .heartbeatSlave request _ => some request.term
  | .heartbeatStatus _ | .heartbeatApplied _ _ | .heartbeatLast _ _ => none
  | .voteTerm request | .voteVote request | .voteRole request | .voteLog request =>
    some request.term
  | .streamRead _ _ => none
  | .streamTerm request _ _ _ | .streamSlave request _ _ _ | .streamLog request _ _ _ =>
    some request.term
  | .snapshotRead _ _ _ => none
  | .snapshotTerm chunk _ _ | .snapshotData chunk _ _ | .snapshotMetaTerm chunk _
  | .snapshotMetaCommit chunk _ _ => some chunk.term
  | .snapshotCommit _ term | .snapshotApplied _ term | .snapshotLog _ term => some term
  | .snapshotAnswer _ | .done _ => none

def holdsTerm : ContextTask → Bool
  | .appendVote _ | .appendSlave _ | .voteVote _ | .voteRole _ | .voteLog _ => true
  | _ => false

def isAppendVote : ContextTask → Bool
  | .appendVote _ => true
  | _ => false

end ContextTask

namespace SharedContext

def VoteCurrent (shared : SharedContext Record) : Prop :=
  shared.context.votedFor = none ∨ shared.votedIn = shared.context.currentTerm

structure StepRight (task : ContextTask) (before after : SharedContext Record) : Prop where
  term : before.context.currentTerm ≤ after.context.currentTerm
  commit : before.context.commitIndex ≤ after.context.commitIndex
  vote : after.termLocked = false → after.VoteCurrent
  stale : ∀ term ∈ task.requestTerm, term < before.context.currentTerm →
    after.context.logStore = before.context.logStore ∧
      after.context.commitIndex = before.context.commitIndex ∧
      after.node.lastApplied = before.node.lastApplied

instance (shared : SharedContext Record) : Decidable shared.VoteCurrent :=
  inferInstanceAs (Decidable (_ ∨ _))

instance [DecidableEq Record] (task : ContextTask) (before after : SharedContext Record) :
    Decidable (StepRight task before after) :=
  decidable_of_iff (before.context.currentTerm ≤ after.context.currentTerm ∧
      before.context.commitIndex ≤ after.context.commitIndex ∧
      (after.termLocked = false → after.VoteCurrent) ∧
      ∀ term ∈ task.requestTerm, term < before.context.currentTerm →
        after.context.logStore = before.context.logStore ∧
          after.context.commitIndex = before.context.commitIndex ∧
          after.node.lastApplied = before.node.lastApplied)
    ⟨fun all => ⟨all.1, all.2.1, all.2.2.1, all.2.2.2⟩,
      fun right => ⟨right.term, right.commit, right.vote, right.stale⟩⟩

def WritesTerm (term : ℕ) (shared : SharedContext Record) : Prop :=
  shared.termLocked = false → shared.context.currentTerm ≤ term ∧
    (shared.context.currentTerm < term → shared.context.votedFor = none)

def NotStale (term : ℕ) (shared : SharedContext Record) (unchanged : Prop) : Prop :=
  term < shared.context.currentTerm → unchanged

def Fits (codec : RecordCodec Record) (shared : SharedContext Record) : ContextTask → Prop
  | .heartbeatTerm request _ => shared.WritesTerm request.term
  | .streamTerm request _ _ _ => shared.WritesTerm request.term
  | .snapshotTerm chunk _ _ => shared.WritesTerm chunk.term
  | .appendLog request _ =>
    shared.NotStale request.term (request.entries = [] ∨
      ReplicationContext.merged (request.entries.map (protoToInternalLogEntry codec))
        shared.context.logStore = shared.context.logStore)
  | .streamLog request _ _ _ =>
    shared.NotStale request.term (ReplicationContext.merged
      (request.entries.map (protoToInternalLogEntry codec)) shared.context.logStore =
        shared.context.logStore)
  | .commitWrite requestTerm newCommit _ =>
    shared.NotStale requestTerm (newCommit ≤ shared.context.commitIndex)
  | .snapshotCommit progress term =>
    shared.context.commitIndex ≤ progress.lastSequence ∧
      shared.NotStale term (progress.lastSequence = shared.context.commitIndex)
  | .snapshotApplied progress term =>
    shared.NotStale term (progress.lastSequence = shared.node.lastApplied)
  | .snapshotLog progress term =>
    shared.NotStale term (∀ entry ∈ shared.context.logStore,
      progress.lastSequence < entry.sequence)
  | _ => True

/-! ## One step -/

structure SameLaw (before after : SharedContext Record) : Prop where
  currentTerm : after.context.currentTerm = before.context.currentTerm
  votedFor : after.context.votedFor = before.context.votedFor
  votedIn : after.votedIn = before.votedIn
  logStore : after.context.logStore = before.context.logStore
  commitIndex : after.context.commitIndex = before.context.commitIndex
  lastApplied : after.node.lastApplied = before.node.lastApplied

theorem SameLaw.voteCurrent_iff {before after : SharedContext Record}
    (same : SameLaw before after) : after.VoteCurrent ↔ before.VoteCurrent := by
  rw [VoteCurrent, VoteCurrent, same.votedFor, same.votedIn, same.currentTerm]

theorem SameLaw.stepRight {before after : SharedContext Record} (same : SameLaw before after)
    (task : ContextTask) (vote : after.termLocked = false → after.VoteCurrent) :
    StepRight task before after where
  term := same.currentTerm.ge
  commit := same.commitIndex.ge
  vote := vote
  stale := fun _ _ _ => ⟨same.logStore, same.commitIndex, same.lastApplied⟩

theorem SameLaw.refl (shared : SharedContext Record) : SameLaw shared shared :=
  ⟨rfl, rfl, rfl, rfl, rfl, rfl⟩

section Step

variable {codec : RecordCodec Record} {outcome : ChunkOutcome} {shared : SharedContext Record}

def IsQuiet : ContextTask → Bool
  | .appendSlave _ | .appendCheck _ _ | .commitRead _ _ _ | .heartbeatRead _
  | .heartbeatSlave _ _ | .heartbeatStatus _ | .heartbeatApplied _ _ | .heartbeatLast _ _
  | .voteTerm _ | .voteRole _ | .streamRead _ _ | .streamSlave _ _ _ _ | .snapshotRead _ _ _
  | .snapshotData _ _ _ | .snapshotMetaTerm _ _ | .snapshotMetaCommit _ _ _ | .snapshotAnswer _
  | .done _ => true
  | _ => false

variable {task : ContextTask}

theorem sameLaw_advance (quiet : IsQuiet task = true) :
    SameLaw shared (task.advance codec outcome shared).2 := by
  cases task with
  | streamRead messages responses =>
    rcases messages with _ | ⟨_ | request, rest⟩
    · exact ⟨rfl, rfl, rfl, rfl, rfl, rfl⟩
    · exact ⟨rfl, rfl, rfl, rfl, rfl, rfl⟩
    · simp only [advance]
      split_ifs <;> exact ⟨rfl, rfl, rfl, rfl, rfl, rfl⟩
  | snapshotRead chunks progress term =>
    rcases chunks with _ | ⟨_ | chunk, rest⟩
    · exact ⟨rfl, rfl, rfl, rfl, rfl, rfl⟩
    · exact ⟨rfl, rfl, rfl, rfl, rfl, rfl⟩
    · simp only [advance]
      split_ifs <;> exact ⟨rfl, rfl, rfl, rfl, rfl, rfl⟩
  | appendCheck | heartbeatRead | voteTerm | snapshotData | snapshotMetaTerm | snapshotAnswer =>
    simp only [advance]
    split_ifs <;> exact ⟨rfl, rfl, rfl, rfl, rfl, rfl⟩
  | appendSlave | commitRead | heartbeatSlave | heartbeatStatus | heartbeatApplied
  | heartbeatLast | voteRole | streamSlave | snapshotMetaCommit | done =>
    exact ⟨rfl, rfl, rfl, rfl, rfl, rfl⟩
  | appendTerm | appendVote | appendLog | commitWrite | heartbeatTerm | heartbeatVote | voteVote
  | voteLog | streamTerm | streamLog | snapshotTerm | snapshotCommit | snapshotApplied
  | snapshotLog => exact absurd quiet Bool.false_ne_true

theorem holdsTerm_advance (task : ContextTask)
    (holds : task.holdsTerm = true → shared.termLocked = true) :
    shared.termLocked.toNat + (task.advance codec outcome shared).1.holdsTerm.toNat =
      (task.advance codec outcome shared).2.termLocked.toNat + task.holdsTerm.toNat := by
  cases task with
  | appendTerm request =>
    simp only [advance]
    split_ifs with locked stale higher
    · rfl
    · rfl
    · simp [holdsTerm, locked]
    · rfl
  | voteTerm request =>
    simp only [advance]
    split_ifs with locked
    · rfl
    · simp [holdsTerm, locked]
  | appendVote request =>
    simp only [advance]
    split_ifs <;> rfl
  | appendSlave request =>
    simp [advance, holdsTerm, holds rfl]
  | voteVote request =>
    simp only [advance]
    split_ifs
    · rfl
    · simp [holdsTerm, holds rfl]
    · rfl
    · split
      · rfl
      · simp [holdsTerm, holds rfl]
  | voteRole request => rfl
  | voteLog request =>
    simp only [advance]
    split_ifs <;> simp [holdsTerm, holds rfl]
  | commitWrite requestTerm newCommit caller =>
    simp only [advance]
    cases caller <;> split_ifs <;> rfl
  | streamRead messages responses =>
    rcases messages with _ | ⟨_ | request, rest⟩
    · rfl
    · rfl
    · simp only [advance]
      split_ifs <;> rfl
  | snapshotRead chunks progress term =>
    rcases chunks with _ | ⟨_ | chunk, rest⟩
    · rfl
    · rfl
    · simp only [advance]
      split_ifs <;> rfl
  | snapshotData chunk rest progress =>
    simp only [advance, afterChunk]
    split_ifs <;> rfl
  | appendCheck | appendLog | heartbeatRead | heartbeatTerm | heartbeatVote | streamTerm
  | snapshotTerm | snapshotMetaTerm | snapshotAnswer =>
    simp only [advance]
    split_ifs <;> rfl
  | commitRead | heartbeatSlave | heartbeatStatus | heartbeatApplied | heartbeatLast
  | streamSlave | streamLog | snapshotMetaCommit | snapshotCommit | snapshotApplied
  | snapshotLog | done => rfl

variable {term : ℕ}

theorem WritesTerm.voteCurrent (writes : shared.WritesTerm term)
    (unlocked : shared.termLocked = false) (vote : shared.VoteCurrent) :
    (shared.setTerm term).VoteCurrent := by
  rcases writes unlocked with ⟨notLower, noVote⟩
  rcases Nat.lt_or_eq_of_le notLower with higher | same
  · exact .inl (noVote higher)
  · rcases vote with none | inTerm
    · exact .inl none
    · exact .inr (inTerm.trans same)

/-- The vote is of the current term, or a handler that has raised the term will forget it. -/
theorem vote_advance (fits : shared.Fits codec task)
    (vote : task.isAppendVote = true ∨ shared.VoteCurrent) :
    (task.advance codec outcome shared).1.isAppendVote = true ∨
      (task.advance codec outcome shared).2.VoteCurrent := by
  by_cases quiet : IsQuiet task = true
  · right
    rw [(sameLaw_advance quiet).voteCurrent_iff]
    refine vote.resolve_left ?_
    cases task with
    | appendVote request => exact absurd quiet Bool.false_ne_true
    | _ => exact Bool.false_ne_true
  · cases task with
    | appendTerm request =>
      simp only [advance]
      split_ifs
      · exact vote
      · exact .inr (vote.resolve_left Bool.false_ne_true)
      · exact .inl rfl
      · exact .inr (vote.resolve_left Bool.false_ne_true)
    | appendVote request =>
      simp only [advance]
      split_ifs
      · exact .inl rfl
      · exact .inr (.inl rfl)
    | heartbeatVote request term =>
      simp only [advance]
      split_ifs
      · exact vote
      · exact .inr (.inl rfl)
    | heartbeatTerm request term =>
      simp only [advance]
      split_ifs with locked
      · exact vote
      · exact .inr (fits.voteCurrent (Bool.eq_false_iff.mpr locked)
          (vote.resolve_left Bool.false_ne_true))
    | streamTerm request term rest responses =>
      simp only [advance]
      split_ifs with locked
      · exact vote
      · exact .inr (fits.voteCurrent (Bool.eq_false_iff.mpr locked)
          (vote.resolve_left Bool.false_ne_true))
    | snapshotTerm chunk rest progress =>
      simp only [advance]
      split_ifs with locked
      · exact vote
      · exact .inr (fits.voteCurrent (Bool.eq_false_iff.mpr locked)
          (vote.resolve_left Bool.false_ne_true))
    | voteVote request =>
      have current := vote.resolve_left Bool.false_ne_true
      right
      simp only [advance]
      split_ifs
      · exact current
      · exact current
      · exact .inl rfl
      · split <;> exact current
    | voteLog request =>
      right
      simp only [advance]
      split_ifs
      · exact .inr rfl
      · exact vote.resolve_left Bool.false_ne_true
    | commitWrite requestTerm newCommit caller =>
      right
      simp only [advance]
      split_ifs <;> exact vote.resolve_left Bool.false_ne_true
    | appendLog request term =>
      right
      simp only [advance]
      split_ifs <;> exact vote.resolve_left Bool.false_ne_true
    | streamLog | snapshotCommit | snapshotApplied | snapshotLog =>
      exact .inr (vote.resolve_left Bool.false_ne_true)
    | _ => exact absurd rfl quiet

/-- A step that writes a term keeps the rules exactly if the condition holds. -/
theorem stepRight_setTerm_iff (vote : shared.termLocked = false → shared.VoteCurrent) :
    StepRight task shared (if shared.termLocked then (task, shared)
      else (next, shared.setTerm term)).2 ↔ shared.WritesTerm term := by
  split_ifs with locked
  · refine iff_of_true ((SameLaw.refl shared).stepRight task vote) ?_
    intro unlocked
    rw [locked] at unlocked
    exact absurd unlocked.symm Bool.false_ne_true
  · have unlocked := Bool.eq_false_iff.mpr locked
    constructor
    · intro right _
      refine ⟨right.term, ?_⟩
      intro higher
      rcases right.vote unlocked with none | inTerm
      · exact none
      · rcases vote unlocked with none | inOld
        · exact none
        · have same : shared.context.currentTerm = term := inOld.symm.trans inTerm
          omega
    · intro writes
      exact ⟨(writes unlocked).1, le_rfl, fun _ => writes.voteCurrent unlocked (vote unlocked),
        fun _ _ _ => ⟨rfl, rfl, rfl⟩⟩

/-- A step that appends entries keeps the rules exactly if the request is not stale or the log
stays as it is. -/
theorem stepRight_appendEntries_iff (isTerm : task.requestTerm = some term)
    (entries : List (LogEntry Record)) (vote : shared.termLocked = false → shared.VoteCurrent) :
    StepRight task shared (shared.onContext fun context => (context.appendEntries entries).2) ↔
      shared.NotStale term
        (ReplicationContext.merged entries shared.context.logStore = shared.context.logStore) := by
  constructor
  · intro right behind
    exact (right.stale term isTerm behind).1
  · intro notStale
    refine ⟨le_rfl, le_rfl, vote, ?_⟩
    intro other isOther behind
    rw [isTerm, Option.mem_some_iff] at isOther
    rw [← isOther] at behind
    exact ⟨notStale behind, rfl, rfl⟩

/-- A step keeps the rules exactly if it finds what it must. -/
theorem stepRight_iff (task : ContextTask) (vote : shared.termLocked = false → shared.VoteCurrent)
    (after : shared.Fits codec task → (task.advance codec outcome shared).2.termLocked = false →
      (task.advance codec outcome shared).2.VoteCurrent) :
    StepRight task shared (task.advance codec outcome shared).2 ↔ shared.Fits codec task := by
  by_cases quiet : IsQuiet task = true
  · have fits : shared.Fits codec task := by
      cases task with
      | heartbeatTerm | streamTerm | snapshotTerm | appendLog | streamLog | commitWrite
      | snapshotCommit | snapshotApplied | snapshotLog => exact absurd quiet Bool.false_ne_true
      | _ => trivial
    exact iff_of_true ((sameLaw_advance quiet).stepRight task (after fits)) fits
  · cases task with
    | heartbeatTerm request term => exact stepRight_setTerm_iff vote
    | streamTerm request term rest responses => exact stepRight_setTerm_iff vote
    | snapshotTerm chunk rest progress => exact stepRight_setTerm_iff vote
    | streamLog request term rest responses => exact stepRight_appendEntries_iff rfl _ vote
    | appendLog request term =>
      have sameEmpty : request.entries.map (protoToInternalLogEntry codec) = [] ↔
          request.entries = [] := List.map_eq_nil_iff
      simp only [advance, Fits, sameEmpty]
      split_ifs with empty
      · exact iff_of_true ((SameLaw.refl shared).stepRight _ vote) fun _ => .inl empty
      · refine (stepRight_appendEntries_iff rfl _ vote).trans ?_
        unfold NotStale
        simp only [empty, false_or]
    | commitWrite requestTerm newCommit caller =>
      simp only [advance, Fits, NotStale]
      split_ifs with higher
      · constructor
        · intro right behind
          have same := (right.stale requestTerm rfl behind).2.1
          exact same.le
        · intro notStale
          refine ⟨le_rfl, higher.le, vote, ?_⟩
          intro term isTerm behind
          rw [← Option.mem_some_iff.mp isTerm] at behind
          exact absurd (notStale behind) (Nat.not_le.mpr higher)
      · exact iff_of_true ((SameLaw.refl shared).stepRight _ vote) fun _ => Nat.not_lt.mp higher
    | snapshotCommit progress term =>
      constructor
      · intro right
        exact ⟨right.commit, fun behind => (right.stale term rfl behind).2.1⟩
      · intro fits
        refine ⟨le_rfl, fits.1, vote, ?_⟩
        intro other isTerm behind
        rw [← Option.mem_some_iff.mp isTerm] at behind
        exact ⟨rfl, fits.2 behind, rfl⟩
    | snapshotApplied progress term =>
      constructor
      · intro right behind
        exact (right.stale term rfl behind).2.2
      · intro fits
        refine ⟨le_rfl, le_rfl, vote, ?_⟩
        intro other isTerm behind
        rw [← Option.mem_some_iff.mp isTerm] at behind
        exact ⟨rfl, rfl, fits behind⟩
    | snapshotLog progress term =>
      constructor
      · intro right behind entry member
        have same := (right.stale term rfl behind).1
        exact of_decide_eq_true (List.filter_eq_self.mp same entry member)
      · intro fits
        refine ⟨le_rfl, le_rfl, vote, ?_⟩
        intro other isTerm behind
        rw [← Option.mem_some_iff.mp isTerm] at behind
        refine ⟨List.filter_eq_self.mpr ?_, rfl, rfl⟩
        intro entry member
        exact decide_eq_true (fits behind entry member)
    | appendTerm request =>
      refine iff_of_true ?_ trivial
      simp only [advance]
      split_ifs with locked stale higher
      · exact (SameLaw.refl shared).stepRight _ vote
      · exact (SameLaw.refl shared).stepRight _ vote
      · refine ⟨higher.le, le_rfl, ?_, fun _ _ _ => ⟨rfl, rfl, rfl⟩⟩
        exact fun unlocked => absurd unlocked.symm Bool.false_ne_true
      · exact (SameLaw.refl shared).stepRight _ vote
    | appendVote request =>
      refine iff_of_true ?_ trivial
      have isVote := after trivial
      simp only [advance] at isVote ⊢
      split_ifs at isVote ⊢
      · exact (SameLaw.refl shared).stepRight _ vote
      · exact ⟨le_rfl, le_rfl, isVote, fun _ _ _ => ⟨rfl, rfl, rfl⟩⟩
    | heartbeatVote request term =>
      refine iff_of_true ?_ trivial
      have isVote := after trivial
      simp only [advance] at isVote ⊢
      split_ifs at isVote ⊢
      · exact (SameLaw.refl shared).stepRight _ vote
      · exact ⟨le_rfl, le_rfl, isVote, fun _ _ _ => ⟨rfl, rfl, rfl⟩⟩
    | voteVote request =>
      refine iff_of_true ?_ trivial
      have isVote := after trivial
      simp only [advance] at isVote ⊢
      split_ifs at isVote ⊢ with locked stale higher
      · exact (SameLaw.refl shared).stepRight _ vote
      · exact ⟨le_rfl, le_rfl, isVote, fun _ _ _ => ⟨rfl, rfl, rfl⟩⟩
      · exact ⟨higher.le, le_rfl, isVote, fun _ _ _ => ⟨rfl, rfl, rfl⟩⟩
      · cases voted : shared.context.votedFor with
        | none =>
          simp only [voted] at isVote
          exact ⟨le_rfl, le_rfl, isVote, fun _ _ _ => ⟨rfl, rfl, rfl⟩⟩
        | some candidateId =>
          simp only [voted] at isVote
          exact ⟨le_rfl, le_rfl, fun _ => isVote trivial, fun _ _ _ => ⟨rfl, rfl, rfl⟩⟩
    | voteLog request =>
      refine iff_of_true ?_ trivial
      have isVote := after trivial
      simp only [advance] at isVote ⊢
      split_ifs at isVote ⊢
      · exact ⟨le_rfl, le_rfl, isVote, fun _ _ _ => ⟨rfl, rfl, rfl⟩⟩
      · exact ⟨le_rfl, le_rfl, isVote, fun _ _ _ => ⟨rfl, rfl, rfl⟩⟩
    | _ => exact absurd rfl quiet

end Step

/-! ## Runs -/

/-- The lock of the term is taken exactly when one handler has it, and the vote is of the
current term unless a handler will forget it. -/
structure Invariant (pool : Pool (SharedContext Record) ContextTask) : Prop where
  locks : pool.tasks.countP holdsTerm = pool.shared.termLocked.toNat
  vote : (∃ task ∈ pool.tasks, task.isAppendVote = true) ∨ pool.shared.VoteCurrent

theorem holdsTerm_of_isAppendVote {task : ContextTask} (isAppendVote : task.isAppendVote = true) :
    task.holdsTerm = true := by
  cases task with
  | appendVote request => rfl
  | _ => exact absurd isAppendVote Bool.false_ne_true

variable {pool : Pool (SharedContext Record) ContextTask}

theorem Invariant.voteCurrent (invariant : Invariant pool)
    (unlocked : pool.shared.termLocked = false) : pool.shared.VoteCurrent := by
  refine invariant.vote.resolve_left ?_
  intro exists'
  rcases exists' with ⟨task, member, isAppendVote⟩
  have holders := invariant.locks
  rw [unlocked] at holders
  exact List.countP_eq_zero.mp holders task member (holdsTerm_of_isAppendVote isAppendVote)

section Pool

variable {codec : RecordCodec Record} {outcome : ChunkOutcome} {shared : SharedContext Record}
  {before after : List ContextTask} {task : ContextTask}

theorem Invariant.locked_of_holdsTerm (invariant : Invariant ⟨shared, before ++ task :: after⟩)
    (holds : task.holdsTerm = true) : shared.termLocked = true := by
  by_contra unlocked
  have holders := invariant.locks
  dsimp only at holders
  rw [Bool.eq_false_iff.mpr unlocked] at holders
  exact List.countP_eq_zero.mp holders task (List.mem_append_right _ List.mem_cons_self) holds

theorem Invariant.step (invariant : Invariant ⟨shared, before ++ task :: after⟩)
    (fits : shared.Fits codec task) :
    Invariant ⟨(task.advance codec outcome shared).2,
      before ++ (task.advance codec outcome shared).1 :: after⟩ := by
  constructor
  · have moved : shared.termLocked.toNat + (task.advance codec outcome shared).1.holdsTerm.toNat =
        (task.advance codec outcome shared).2.termLocked.toNat + task.holdsTerm.toNat :=
      holdsTerm_advance task invariant.locked_of_holdsTerm
    have holders := invariant.locks
    simp only [List.countP_append, List.countP_cons] at holders ⊢
    have toNat : ∀ value : Bool, (if value = true then 1 else 0) = value.toNat := by
      decide
    rw [toNat] at holders ⊢
    omega
  · have advanced (vote : task.isAppendVote = true ∨ shared.VoteCurrent) :
        (task.advance codec outcome shared).1.isAppendVote = true ∨
          (task.advance codec outcome shared).2.VoteCurrent :=
      vote_advance fits vote
    rcases invariant.vote with ⟨other, member, isAppendVote⟩ | current
    · by_cases same : other = task
      · rw [same] at isAppendVote
        rcases advanced (.inl isAppendVote) with still | current
        · exact .inl ⟨_, List.mem_append_right _ List.mem_cons_self, still⟩
        · exact .inr current
      · refine .inl ⟨other, ?_, isAppendVote⟩
        rcases List.mem_append.mp member with inBefore | inRest
        · exact List.mem_append_left _ inBefore
        · exact List.mem_append_right _ (List.mem_cons_of_mem _
            ((List.mem_cons.mp inRest).resolve_left same))
    · rcases advanced (.inr current) with still | current
      · exact .inl ⟨_, List.mem_append_right _ List.mem_cons_self, still⟩
      · exact .inr current

end Pool

def TurnRight (codec : RecordCodec Record) (pool : Pool (SharedContext Record) ContextTask) :
    Turn ContextCall ChunkOutcome → Prop
  | .call _ => True
  | .step outcome index =>
    ∀ task ∈ pool.tasks[index]?,
      StepRight task pool.shared (task.advance codec outcome pool.shared).2

def TurnFits (codec : RecordCodec Record) (pool : Pool (SharedContext Record) ContextTask) :
    Turn ContextCall ChunkOutcome → Prop
  | .call _ => True
  | .step _ index => ∀ task ∈ pool.tasks[index]?, pool.shared.Fits codec task

theorem turnRight_iff (invariant : Invariant pool) (turn : Turn ContextCall ChunkOutcome) :
    TurnRight codec pool turn ↔ TurnFits codec pool turn := by
  cases turn with
  | call call => exact Iff.rfl
  | step outcome index =>
    apply forall₂_congr
    intro task isTask
    rcases List.getElem?_eq_some_iff.mp isTask with ⟨inside, isTask⟩
    have split : pool.tasks =
        pool.tasks.take index ++ task :: pool.tasks.drop (index + 1) := by
      rw [← isTask, List.getElem_cons_drop, List.take_append_drop]
    rcases pool with ⟨shared, tasks⟩
    dsimp only at split inside
    rw [split] at invariant
    apply stepRight_iff task invariant.voteCurrent
    intro fits
    exact (invariant.step fits).voteCurrent

theorem Invariant.next (invariant : Invariant pool) (fits : TurnFits codec pool turn) :
    Invariant ((contextService codec).next pool turn) := by
  rcases (contextService codec).next_cases pool turn with
    ⟨call, _, same⟩ | ⟨outcome, index, before, task, after, isStep, place, split, same⟩ | ⟨_, _, _, _, same⟩
  · rw [same]
    constructor
    · have notHolding : ((contextService codec).start call).holdsTerm = false := by
        cases call <;> rfl
      rw [List.countP_append, List.countP_singleton, notHolding]
      exact invariant.locks
    · rcases invariant.vote with ⟨task, member, isAppendVote⟩ | current
      · exact .inl ⟨task, List.mem_append_left _ member, isAppendVote⟩
      · exact .inr current
  · rw [same]
    rcases pool with ⟨shared, tasks⟩
    dsimp only at split
    subst split
    rw [isStep] at fits
    apply invariant.step (fits task _)
    simp [place]
  · rw [same]
    exact invariant

def new (nodeId : String) (roleManager : RoleManager) (dir : SnapshotDir) :
    SharedContext Record where
  node := ⟨.new nodeId roleManager, 0, dir⟩
  termLocked := false
  voteLocked := false
  votedIn := 0

/-- In every order of the steps of any requests every step keeps the rules, exactly if every
step finds what it must. -/
theorem obeys_turnRight_iff (codec : RecordCodec Record) (nodeId : String)
    (roleManager : RoleManager) (dir : SnapshotDir) (turns : List (Turn ContextCall ChunkOutcome)) :
    (contextService codec).Obeys (TurnRight codec) turns ⟨new nodeId roleManager dir, []⟩ ↔
      (contextService codec).Obeys (TurnFits codec) turns ⟨new nodeId roleManager dir, []⟩ := by
  apply (contextService codec).obeys_congr Invariant
  · intro pool turn invariant
    exact turnRight_iff invariant turn
  · intro pool turn invariant right
    exact invariant.next ((turnRight_iff invariant turn).mp right)
  · exact ⟨rfl, .inr (.inl rfl)⟩

instance [DecidableEq Record] (codec : RecordCodec Record)
    (pool : Pool (SharedContext Record) ContextTask) :
    ∀ turn, Decidable (TurnRight codec pool turn)
  | .call _ => .isTrue trivial
  | .step _ index => inferInstanceAs (Decidable (∀ task ∈ pool.tasks[index]?, _))

/-- The Master of term 2 sends an entry, then one of term 1 sends a heartbeat that commits it. -/
theorem staleHeartbeat_not_right :
    ¬(contextService trivialCodec).Obeys (TurnRight trivialCodec)
      (.call (.appendEntries ⟨2, "a", 0, 0, [⟨1, 2, [0], 0⟩], 0⟩) ::
        List.replicate 7 (.step writes 0) ++
        .call (.heartbeat ⟨1, "c", 1, 0⟩) :: List.replicate 3 (.step writes 1))
      ⟨new "b" (.new "b" .Slave) ⟨none, none⟩, []⟩ := by
  decide +kernel

end SharedContext

end QAExchange
