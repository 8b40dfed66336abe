import QAExchange.Protocol.SnapshotManager

/-! # Which peeks are woken

A peek that has found the queue empty is woken by the next push only if its future was
made before, and a peek that is to take the queue finds it empty if another one was
faster.
-/

namespace QAExchange

open Foundation

namespace SnapshotTask

def isPushing : SnapshotTask → Bool
  | .merging _ | .notifying => true
  | _ => false

def isSubscribing : SnapshotTask → Bool
  | .subscribing => true
  | _ => false

def isWaiting : SnapshotTask → Bool
  | .waiting _ => true
  | _ => false

def isAnswering (state : UserSnapshotState) : SnapshotTask → Bool
  | .taking => true
  | .waiting calls => calls < state.notifyCalls
  | _ => false

end SnapshotTask

namespace SnapshotManager

def AnswersCarry (pool : SnapshotPool) : Prop :=
  ∀ patches, .returned patches ∈ pool.tasks → patches ≠ []

def TimesOutEmpty (pool : SnapshotPool) (turn : Turn SnapshotCall SnapshotInput) : Prop :=
  ∀ input index calls, turn = .step input index → pool.tasks[index]? = some (.waiting calls) →
    (service.next pool turn).tasks[index]? = some .timedOut → pool.shared.pendingPatches = []

def PeeksSoundly : List (Turn SnapshotCall SnapshotInput) → SnapshotPool → Prop
  | [], pool => AnswersCarry pool
  | turn :: turns, pool =>
    AnswersCarry pool ∧ TimesOutEmpty pool turn ∧ PeeksSoundly turns (service.next pool turn)

/-- Peeks are not woken between their test and their future, nor for a queue that is
empty. The queue is taken by one peek at a time, and no peek gives up while a patch in
the queue has not been announced. -/
def Undisturbed (pool : SnapshotPool) : Turn SnapshotCall SnapshotInput → Prop
  | .call _ => True
  | .step input index =>
    match pool.tasks[index]? with
    | some .notifying =>
      (∀ task ∈ pool.tasks, task.isSubscribing = false) ∧
        (pool.shared.pendingPatches = [] → ∀ task ∈ pool.tasks, task.isWaiting = false)
    | some .taking =>
      ∀ task ∈ pool.tasks.eraseIdx index, task.isAnswering pool.shared = false
    | some (.waiting calls) =>
      input = .expired → pool.shared.notifyCalls ≤ calls →
        ∀ task ∈ pool.tasks, task.isPushing = false
    | _ => True

/-! ## What holds in undisturbed runs -/

/-- What a task knows about the queue. `pushing` says that some push has not woken the
peeks yet. -/
def Knows (state : UserSnapshotState) (pushing : Prop) : SnapshotTask → Prop
  | .taking => state.pendingPatches ≠ []
  | .subscribing => state.pendingPatches ≠ [] → pushing
  | .waiting calls =>
    calls ≤ state.notifyCalls ∧ (calls < state.notifyCalls → state.pendingPatches ≠ []) ∧
      (state.notifyCalls ≤ calls → state.pendingPatches ≠ [] → pushing)
  | .returned patches => patches ≠ []
  | .entering _ | .broadcasting _ | .enqueueing _ | .merging _ | .notifying | .pushed | .testing
  | .timedOut | .unknownUser => True

def Quiet (pool : SnapshotPool) : Prop :=
  ∀ task ∈ pool.tasks, Knows pool.shared (∃ push ∈ pool.tasks, push.isPushing = true) task

variable {after : UserSnapshotState} {task : SnapshotTask}

theorem Knows.mono {pushing stillPushing : Prop} (knows : Knows state pushing task)
    (pending : after.pendingPatches = state.pendingPatches)
    (calls : after.notifyCalls = state.notifyCalls) (still : pushing → stillPushing) :
    Knows after stillPushing task := by
  cases task <;> simp only [Knows, pending, calls] at knows ⊢
  case taking => exact knows
  case subscribing => exact fun some => still (knows some)
  case waiting =>
    exact ⟨knows.1, knows.2.1, fun late some => still (knows.2.2 late some)⟩
  case returned => exact knows

theorem Knows.of_pushing {pushing stillPushing : Prop} (knows : Knows state pushing task)
    (some : after.pendingPatches ≠ []) (calls : after.notifyCalls = state.notifyCalls)
    (still : stillPushing) : Knows after stillPushing task := by
  cases task <;> simp only [Knows, calls] at knows ⊢
  case taking => exact some
  case subscribing => exact fun _ => still
  case waiting => exact ⟨knows.1, fun _ => some, fun _ _ => still⟩
  case returned => exact knows

theorem pushing_of_same {after : List SnapshotTask} {moved : SnapshotTask}
    (same : task.isPushing = true → moved.isPushing = true)
    (pushing : ∃ push ∈ before ++ task :: after, push.isPushing = true) :
    ∃ push ∈ before ++ moved :: after, push.isPushing = true := by
  rcases pushing with ⟨push, member, isPush⟩
  rcases List.mem_append.mp member with inside | inside
  · exact ⟨push, List.mem_append_left _ inside, isPush⟩
  · rcases List.mem_cons.mp inside with rfl | later
    · exact ⟨moved, by simp, same isPush⟩
    · exact ⟨push, by simp [later], isPush⟩

theorem quiet_of (quiet : Quiet ⟨state, before ++ task :: rest⟩) (others : ∀ other ∈ before ++ rest,
      Knows state (∃ push ∈ before ++ task :: rest, push.isPushing = true) other →
      Knows after (∃ push ∈ before ++ moved :: rest, push.isPushing = true) other)
    (self : Knows after (∃ push ∈ before ++ moved :: rest, push.isPushing = true) moved) :
    Quiet ⟨after, before ++ moved :: rest⟩ := by
  intro other member
  rcases List.mem_append.mp member with inside | inside
  · exact others other (List.mem_append_left _ inside)
      (quiet other (List.mem_append_left _ inside))
  · rcases List.mem_cons.mp inside with rfl | later
    · exact self
    · exact others other (List.mem_append_right _ later)
        (quiet other (by simp [later]))

theorem Quiet.step (quiet : Quiet ⟨state, before ++ task :: rest⟩) (input : SnapshotInput)
    (allowed : Undisturbed ⟨state, before ++ task :: rest⟩ (.step input before.length)) :
    Quiet ⟨(advance input state task).2, before ++ (advance input state task).1 :: rest⟩ := by
  have knows := quiet task (by simp)
  simp only [Undisturbed, List.getElem?_append_right (le_refl _), Nat.sub_self,
    List.getElem?_cons_zero] at allowed
  -- a step that leaves queue and futures as they are
  have still : ∀ (after : UserSnapshotState) (moved : SnapshotTask),
      after.pendingPatches = state.pendingPatches → after.notifyCalls = state.notifyCalls →
      (task.isPushing = true → moved.isPushing = true) →
      Knows after (∃ push ∈ before ++ moved :: rest, push.isPushing = true) moved →
      Quiet ⟨after, before ++ moved :: rest⟩ := by
    intro after moved pending calls same self
    apply quiet_of quiet _ self
    intro other _ knows
    exact knows.mono pending calls (pushing_of_same same)
  cases task with
  | entering patch => exact still _ _ rfl rfl (fun isPush => by cases isPush) trivial
  | broadcasting patch =>
    rw [advance]
    split_ifs
    · exact still _ _ rfl rfl (fun isPush => by cases isPush) trivial
    · exact still _ _ rfl rfl (fun isPush => by cases isPush) trivial
  | enqueueing patch =>
    apply quiet_of quiet
    · intro other _ knows
      apply knows.of_pushing
      · simp [advance]
      · rfl
      · exact ⟨.merging patch, by simp [advance], rfl⟩
    · trivial
  | merging patch => exact still _ _ rfl rfl (fun _ => rfl) trivial
  | notifying =>
    rcases allowed with ⟨noneSubscribes, noneWaits⟩
    apply quiet_of quiet
    · intro other member knows
      have inPool : other ∈ before ++ .notifying :: rest := by
        rcases List.mem_append.mp member with inside | later
        · exact List.mem_append_left _ inside
        · simp [later]
      cases other with
      | subscribing => exact absurd (noneSubscribes _ inPool) (by decide)
      | waiting calls =>
        have some : state.pendingPatches ≠ [] := by
          intro none
          exact absurd (noneWaits none _ inPool) (by simp [SnapshotTask.isWaiting])
        rcases knows with ⟨old, _, _⟩
        refine ⟨old.trans (Nat.le_succ _), fun _ => some, ?_⟩
        intro late
        change state.notifyCalls + 1 ≤ calls at late
        omega
      | taking => exact knows
      | returned patches => exact knows
      | entering _ | broadcasting _ | enqueueing _ | merging _ | notifying | pushed | testing
      | timedOut | unknownUser => trivial
    · trivial
  | pushed => exact still _ _ rfl rfl (fun isPush => by cases isPush) trivial
  | testing =>
    rw [advance]
    split_ifs with unknown pending
    · exact still _ _ rfl rfl (fun isPush => by cases isPush) trivial
    · apply still _ _ rfl rfl (fun isPush => by cases isPush)
      simpa [Knows, UserSnapshotState.hasPendingPatches] using pending
    · apply still _ _ rfl rfl (fun isPush => by cases isPush)
      intro some
      exact absurd (by simpa [UserSnapshotState.hasPendingPatches] using pending) some
  | subscribing =>
    apply still _ _ rfl rfl (fun isPush => by cases isPush)
    refine ⟨le_refl _, fun woken => absurd woken (lt_irrefl _), ?_⟩
    intro _ some
    exact pushing_of_same (fun isPush => by cases isPush) (knows some)
  | waiting calls =>
    rcases knows with ⟨old, woken, late⟩
    simp only [advance]
    split_ifs with isWoken
    · exact still _ _ rfl rfl (fun isPush => by cases isPush) (woken isWoken)
    · cases input with
      | proceed =>
        apply still _ _ rfl rfl (fun isPush => by cases isPush)
        refine ⟨old, woken, ?_⟩
        intro isLate some
        exact late isLate some
      | expired => exact still _ _ rfl rfl (fun isPush => by cases isPush) trivial
  | taking =>
    have alone : ∀ other ∈ before ++ rest, other.isAnswering state = false := by
      have erased : (before ++ .taking :: rest).eraseIdx before.length = before ++ rest := by
        rw [List.eraseIdx_append_of_length_le (le_refl _), Nat.sub_self]
        rfl
      rw [erased] at allowed
      exact allowed
    apply quiet_of quiet
    · intro other member known
      have quietOther := alone other member
      cases other with
      | taking => cases quietOther
      | waiting calls =>
        rcases known with ⟨old, _, _⟩
        refine ⟨old, ?_, fun _ some => absurd rfl some⟩
        intro isWoken
        change calls < state.notifyCalls at isWoken
        simp [SnapshotTask.isAnswering, isWoken] at quietOther
      | subscribing => exact fun some => absurd rfl some
      | returned patches => exact known
      | entering _ | broadcasting _ | enqueueing _ | merging _ | notifying | pushed | testing
      | timedOut | unknownUser => trivial
    · exact knows
  | returned patches => exact still _ _ rfl rfl (fun isPush => by cases isPush) knows
  | timedOut => exact still _ _ rfl rfl (fun isPush => by cases isPush) trivial
  | unknownUser => exact still _ _ rfl rfl (fun isPush => by cases isPush) trivial

variable {pool : SnapshotPool}

theorem Quiet.next (quiet : Quiet pool) (allowed : Undisturbed pool turn) :
    Quiet (service.next pool turn) := by
  rcases service.next_cases pool turn with
    ⟨call, _, same⟩ | ⟨input, index, before, task, rest, isStep, place, split, same⟩ | ⟨_, _, _, _, same⟩
  · rw [same]
    have old : ∀ task ∈ pool.tasks, Knows pool.shared
        (∃ push ∈ pool.tasks ++ [start call], push.isPushing = true) task := by
      intro task member
      apply (quiet task member).mono rfl rfl
      rintro ⟨push, isTask, isPush⟩
      exact ⟨push, List.mem_append_left _ isTask, isPush⟩
    intro task member
    rcases List.mem_append.mp member with inside | isNew
    · exact old task inside
    · rw [List.mem_singleton.mp isNew]
      cases call with
      | pushPatch patch => trivial
      | broadcastPatch patch => trivial
      | peek => trivial
  · rw [same]
    rcases pool with ⟨state, tasks⟩
    cases split
    subst isStep place
    exact quiet.step input allowed
  · rw [same]
    exact quiet

theorem Quiet.answersCarry (quiet : Quiet pool) : AnswersCarry pool :=
  fun patches member => quiet (.returned patches) member

theorem Quiet.timesOutEmpty (quiet : Quiet pool) (allowed : Undisturbed pool turn) :
    TimesOutEmpty pool turn := by
  intro input index calls isStep found timedOut
  subst isStep
  have knows := quiet _ (List.mem_of_getElem? found)
  simp only [Undisturbed, found] at allowed
  rcases List.getElem?_eq_some_iff.mp found with ⟨inside, _⟩
  have moved : (advance input pool.shared (.waiting calls)).1 = .timedOut := by
    have next : service.next pool (.step input index) =
        ⟨(advance input pool.shared (.waiting calls)).2,
          pool.tasks.set index (advance input pool.shared (.waiting calls)).1⟩ := by
      simp only [Service.next, found]
      rfl
    rw [next] at timedOut
    simpa [inside] using timedOut
  simp only [advance] at moved
  split_ifs at moved with woken
  cases input with
  | proceed => cases moved
  | expired =>
    by_contra some
    rcases knows.2.2 (not_lt.mp woken) some with ⟨push, isTask, isPush⟩
    rw [allowed rfl (not_lt.mp woken) push isTask] at isPush
    cases isPush

/-- In every undisturbed run a peek gives up on an empty queue only, and its answers have
patches. -/
theorem peeks_soundly (initialized : Bool) {turns : List (Turn SnapshotCall SnapshotInput)}
    (undisturbed : service.Obeys Undisturbed turns (SnapshotPool.new initialized)) :
    PeeksSoundly turns (SnapshotPool.new initialized) := by
  have quiet : Quiet (SnapshotPool.new initialized) := by
    intro task member
    cases member
  generalize SnapshotPool.new initialized = pool at undisturbed quiet ⊢
  induction turns generalizing pool with
  | nil => exact quiet.answersCarry
  | cons turn turns induction =>
    rcases undisturbed with ⟨allowed, obeys⟩
    exact ⟨quiet.answersCarry, quiet.timesOutEmpty allowed, induction _ obeys (quiet.next allowed)⟩

/-- A whole push, and a peek after it. -/
def pushThenPeek (patch : Value) : List (Turn SnapshotCall SnapshotInput) :=
  [.call (.pushPatch patch), .step .proceed 0, .step .proceed 0, .step .proceed 0,
    .step .proceed 0, .call .peek, .step .proceed 1, .step .proceed 1]

theorem pushThenPeek_sound : PeeksSoundly (pushThenPeek .null) (SnapshotPool.new false) := by
  apply peeks_soundly false
  refine ⟨trivial, trivial, trivial, trivial, ⟨?_, ?_⟩, trivial, trivial, ?_, trivial⟩
  · intro task member
    rw [List.mem_singleton.mp member]
    rfl
  · intro _ task member
    rw [List.mem_singleton.mp member]
    rfl
  · intro task member
    rw [List.mem_singleton.mp member]
    rfl

theorem PeeksSoundly.of_append (sound : PeeksSoundly (first ++ rest) pool) :
    PeeksSoundly rest (service.run first pool) := by
  induction first generalizing pool with
  | nil => exact sound
  | cons turn first induction => exact induction sound.2.2

def pushBeforeFuture (patch : Value) : List (Turn SnapshotCall SnapshotInput) :=
  [.call .peek, .step .proceed 0, .call (.pushPatch patch), .step .proceed 1, .step .proceed 1,
    .step .proceed 1, .step .proceed 1, .step .proceed 0]

/-- Two peeks that both have found a patch, of which one takes it. -/
def peekTwice (patch : Value) : List (Turn SnapshotCall SnapshotInput) :=
  [.call (.pushPatch patch), .step .proceed 0, .step .proceed 0, .step .proceed 0,
    .step .proceed 0, .call .peek, .call .peek, .step .proceed 1, .step .proceed 2,
    .step .proceed 1, .step .proceed 2]

/-- The first peek runs out of time with a patch in the queue, and the second of the other
two answers without a patch. -/
theorem peeks_unsound :
    ¬ PeeksSoundly (pushBeforeFuture .null ++ [.step .expired 0]) (SnapshotPool.new true) ∧
      ¬ PeeksSoundly (peekTwice .null) (SnapshotPool.new true) := by
  constructor
  · intro sound
    have empty := sound.of_append.2.1 .expired 0 1 rfl rfl rfl
    cases empty
  · intro sound
    have whole : peekTwice .null = peekTwice .null ++ [] := rfl
    rw [whole] at sound
    have carries : AnswersCarry (service.run (peekTwice .null) (SnapshotPool.new true)) := sound.of_append
    have second : (service.run (peekTwice .null) (SnapshotPool.new true)).tasks[2]? =
        some (.returned []) := rfl
    exact carries [] (List.mem_of_getElem? second) rfl

end SnapshotManager

end QAExchange
