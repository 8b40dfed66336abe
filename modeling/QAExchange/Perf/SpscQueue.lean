import QAExchange.Foundation.Runs

/-! # The queue between two threads

`SpscQueue` of `perf/spsc.rs` with one producer, one consumer and a thread that closes
the queue. Every load, every store and every operation of the inner queue is a step.
-/

namespace QAExchange

open Foundation

/-- `QueueStats` -/
structure QueueStats where
  enqueues : ℕ
  dequeues : ℕ
  enqueueFailures : ℕ
  dequeueFailures : ℕ

inductive PushCall
  | tryPush
  | push
  | pushTimeout

inductive PopCall
  | tryPop
  | pop
  /-- With the number of items that may still be taken. -/
  | popBatch (left : ℕ)
  deriving DecidableEq

inductive Producer (Item : Type)
  | idle
  /-- The test of `closed` at the head of the loops of `push` and `push_timeout`. -/
  | loopTest (call : PushCall) (item : Item)
  /-- The test of the deadline in `push_timeout`. -/
  | deadline (item : Item)
  /-- The test of `closed` in `try_push`. -/
  | tryTest (call : PushCall) (item : Item)
  /-- `queue.push` -/
  | enqueue (call : PushCall) (item : Item)
  | countEnqueue (item : Item)
  | countFull (call : PushCall) (item : Item)

inductive Consumer (Item : Type)
  | idle
  /-- `queue.pop` -/
  | dequeue (call : PopCall)
  | countDequeue (call : PopCall) (item : Item)
  | countEmpty (call : PopCall)
  /-- The test of `closed` in `pop`. -/
  | loadClosed
  /-- `queue.is_empty` in `pop` -/
  | testEmpty

/-- The queue with its threads. `accepted` has the items of the pushes that returned
`Ok`, `received` those that the consumer was given, and `ended` tells that a `pop`
returned `None`. -/
structure SpscQueue (Item : Type) where
  queue : List Item
  capacity : ℕ
  stats : QueueStats
  closed : Bool
  producer : Producer Item
  consumer : Consumer Item
  accepted : List Item
  received : List Item
  ended : Bool

namespace SpscQueue

variable {Item : Type}

def new (capacity : ℕ) : SpscQueue Item where
  queue := []
  capacity := capacity
  stats := ⟨0, 0, 0, 0⟩
  closed := false
  producer := .idle
  consumer := .idle
  accepted := []
  received := []
  ended := false

inductive Input (Item : Type)
  | call (call : PushCall) (item : Item)
  /-- A step of the producer; the clock may have passed its deadline. -/
  | produce (late : Bool)
  | callPop (call : PopCall)
  | consume
  | close

def startPush (call : PushCall) (item : Item) : Producer Item :=
  match call with
  | .tryPush => .tryTest .tryPush item
  | .push => .loopTest .push item
  | .pushTimeout => .loopTest .pushTimeout item

/-- What a push does when `try_push` has returned the item: `try_push` itself returns
it, the loops go on. -/
def pushAgain (call : PushCall) (item : Item) : Producer Item :=
  match call with
  | .tryPush => .idle
  | .push => .loopTest .push item
  | .pushTimeout => .loopTest .pushTimeout item

def produce (late : Bool) (state : SpscQueue Item) : SpscQueue Item :=
  match state.producer with
  | .idle => state
  | .loopTest call item =>
    if state.closed then { state with producer := .idle }
    else
      match call with
      | .pushTimeout => { state with producer := .deadline item }
      | .push | .tryPush => { state with producer := .tryTest call item }
  | .deadline item =>
    if late then { state with producer := .idle }
    else { state with producer := .tryTest .pushTimeout item }
  | .tryTest call item =>
    if state.closed then { state with producer := pushAgain call item }
    else { state with producer := .enqueue call item }
  | .enqueue call item =>
    if state.queue.length < state.capacity then
      { state with queue := state.queue ++ [item], producer := .countEnqueue item }
    else { state with producer := .countFull call item }
  | .countEnqueue item =>
    { state with
      stats := { state.stats with enqueues := state.stats.enqueues + 1 }
      producer := .idle
      accepted := state.accepted ++ [item] }
  | .countFull call item =>
    { state with
      stats := { state.stats with enqueueFailures := state.stats.enqueueFailures + 1 }
      producer := pushAgain call item }

def startPop : PopCall → Consumer Item
  | .popBatch 0 => .idle
  | call => .dequeue call

/-- After an item: a batch goes on while more may be taken. -/
def popAgain : PopCall → Consumer Item
  | .popBatch (left + 1) => startPop (.popBatch left)
  | _ => .idle

def consume (state : SpscQueue Item) : SpscQueue Item :=
  match state.consumer with
  | .idle => state
  | .dequeue call =>
    match state.queue with
    | item :: queue => { state with queue, consumer := .countDequeue call item }
    | [] => { state with consumer := .countEmpty call }
  | .countDequeue call item =>
    { state with
      stats := { state.stats with dequeues := state.stats.dequeues + 1 }
      consumer := popAgain call
      received := state.received ++ [item] }
  | .countEmpty call =>
    { state with
      stats := { state.stats with dequeueFailures := state.stats.dequeueFailures + 1 }
      consumer := if call = .pop then .loadClosed else .idle }
  | .loadClosed =>
    if state.closed then { state with consumer := .testEmpty }
    else { state with consumer := .dequeue .pop }
  | .testEmpty =>
    if state.queue.isEmpty then { state with consumer := .idle, ended := true }
    else { state with consumer := .dequeue .pop }

def step (state : SpscQueue Item) : Input Item → SpscQueue Item
  | .call call item =>
    match state.producer with
    | .idle => { state with producer := startPush call item }
    | _ => state
  | .produce late => state.produce late
  | .callPop call =>
    match state.consumer with
    | .idle => { state with consumer := startPop call }
    | _ => state
  | .consume => state.consume
  | .close => { state with closed := true }

def Producer.held : Producer Item → List Item
  | .countEnqueue item => [item]
  | _ => []

def Consumer.held : Consumer Item → List Item
  | .countDequeue _ item => [item]
  | _ => []

/-- What is pushed is received in order, and after the end the queue has no item of a
push that has returned. -/
structure HandsOver (state : SpscQueue Item) : Prop where
  inOrder : state.accepted ++ Producer.held state.producer =
    state.received ++ Consumer.held state.consumer ++ state.queue
  nothingLeft : state.ended = true →
    state.queue.length ≤ (Producer.held state.producer).length

def goOn (lates : List Bool) (state : SpscQueue Item) : SpscQueue Item :=
  lates.foldl (fun state late => produce late state) state

def HandsOverOnwards (state : SpscQueue Item) : Prop :=
  ∀ lates, HandsOver (goOn lates state)

/-- The producer is between its test of `closed` and `queue.push`. -/
def Producer.aboutToEnqueue : Producer Item → Bool
  | .enqueue _ _ => true
  | _ => false

/-- When `is_empty` makes `pop` return `None`, no push is past its test of `closed`. -/
def endsAlone (state : SpscQueue Item) : Input Item → Bool
  | .consume =>
    match state.consumer with
    | .testEmpty => !state.queue.isEmpty || !Producer.aboutToEnqueue state.producer
    | _ => true
  | _ => true

/-! ## The invariant -/

structure Invariant (state : SpscQueue Item) : Prop where
  inOrder : state.accepted ++ Producer.held state.producer =
    state.received ++ Consumer.held state.consumer ++ state.queue
  closedAtTest : state.consumer = .testEmpty → state.closed = true
  atEnd : state.ended = true →
    state.closed = true ∧ state.queue = [] ∧ Producer.aboutToEnqueue state.producer = false

variable {state : SpscQueue Item}

theorem Invariant.handsOver (invariant : Invariant state) : HandsOver state where
  inOrder := invariant.inOrder
  nothingLeft := by
    intro ended
    rw [(invariant.atEnd ended).2.1]
    exact Nat.zero_le _

theorem new_invariant (capacity : ℕ) : Invariant (new capacity : SpscQueue Item) where
  inOrder := rfl
  closedAtTest := nofun
  atEnd := nofun

@[simp] theorem held_startPush (call : PushCall) (item : Item) :
    Producer.held (startPush call item) = [] := by
  cases call <;> rfl

@[simp] theorem aboutToEnqueue_startPush (call : PushCall) (item : Item) :
    Producer.aboutToEnqueue (startPush call item) = false := by
  cases call <;> rfl

@[simp] theorem held_pushAgain (call : PushCall) (item : Item) :
    Producer.held (pushAgain call item) = [] := by
  cases call <;> rfl

@[simp] theorem aboutToEnqueue_pushAgain (call : PushCall) (item : Item) :
    Producer.aboutToEnqueue (pushAgain call item) = false := by
  cases call <;> rfl

@[simp] theorem held_startPop (call : PopCall) :
    Consumer.held (startPop call : Consumer Item) = [] := by
  rcases call with _ | _ | left
  · rfl
  · rfl
  · cases left <;> rfl

theorem startPop_ne_testEmpty (call : PopCall) : (startPop call : Consumer Item) ≠ .testEmpty := by
  rcases call with _ | _ | left
  · nofun
  · nofun
  · cases left <;> nofun

@[simp] theorem held_popAgain (call : PopCall) :
    Consumer.held (popAgain call : Consumer Item) = [] := by
  rcases call with _ | _ | left
  · rfl
  · rfl
  · cases left with
    | zero => rfl
    | succ left => exact held_startPop _

theorem popAgain_ne_testEmpty (call : PopCall) : (popAgain call : Consumer Item) ≠ .testEmpty := by
  rcases call with _ | _ | left
  · nofun
  · nofun
  · cases left with
    | zero => nofun
    | succ left => exact startPop_ne_testEmpty _

theorem Invariant.toProducer (invariant : Invariant state) (stats : QueueStats)
    (holdsNothing : Producer.held next = []) (heldNothing : Producer.held state.producer = [])
    (stays : state.closed = true → Producer.aboutToEnqueue next = false) :
    Invariant { state with stats, producer := next } where
  inOrder := by
    have inOrder := invariant.inOrder
    rw [heldNothing] at inOrder
    change state.accepted ++ Producer.held next = _
    rw [holdsNothing]
    exact inOrder
  closedAtTest := invariant.closedAtTest
  atEnd := by
    intro ended
    rcases invariant.atEnd ended with ⟨closed, isEmpty, _⟩
    exact ⟨closed, isEmpty, stays closed⟩

theorem produce_invariant (late : Bool) (invariant : Invariant state) :
    Invariant (produce late state) := by
  rw [produce]
  cases phase : state.producer with
  | idle => exact invariant
  | loopTest call item =>
    have heldNothing : Producer.held state.producer = [] := by rw [phase]; rfl
    dsimp only
    split_ifs with closed
    · exact invariant.toProducer state.stats rfl heldNothing (fun _ => rfl)
    · cases call with
      | tryPush => exact invariant.toProducer state.stats rfl heldNothing (fun _ => rfl)
      | push => exact invariant.toProducer state.stats rfl heldNothing (fun _ => rfl)
      | pushTimeout => exact invariant.toProducer state.stats rfl heldNothing (fun _ => rfl)
  | deadline item =>
    have heldNothing : Producer.held state.producer = [] := by rw [phase]; rfl
    dsimp only
    split_ifs
    · exact invariant.toProducer state.stats rfl heldNothing (fun _ => rfl)
    · exact invariant.toProducer state.stats rfl heldNothing (fun _ => rfl)
  | tryTest call item =>
    have heldNothing : Producer.held state.producer = [] := by rw [phase]; rfl
    dsimp only
    split_ifs with closed
    · exact invariant.toProducer state.stats (held_pushAgain call item) heldNothing
        (fun _ => aboutToEnqueue_pushAgain call item)
    · apply invariant.toProducer state.stats rfl heldNothing
      intro isClosed
      exact absurd isClosed closed
  | enqueue call item =>
    have heldNothing : Producer.held state.producer = [] := by rw [phase]; rfl
    have notEnded : state.ended ≠ true := by
      intro ended
      have alone := (invariant.atEnd ended).2.2
      rw [phase] at alone
      cases alone
    dsimp only
    split_ifs
    · refine ⟨?_, invariant.closedAtTest, ?_⟩
      · have inOrder := invariant.inOrder
        rw [heldNothing, List.append_nil] at inOrder
        change state.accepted ++ [item] =
          state.received ++ Consumer.held state.consumer ++ (state.queue ++ [item])
        rw [inOrder, List.append_assoc]
      · intro ended
        exact absurd ended notEnded
    · exact invariant.toProducer state.stats rfl heldNothing (fun _ => rfl)
  | countEnqueue item =>
    refine ⟨?_, invariant.closedAtTest, ?_⟩
    · have inOrder := invariant.inOrder
      rw [phase] at inOrder
      change state.accepted ++ [item] ++ [] = _
      rw [List.append_nil]
      exact inOrder
    · intro ended
      rcases invariant.atEnd ended with ⟨closed, isEmpty, _⟩
      exact ⟨closed, isEmpty, rfl⟩
  | countFull call item =>
    have heldNothing : Producer.held state.producer = [] := by rw [phase]; rfl
    exact invariant.toProducer _ (held_pushAgain call item) heldNothing
      (fun _ => aboutToEnqueue_pushAgain call item)

theorem Invariant.toConsumer (invariant : Invariant state) (stats : QueueStats)
    (holdsNothing : Consumer.held next = []) (heldNothing : Consumer.held state.consumer = [])
    (stays : next = .testEmpty → state.closed = true) :
    Invariant { state with stats, consumer := next } where
  inOrder := by
    have inOrder := invariant.inOrder
    rw [heldNothing] at inOrder
    change _ = state.received ++ Consumer.held next ++ state.queue
    rw [holdsNothing]
    exact inOrder
  closedAtTest := stays
  atEnd := invariant.atEnd

theorem consume_invariant (invariant : Invariant state) (alone : endsAlone state .consume = true) :
    Invariant (consume state) := by
  rw [consume]
  cases phase : state.consumer with
  | idle => exact invariant
  | dequeue call =>
    have heldNothing : Consumer.held state.consumer = [] := by rw [phase]; rfl
    dsimp only
    cases queued : state.queue with
    | nil =>
      have stopped : Invariant { state with consumer := .countEmpty call } :=
        invariant.toConsumer state.stats rfl heldNothing nofun
      dsimp only
      rw [← queued]
      exact stopped
    | cons item queue =>
      refine ⟨?_, nofun, ?_⟩
      · have inOrder := invariant.inOrder
        rw [heldNothing, queued, List.append_nil] at inOrder
        change _ = state.received ++ [item] ++ queue
        rw [List.append_assoc]
        exact inOrder
      · intro ended
        have isEmpty := (invariant.atEnd ended).2.1
        rw [queued] at isEmpty
        cases isEmpty
  | countDequeue call item =>
    refine ⟨?_, ?_, invariant.atEnd⟩
    · have inOrder := invariant.inOrder
      rw [phase] at inOrder
      change _ = state.received ++ [item] ++ Consumer.held (popAgain call) ++ state.queue
      rw [held_popAgain, List.append_nil]
      exact inOrder
    · intro isTest
      exact absurd isTest (popAgain_ne_testEmpty call)
  | countEmpty call =>
    have heldNothing : Consumer.held state.consumer = [] := by rw [phase]; rfl
    dsimp only
    split_ifs
    · exact invariant.toConsumer _ rfl heldNothing nofun
    · exact invariant.toConsumer _ rfl heldNothing nofun
  | loadClosed =>
    have heldNothing : Consumer.held state.consumer = [] := by rw [phase]; rfl
    dsimp only
    split_ifs with closed
    · exact invariant.toConsumer state.stats rfl heldNothing (fun _ => closed)
    · exact invariant.toConsumer state.stats rfl heldNothing nofun
  | testEmpty =>
    have heldNothing : Consumer.held state.consumer = [] := by rw [phase]; rfl
    dsimp only
    split_ifs with isEmpty
    · have stopped : Invariant { state with consumer := .idle } :=
        invariant.toConsumer state.stats rfl heldNothing nofun
      refine ⟨stopped.inOrder, nofun, ?_⟩
      intro _
      refine ⟨invariant.closedAtTest phase, List.isEmpty_iff.mp isEmpty, ?_⟩
      simpa [endsAlone, phase, isEmpty] using alone
    · exact invariant.toConsumer state.stats rfl heldNothing nofun

theorem step_invariant (state : SpscQueue Item) (input : Input Item)
    (invariant : Invariant state) (alone : endsAlone state input = true) :
    Invariant (step state input) := by
  cases input with
  | call call item =>
    rw [step]
    cases phase : state.producer with
    | idle =>
      have heldNothing : Producer.held state.producer = [] := by rw [phase]; rfl
      exact invariant.toProducer state.stats (held_startPush call item) heldNothing
        (fun _ => aboutToEnqueue_startPush call item)
    | _ => exact invariant
  | produce late => exact produce_invariant late invariant
  | callPop call =>
    rw [step]
    cases phase : state.consumer with
    | idle =>
      have heldNothing : Consumer.held state.consumer = [] := by rw [phase]; rfl
      apply invariant.toConsumer state.stats (held_startPop call) heldNothing
      intro isTest
      exact absurd isTest (startPop_ne_testEmpty call)
    | _ => exact invariant
  | consume => exact consume_invariant invariant alone
  | close =>
    refine ⟨invariant.inOrder, fun _ => rfl, ?_⟩
    intro ended
    rcases invariant.atEnd ended with ⟨_, isEmpty, notAbout⟩
    exact ⟨rfl, isEmpty, notAbout⟩

theorem Invariant.handsOverOnwards (invariant : Invariant state) : HandsOverOnwards state := by
  intro lates
  have later : Invariant (goOn lates state) := by
    apply foldl_invariant Invariant _ lates invariant
    intro state late holds
    exact produce_invariant late holds
  exact later.handsOver

/-! ## Every run -/

@[simp] theorem produce_capacity (late : Bool) (state : SpscQueue Item) :
    (produce late state).capacity = state.capacity := by
  rw [produce]
  split <;> (try split) <;> (try split) <;> rfl

@[simp] theorem consume_capacity (state : SpscQueue Item) :
    (consume state).capacity = state.capacity := by
  rw [consume]
  split <;> (try split) <;> rfl

theorem step_capacity (state : SpscQueue Item) (input : Input Item) :
    (step state input).capacity = state.capacity := by
  cases input with
  | call call item => rw [step]; split <;> rfl
  | produce late => exact produce_capacity late state
  | callPop call => rw [step]; split <;> rfl
  | consume => exact consume_capacity state
  | close => rfl

theorem endsAlone_of_handsOverOnwards (input : Input Item) (roomy : 0 < state.capacity)
    (onwards : HandsOverOnwards (step state input)) : endsAlone state input = true := by
  cases input with
  | consume =>
    rw [endsAlone]
    cases phase : state.consumer with
    | testEmpty =>
      dsimp only
      cases queued : state.queue with
      | cons item queue => rfl
      | nil =>
        cases pushing : state.producer with
        | enqueue call item =>
          have left := (onwards [false, false]).nothingLeft
          simp [goOn, step, consume, produce, phase, queued, pushing, roomy,
            Producer.held] at left
        | _ => rfl
    | _ => rfl
  | _ => rfl

/-- In every state of a run, and however far the producer goes on from it, the items are
handed over in order and none is left after the end, exactly when every `pop` that ends
finds no push between its test of `closed` and `queue.push`. -/
theorem handsOver_iff (capacity : ℕ) (roomy : 0 < capacity) (inputs : List (Input Item)) :
    (∀ first, first <+: inputs → HandsOverOnwards (first.foldl step (new capacity))) ↔
      Along step (fun state input => endsAlone state input = true) inputs (new capacity) := by
  have start : Invariant (new capacity : SpscQueue Item) := new_invariant capacity
  constructor
  · intro reached
    have along := (forall_reached_iff inputs start.handsOverOnwards).mp reached
    refine Along.imp (fun state : SpscQueue Item => 0 < state.capacity) ?_ ?_ along roomy
    · intro state input roomy onwards
      exact endsAlone_of_handsOverOnwards input roomy onwards
    · intro state input roomy _
      rw [step_capacity]
      exact roomy
  · intro along first isFirst
    rcases isFirst with ⟨rest, rfl⟩
    have alongFirst := ((along_append first rest _).mp along).1
    exact (foldl_along Invariant step_invariant alongFirst start).handsOverOnwards

/-- A push and a `pop` that ends: the push has returned before `close`. -/
def pushedBeforeClose : List (Input ℕ) :=
  [.call .push 7, .produce false, .produce false, .produce false, .produce false,
    .callPop .pop, .consume, .consume, .close,
    .callPop .pop, .consume, .consume, .consume, .consume]

theorem pushedBeforeClose_handsOver : HandsOverOnwards (pushedBeforeClose.foldl step (new 1)) :=
  (handsOver_iff 1 (by decide) pushedBeforeClose).mpr (by decide) _ (List.prefix_refl _)

/-- The push tests `closed`, `close` comes, `pop` ends and the push goes on. -/
def pushedAcrossClose : List (Input ℕ) :=
  [.call .push 7, .produce false, .produce false, .close,
    .callPop .pop, .consume, .consume, .consume, .consume,
    .produce false, .produce false]

theorem pushedAcrossClose_left :
    let state := pushedAcrossClose.foldl step (new 1)
    state.ended = true ∧ state.accepted = [7] ∧ state.received = [] ∧
      state.queue = [7] ∧ ¬ HandsOver state := by
  refine ⟨rfl, rfl, rfl, rfl, ?_⟩
  intro handsOver
  have left := handsOver.nothingLeft rfl
  exact absurd left (by decide)

end SpscQueue

end QAExchange
