import QAExchange.Foundation.Runs
import QAExchange.Market.MarketDataBroadcaster

/-! # The clean-up of slow subscribers

A mark stays until the clean-up or an `unsubscribe` takes it away. When the marks agree with
what the sends to the current subscribers have been.
-/

namespace QAExchange

open Foundation

namespace SubscriberInfo

/-- How many sends in a row have failed, up to the last one. -/
def failuresInARow (info : SubscriberInfo) : ℕ :=
  (info.sends.takeWhile (· ≠ .sent)).length

/-- The receiver has been found disconnected, or the last sends have all failed. -/
def Due (threshold : ℕ) (info : SubscriberInfo) : Prop :=
  .disconnected ∈ info.sends ∨ threshold ≤ info.failuresInARow

instance (threshold : ℕ) (info : SubscriberInfo) : Decidable (Due threshold info) :=
  inferInstanceAs (Decidable (_ ∨ _))

def room (config : BroadcasterConfig) (info : SubscriberInfo) : ℕ :=
  config.channelCapacity - info.queue.length

/-- So many events can be sent without the mark and the sends coming apart. Nothing gets through
to a marked subscriber, unless enough sends fail behind it. A row of failed sends that gets
long enough has not been cut by a new start of the counter. -/
def SendFits (config : BroadcasterConfig) (marked : Bool) (info : SubscriberInfo) (count : ℕ) :
    Prop :=
  info.connected = true →
    if count ≤ info.room config then
      count = 0 ∨ marked = false ∨ config.disconnectThreshold = 0
    else if info.room config = 0 then
      marked = true ∨ (config.disconnectThreshold ≤ info.failuresInARow + count →
        config.disconnectThreshold ≤ info.stats.consecutiveFailures + count)
    else marked = true → config.disconnectThreshold ≤ count - info.room config

/-- The counter has at most the failed sends in a row, and a receiver that is still there has
not been found disconnected. -/
structure Counted (info : SubscriberInfo) : Prop where
  counter : info.stats.consecutiveFailures ≤ info.failuresInARow
  connected : info.connected = true → .disconnected ∉ info.sends

/-! ## Sends -/

section Sends

variable {config : BroadcasterConfig} {info : SubscriberInfo}

theorem send_subscription (event : MarketDataEvent) :
    (info.send config event).1.subscription = info.subscription := by
  unfold send
  split_ifs <;> rfl

theorem send_connected (event : MarketDataEvent) :
    (info.send config event).1.connected = info.connected := by
  unfold send
  split_ifs <;> rfl

theorem sendAll_connected (events : List MarketDataEvent) (info : SubscriberInfo) :
    (info.sendAll config events).1.connected = info.connected := by
  induction events generalizing info with
  | nil => rfl
  | cons event events induction =>
    rw [sendAll]
    split_ifs
    · exact (induction _).trans (send_connected event)
    · exact induction info

/-- Only the events count that the subscription takes. -/
theorem sendAll_filter (events : List MarketDataEvent) (info : SubscriberInfo) :
    info.sendAll config events =
      info.sendAll config (events.filter info.subscription.takes) := by
  induction events generalizing info with
  | nil => rfl
  | cons event events induction =>
    rw [sendAll]
    split_ifs with takes
    · rw [List.filter_cons_of_pos takes, sendAll, if_pos takes]
      dsimp only
      rw [induction, send_subscription]
    · rw [List.filter_cons_of_neg takes]
      exact induction info

theorem sendAll_append (first second : List MarketDataEvent) (info : SubscriberInfo) :
    info.sendAll config (first ++ second) =
      (((info.sendAll config first).1.sendAll config second).1,
        (info.sendAll config first).2 || ((info.sendAll config first).1.sendAll config second).2) := by
  induction first generalizing info with
  | nil => rw [List.nil_append, sendAll, Bool.false_or]
  | cons event first induction =>
    rw [List.cons_append, sendAll, sendAll]
    split_ifs
    · dsimp only
      rw [induction, Bool.or_assoc]
    · exact induction info

variable {events : List MarketDataEvent}

theorem sendAll_room (info : SubscriberInfo) (connected : info.connected = true)
    (taken : ∀ event ∈ events, info.subscription.takes event = true)
    (enough : events.length ≤ info.room config) : (info.sendAll config events).2 = false ∧
      (info.sendAll config events).1.sends =
        List.replicate events.length .sent ++ info.sends ∧
      (info.sendAll config events).1.stats.consecutiveFailures =
        (if events = [] then info.stats.consecutiveFailures else 0) ∧
      (info.sendAll config events).1.room config = info.room config - events.length := by
  induction events generalizing info with
  | nil => exact ⟨rfl, rfl, rfl, rfl⟩
  | cons event events induction =>
    rcases List.forall_mem_cons.mp taken with ⟨isTaken, takenLater⟩
    rw [List.length_cons] at enough
    have free : info.queue.length < config.channelCapacity := by
      unfold room at enough
      omega
    have sent : info.send config event =
        ({ info with
          queue := info.queue ++ [event]
          stats := info.stats.recordSuccess
          sends := .sent :: info.sends }, false) := by
      rw [send, if_neg (by rw [connected]; decide), if_pos free]
    have roomAfter : (info.send config event).1.room config = info.room config - 1 := by
      rw [sent, room, room, List.length_append, List.length_singleton]
      omega
    have later := induction (info.send config event).1
      ((send_connected event).trans connected)
      (by rw [send_subscription]; exact takenLater) (by omega)
    rw [roomAfter] at later
    rw [sendAll, if_pos isTaken]
    dsimp only
    refine ⟨?_, ?_, ?_, ?_⟩
    · rw [later.1, sent]
      rfl
    · rw [later.2.1, sent, List.length_cons, List.replicate_succ', List.append_assoc,
        List.singleton_append]
    · rw [later.2.2.1, sent, if_neg (List.cons_ne_nil _ _)]
      split_ifs
      · rfl
      · rfl
    · rw [later.2.2.2, List.length_cons]
      omega

theorem sendAll_full (info : SubscriberInfo) (connected : info.connected = true)
    (taken : ∀ event ∈ events, info.subscription.takes event = true)
    (noRoom : info.room config = 0) :
    ((info.sendAll config events).2 = true ↔ events ≠ [] ∧
      config.disconnectThreshold ≤ info.stats.consecutiveFailures + events.length) ∧
      (info.sendAll config events).1.sends =
        List.replicate events.length .full ++ info.sends ∧
      (info.sendAll config events).1.stats.consecutiveFailures =
        info.stats.consecutiveFailures + events.length := by
  induction events generalizing info with
  | nil => exact ⟨⟨fun marked => absurd marked Bool.false_ne_true, fun any => absurd rfl any.1⟩,
      rfl, rfl⟩
  | cons event events induction =>
    rcases List.forall_mem_cons.mp taken with ⟨isTaken, takenLater⟩
    have full : ¬info.queue.length < config.channelCapacity := by
      unfold room at noRoom
      omega
    have failed : info.send config event =
        ({ info with
          stats := info.stats.recordFailure
          sends := .full :: info.sends },
          info.stats.recordFailure.isSlow config.disconnectThreshold) := by
      rw [send, if_neg (by rw [connected]; decide), if_neg full]
    have counterAfter : (info.send config event).1.stats.consecutiveFailures =
        info.stats.consecutiveFailures + 1 := by
      rw [failed]
      rfl
    have markedFirst : (info.send config event).2 = true ↔
        config.disconnectThreshold ≤ info.stats.consecutiveFailures + 1 := by
      rw [failed]
      exact decide_eq_true_iff
    have later := induction (info.send config event).1
      ((send_connected event).trans connected)
      (by rw [send_subscription]; exact takenLater) (by rw [failed]; exact noRoom)
    rw [counterAfter] at later
    rw [sendAll, if_pos isTaken]
    dsimp only
    refine ⟨?_, ?_, ?_⟩
    · rw [Bool.or_eq_true_iff, markedFirst, later.1, List.length_cons]
      constructor
      · rintro (first | others)
        · exact ⟨List.cons_ne_nil _ _, by omega⟩
        · exact ⟨List.cons_ne_nil _ _, by omega⟩
      · rintro ⟨_, reached⟩
        cases events with
        | nil => exact .inl reached
        | cons other others => exact .inr ⟨List.cons_ne_nil _ _, by omega⟩
    · rw [later.2.1, failed, List.length_cons, List.replicate_succ', List.append_assoc,
        List.singleton_append]
    · rw [later.2.2, List.length_cons]
      omega

theorem failuresInARow_full (info : SubscriberInfo) {sends : List SendResult} (count : ℕ)
    (added : info.sends = List.replicate count .full ++ sends) :
    info.failuresInARow = count + (sends.takeWhile (· ≠ .sent)).length := by
  have failed : ∀ result ∈ List.replicate count SendResult.full,
      decide (result ≠ .sent) = true := by
    intro result member
    rw [(List.mem_replicate.mp member).2]
    rfl
  rw [failuresInARow, added, List.takeWhile_append_of_pos failed, List.length_append,
    List.length_replicate]

theorem failuresInARow_sent (info : SubscriberInfo) {sends : List SendResult} {count : ℕ}
    (some_sent : 0 < count) (added : info.sends = List.replicate count .sent ++ sends) :
    info.failuresInARow = 0 := by
  rcases Nat.exists_eq_succ_of_ne_zero some_sent.ne' with ⟨rest, rfl⟩
  rw [failuresInARow, added, List.replicate_succ]
  rfl

theorem disconnected_mem_sendAll (events : List MarketDataEvent) (info : SubscriberInfo)
    (found : .disconnected ∈ info.sends) :
    .disconnected ∈ (info.sendAll config events).1.sends := by
  induction events generalizing info with
  | nil => exact found
  | cons event events induction =>
    rw [sendAll]
    dsimp only
    split_ifs
    · apply induction
      unfold send
      split_ifs <;> exact List.mem_cons_of_mem _ found
    · exact induction info found

theorem sendAll_split (info : SubscriberInfo) (connected : info.connected = true)
    (taken : ∀ event ∈ events, info.subscription.takes event = true)
    (tooMany : info.room config < events.length) :
    ((info.sendAll config events).2 = true ↔
      config.disconnectThreshold ≤ (info.sendAll config events).1.stats.consecutiveFailures) ∧
      (info.sendAll config events).1.sends =
        List.replicate (events.length - info.room config) .full ++
          (List.replicate (info.room config) .sent ++ info.sends) ∧
      (info.sendAll config events).1.stats.consecutiveFailures =
        (if info.room config = 0 then info.stats.consecutiveFailures else 0) +
          (events.length - info.room config) := by
  have takenFirst : ∀ event ∈ events.take (info.room config),
      info.subscription.takes event = true :=
    fun event member => taken event (List.mem_of_mem_take member)
  have takenLater : ∀ event ∈ events.drop (info.room config),
      info.subscription.takes event = true :=
    fun event member => taken event (List.mem_of_mem_drop member)
  have firstLength : (events.take (info.room config)).length = info.room config := by
    rw [List.length_take]
    omega
  have laterLength : (events.drop (info.room config)).length =
      events.length - info.room config := List.length_drop
  have first := sendAll_room info connected takenFirst firstLength.le
  rw [firstLength] at first
  have sameSubscription (events : List MarketDataEvent) (info : SubscriberInfo) :
      (info.sendAll config events).1.subscription = info.subscription := by
    induction events generalizing info with
    | nil => rfl
    | cons event events induction =>
      rw [sendAll]
      dsimp only
      split_ifs
      · exact (induction _).trans (send_subscription event)
      · exact induction info
  have later := sendAll_full (info.sendAll config (events.take (info.room config))).1
    ((sendAll_connected _ info).trans connected)
    (by rw [sameSubscription]; exact takenLater) (by rw [first.2.2.2]; omega)
  have someLater : events.drop (info.room config) ≠ [] := by
    apply List.ne_nil_of_length_pos
    omega
  have noneFirst : events.take (info.room config) = [] ↔ info.room config = 0 := by
    rw [← List.length_eq_zero_iff, firstLength]
  have split : info.sendAll config events =
      (((info.sendAll config (events.take (info.room config))).1.sendAll config
        (events.drop (info.room config))).1,
        (info.sendAll config (events.take (info.room config))).2 ||
          ((info.sendAll config (events.take (info.room config))).1.sendAll config
            (events.drop (info.room config))).2) := by
    rw [← sendAll_append, List.take_append_drop]
  have counter : (info.sendAll config events).1.stats.consecutiveFailures =
      (if info.room config = 0 then info.stats.consecutiveFailures else 0) +
        (events.length - info.room config) := by
    rw [split]
    dsimp only
    rw [later.2.2, first.2.2.1, laterLength]
    simp only [noneFirst]
  refine ⟨?_, ?_, counter⟩
  · rw [counter, split]
    dsimp only
    rw [first.1, Bool.false_or, later.1, first.2.2.1, laterLength]
    simp only [noneFirst]
    exact and_iff_right someLater
  · rw [split]
    dsimp only
    rw [later.2.1, first.2.1, laterLength]

/-- The mark and the sends of one subscriber stay together exactly if its sends fit. -/
theorem due_sendAll_iff (counted : Counted info)
    (before : marked = true ↔ info.Due config.disconnectThreshold) (events : List MarketDataEvent) :
    ((marked || (info.sendAll config events).2) = true ↔
        (info.sendAll config events).1.Due config.disconnectThreshold) ↔
      info.SendFits config marked (events.filter info.subscription.takes).length := by
  rw [sendAll_filter]
  have taken : ∀ event ∈ events.filter info.subscription.takes,
      info.subscription.takes event = true := fun event member => (List.mem_filter.mp member).2
  generalize events.filter info.subscription.takes = takenEvents at taken
  cases connected : info.connected with
  | false =>
    have fits : info.SendFits config marked takenEvents.length := by
      intro isConnected
      rw [connected] at isConnected
      cases isConnected
    apply iff_of_true _ fits
    cases takenEvents with
    | nil => rw [sendAll, Bool.or_false]; exact before
    | cons event rest =>
      have sent : info.send config event =
          ({ info with sends := .disconnected :: info.sends }, true) := if_pos connected
      have isTaken := taken event List.mem_cons_self
      rw [sendAll, if_pos isTaken]
      dsimp only
      have found : .disconnected ∈ ((info.send config event).1.sendAll config rest).1.sends := by
        apply disconnected_mem_sendAll
        rw [sent]
        exact List.mem_cons_self
      apply iff_of_true _ (.inl found)
      rw [sent, Bool.true_or, Bool.or_true]
  | true =>
    have neverFound := counted.connected connected
    have due_iff : info.Due config.disconnectThreshold ↔
        config.disconnectThreshold ≤ info.failuresInARow := or_iff_right neverFound
    rw [due_iff] at before
    have fits_iff : info.SendFits config marked takenEvents.length ↔
        if takenEvents.length ≤ info.room config then
          takenEvents.length = 0 ∨ marked = false ∨ config.disconnectThreshold = 0
        else if info.room config = 0 then
          marked = true ∨ (config.disconnectThreshold ≤ info.failuresInARow + takenEvents.length →
            config.disconnectThreshold ≤ info.stats.consecutiveFailures + takenEvents.length)
        else marked = true →
          config.disconnectThreshold ≤ takenEvents.length - info.room config :=
      forall_prop_of_true connected
    rw [fits_iff]
    have due_after (neverAfter : .disconnected ∉ (info.sendAll config takenEvents).1.sends) :
        (info.sendAll config takenEvents).1.Due config.disconnectThreshold ↔
          config.disconnectThreshold ≤
            (info.sendAll config takenEvents).1.failuresInARow :=
      or_iff_right neverAfter
    split_ifs with enough noRoom
    · rcases sendAll_room info connected taken enough with ⟨notMarked, sends, _, _⟩
      rcases Nat.eq_zero_or_pos takenEvents.length with none_taken | some_taken
      · have isNil := List.length_eq_zero_iff.mp none_taken
        rw [isNil, sendAll, Bool.or_false, due_iff]
        exact iff_of_true before (.inl rfl)
      · rw [due_after (by rw [sends]; simp [neverFound]), failuresInARow_sent _ some_taken sends,
          notMarked, Bool.or_false]
        cases marked with
        | false =>
          have notDue := before.not.mp Bool.false_ne_true
          simp only [Bool.false_eq_true, false_iff, true_or, or_true, iff_true]
          omega
        | true =>
          simp only [true_iff, Bool.true_eq_false, false_or]
          omega
    · rcases sendAll_full info connected taken noRoom with ⟨mark, sends, _⟩
      have some_taken : takenEvents ≠ [] := by
        intro isNil
        rw [isNil] at enough
        exact enough (Nat.zero_le _)
      rw [due_after (by rw [sends]; simp [neverFound]), failuresInARow_full _ _ sends,
        Bool.or_eq_true_iff, mark]
      have before_row : (info.sends.takeWhile (· ≠ .sent)).length = info.failuresInARow := rfl
      rw [before_row]
      have counter := counted.counter
      cases marked with
      | false =>
        simp only [Bool.false_eq_true, false_or, some_taken, ne_eq, not_false_eq_true, true_and]
        omega
      | true =>
        have due := before.mp rfl
        simp only [true_or, true_iff, iff_true]
        omega
    · rcases sendAll_split info connected taken (Nat.lt_of_not_ge enough) with
        ⟨mark, sends, counter⟩
      have some_sent : 0 < info.room config := Nat.pos_of_ne_zero noRoom
      have beforeFull : ((List.replicate (info.room config) SendResult.sent ++
          info.sends).takeWhile (· ≠ .sent)).length = 0 := by
        rcases Nat.exists_eq_succ_of_ne_zero noRoom with ⟨rest, more⟩
        rw [more, List.replicate_succ]
        rfl
      rw [if_neg noRoom, Nat.zero_add] at counter
      rw [due_after (by rw [sends]; simp [neverFound]), failuresInARow_full _ _ sends,
        beforeFull, Bool.or_eq_true_iff, mark, counter]
      cases marked with
      | false => simp only [Bool.false_eq_true, false_or, false_implies, Nat.add_zero]
      | true =>
        simp only [true_or, true_iff, forall_const, Nat.add_zero]

theorem Counted.send (counted : Counted info) (event : MarketDataEvent) :
    Counted (info.send config event).1 := by
  have counter := counted.counter
  unfold SubscriberInfo.send
  split_ifs with gone free
  · constructor
    · have grown : failuresInARow { info with sends := .disconnected :: info.sends } =
          info.failuresInARow + 1 := rfl
      rw [grown]
      dsimp only
      omega
    · intro connected
      rw [gone] at connected
      cases connected
  · constructor
    · exact Nat.zero_le _
    · intro connected found
      exact counted.connected connected ((List.mem_cons.mp found).resolve_left (by decide))
  · constructor
    · exact Nat.succ_le_succ counter
    · intro connected found
      exact counted.connected connected ((List.mem_cons.mp found).resolve_left (by decide))

theorem Counted.sendAll (events : List MarketDataEvent) (counted : Counted info) :
    Counted (info.sendAll config events).1 := by
  induction events generalizing info with
  | nil => exact counted
  | cons event events induction =>
    rw [SubscriberInfo.sendAll]
    dsimp only
    split_ifs
    · exact induction (counted.send event)
    · exact induction counted

end Sends

end SubscriberInfo

namespace MarketDataBroadcaster

/-- The clean-up would disconnect exactly the current subscribers that are due for it. -/
def Fair (broadcaster : MarketDataBroadcaster) : Prop :=
  ∀ id info, broadcaster.subscribers id = some info →
    (broadcaster.cleanupSlowSubscribers.2.subscribers id = none ↔
      info.Due broadcaster.config.disconnectThreshold)

inductive Call
  | subscribe (subscriberId : String) (instruments channels : List String)
  | unsubscribe (subscriberId : String)
  | updateSubscription (subscriberId : String) (instruments channels : List String)
  | broadcast (event : MarketDataEvent)
  | broadcastBatch (order : List String) (events : List MarketDataEvent)
  | read (receiver : ℕ)
  | dropReceiver (receiver : ℕ)
  | cleanupSlowSubscribers

def step (broadcaster : MarketDataBroadcaster) : Call → MarketDataBroadcaster
  | .subscribe subscriberId instruments channels =>
    broadcaster.subscribe subscriberId instruments channels
  | .unsubscribe subscriberId => broadcaster.unsubscribe subscriberId
  | .updateSubscription subscriberId instruments channels =>
    (broadcaster.updateSubscription subscriberId instruments channels).toOption.getD broadcaster
  | .broadcast event => broadcaster.broadcast event
  | .broadcastBatch order events => broadcaster.broadcastBatch order events
  | .read receiver => broadcaster.read receiver
  | .dropReceiver receiver => broadcaster.dropReceiver receiver
  | .cleanupSlowSubscribers => broadcaster.cleanupSlowSubscribers.2

def EventsFit (events : List MarketDataEvent) (broadcaster : MarketDataBroadcaster) : Prop :=
  ∀ id info, broadcaster.subscribers id = some info →
    info.SendFits broadcaster.config (broadcaster.pendingCleanup id)
      (events.filter info.subscription.takes).length

def Fits (broadcaster : MarketDataBroadcaster) : Call → Prop
  | .subscribe subscriberId _ _ =>
    broadcaster.pendingCleanup subscriberId = true ↔ broadcaster.config.disconnectThreshold = 0
  | .broadcast event => broadcaster.EventsFit [event]
  | .broadcastBatch order events => broadcaster.EventsFit (groupByInstrument order events)
  | _ => True

/-- No marks without a subscriber, and the subscribers are counted. -/
structure Invariant (broadcaster : MarketDataBroadcaster) : Prop where
  unmarked : ∀ id, broadcaster.subscribers id = none → broadcaster.pendingCleanup id = false
  counted : ∀ id info, broadcaster.subscribers id = some info → info.Counted

theorem fair_iff (broadcaster : MarketDataBroadcaster) :
    broadcaster.Fair ↔ ∀ id info, broadcaster.subscribers id = some info →
      (broadcaster.pendingCleanup id = true ↔
        info.Due broadcaster.config.disconnectThreshold) := by
  have removed (id : String) {info : SubscriberInfo}
      (isSubscriber : broadcaster.subscribers id = some info) :
      broadcaster.cleanupSlowSubscribers.2.subscribers id = none ↔
        broadcaster.pendingCleanup id = true := by
    rw [cleanupSlowSubscribers]
    dsimp only
    rw [isSubscriber]
    split_ifs with marked
    · exact iff_of_true rfl marked
    · exact iff_of_false not_false marked
  constructor
  · intro fair id info isSubscriber
    rw [← removed id isSubscriber]
    exact fair id info isSubscriber
  · intro marks id info isSubscriber
    rw [removed id isSubscriber]
    exact marks id info isSubscriber

variable {broadcaster : MarketDataBroadcaster}

theorem Invariant.sendToAll (invariant : Invariant broadcaster) (events : List MarketDataEvent) :
    Invariant (broadcaster.sendToAll events) := by
  constructor
  · intro id absent
    have wasAbsent := Option.map_eq_none_iff.mp absent
    rw [MarketDataBroadcaster.sendToAll]
    dsimp only
    rw [invariant.unmarked id wasAbsent, wasAbsent]
    rfl
  · intro id info isSubscriber
    rcases Option.map_eq_some_iff.mp isSubscriber with ⟨before, wasSubscriber, rfl⟩
    exact (invariant.counted id before wasSubscriber).sendAll events

theorem fair_sendToAll_iff (invariant : Invariant broadcaster) (fair : broadcaster.Fair)
    (events : List MarketDataEvent) :
    (broadcaster.sendToAll events).Fair ↔ broadcaster.EventsFit events := by
  rw [fair_iff] at fair ⊢
  have one (id : String) {info : SubscriberInfo}
      (isSubscriber : broadcaster.subscribers id = some info) :=
    SubscriberInfo.due_sendAll_iff (invariant.counted id info isSubscriber)
      (fair id info isSubscriber) events
  have marked (id : String) {info : SubscriberInfo}
      (isSubscriber : broadcaster.subscribers id = some info) :
      (broadcaster.sendToAll events).pendingCleanup id =
        (broadcaster.pendingCleanup id || (info.sendAll broadcaster.config events).2) := by
    rw [MarketDataBroadcaster.sendToAll]
    dsimp only
    rw [isSubscriber]
  constructor
  · intro after id info isSubscriber
    apply (one id isSubscriber).mp
    rw [← marked id isSubscriber]
    apply after id
    exact Option.map_eq_some_iff.mpr ⟨info, isSubscriber, rfl⟩
  · intro fits id info isSubscriber
    rcases Option.map_eq_some_iff.mp isSubscriber with ⟨before, wasSubscriber, rfl⟩
    rw [marked id wasSubscriber]
    exact (one id wasSubscriber).mpr (fits id before wasSubscriber)

/-! ### One subscriber changes -/

section Change

variable {before after : MarketDataBroadcaster} (subscriberId : String)

theorem Invariant.change (invariant : Invariant before)
    (others : ∀ id, id ≠ subscriberId → after.subscribers id = before.subscribers id ∧
      after.pendingCleanup id = before.pendingCleanup id)
    (unmarked : after.subscribers subscriberId = none → after.pendingCleanup subscriberId = false)
    (counted : ∀ info, after.subscribers subscriberId = some info → info.Counted) :
    Invariant after := by
  constructor
  · intro id absent
    by_cases same : id = subscriberId
    · rw [same] at absent ⊢
      exact unmarked absent
    · rw [(others id same).1] at absent
      rw [(others id same).2]
      exact invariant.unmarked id absent
  · intro id info isSubscriber
    by_cases same : id = subscriberId
    · rw [same] at isSubscriber
      exact counted info isSubscriber
    · rw [(others id same).1] at isSubscriber
      exact invariant.counted id info isSubscriber

theorem fair_change_iff (after : MarketDataBroadcaster) (subscriberId : String)
    (fair : before.Fair) (config : after.config = before.config)
    (others : ∀ id, id ≠ subscriberId → after.subscribers id = before.subscribers id ∧
      after.pendingCleanup id = before.pendingCleanup id) :
    after.Fair ↔ ∀ info, after.subscribers subscriberId = some info →
      (after.pendingCleanup subscriberId = true ↔ info.Due before.config.disconnectThreshold) := by
  rw [fair_iff] at fair ⊢
  rw [config]
  constructor
  · intro marks info isSubscriber
    exact marks subscriberId info isSubscriber
  · intro marks id info isSubscriber
    by_cases same : id = subscriberId
    · rw [same] at isSubscriber ⊢
      exact marks info isSubscriber
    · rw [(others id same).1] at isSubscriber
      rw [(others id same).2]
      exact fair id info isSubscriber

end Change

/-! ### Receivers -/

structure ByReceiver (before after : MarketDataBroadcaster)
    (change : SubscriberInfo → SubscriberInfo) : Prop where
  config : after.config = before.config
  subscribers : ∀ id, after.subscribers id = (before.subscribers id).map change
  marks : after.pendingCleanup = before.pendingCleanup
  sends : ∀ info, (change info).sends = info.sends
  stats : ∀ info, (change info).stats = info.stats
  connected : ∀ info, (change info).connected = true → info.connected = true

theorem ByReceiver.invariant (byReceiver : ByReceiver before after change)
    (invariant : Invariant before) : Invariant after := by
  constructor
  · intro id absent
    rw [byReceiver.subscribers] at absent
    rw [byReceiver.marks]
    exact invariant.unmarked id (Option.map_eq_none_iff.mp absent)
  · intro id info isSubscriber
    rw [byReceiver.subscribers] at isSubscriber
    rcases Option.map_eq_some_iff.mp isSubscriber with ⟨old, wasSubscriber, rfl⟩
    have counted := invariant.counted id old wasSubscriber
    constructor
    · rw [byReceiver.stats, SubscriberInfo.failuresInARow, byReceiver.sends]
      exact counted.counter
    · intro connected
      rw [byReceiver.sends]
      exact counted.connected (byReceiver.connected old connected)

theorem ByReceiver.fair (byReceiver : ByReceiver before after change) (fair : before.Fair) :
    after.Fair := by
  rw [fair_iff] at fair ⊢
  intro id info isSubscriber
  rw [byReceiver.subscribers] at isSubscriber
  rcases Option.map_eq_some_iff.mp isSubscriber with ⟨old, wasSubscriber, rfl⟩
  rw [byReceiver.marks, byReceiver.config, SubscriberInfo.Due, SubscriberInfo.failuresInARow,
    byReceiver.sends]
  exact fair id old wasSubscriber

theorem byReceiver_read (receiver : ℕ) (broadcaster : MarketDataBroadcaster) :
    ByReceiver broadcaster (broadcaster.read receiver) fun info =>
      if info.receiver = receiver then { info with queue := info.queue.tail } else info where
  config := rfl
  subscribers _ := rfl
  marks := rfl
  sends info := by split_ifs <;> rfl
  stats info := by split_ifs <;> rfl
  connected info := by
    split_ifs
    · exact id
    · exact id

theorem byReceiver_dropReceiver (receiver : ℕ) (broadcaster : MarketDataBroadcaster) :
    ByReceiver broadcaster (broadcaster.dropReceiver receiver) fun info =>
      if info.receiver = receiver then { info with connected := false } else info where
  config := rfl
  subscribers _ := rfl
  marks := rfl
  sends info := by split_ifs <;> rfl
  stats info := by split_ifs <;> rfl
  connected info := by
    split_ifs
    · intro gone
      cases gone
    · exact id

/-! ### Calls -/

theorem subscribe_others (id : String) (different : id ≠ subscriberId) :
    (broadcaster.subscribe subscriberId instruments channels).subscribers id =
        broadcaster.subscribers id ∧
      (broadcaster.subscribe subscriberId instruments channels).pendingCleanup id =
        broadcaster.pendingCleanup id :=
  ⟨Function.update_of_ne different _ _, rfl⟩

theorem unsubscribe_others (id : String) (different : id ≠ subscriberId) :
    (broadcaster.unsubscribe subscriberId).subscribers id = broadcaster.subscribers id ∧
      (broadcaster.unsubscribe subscriberId).pendingCleanup id = broadcaster.pendingCleanup id :=
  ⟨Function.update_of_ne different _ _, Function.update_of_ne different _ _⟩

/-- Nothing comes of a call for a subscriber that is not there; else only its subscription and
its counter change. -/
theorem updateSubscription_cases (subscriberId : String) (instruments channels : List String)
    (broadcaster : MarketDataBroadcaster) :
    broadcaster.step (.updateSubscription subscriberId instruments channels) = broadcaster ∨
    ∃ info, broadcaster.subscribers subscriberId = some info ∧
      broadcaster.step (.updateSubscription subscriberId instruments channels) =
        { broadcaster with
          subscribers := Function.update broadcaster.subscribers subscriberId (some
            { info with
              subscription := ⟨instruments, channels⟩
              stats := { info.stats with consecutiveFailures := 0 } }) } := by
  rw [step, updateSubscription]
  cases found : broadcaster.subscribers subscriberId with
  | none => exact .inl rfl
  | some info => exact .inr ⟨info, rfl, rfl⟩

theorem Invariant.step (invariant : Invariant broadcaster) (call : Call) :
    Invariant (broadcaster.step call) := by
  cases call with
  | broadcast event => exact invariant.sendToAll _
  | broadcastBatch order events => exact invariant.sendToAll _
  | subscribe subscriberId instruments channels =>
    apply invariant.change subscriberId subscribe_others
    · intro absent
      have isNew := (Function.update_self ..).symm.trans absent
      cases isNew
    · intro info isSubscriber
      have isNew := (Function.update_self ..).symm.trans isSubscriber
      rw [← Option.some.inj isNew]
      exact ⟨Nat.zero_le _, fun _ => List.not_mem_nil⟩
  | unsubscribe subscriberId =>
    apply invariant.change subscriberId unsubscribe_others
    · intro _
      exact Function.update_self ..
    · intro info isSubscriber
      have isGone := (Function.update_self ..).symm.trans isSubscriber
      cases isGone
  | updateSubscription subscriberId instruments channels =>
    rcases updateSubscription_cases subscriberId instruments channels broadcaster with
      same | ⟨info, found, updated⟩
    · rw [same]
      exact invariant
    · rw [updated]
      apply invariant.change subscriberId
      · intro id different
        exact ⟨Function.update_of_ne different _ _, rfl⟩
      · intro absent
        have isUpdated := (Function.update_self ..).symm.trans absent
        cases isUpdated
      · intro after isSubscriber
        have isUpdated := (Function.update_self ..).symm.trans isSubscriber
        rw [← Option.some.inj isUpdated]
        exact ⟨Nat.zero_le _, (invariant.counted subscriberId info found).connected⟩
  | read receiver => exact (byReceiver_read receiver broadcaster).invariant invariant
  | dropReceiver receiver =>
    exact (byReceiver_dropReceiver receiver broadcaster).invariant invariant
  | cleanupSlowSubscribers =>
    constructor
    · intro id _
      rfl
    · intro id info isSubscriber
      have remains : (if broadcaster.pendingCleanup id = true then none
          else broadcaster.subscribers id) = some info := isSubscriber
      split_ifs at remains
      exact invariant.counted id info remains

/-- A call leaves the clean-up fair exactly if it fits. -/
theorem fair_step_iff (invariant : Invariant broadcaster) (fair : broadcaster.Fair) (call : Call) :
    (broadcaster.step call).Fair ↔ broadcaster.Fits call := by
  cases call with
  | broadcast event => exact fair_sendToAll_iff invariant fair _
  | broadcastBatch order events => exact fair_sendToAll_iff invariant fair _
  | subscribe subscriberId instruments channels =>
    have isNew : (broadcaster.subscribe subscriberId instruments channels).subscribers
        subscriberId = some
          { receiver := broadcaster.receivers
            queue := []
            connected := true
            subscription := ⟨instruments, channels⟩
            stats := .new
            sends := [] } := Function.update_self ..
    have change := fair_change_iff (broadcaster.subscribe subscriberId instruments channels)
      subscriberId fair rfl subscribe_others
    rw [step, change, isNew]
    have due (info : SubscriberInfo) (noSends : info.sends = []) :
        info.Due broadcaster.config.disconnectThreshold ↔
          broadcaster.config.disconnectThreshold = 0 := by
      rw [SubscriberInfo.Due, SubscriberInfo.failuresInARow, noSends]
      simp
    constructor
    · intro marks
      have mark := marks _ rfl
      rw [due _ rfl] at mark
      exact mark
    · intro mark info isInfo
      rw [← Option.some.inj isInfo, due _ rfl]
      exact mark
  | unsubscribe subscriberId =>
    have change := fair_change_iff (broadcaster.unsubscribe subscriberId) subscriberId fair rfl
      unsubscribe_others
    rw [step, change]
    apply iff_of_true _ trivial
    intro info isSubscriber
    have isGone := (Function.update_self ..).symm.trans isSubscriber
    cases isGone
  | updateSubscription subscriberId instruments channels =>
    apply iff_of_true _ trivial
    rcases updateSubscription_cases subscriberId instruments channels broadcaster with
      same | ⟨info, found, updated⟩
    · rw [same]
      exact fair
    · have change := fair_change_iff (broadcaster.step
        (.updateSubscription subscriberId instruments channels)) subscriberId fair
      rw [updated] at change ⊢
      apply (change rfl _).mpr
      · intro after isSubscriber
        have isUpdated := (Function.update_self ..).symm.trans isSubscriber
        rw [← Option.some.inj isUpdated]
        exact (fair_iff broadcaster).mp fair subscriberId info found
      · intro id different
        exact ⟨Function.update_of_ne different _ _, rfl⟩
  | read receiver => exact iff_of_true ((byReceiver_read receiver broadcaster).fair fair) trivial
  | dropReceiver receiver =>
    exact iff_of_true ((byReceiver_dropReceiver receiver broadcaster).fair fair) trivial
  | cleanupSlowSubscribers =>
    apply iff_of_true _ trivial
    rw [fair_iff] at fair ⊢
    intro id info isSubscriber
    have remains : (if broadcaster.pendingCleanup id = true then none
        else broadcaster.subscribers id) = some info := isSubscriber
    split_ifs at remains with marked
    exact iff_of_false Bool.false_ne_true ((fair id info remains).not.mp marked)

/-- After every beginning of the calls a clean-up would be fair, exactly if each call fits. -/
theorem fair_along_iff (config : BroadcasterConfig) (calls : List Call) :
    (∀ first, first <+: calls → Fair (first.foldl step (withConfig config))) ↔
      Along step Fits calls (withConfig config) := by
  have fairStart : (withConfig config).Fair := by
    intro id info isSubscriber
    cases isSubscriber
  have start : Invariant (withConfig config) := by
    constructor
    · intro id _
      rfl
    · intro id info isSubscriber
      cases isSubscriber
  rw [forall_reached_iff calls fairStart]
  apply along_congr fun broadcaster => Invariant broadcaster ∧ broadcaster.Fair
  · intro broadcaster call holds
    exact fair_step_iff holds.1 holds.2 call
  · intro broadcaster call holds fits
    exact ⟨holds.1.step call, fits⟩
  · exact ⟨start, fairStart⟩

/-- One send to a full channel marks the subscriber, and it subscribes again under its id. -/
theorem subscribedAgain_not_fair :
    ¬∀ first, first <+: ([.subscribe "s" [] [], .broadcast (.LastPrice "IF" 1 0),
        .broadcast (.LastPrice "IF" 2 0), .subscribe "s" [] []] : List Call) →
      Fair (first.foldl step (withConfig ⟨1, 1⟩)) := by
  intro fair
  have last := (fair_iff _).mp (fair _ (List.prefix_refl _)) "s" _ rfl
  revert last
  decide

end MarketDataBroadcaster

end QAExchange
