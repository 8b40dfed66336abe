import QAExchange.Market.SlowSubscribers

/-! # Batches of events

A batch is sent instrument by instrument, in the order in which a hash map has these. When
every subscriber gets from a batch what it gets from its events one after the other.
-/

namespace QAExchange

namespace SubscriberInfo

variable {config : BroadcasterConfig}

def accepts (config : BroadcasterConfig) (info : SubscriberInfo) : ℕ :=
  if info.connected then info.room config else 0

variable {events : List MarketDataEvent}

/-- The channel gets the first of the events that it has room for. -/
theorem queue_sendAll (info : SubscriberInfo)
    (taken : ∀ event ∈ events, info.subscription.takes event = true) :
    (info.sendAll config events).1.queue =
      info.queue ++ events.take (info.accepts config) := by
  induction events generalizing info with
  | nil => rw [List.take_nil, List.append_nil, sendAll]
  | cons event events induction =>
    obtain ⟨isTaken, takenLater⟩ := List.forall_mem_cons.mp taken
    have later := induction (info.send config event).1
      (by rw [send_subscription]; exact takenLater)
    rw [sendAll, if_pos isTaken]
    dsimp only
    rw [later]
    unfold send
    split_ifs with gone free
    · have none_accepted : info.accepts config = 0 := by
        rw [accepts, gone]
        rfl
      have stillNone : accepts config { info with sends := .disconnected :: info.sends } = 0 :=
        none_accepted
      rw [none_accepted, stillNone, List.take_zero, List.take_zero]
    · have isConnected : info.connected = true := Bool.of_not_eq_false gone
      have accepted : info.accepts config = info.room config := if_pos isConnected
      have oneLess : accepts config
          { info with
            queue := info.queue ++ [event]
            stats := info.stats.recordSuccess
            sends := .sent :: info.sends } = info.room config - 1 := by
        rw [accepts, if_pos isConnected, room, room, List.length_append,
          List.length_singleton]
        omega
      have some_room : info.room config = info.room config - 1 + 1 := by
        unfold room
        omega
      rw [accepted, oneLess, some_room, List.take_succ_cons, Nat.add_sub_cancel,
        List.append_assoc, List.singleton_append]
    · have none_accepted : info.accepts config = 0 := by
        unfold accepts room
        split_ifs
        · omega
        · rfl
      have stillNone : accepts config
          { info with
            stats := info.stats.recordFailure
            sends := .full :: info.sends } = 0 := none_accepted
      rw [none_accepted, stillNone, List.take_zero, List.take_zero]

/-- Two subscribers that differ in nothing but which events are in their channels. -/
def SameButEvents (info other : SubscriberInfo) : Prop :=
  { info with queue := [] } = { other with queue := [] } ∧
    info.queue.length = other.queue.length

variable {info other : SubscriberInfo}

theorem SameButEvents.eq (same : info.SameButEvents other) (sameQueue : info.queue = other.queue) :
    info = other := by
  obtain ⟨fields, _⟩ := same
  cases info
  cases other
  cases sameQueue
  simp only [SubscriberInfo.mk.injEq, true_and] at fields ⊢
  exact fields

/-- How a send ends, and what is noted of it, depends on how many events are in the channel. -/
theorem SameButEvents.send (same : info.SameButEvents other) (config : BroadcasterConfig)
    (event otherEvent : MarketDataEvent) :
    (info.send config event).1.SameButEvents (other.send config otherEvent).1 ∧
      (info.send config event).2 = (other.send config otherEvent).2 := by
  obtain ⟨fields, sameLength⟩ := same
  cases info
  cases other
  simp only [SubscriberInfo.mk.injEq, true_and] at fields sameLength
  obtain ⟨rfl, rfl, rfl, rfl, rfl⟩ := fields
  unfold SubscriberInfo.send
  dsimp only
  rw [sameLength]
  split_ifs
  · exact ⟨⟨rfl, sameLength⟩, rfl⟩
  · refine ⟨⟨rfl, ?_⟩, rfl⟩
    dsimp only
    rw [List.length_append, List.length_append, sameLength, List.length_singleton,
      List.length_singleton]
  · exact ⟨⟨rfl, sameLength⟩, rfl⟩

theorem SameButEvents.sendAll (same : info.SameButEvents other) (config : BroadcasterConfig)
    {others : List MarketDataEvent} (sameLength : events.length = others.length)
    (taken : ∀ event ∈ events, info.subscription.takes event = true)
    (othersTaken : ∀ event ∈ others, other.subscription.takes event = true) :
    (info.sendAll config events).1.SameButEvents (other.sendAll config others).1 ∧
      (info.sendAll config events).2 = (other.sendAll config others).2 := by
  induction events generalizing info other others with
  | nil =>
    obtain rfl := List.length_eq_zero_iff.mp sameLength.symm
    exact ⟨same, rfl⟩
  | cons event events induction =>
    cases others with
    | nil => cases sameLength
    | cons otherEvent others =>
      obtain ⟨isTaken, takenLater⟩ := List.forall_mem_cons.mp taken
      obtain ⟨otherTaken, othersLater⟩ := List.forall_mem_cons.mp othersTaken
      have first := same.send config event otherEvent
      have later := induction first.1 (Nat.succ.inj sameLength)
        (by rw [send_subscription]; exact takenLater)
        (by rw [send_subscription]; exact othersLater)
      rw [SubscriberInfo.sendAll, SubscriberInfo.sendAll, if_pos isTaken, if_pos otherTaken]
      dsimp only
      rw [first.2, later.2]
      exact ⟨later.1, rfl⟩

/-- Of the same number of events only those matter that find room. -/
theorem sendAll_congr (info : SubscriberInfo) {others : List MarketDataEvent}
    (sameLength : events.length = others.length)
    (taken : ∀ event ∈ events, info.subscription.takes event = true)
    (othersTaken : ∀ event ∈ others, info.subscription.takes event = true)
    (sameFirst : events.take (info.accepts config) = others.take (info.accepts config)) :
    info.sendAll config events = info.sendAll config others := by
  have itself : info.SameButEvents info := ⟨rfl, rfl⟩
  have same := itself.sendAll config sameLength taken othersTaken
  apply Prod.ext _ same.2
  apply same.1.eq
  rw [queue_sendAll info taken, queue_sendAll info othersTaken, sameFirst]

end SubscriberInfo

namespace MarketDataBroadcaster

section Groups

variable {events : List MarketDataEvent}

/-- The hash map has all instruments of the events. -/
theorem mem_instruments (order : List String) (member : event ∈ events) :
    event.instrumentId ∈ (events.map MarketDataEvent.instrumentId ++ order).dedup :=
  List.mem_dedup.mpr (List.mem_append_left _ (List.mem_map_of_mem member))

/-- What a filter leaves of the groups, if it passes one instrument only. -/
theorem filter_groupByInstrument_of_one (order : List String)
    (only : ∀ event ∈ events, keep event = true → event.instrumentId = instrumentId) :
    (groupByInstrument order events).filter keep = events.filter keep := by
  have groups (each : String) :
      (events.filter fun event => event.instrumentId = each).filter keep =
        if each = instrumentId then events.filter keep else [] := by
    rw [List.filter_filter]
    split_ifs with same
    · apply List.filter_congr
      intro event member
      cases kept : keep event with
      | false => rfl
      | true => simp only [only event member kept, same, decide_true, Bool.and_true]
    · apply List.filter_eq_nil_iff.mpr
      intro event member both
      simp only [Bool.and_eq_true, decide_eq_true_eq] at both
      exact same (both.2.symm.trans (only event member both.1))
  have once := List.nodup_dedup (events.map MarketDataEvent.instrumentId ++ order)
  rw [groupByInstrument, List.filter_flatMap]
  simp only [groups]
  by_cases some_kept : ∃ event ∈ events, keep event = true
  · obtain ⟨event, member, kept⟩ := some_kept
    have present := mem_instruments order member
    rw [only event member kept] at present
    generalize (events.map MarketDataEvent.instrumentId ++ order).dedup = instruments at *
    induction instruments with
    | nil => cases present
    | cons first rest induction =>
      obtain ⟨absent, restOnce⟩ := List.nodup_cons.mp once
      rw [List.flatMap_cons]
      by_cases isFirst : first = instrumentId
      · have none_later : (rest.flatMap fun each =>
            if each = instrumentId then events.filter keep else []) = [] := by
          apply List.flatMap_eq_nil_iff.mpr
          intro each inRest
          apply if_neg
          intro same
          rw [isFirst, ← same] at absent
          exact absent inRest
        rw [if_pos isFirst, none_later, List.append_nil]
      · rw [if_neg isFirst, List.nil_append]
        apply induction
        · exact restOnce
        · cases present with
          | head => exact absurd rfl isFirst
          | tail _ inRest => exact inRest
  · have nothing : events.filter keep = [] := by
      apply List.filter_eq_nil_iff.mpr
      intro event member kept
      exact some_kept ⟨event, member, kept⟩
    rw [nothing]
    apply List.flatMap_eq_nil_iff.mpr
    intro each _
    exact ite_self []

/-- Grouping moves the events, and keeps them all. -/
theorem perm_groupByInstrument (order : List String) (events : List MarketDataEvent) :
    (groupByInstrument order events).Perm events := by
  apply List.perm_iff_count.mpr
  intro event
  have only : ∀ each ∈ events, decide (each = event) = true →
      each.instrumentId = event.instrumentId := by
    intro each _ same
    rw [of_decide_eq_true same]
  have one := filter_groupByInstrument_of_one order only
  have lengths := congrArg List.length one
  rw [← List.countP_eq_length_filter, ← List.countP_eq_length_filter] at lengths
  rw [List.count_eq_countP, List.count_eq_countP]
  have asDecide : (fun each => decide (each = event)) = fun each => each == event := by
    funext each
    exact (beq_eq_decide each event).symm
  rw [asDecide] at lengths
  exact lengths

theorem head_filter_groupByInstrument (member : event ∈ events) (kept : keep event = true) :
    ∃ order, ∃ first rest, (groupByInstrument order events).filter keep = first :: rest ∧
      first.instrumentId = event.instrumentId := by
  obtain ⟨first, rest, group⟩ := List.exists_cons_of_ne_nil
    (l := (events.filter fun each => each.instrumentId = event.instrumentId).filter keep)
    (List.ne_nil_of_mem (List.mem_filter.mpr
      ⟨List.mem_filter.mpr ⟨member, decide_eq_true rfl⟩, kept⟩))
  have isFirst : first ∈ (events.filter fun each =>
      each.instrumentId = event.instrumentId).filter keep := by
    rw [group]
    exact List.mem_cons_self
  have sameInstrument : first.instrumentId = event.instrumentId :=
    of_decide_eq_true (List.mem_filter.mp (List.mem_filter.mp isFirst).1).2
  let others := (events.map MarketDataEvent.instrumentId).filter (· ≠ event.instrumentId)
  have ordered : (events.map MarketDataEvent.instrumentId ++
      event.instrumentId :: others).dedup = event.instrumentId :: others.dedup := by
    have all_listed : (events.map MarketDataEvent.instrumentId) ⊆
        event.instrumentId :: others := by
      intro each isInstrument
      by_cases same : each = event.instrumentId
      · rw [same]
        exact List.mem_cons_self
      · apply List.mem_cons_of_mem
        exact List.mem_filter.mpr ⟨isInstrument, decide_eq_true same⟩
    rw [List.Subset.dedup_append_right all_listed, List.dedup_cons_of_notMem]
    intro again
    exact of_decide_eq_true (List.mem_filter.mp again).2 rfl
  refine ⟨event.instrumentId :: others, first,
    rest ++ (others.dedup.flatMap fun each => events.filter fun other =>
      other.instrumentId = each).filter keep, ?_, sameInstrument⟩
  rw [groupByInstrument, ordered, List.flatMap_cons, List.filter_append, group, List.cons_append]

end Groups

/-! ## Batches and sequences -/

def OneInstrumentEach (events : List MarketDataEvent) (broadcaster : MarketDataBroadcaster) :
    Prop :=
  ∀ id, ∀ info ∈ broadcaster.subscribers id, info.connected = true →
    info.queue.length < broadcaster.config.channelCapacity →
    ∀ event ∈ events, ∀ other ∈ events, info.subscription.takes event = true →
      info.subscription.takes other = true → event.instrumentId = other.instrumentId

theorem sendToAll_append (first second : List MarketDataEvent)
    (broadcaster : MarketDataBroadcaster) :
    broadcaster.sendToAll (first ++ second) = (broadcaster.sendToAll first).sendToAll second := by
  have subscribers (id : String) :
      (broadcaster.subscribers id).map (fun info =>
        (info.sendAll broadcaster.config (first ++ second)).1) =
      ((broadcaster.subscribers id).map fun info =>
        (info.sendAll broadcaster.config first).1).map fun info =>
          (info.sendAll broadcaster.config second).1 := by
    cases broadcaster.subscribers id with
    | none => rfl
    | some info =>
      simp only [Option.map_some]
      rw [SubscriberInfo.sendAll_append]
  simp only [sendToAll, MarketDataBroadcaster.mk.injEq, and_true, true_and]
  constructor
  · funext id
    exact subscribers id
  · funext id
    cases broadcaster.subscribers id with
    | none => simp only [Option.map_none, Bool.or_false]
    | some info =>
      dsimp only [Option.map_some]
      rw [SubscriberInfo.sendAll_append, Bool.or_assoc]

theorem foldl_broadcast (events : List MarketDataEvent) (broadcaster : MarketDataBroadcaster) :
    events.foldl (fun state event => state.broadcast event) broadcaster =
      broadcaster.sendToAll events := by
  induction events generalizing broadcaster with
  | nil =>
    cases broadcaster with
    | mk config subscribers pendingCleanup receivers =>
      simp only [List.foldl_nil, sendToAll, MarketDataBroadcaster.mk.injEq, and_true,
        true_and]
      constructor
      · funext id
        cases subscribers id <;> rfl
      · funext id
        cases subscribers id <;> exact (Bool.or_false _).symm
  | cons event events induction =>
    rw [List.foldl_cons, induction, broadcast, ← sendToAll_append, List.singleton_append]

variable {events : List MarketDataEvent} {broadcaster : MarketDataBroadcaster}

/-- Two lists of events do the same if they do the same to each subscriber. -/
theorem sendToAll_congr (same : ∀ id, ∀ info ∈ broadcaster.subscribers id,
      info.sendAll broadcaster.config events = info.sendAll broadcaster.config others) :
    broadcaster.sendToAll events = broadcaster.sendToAll others := by
  simp only [sendToAll, MarketDataBroadcaster.mk.injEq, and_true, true_and]
  constructor
  · funext id
    cases isSubscriber : broadcaster.subscribers id with
    | none => rfl
    | some info =>
      rw [Option.map_some, Option.map_some, same id info isSubscriber]
  · funext id
    cases isSubscriber : broadcaster.subscribers id with
    | none => rfl
    | some info =>
      dsimp only
      rw [same id info isSubscriber]

/-- The events that a subscriber takes. -/
theorem takes_of_mem_filter {info : SubscriberInfo} :
    ∀ event ∈ events.filter info.subscription.takes, info.subscription.takes event = true := by
  intro event member
  exact (List.mem_filter.mp member).2

theorem OneInstrumentEach.batch_eq (each : broadcaster.OneInstrumentEach events)
    (order : List String) :
    broadcaster.broadcastBatch order events = broadcaster.sendToAll events := by
  apply sendToAll_congr
  intro id info isSubscriber
  rw [SubscriberInfo.sendAll_filter, SubscriberInfo.sendAll_filter events]
  apply info.sendAll_congr ((perm_groupByInstrument order events).filter _).length_eq
    takes_of_mem_filter takes_of_mem_filter
  by_cases accepts : info.connected = true ∧
      info.queue.length < broadcaster.config.channelCapacity
  · have one := each id info isSubscriber accepts.1 accepts.2
    cases taken : events.filter info.subscription.takes with
    | nil =>
      have none_taken := ((perm_groupByInstrument order events).filter
        info.subscription.takes).length_eq
      rw [taken] at none_taken
      rw [List.eq_nil_of_length_eq_zero none_taken]
    | cons first rest =>
      have isFirst : first ∈ events.filter info.subscription.takes := by
        rw [taken]
        exact List.mem_cons_self
      obtain ⟨member, takesFirst⟩ := List.mem_filter.mp isFirst
      have only : ∀ event ∈ events, info.subscription.takes event = true →
          event.instrumentId = first.instrumentId := by
        intro event isEvent takes
        exact one event isEvent first member takes takesFirst
      rw [← taken, filter_groupByInstrument_of_one order only]
  · have none_accepted : info.accepts broadcaster.config = 0 := by
      unfold SubscriberInfo.accepts
      split_ifs with isConnected
      · unfold SubscriberInfo.room
        have full : ¬info.queue.length < broadcaster.config.channelCapacity :=
          fun free => accepts ⟨isConnected, free⟩
        omega
      · rfl
    rw [none_accepted, List.take_zero, List.take_zero]

theorem oneInstrumentEach_of_batch_eq
    (equal : ∀ order, broadcaster.broadcastBatch order events = broadcaster.sendToAll events) :
    broadcaster.OneInstrumentEach events := by
  intro id info isSubscriber isConnected free event isEvent other isOther takes takesOther
  have some_accepted : info.accepts broadcaster.config =
      broadcaster.config.channelCapacity - info.queue.length - 1 + 1 := by
    rw [SubscriberInfo.accepts, if_pos isConnected, SubscriberInfo.room]
    omega
  -- whatever instrument the map has first, the first event that is taken has to be the same
  have first_taken {wanted : MarketDataEvent} (isWanted : wanted ∈ events)
      (takesWanted : info.subscription.takes wanted = true) :
      ((events.filter info.subscription.takes).head?).map MarketDataEvent.instrumentId =
        some wanted.instrumentId := by
    obtain ⟨order, first, rest, group, sameInstrument⟩ :=
      head_filter_groupByInstrument isWanted takesWanted
    have sameInfo := congrFun (congrArg subscribers (equal order)) id
    simp only [broadcastBatch, sendToAll, Option.mem_def.mp isSubscriber, Option.map_some,
      Option.some.injEq] at sameInfo
    rw [SubscriberInfo.sendAll_filter, SubscriberInfo.sendAll_filter events] at sameInfo
    have sameTaken := congrArg SubscriberInfo.queue sameInfo
    rw [SubscriberInfo.queue_sendAll info takes_of_mem_filter,
      SubscriberInfo.queue_sendAll info takes_of_mem_filter] at sameTaken
    replace sameTaken := List.append_cancel_left sameTaken
    rw [group, some_accepted, List.take_succ_cons] at sameTaken
    cases taken : events.filter info.subscription.takes with
    | nil =>
      rw [taken] at sameTaken
      cases sameTaken
    | cons head tail =>
      rw [taken, List.take_succ_cons] at sameTaken
      rw [List.head?_cons, Option.map_some, ← (List.cons.inj sameTaken).1, sameInstrument]
  exact Option.some.inj ((first_taken isEvent takes).symm.trans (first_taken isOther takesOther))

/-- Whatever the order of the hash map is, a batch does what its events do one after the other,
if and only if no channel with room gets events of two instruments. -/
theorem broadcastBatch_eq_iff (events : List MarketDataEvent)
    (broadcaster : MarketDataBroadcaster) :
    (∀ order, broadcaster.broadcastBatch order events =
      events.foldl (fun state event => state.broadcast event) broadcaster) ↔
      broadcaster.OneInstrumentEach events := by
  rw [foldl_broadcast]
  constructor
  · exact oneInstrumentEach_of_batch_eq
  · exact OneInstrumentEach.batch_eq

def twoInstruments : List MarketDataEvent := [.LastPrice "IF" 1 0, .LastPrice "IC" 1 0]

/-- The hash map has the second instrument first, and so the subscriber gets its event first. -/
theorem twoInstruments_reordered :
    ¬∀ order, ((withConfig ⟨2, 1⟩).subscribe "s" [] []).broadcastBatch order twoInstruments =
      twoInstruments.foldl (fun state event => state.broadcast event)
        ((withConfig ⟨2, 1⟩).subscribe "s" [] []) := by
  intro equal
  have queues := congrArg
    (fun state : MarketDataBroadcaster => (state.subscribers "s").map SubscriberInfo.queue)
    (equal ["IC", "IF"])
  revert queues
  decide +kernel

end MarketDataBroadcaster

end QAExchange
