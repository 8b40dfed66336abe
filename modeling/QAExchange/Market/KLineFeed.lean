import QAExchange.Market.KLineActor
import QAExchange.Market.MarketDataBroadcaster

/-! # Two sources of finished K-lines

A trade goes to the K-line manager of the market data service, and as a tick to the K-line
actor. Both aggregate it, and both broadcast the bars that they finish.
-/

namespace QAExchange

open Foundation

/-- `f64 as i64` -/
def truncate (value : ℚ) : ℤ := value.num.tdiv value.den

structure KLineFeed where
  manager : KLineAggregators
  actor : KLineActor
  subscription : Subscription
  channel : List MarketDataEvent
  /-- All `KLineFinished` events so far. -/
  published : List MarketDataEvent

def KLineEvent.timestamp : KLineEvent → ℤ
  | .tick _ _ _ timestampMs => timestampMs
  | .timer currentTimestampMs _ => currentTimestampMs

namespace KLineFeed

/-- The actor has been started on a WAL and has subscribed to the ticks of the instruments. -/
def start (subscribedInstruments : List String) (wal : List KLineFinishedRecord) : KLineFeed where
  manager _ := none
  actor := .started wal
  subscription := ⟨subscribedInstruments, ["tick"]⟩
  channel := []
  published := []

def finishedEvent (timestamp : ℤ) (finished : FinishedKLine) : MarketDataEvent :=
  .KLineFinished finished.instrumentId finished.period.toInt finished.kline timestamp

def deliver (event : KLineEvent) (written : ℕ → Bool) (feed : KLineFeed) : KLineFeed :=
  { feed with
    actor := feed.actor.step (.handle event written)
    published := feed.published ++
      (event.handle feed.actor.aggregators).2.map (finishedEvent event.timestamp) }

inductive Input
  | onTrade (instrumentId : String) (price : ℚ) (volume timestampMs : ℤ)
  | receive (written : ℕ → Bool)
  | timer (currentTimestampMs : ℤ) (order : List String) (written : ℕ → Bool)

/-- `MarketDataService::on_trade` -/
def onTrade (instrumentId : String) (price : ℚ) (volume timestampMs : ℤ) (feed : KLineFeed) :
    KLineFeed :=
  let tick := MarketDataEvent.Tick instrumentId price volume "" timestampMs
  let finished := feed.manager.onTick instrumentId price volume timestampMs
  { feed with
    manager := finished.1
    channel := if feed.subscription.takes tick then feed.channel ++ [tick] else feed.channel
    published := feed.published ++ finished.2.map (finishedEvent timestampMs) }

def tickOf : MarketDataEvent → Option KLineEvent
  | .Tick instrumentId price volume _ timestamp =>
    some (.tick instrumentId price (truncate volume) timestamp)
  | _ => none

def step (feed : KLineFeed) : Input → KLineFeed
  | .onTrade instrumentId price volume timestampMs =>
    feed.onTrade instrumentId price volume timestampMs
  | .receive written =>
    match feed.channel with
    | [] => feed
    | event :: channel =>
      match tickOf event with
      | none => { feed with channel := channel }
      | some tick => { feed.deliver tick written with channel := channel }
  | .timer currentTimestampMs order written =>
    feed.deliver (.timer currentTimestampMs order) written

def barKey : MarketDataEvent → Option (String × ℤ × ℤ)
  | .KLineFinished instrumentId period kline _ => some (instrumentId, period, kline.timestamp)
  | _ => none

def Once (feed : KLineFeed) : Prop := (feed.published.filterMap barKey).Nodup

instance (feed : KLineFeed) : Decidable (Once feed) :=
  inferInstanceAs (Decidable (feed.published.filterMap barKey).Nodup)

/-- A trade of an instrument that the actor takes falls into the periods of the last one, and
the others do not come late; nor does what the actor handles. -/
def Apart (feed : KLineFeed) : Input → Prop
  | .onTrade instrumentId _ _ timestampMs => ∀ period ∈ KLinePeriod.periods,
      if feed.subscription.takesInstrument instrumentId then
        ∀ kline ∈ (feed.manager.track instrumentId period).current,
          kline.timestamp = period.alignTimestamp timestampMs
      else (feed.manager.track instrumentId period).InTime (period.alignTimestamp timestampMs)
  | .receive _ => ∀ event ∈ feed.channel.head?, ∀ tick ∈ tickOf event,
      tick.InTime feed.actor.aggregators
  | .timer currentTimestampMs order _ =>
    (KLineEvent.timer currentTimestampMs order).InTime feed.actor.aggregators

instance (feed : KLineFeed) : ∀ input, Decidable (Apart feed input)
  | .onTrade _ _ _ _ => inferInstanceAs (Decidable (∀ period ∈ KLinePeriod.periods, _))
  | .receive _ => inferInstanceAs (Decidable (∀ event ∈ feed.channel.head?, _))
  | .timer currentTimestampMs order _ => inferInstanceAs (Decidable
      ((KLineEvent.timer currentTimestampMs order).InTime feed.actor.aggregators))

def publishedOf (instrumentId : String) (period : KLinePeriod) (events : List MarketDataEvent) :
    List KLine :=
  events.filterMap fun
    | .KLineFinished other otherPeriod kline _ =>
      if other = instrumentId ∧ otherPeriod = period.toInt then some kline else none
    | _ => none

theorem publishedOf_append (instrumentId : String) (period : KLinePeriod)
    (first second : List MarketDataEvent) :
    publishedOf instrumentId period (first ++ second) =
      publishedOf instrumentId period first ++ publishedOf instrumentId period second :=
  List.filterMap_append

theorem publishedOf_finished (instrumentId : String) (period : KLinePeriod) (timestamp : ℤ)
    (finished : List FinishedKLine) :
    publishedOf instrumentId period (finished.map (finishedEvent timestamp)) =
      finishedOf instrumentId period finished := by
  rw [publishedOf, finishedOf, List.filterMap_map]
  apply List.filterMap_congr
  intro entry _
  have samePeriod : entry.period.toInt = period.toInt ↔ entry.period = period := by
    constructor
    · intro same
      have back := congrArg KLinePeriod.fromInt same
      rw [KLinePeriod.fromInt_toInt, KLinePeriod.fromInt_toInt] at back
      exact Option.some.inj back
    · exact congrArg KLinePeriod.toInt
  simp only [Function.comp_apply, finishedEvent, samePeriod]

theorem nodup_barKey
    (inOrder : ∀ instrumentId period, KLine.InOrder (publishedOf instrumentId period events))
    (fromBars : ∀ event ∈ events, ∃ timestamp finished, event = finishedEvent timestamp finished) :
    (events.filterMap barKey).Nodup := by
  induction events with
  | nil => exact List.nodup_nil
  | cons event events induction =>
    rcases fromBars event List.mem_cons_self with ⟨timestamp, finished, rfl⟩
    have later : (events.filterMap barKey).Nodup := by
      apply induction
      · intro instrumentId period
        have split := publishedOf_append instrumentId period [finishedEvent timestamp finished]
          events
        rw [List.singleton_append] at split
        have all := inOrder instrumentId period
        rw [split] at all
        exact (List.pairwise_append.mp all).2.1
      · exact fun other member => fromBars other (List.mem_cons_of_mem _ member)
    have key : barKey (finishedEvent timestamp finished) =
        some (finished.instrumentId, finished.period.toInt, finished.kline.timestamp) := rfl
    rw [List.filterMap_cons_some key]
    apply List.nodup_cons.mpr
    refine ⟨?_, later⟩
    intro again
    rcases List.mem_filterMap.mp again with ⟨other, member, sameKey⟩
    rcases fromBars other (List.mem_cons_of_mem _ member) with ⟨otherTime, otherBar, rfl⟩
    have same := Option.some.inj sameKey
    simp only [Prod.mk.injEq] at same
    have split := publishedOf_append finished.instrumentId finished.period
      [finishedEvent timestamp finished] events
    rw [List.singleton_append] at split
    have all := inOrder finished.instrumentId finished.period
    rw [split] at all
    have isFirst : finished.kline ∈ publishedOf finished.instrumentId finished.period
        [finishedEvent timestamp finished] :=
      List.mem_filterMap.mpr ⟨_, List.mem_singleton_self _, if_pos ⟨rfl, rfl⟩⟩
    have isLater : otherBar.kline ∈ publishedOf finished.instrumentId finished.period events :=
      List.mem_filterMap.mpr ⟨_, member, if_pos ⟨same.1, same.2.1⟩⟩
    have before := (List.pairwise_append.mp all).2.2 _ isFirst _ isLater
    omega

end KLineFeed

/-- All bars that a track has finished have been announced. Before the first bar there are none. -/
def KLineTrack.Announces (track : KLineTrack) (published : List KLine) : Prop :=
  track.Follows published ∧ (track.current = none → published = [])

theorem KLineTrack.MovedTo.announces {track : KLineTrack}
    (moved : track.MovedTo next finished periodStart) (announces : track.Announces published)
    (inTime : ∀ start ∈ periodStart, track.InTime start) :
    next.Announces (published ++ finished) := by
  cases periodStart with
  | none =>
    rw [moved.1, moved.2, List.append_nil]
    exact announces
  | some start =>
    have isInTime := inTime start rfl
    unfold InTime at isInTime
    constructor
    · apply Moved.follows moved announces.1
      · intro kline isCurrent
        rw [isCurrent] at isInTime
        exact isInTime
      · intro noCurrent kline member
        rw [announces.2 noCurrent] at member
        cases member
    · intro noCurrent
      rcases moved.isCurrent with ⟨kline, isCurrent, _⟩
      rw [noCurrent] at isCurrent
      cases isCurrent

theorem KLineTrack.MovedTo.nothing_finished {track : KLineTrack}
    (moved : track.MovedTo next finished periodStart)
    (same : ∀ start ∈ periodStart, ∀ kline ∈ track.current, kline.timestamp = start) :
    finished = [] := by
  cases periodStart with
  | none => exact moved.2
  | some start =>
    rcases moved.closed with ⟨none_closed, _⟩ | ⟨current, _, isCurrent, ended, _⟩
    · exact none_closed
    · exact absurd (same start rfl current isCurrent) ended

namespace KLineAggregators

def Unpriced (aggregators : KLineAggregators) (instrumentId : String) : Prop :=
  (aggregators instrumentId).bind KLineAggregator.lastPrice = none

theorem onTimer_unpriced {aggregators : KLineAggregators}
    (unpriced : aggregators.Unpriced instrumentId) (currentTimestampMs : ℤ) (order : List String) :
    (aggregators.onTimer currentTimestampMs order).1.Unpriced instrumentId := by
  induction order generalizing aggregators with
  | nil => exact unpriced
  | cons first order induction =>
    rw [onTimer]
    cases isFirst : aggregators first with
    | none => exact induction unpriced
    | some aggregator =>
      apply induction
      by_cases same : first = instrumentId
      · subst same
        have noPrice : aggregator.lastPrice = none := by
          rw [Unpriced, isFirst] at unpriced
          exact unpriced
        rw [KLineAggregator.onTimer_unpriced _ noPrice, Unpriced, replaceWith_self]
        exact noPrice
      · rw [Unpriced, replaceWith_of_ne aggregators same]
        exact unpriced

end KLineAggregators

theorem KLineActor.recoverFromWal_unpriced (wal : List KLineFinishedRecord)
    (instrumentId : String) : (recoverFromWal wal).Unpriced instrumentId := by
  have kept (aggregators : KLineAggregators) (unpriced : aggregators.Unpriced instrumentId) :
      KLineAggregators.Unpriced (wal.foldl recoverRecord aggregators) instrumentId := by
    apply foldl_invariant (fun aggregators : KLineAggregators =>
      aggregators.Unpriced instrumentId) _ wal unpriced
    intro aggregators record before
    rw [recoverRecord]
    cases KLinePeriod.fromInt record.period with
    | none => exact before
    | some period =>
      dsimp only
      by_cases same : instrumentId = WalRecord.fromFixedArray record.instrumentId
      · rw [KLineAggregators.Unpriced, same, Function.update_self, Option.bind_some, ← same]
        rw [KLineAggregators.Unpriced] at before
        cases found : aggregators instrumentId with
        | none => rfl
        | some aggregator =>
          rw [found] at before
          exact before
      · rw [KLineAggregators.Unpriced, Function.update_of_ne same]
        exact before
  exact kept _ rfl

namespace KLineFeed

/-! ## Runs -/

/-- Whose bars of an instrument are broadcast: those of the actor, if it takes its ticks. -/
def announcer (feed : KLineFeed) (instrumentId : String) : KLineAggregators :=
  if feed.subscription.takesInstrument instrumentId then feed.actor.aggregators else feed.manager

structure Invariant (feed : KLineFeed) : Prop where
  fromBars : ∀ event ∈ feed.published, ∃ timestamp finished,
    event = finishedEvent timestamp finished
  announces : ∀ instrumentId period,
    ((feed.announcer instrumentId).track instrumentId period).Announces
      (publishedOf instrumentId period feed.published)
  taken : ∀ event ∈ feed.channel, feed.subscription.takesInstrument event.instrumentId = true
  unpriced : ∀ instrumentId, feed.subscription.takesInstrument instrumentId = false →
    feed.actor.aggregators.Unpriced instrumentId

theorem Invariant.once (invariant : Invariant feed) : Once feed := by
  apply nodup_barKey _ invariant.fromBars
  intro instrumentId period
  exact (invariant.announces instrumentId period).1.inOrder

theorem invariant_start (subscribedInstruments : List String) (wal : List KLineFinishedRecord) :
    Invariant (start subscribedInstruments wal) where
  fromBars := List.forall_mem_nil _
  announces := by
    intro instrumentId period
    have noCurrent : (((start subscribedInstruments wal).announcer instrumentId).track
        instrumentId period).current = none := by
      unfold announcer
      split_ifs
      · exact congrArg KLineTrack.current
          (KLineActor.track_recoverFromWal wal instrumentId period)
      · rfl
    constructor
    · rw [KLineTrack.Follows, noCurrent]
      exact .nil
    · intro _
      rfl
  taken := List.forall_mem_nil _
  unpriced := by
    intro instrumentId _
    exact KLineActor.recoverFromWal_unpriced wal instrumentId

theorem fromBars_append {published : List MarketDataEvent}
    (fromBars : ∀ event ∈ published, ∃ timestamp finished, event = finishedEvent timestamp finished)
    (timestamp : ℤ) (finished : List FinishedKLine) :
    ∀ event ∈ published ++ finished.map (finishedEvent timestamp),
      ∃ timestamp finished, event = finishedEvent timestamp finished := by
  intro event member
  rcases List.mem_append.mp member with old | new
  · exact fromBars event old
  · rcases List.mem_map.mp new with ⟨entry, _, rfl⟩
    exact ⟨timestamp, entry, rfl⟩

theorem Invariant.onTrade (invariant : Invariant feed)
    (apart : feed.Apart (.onTrade instrumentId price volume timestampMs)) :
    Invariant (feed.onTrade instrumentId price volume timestampMs) where
  fromBars := fromBars_append invariant.fromBars _ _
  announces := by
    intro other period
    have listed : period ∈ KLinePeriod.periods := by
      cases period <;> decide
    have isApart := apart period listed
    have before := invariant.announces other period
    have moved := feed.manager.onTick_movedTo other instrumentId price volume timestampMs period
    rw [KLineFeed.onTrade, publishedOf_append, publishedOf_finished]
    unfold announcer at before ⊢
    dsimp only
    split_ifs at before ⊢ with taken
    · have nothing : finishedOf other period
          (feed.manager.onTick instrumentId price volume timestampMs).2 = [] := by
        apply moved.nothing_finished
        intro start isStart
        split_ifs at isStart with same
        · rw [if_pos (same ▸ taken)] at isApart
          rw [← Option.some.inj isStart, ← same]
          exact isApart
        · cases isStart
      rw [nothing, List.append_nil]
      exact before
    · apply moved.announces before
      intro start isStart
      split_ifs at isStart with same
      · rw [if_neg (same ▸ taken)] at isApart
        rw [← Option.some.inj isStart, ← same]
        exact isApart
      · cases isStart
  taken := by
    intro event member
    rw [KLineFeed.onTrade] at member ⊢
    dsimp only at member
    split_ifs at member with takes
    · rcases List.mem_append.mp member with old | new
      · exact invariant.taken event old
      · rw [List.mem_singleton.mp new]
        exact (Bool.and_eq_true_iff.mp takes).1
    · exact invariant.taken event member
  unpriced := invariant.unpriced

theorem Invariant.deliver (invariant : Invariant feed)
    (taken : ∀ instrumentId price volume timestampMs,
      event = .tick instrumentId price volume timestampMs →
        feed.subscription.takesInstrument instrumentId = true)
    (inTime : event.InTime feed.actor.aggregators) (written : ℕ → Bool) :
    Invariant (feed.deliver event written) where
  fromBars := fromBars_append invariant.fromBars _ _
  announces := by
    intro other period
    have before := invariant.announces other period
    have moved := event.handle_movedTo feed.actor.aggregators other period
    rw [KLineFeed.deliver, publishedOf_append, publishedOf_finished]
    unfold announcer at before ⊢
    dsimp only
    split_ifs at before ⊢ with isTaken
    · apply moved.announces before
      intro start isStart
      exact inTime.track isStart
    · have notReached : event.periodStart feed.actor.aggregators other period = none := by
        have unpriced := invariant.unpriced other (Bool.eq_false_iff.mpr isTaken)
        cases event with
        | tick instrumentId price volume timestampMs =>
          apply if_neg
          intro same
          exact isTaken (same ▸ taken _ _ _ _ rfl)
        | timer currentTimestampMs order =>
          apply if_neg
          intro reached
          rw [unpriced] at reached
          exact Bool.false_ne_true reached.2
      rw [notReached] at moved
      rw [moved.2, List.append_nil]
      exact before
  taken := invariant.taken
  unpriced := by
    intro other notTaken
    have before := invariant.unpriced other notTaken
    cases event with
    | tick instrumentId price volume timestampMs =>
      have different : instrumentId ≠ other := by
        intro same
        have isTaken := taken instrumentId price volume timestampMs rfl
        rw [same] at isTaken
        exact Bool.false_ne_true (notTaken.symm.trans isTaken)
      have kept := feed.actor.aggregators.replaceWith_of_ne different
        (((feed.actor.aggregators instrumentId).getD .new).onTick price volume timestampMs)
      change KLineAggregators.Unpriced (feed.actor.aggregators.onTick _ _ _ _).1 other
      rw [KLineAggregators.Unpriced, KLineAggregators.onTick, kept]
      exact before
    | timer currentTimestampMs order =>
      exact KLineAggregators.onTimer_unpriced before currentTimestampMs order.dedup

theorem Invariant.step (invariant : Invariant feed) (apart : feed.Apart input) :
    Invariant (feed.step input) := by
  cases input with
  | onTrade instrumentId price volume timestampMs => exact invariant.onTrade apart
  | timer currentTimestampMs order written =>
    have inTime : (KLineEvent.timer currentTimestampMs order).InTime feed.actor.aggregators :=
      apart
    apply invariant.deliver _ inTime
    intro instrumentId price volume timestampMs isTick
    cases isTick
  | receive written =>
    rw [KLineFeed.step]
    cases waiting : feed.channel with
    | nil => exact invariant
    | cons event channel =>
      have taken := invariant.taken
      rw [waiting] at taken
      rcases List.forall_mem_cons.mp taken with ⟨isTaken, takenLater⟩
      cases isTick : tickOf event with
      | none =>
        dsimp only
        rw [isTick]
        exact ⟨invariant.fromBars, invariant.announces, takenLater, invariant.unpriced⟩
      | some tick =>
        have inTime : tick.InTime feed.actor.aggregators := by
          apply apart event _ tick isTick
          rw [waiting]
          rfl
        have named : ∀ instrumentId price volume timestampMs,
            tick = .tick instrumentId price volume timestampMs →
              feed.subscription.takesInstrument instrumentId = true := by
          intro instrumentId price volume timestampMs same
          cases event with
          | Tick other _ _ _ _ =>
            rw [← Option.some.inj isTick] at same
            cases same
            exact isTaken
          | _ => cases isTick
        have delivered := invariant.deliver named inTime written
        dsimp only
        rw [isTick]
        exact ⟨delivered.fromBars, delivered.announces, takenLater, delivered.unpriced⟩

/-- If only one of the two finishes bars, and none comes late, each bar is broadcast once. -/
theorem once_of_along (subscribedInstruments : List String) (wal : List KLineFinishedRecord)
    {inputs : List Input} (along : Along step Apart inputs (start subscribedInstruments wal)) :
    Once (inputs.foldl step (start subscribedInstruments wal)) :=
  (foldl_along Invariant (fun _ _ invariant => invariant.step) along
    (invariant_start subscribedInstruments wal)).once

/-- A trade, the next one three seconds later, and the actor gets both. -/
theorem nextTrade_not_once :
    ¬Once (([.onTrade "IF" 1 1 0, .receive fun _ => true, .onTrade "IF" 1 1 3000,
      .receive fun _ => true] : List Input).foldl step (start [] [])) := by
  decide +kernel

/-- Trades in one period whose bar is closed by the timer. -/
theorem closedByTimer_once :
    Once (([.onTrade "IF" 1 1 0, .receive fun _ => true, .onTrade "IF" 2 1 1000,
      .receive fun _ => true, .timer 3000 ["IF"] fun _ => true] : List Input).foldl step
        (start [] [])) := by
  apply once_of_along
  decide +kernel

end KLineFeed

end QAExchange
