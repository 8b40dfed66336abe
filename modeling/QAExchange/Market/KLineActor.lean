import Mathlib.Data.List.Dedup
import QAExchange.Foundation.Runs
import QAExchange.Market.KLine
import QAExchange.Storage.FixedText

/-! # The K-line actor

Ticks and the timer close bars. Each finished bar goes to the history of its instrument
and period and to the WAL, and after a restart the histories are rebuilt from the WAL.
-/

namespace QAExchange

open Foundation KLineAggregators

/-- `WalRecord::KLineFinished` without the time of writing, which is not read again. -/
structure KLineFinishedRecord where
  instrumentId : FixedArray 16
  period : ℤ
  klineTimestamp : ℤ
  openPrice : ℚ
  high : ℚ
  low : ℚ
  close : ℚ
  volume : ℤ
  amount : ℚ
  openOi : ℤ
  closeOi : ℤ

namespace KLineFinishedRecord

def kline (record : KLineFinishedRecord) : KLine where
  timestamp := record.klineTimestamp
  openPrice := record.openPrice
  high := record.high
  low := record.low
  close := record.close
  volume := record.volume
  amount := record.amount
  openOi := record.openOi
  closeOi := record.closeOi
  isFinished := true

end KLineFinishedRecord

namespace FinishedKLine

def record (finished : FinishedKLine) : KLineFinishedRecord where
  instrumentId := WalRecord.toFixedArray 16 finished.instrumentId
  period := finished.period.toInt
  klineTimestamp := finished.kline.timestamp
  openPrice := finished.kline.openPrice
  high := finished.kline.high
  low := finished.kline.low
  close := finished.kline.close
  volume := finished.kline.volume
  amount := finished.kline.amount
  openOi := finished.kline.openOi
  closeOi := finished.kline.closeOi

theorem kline_record {finished : FinishedKLine} (isFinished : finished.kline.isFinished = true) :
    finished.record.kline = finished.kline := by
  rcases finished with ⟨instrumentId, period, kline⟩
  cases kline
  cases isFinished
  rfl

end FinishedKLine

inductive KLineEvent
  | tick (instrumentId : String) (price : ℚ) (volume timestampMs : ℤ)
  | timer (currentTimestampMs : ℤ) (order : List String)

namespace KLineEvent

def handle (aggregators : KLineAggregators) :
    KLineEvent → KLineAggregators × List FinishedKLine
  | .tick instrumentId price volume timestampMs =>
    aggregators.onTick instrumentId price volume timestampMs
  | .timer currentTimestampMs order => aggregators.onTimer currentTimestampMs order.dedup

/-- Where the period begins to which an event brings a bar, if it reaches it. -/
def periodStart (aggregators : KLineAggregators) (instrumentId : String)
    (period : KLinePeriod) : KLineEvent → Option ℤ
  | .tick other _ _ timestampMs =>
    if other = instrumentId then some (period.alignTimestamp timestampMs) else none
  | .timer currentTimestampMs order =>
    if instrumentId ∈ order ∧
        ((aggregators instrumentId).bind KLineAggregator.lastPrice).isSome = true then
      some (period.alignTimestamp currentTimestampMs)
    else none

end KLineEvent

/-! ## What an event does to the bars of one period -/

def KLineTrack.MovedTo (track next : KLineTrack) (finished : List KLine) : Option ℤ → Prop
  | none => next = track ∧ finished = []
  | some periodStart => track.Moved periodStart next finished

namespace KLineAggregators

variable {instrumentId : String}

theorem track_congr {aggregators others : KLineAggregators}
    (same : others instrumentId = aggregators instrumentId) (period : KLinePeriod) :
    others.track instrumentId period = aggregators.track instrumentId period := by
  rw [track, track, same]

section

variable (aggregators : KLineAggregators)
include aggregators

theorem replaceWith_of_ne {other : String} (different : other ≠ instrumentId)
    (moved : KLineAggregator × List (KLinePeriod × KLine)) :
    (aggregators.replaceWith other moved).1 instrumentId = aggregators instrumentId :=
  Function.update_of_ne different.symm _ _

theorem replaceWith_self (instrumentId : String)
    (moved : KLineAggregator × List (KLinePeriod × KLine)) :
    (aggregators.replaceWith instrumentId moved).1 instrumentId = some moved.1 :=
  Function.update_self ..

theorem track_replaceWith (instrumentId : String)
    (moved : KLineAggregator × List (KLinePeriod × KLine)) (period : KLinePeriod) :
    (aggregators.replaceWith instrumentId moved).1.track instrumentId period =
      moved.1.tracks period := by
  rw [track, replaceWith_self]

theorem track_getD (instrumentId : String) (period : KLinePeriod) :
    aggregators.track instrumentId period =
      ((aggregators instrumentId).getD .new).tracks period := by
  rw [track]
  cases aggregators instrumentId with
  | none => rfl
  | some aggregator => rfl

theorem onTick_movedTo (instrumentId other : String) (price : ℚ) (volume timestampMs : ℤ)
    (period : KLinePeriod) : (aggregators.track instrumentId period).MovedTo
      ((aggregators.onTick other price volume timestampMs).1.track instrumentId period)
      (finishedOf instrumentId period (aggregators.onTick other price volume timestampMs).2)
      (if other = instrumentId then some (period.alignTimestamp timestampMs) else none) := by
  rw [onTick]
  split_ifs with same
  · have finished := finishedOf_same instrumentId period
      (((aggregators instrumentId).getD .new).onTick price volume timestampMs).2
    rw [same, track_replaceWith, track_getD, replaceWith, finished]
    exact KLineAggregator.onTick_moved price volume timestampMs _ period
  · exact ⟨track_congr (aggregators.replaceWith_of_ne same _) period,
      finishedOf_other same period _⟩

end

theorem onTimer_of_notMem {order : List String} (absent : instrumentId ∉ order)
    (aggregators : KLineAggregators) (currentTimestampMs : ℤ) (period : KLinePeriod) :
    (aggregators.onTimer currentTimestampMs order).1 instrumentId = aggregators instrumentId ∧
      finishedOf instrumentId period (aggregators.onTimer currentTimestampMs order).2 = [] := by
  induction order generalizing aggregators with
  | nil => exact ⟨rfl, rfl⟩
  | cons first order induction =>
    rcases not_or.mp (List.mem_cons.not.mp absent) with ⟨different, absentLater⟩
    rw [onTimer]
    cases aggregators first with
    | none => exact induction absentLater aggregators
    | some aggregator =>
      dsimp only
      rw [finishedOf_append, (induction absentLater _).1, (induction absentLater _).2,
        replaceWith_of_ne aggregators (Ne.symm different), List.append_nil]
      exact ⟨rfl, finishedOf_other (Ne.symm different) period _⟩

theorem onTimer_of_mem {order : List String} (nodup : order.Nodup) (listed : instrumentId ∈ order)
    (aggregators : KLineAggregators) (currentTimestampMs : ℤ) (period : KLinePeriod) :
    (aggregators.track instrumentId period).MovedTo
      ((aggregators.onTimer currentTimestampMs order).1.track instrumentId period)
      (finishedOf instrumentId period (aggregators.onTimer currentTimestampMs order).2)
      (((aggregators instrumentId).bind KLineAggregator.lastPrice).map fun _ =>
        period.alignTimestamp currentTimestampMs) := by
  induction order generalizing aggregators with
  | nil => cases listed
  | cons first order induction =>
    rcases List.nodup_cons.mp nodup with ⟨notLater, nodupLater⟩
    rw [onTimer]
    by_cases same : first = instrumentId
    · subst same
      cases isFirst : aggregators first with
      | none =>
        have later := onTimer_of_notMem notLater aggregators currentTimestampMs period
        exact ⟨track_congr later.1 period, later.2⟩
      | some aggregator =>
        have later := onTimer_of_notMem notLater
          (aggregators.replaceWith first (aggregator.onTimer currentTimestampMs)).1
          currentTimestampMs period
        have before : aggregators.track first period = aggregator.tracks period := by
          rw [track, isFirst]
        have finished := finishedOf_same first period
          (aggregator.onTimer currentTimestampMs).2
        dsimp only
        rw [finishedOf_append, later.2, List.append_nil, track_congr later.1,
          track_replaceWith, before, replaceWith, finished]
        cases isPriced : aggregator.lastPrice with
        | none =>
          rw [KLineAggregator.onTimer_unpriced _ isPriced, Option.bind_some, isPriced]
          exact ⟨rfl, rfl⟩
        | some lastPrice =>
          rw [Option.bind_some, isPriced]
          exact KLineAggregator.onTimer_moved currentTimestampMs isPriced period
    · have listedLater : instrumentId ∈ order :=
        (List.mem_cons.mp listed).resolve_left (Ne.symm same)
      cases aggregators first with
      | none => exact induction nodupLater listedLater aggregators
      | some aggregator =>
        have unchanged := aggregators.replaceWith_of_ne same
          (aggregator.onTimer currentTimestampMs)
        have later := induction nodupLater listedLater
          (aggregators.replaceWith first (aggregator.onTimer currentTimestampMs)).1
        rw [track_congr unchanged, unchanged] at later
        have none_finished : finishedOf instrumentId period
            (aggregators.replaceWith first (aggregator.onTimer currentTimestampMs)).2 = [] :=
          finishedOf_other same period _
        dsimp only
        rw [finishedOf_append, none_finished, List.nil_append]
        exact later

theorem onTimer_eq_none {aggregators : KLineAggregators} (absent : aggregators instrumentId = none)
    (currentTimestampMs : ℤ) (order : List String) :
    (aggregators.onTimer currentTimestampMs order).1 instrumentId = none := by
  induction order generalizing aggregators with
  | nil => exact absent
  | cons first order induction =>
    rw [onTimer]
    cases isFirst : aggregators first with
    | none => exact induction absent
    | some aggregator =>
      apply induction
      have different : first ≠ instrumentId := by
        intro same
        rw [same, absent] at isFirst
        cases isFirst
      rw [replaceWith_of_ne aggregators different]
      exact absent

end KLineAggregators

namespace KLineEvent

theorem handle_movedTo (event : KLineEvent) (aggregators : KLineAggregators)
    (instrumentId : String) (period : KLinePeriod) : (aggregators.track instrumentId period).MovedTo
      ((event.handle aggregators).1.track instrumentId period)
      (finishedOf instrumentId period (event.handle aggregators).2)
      (event.periodStart aggregators instrumentId period) := by
  cases event with
  | tick other price volume timestampMs =>
    exact aggregators.onTick_movedTo instrumentId other price volume timestampMs period
  | timer currentTimestampMs order =>
    rw [handle, periodStart]
    by_cases listed : instrumentId ∈ order
    · have moved := onTimer_of_mem order.nodup_dedup
        (List.mem_dedup.mpr listed) aggregators currentTimestampMs period
      cases priced : (aggregators instrumentId).bind KLineAggregator.lastPrice with
      | none =>
        rw [priced] at moved
        rw [if_neg fun reached => Bool.false_ne_true reached.2]
        exact moved
      | some lastPrice =>
        rw [priced] at moved
        rw [if_pos ⟨listed, rfl⟩]
        exact moved
    · have kept := onTimer_of_notMem (List.mem_dedup.not.mpr listed) aggregators
        currentTimestampMs period
      rw [if_neg fun reached => listed reached.1]
      exact ⟨track_congr kept.1 period, kept.2⟩

def InTime (aggregators : KLineAggregators) : KLineEvent → Prop
  | .tick instrumentId _ _ timestampMs => ∀ period ∈ KLinePeriod.periods,
      (aggregators.track instrumentId period).InTime (period.alignTimestamp timestampMs)
  | .timer currentTimestampMs order => ∀ instrumentId ∈ order,
      ((aggregators instrumentId).bind KLineAggregator.lastPrice).isSome = true →
        ∀ period ∈ KLinePeriod.periods, (aggregators.track instrumentId period).InTime
          (period.alignTimestamp currentTimestampMs)

instance (aggregators : KLineAggregators) : ∀ event, Decidable (InTime aggregators event)
  | .tick instrumentId _ _ timestampMs =>
    inferInstanceAs (Decidable (∀ period ∈ KLinePeriod.periods,
      (aggregators.track instrumentId period).InTime (period.alignTimestamp timestampMs)))
  | .timer _ order => inferInstanceAs (Decidable (∀ instrumentId ∈ order, _ → ∀ period ∈ _, _))

theorem InTime.track {event : KLineEvent} {aggregators : KLineAggregators}
    (inTime : event.InTime aggregators) {instrumentId : String} {period : KLinePeriod}
    {start : ℤ} (reached : event.periodStart aggregators instrumentId period = some start) :
    (aggregators.track instrumentId period).InTime start := by
  have listed : period ∈ KLinePeriod.periods := by
    cases period <;> decide
  cases event with
  | tick other price volume timestampMs =>
    rw [periodStart] at reached
    split_ifs at reached with same
    rw [← Option.some.inj reached, ← same]
    exact inTime period listed
  | timer currentTimestampMs order =>
    rw [periodStart] at reached
    split_ifs at reached with isReached
    rw [← Option.some.inj reached]
    exact inTime instrumentId isReached.1 isReached.2 period listed

def Named : KLineEvent → Prop
  | .tick instrumentId _ _ _ => WalRecord.Fits 16 instrumentId
  | .timer _ _ => True

instance : ∀ event, Decidable (Named event)
  | .tick instrumentId _ _ _ => inferInstanceAs (Decidable (WalRecord.Fits 16 instrumentId))
  | .timer _ _ => inferInstanceAs (Decidable True)

end KLineEvent

/-! ## The actor -/

structure KLineActor where
  aggregators : KLineAggregators
  wal : List KLineFinishedRecord

namespace KLineActor

def recoverRecord (aggregators : KLineAggregators) (record : KLineFinishedRecord) :
    KLineAggregators :=
  match KLinePeriod.fromInt record.period with
  | none => aggregators
  | some period =>
    let instrumentId := WalRecord.fromFixedArray record.instrumentId
    let aggregator := (aggregators instrumentId).getD .new
    Function.update aggregators instrumentId (some
      { aggregator with
        tracks := Function.update aggregator.tracks period
          ((aggregator.tracks period).pushHistory [record.kline]) })

def recoverFromWal (wal : List KLineFinishedRecord) : KLineAggregators :=
  wal.foldl recoverRecord fun _ => none

def started (wal : List KLineFinishedRecord) : KLineActor where
  aggregators := recoverFromWal wal
  wal := wal

/-- The finished bars are appended; `written` says which of the appends succeed. -/
def persist (written : ℕ → Bool) (finished : List FinishedKLine)
    (wal : List KLineFinishedRecord) : List KLineFinishedRecord :=
  wal ++ (finished.zipIdx.filter fun entry => written entry.2).map fun entry => entry.1.record

/-- The actor handles an event, or it is killed after so many appends of an event and started
again, or it is started again between two events. -/
inductive Input
  | handle (event : KLineEvent) (written : ℕ → Bool)
  | crash (event : KLineEvent) (written : ℕ → Bool) (appends : ℕ)
  | restart

def step (actor : KLineActor) : Input → KLineActor
  | .handle event written =>
    let handled := event.handle actor.aggregators
    ⟨handled.1, persist written handled.2 actor.wal⟩
  | .crash event written appends =>
    started (persist written ((event.handle actor.aggregators).2.take appends) actor.wal)
  | .restart => started actor.wal

def historyKlines (actor : KLineActor) (instrumentId : String) (period : KLinePeriod) :
    List KLine :=
  (actor.aggregators.track instrumentId period).history

def appended (instrumentId : String) (period : KLinePeriod) (wal : List KLineFinishedRecord) :
    List KLine :=
  wal.filterMap fun record =>
    if WalRecord.fromFixedArray record.instrumentId = instrumentId ∧
        KLinePeriod.fromInt record.period = some period then
      some record.kline
    else none

end KLineActor

/-! ## The histories of the K-line actor

Over all orders of ticks, timer events, crashes and restarts: when the finished bars of
every instrument and period are the last ones in the WAL, in the order of time.
-/

theorem KLine.InOrder.before_of_last (inOrder : KLine.InOrder klines)
    (last : ∀ kline ∈ klines.getLast?, kline.timestamp < moment) :
    ∀ kline ∈ klines, kline.timestamp < moment := by
  intro kline member
  have nonempty : klines ≠ [] := List.ne_nil_of_mem member
  have lastBefore : (klines.getLast nonempty).timestamp < moment :=
    last _ (List.getLast?_eq_some_getLast nonempty)
  rw [← List.dropLast_append_getLast nonempty] at member
  rcases List.mem_append.mp member with earlier | isLast
  · have split : KLine.InOrder (klines.dropLast ++ [klines.getLast nonempty]) := by
      rw [List.dropLast_append_getLast nonempty]
      exact inOrder
    have beforeLast := (List.pairwise_append.mp split).2.2 kline earlier _
      (List.mem_singleton_self _)
    exact beforeLast.trans lastBefore
  · rw [List.mem_singleton.mp isLast]
    exact lastBefore

namespace KLineActor

/-- Each history is a time series: the last bars in the WAL, each later than the one before. -/
def IsSeries (actor : KLineActor) : Prop :=
  ∀ instrumentId period, KLine.InOrder (actor.historyKlines instrumentId period) ∧
    actor.historyKlines instrumentId period =
      (appended instrumentId period actor.wal).rtake KLineTrack.maxHistory

/-- An event that the actor handles comes in time, its instrument fits into a record, and all
its bars get into the WAL. -/
def InTurn (actor : KLineActor) : Input → Prop
  | .handle event written => event.Named ∧ event.InTime actor.aggregators ∧
      ∀ index < (event.handle actor.aggregators).2.length, written index = true
  | .crash _ _ _ | .restart => True

instance (actor : KLineActor) : ∀ input, Decidable (InTurn actor input)
  | .handle event written => inferInstanceAs (Decidable (event.Named ∧
      event.InTime actor.aggregators ∧
        ∀ index < (event.handle actor.aggregators).2.length, written index = true))
  | .crash _ _ _ => .isTrue trivial
  | .restart => .isTrue trivial

/-! ## What is in the WAL -/

theorem appended_append (instrumentId : String) (period : KLinePeriod)
    (first second : List KLineFinishedRecord) :
    appended instrumentId period (first ++ second) =
      appended instrumentId period first ++ appended instrumentId period second :=
  List.filterMap_append

def Recorded (finished : List FinishedKLine) : Prop :=
  ∀ entry ∈ finished, WalRecord.Fits 16 entry.instrumentId ∧ entry.kline.isFinished = true

theorem appended_records (recorded : Recorded finished) (instrumentId : String)
    (period : KLinePeriod) :
    appended instrumentId period (finished.map FinishedKLine.record) =
      finishedOf instrumentId period finished := by
  rw [appended, finishedOf, List.filterMap_map]
  apply List.filterMap_congr
  intro entry member
  rcases recorded entry member with ⟨fits, isFinished⟩
  have name : WalRecord.fromFixedArray entry.record.instrumentId = entry.instrumentId :=
    WalRecord.fromFixedArray_toFixedArray fits
  have ofPeriod : KLinePeriod.fromInt entry.record.period = some entry.period :=
    KLinePeriod.fromInt_toInt entry.period
  rw [Function.comp_apply, name, ofPeriod, FinishedKLine.kline_record isFinished]
  simp only [Option.some.injEq]

def writtenOf (written : ℕ → Bool) (finished : List FinishedKLine) : List FinishedKLine :=
  (finished.zipIdx.filter fun entry => written entry.2).map Prod.fst

theorem persist_eq (written : ℕ → Bool) (finished : List FinishedKLine)
    (wal : List KLineFinishedRecord) :
    persist written finished wal = wal ++ (writtenOf written finished).map FinishedKLine.record := by
  rw [persist, writtenOf, List.map_map]
  rfl

theorem writtenOf_sublist (written : ℕ → Bool) (finished : List FinishedKLine) :
    (writtenOf written finished).Sublist finished := by
  have kept := (List.filter_sublist
    (p := fun entry : FinishedKLine × ℕ => written entry.2) (l := finished.zipIdx)).map Prod.fst
  rw [List.zipIdx_map_fst] at kept
  exact kept

theorem writtenOf_all {finished : List FinishedKLine}
    (all : ∀ index < finished.length, written index = true) :
    writtenOf written finished = finished := by
  have every : (finished.zipIdx.filter fun entry => written entry.2) = finished.zipIdx := by
    apply List.filter_eq_self.mpr
    intro entry member
    exact all entry.2 (List.snd_lt_of_mem_zipIdx member)
  rw [writtenOf, every, List.zipIdx_map_fst]

end KLineActor

/-- Only an instrument with an aggregator gets bars finished, and only finished ones. -/
theorem KLineEvent.mem_handle {event : KLineEvent} (member : entry ∈ (event.handle aggregators).2) :
    aggregators entry.instrumentId ≠ none ∧ entry.kline.isFinished = true := by
  have ofTrack : entry.kline ∈
      finishedOf entry.instrumentId entry.period (event.handle aggregators).2 :=
    List.mem_filterMap.mpr ⟨entry, member, if_pos ⟨rfl, rfl⟩⟩
  have moved := event.handle_movedTo aggregators entry.instrumentId entry.period
  cases reached : event.periodStart aggregators entry.instrumentId entry.period with
  | none =>
    rw [reached] at moved
    rw [moved.2] at ofTrack
    cases ofTrack
  | some start =>
    rw [reached] at moved
    refine ⟨?_, moved.isFinished _ ofTrack⟩
    intro absent
    rcases moved.closed with ⟨none_closed, _⟩ | ⟨current, _, isCurrent, _⟩
    · rw [none_closed] at ofTrack
      cases ofTrack
    · rw [track, absent] at isCurrent
      cases isCurrent

theorem KLineEvent.Named.fits {event : KLineEvent} (named : event.Named)
    (fits : ∀ instrumentId, aggregators instrumentId ≠ none → WalRecord.Fits 16 instrumentId)
    (instrumentId : String) (hasAggregator : (event.handle aggregators).1 instrumentId ≠ none) :
    WalRecord.Fits 16 instrumentId := by
  cases event with
  | tick other price volume timestampMs =>
    by_cases same : other = instrumentId
    · exact same ▸ named
    · have kept := aggregators.replaceWith_of_ne same
        (((aggregators other).getD .new).onTick price volume timestampMs)
      exact fits instrumentId (kept ▸ hasAggregator)
  | timer currentTimestampMs order =>
    apply fits
    intro absent
    apply hasAggregator
    exact onTimer_eq_none absent currentTimestampMs order.dedup

namespace KLineActor

theorem track_recoverRecord (aggregators : KLineAggregators) (record : KLineFinishedRecord)
    (instrumentId : String) (period : KLinePeriod) :
    (recoverRecord aggregators record).track instrumentId period =
      (aggregators.track instrumentId period).pushHistory
        (appended instrumentId period [record]) := by
  rw [recoverRecord, appended, List.filterMap_cons, List.filterMap_nil]
  cases ofPeriod : KLinePeriod.fromInt record.period with
  | none =>
    rw [if_neg fun same => Option.some_ne_none _ same.2.symm]
    rfl
  | some recordPeriod =>
    dsimp only
    by_cases sameName : WalRecord.fromFixedArray record.instrumentId = instrumentId
    · rw [track_getD aggregators, ← sameName, track,
        Function.update_self]
      by_cases samePeriod : recordPeriod = period
      · rw [if_pos ⟨rfl, congrArg some samePeriod⟩, ← samePeriod]
        exact Function.update_self ..
      · rw [if_neg fun same => samePeriod (Option.some.inj same.2)]
        exact Function.update_of_ne (Ne.symm samePeriod) _ _
    · rw [if_neg fun same => sameName same.1, track,
        Function.update_of_ne (Ne.symm sameName)]
      rfl

theorem pushHistory_append (first second : List KLine) (track : KLineTrack) :
    (track.pushHistory first).pushHistory second = track.pushHistory (first ++ second) := by
  rw [KLineTrack.pushHistory, KLineTrack.pushHistory, KLineTrack.pushHistory, List.foldl_append]

theorem track_foldl_recoverRecord (wal : List KLineFinishedRecord) (aggregators : KLineAggregators)
    (instrumentId : String) (period : KLinePeriod) :
    track (wal.foldl recoverRecord aggregators) instrumentId period =
      (aggregators.track instrumentId period).pushHistory (appended instrumentId period wal) := by
  induction wal generalizing aggregators with
  | nil => rfl
  | cons record wal induction =>
    have split := appended_append instrumentId period [record] wal
    rw [List.singleton_append] at split
    rw [List.foldl_cons, induction, track_recoverRecord, pushHistory_append, split]

theorem track_recoverFromWal (wal : List KLineFinishedRecord) (instrumentId : String)
    (period : KLinePeriod) : (recoverFromWal wal).track instrumentId period =
      { KLineTrack.empty with
        history := (appended instrumentId period wal).rtake KLineTrack.maxHistory } := by
  have recovered := foldl_pushBounded KLineTrack.maxHistory [] (appended instrumentId period wal)
  rw [List.nil_append] at recovered
  rw [← recovered]
  exact track_foldl_recoverRecord wal (fun _ => none) instrumentId period

variable {wal : List KLineFinishedRecord}

theorem recoverFromWal_eq_none
    (absent : ∀ record ∈ wal, WalRecord.fromFixedArray record.instrumentId ≠ instrumentId) :
    recoverFromWal wal instrumentId = none := by
  have kept (aggregators : KLineAggregators) :
      wal.foldl recoverRecord aggregators instrumentId = aggregators instrumentId := by
    induction wal generalizing aggregators with
    | nil => rfl
    | cons record wal induction =>
      have later := induction (fun other member => absent other (List.mem_cons_of_mem _ member))
      rw [List.foldl_cons, later, recoverRecord]
      cases KLinePeriod.fromInt record.period with
      | none => rfl
      | some period =>
        exact Function.update_of_ne (Ne.symm (absent record List.mem_cons_self)) _ _
  exact kept _

/-! ## Runs -/

structure Invariant (actor : KLineActor) : Prop where
  named : ∀ record ∈ actor.wal,
    WalRecord.Fits 16 (WalRecord.fromFixedArray record.instrumentId)
  fits : ∀ instrumentId, actor.aggregators instrumentId ≠ none → WalRecord.Fits 16 instrumentId
  kept : ∀ instrumentId period, actor.historyKlines instrumentId period =
    (appended instrumentId period actor.wal).rtake KLineTrack.maxHistory
  follows : ∀ instrumentId period,
    (actor.aggregators.track instrumentId period).Follows
      (appended instrumentId period actor.wal)

variable {actor : KLineActor}

theorem Invariant.isSeries (invariant : Invariant actor) : IsSeries actor := by
  intro instrumentId period
  have inOrder := (invariant.follows instrumentId period).inOrder
  refine ⟨?_, invariant.kept instrumentId period⟩
  rw [invariant.kept]
  exact List.Pairwise.sublist (List.drop_sublist _ _) inOrder

theorem Invariant.recorded (invariant : Invariant actor) (event : KLineEvent) :
    Recorded (event.handle actor.aggregators).2 := by
  intro entry member
  rcases KLineEvent.mem_handle member with ⟨hasAggregator, isFinished⟩
  exact ⟨invariant.fits _ hasAggregator, isFinished⟩

theorem Recorded.sublist {kept : List FinishedKLine} (recorded : Recorded finished)
    (sublist : kept.Sublist finished) : Recorded kept :=
  fun entry member => recorded entry (sublist.subset member)

theorem named_append
    (named : ∀ record ∈ wal, WalRecord.Fits 16 (WalRecord.fromFixedArray record.instrumentId))
    (recorded : Recorded finished) :
    ∀ record ∈ wal ++ finished.map FinishedKLine.record,
      WalRecord.Fits 16 (WalRecord.fromFixedArray record.instrumentId) := by
  intro record member
  rcases List.mem_append.mp member with old | new
  · exact named record old
  · rcases List.mem_map.mp new with ⟨entry, isEntry, rfl⟩
    have fits := (recorded entry isEntry).1
    rw [FinishedKLine.record, WalRecord.fromFixedArray_toFixedArray fits]
    exact fits

theorem invariant_started
    (named : ∀ record ∈ wal, WalRecord.Fits 16 (WalRecord.fromFixedArray record.instrumentId))
    (inOrder : ∀ instrumentId period, KLine.InOrder (appended instrumentId period wal)) :
    Invariant (started wal) where
  named := named
  fits := by
    intro instrumentId recovered
    by_contra notFits
    apply recovered
    apply recoverFromWal_eq_none
    intro record member same
    exact notFits (same ▸ named record member)
  kept := by
    intro instrumentId period
    rw [historyKlines, started, track_recoverFromWal]
  follows := by
    intro instrumentId period
    rw [started, track_recoverFromWal, KLineTrack.Follows]
    have nothing : (KLineTrack.empty.current).toList = [] := rfl
    rw [nothing, List.append_nil]
    exact inOrder instrumentId period

/-- Whatever is written of the bars of an event, the WAL stays in order. -/
theorem Invariant.crash (invariant : Invariant actor) (event : KLineEvent)
    {kept : List FinishedKLine} (sublist : kept.Sublist (event.handle actor.aggregators).2) :
    Invariant (started (actor.wal ++ kept.map FinishedKLine.record)) := by
  have recorded := (invariant.recorded event).sublist sublist
  apply invariant_started (named_append invariant.named recorded)
  intro instrumentId period
  rw [appended_append, appended_records recorded]
  have ofKept : (finishedOf instrumentId period kept).Sublist
      (finishedOf instrumentId period (event.handle actor.aggregators).2) :=
    sublist.filterMap _
  apply List.Pairwise.sublist (ofKept.append_left _)
  have follows := invariant.follows instrumentId period
  have moved := event.handle_movedTo actor.aggregators instrumentId period
  cases reached : event.periodStart actor.aggregators instrumentId period with
  | none =>
    rw [reached] at moved
    rw [moved.2, List.append_nil]
    exact follows.inOrder
  | some start =>
    rw [reached] at moved
    exact moved.inOrder follows

theorem Invariant.handle (invariant : Invariant actor) {event : KLineEvent} {written : ℕ → Bool}
    (inTurn : actor.InTurn (.handle event written)) :
    Invariant (actor.step (.handle event written)) := by
  rcases inTurn with ⟨isNamed, inTime, all⟩
  have recorded := invariant.recorded event
  have wal : (actor.step (.handle event written)).wal =
      actor.wal ++ (event.handle actor.aggregators).2.map FinishedKLine.record := by
    rw [← writtenOf_all all]
    exact persist_eq written _ actor.wal
  have after (instrumentId : String) (period : KLinePeriod) :
      appended instrumentId period (actor.step (.handle event written)).wal =
        appended instrumentId period actor.wal ++
          finishedOf instrumentId period (event.handle actor.aggregators).2 := by
    rw [wal, appended_append, appended_records recorded]
  constructor
  · rw [wal]
    exact named_append invariant.named recorded
  · exact isNamed.fits invariant.fits
  · intro instrumentId period
    have kept := invariant.kept instrumentId period
    have moved := event.handle_movedTo actor.aggregators instrumentId period
    rw [after]
    cases reached : event.periodStart actor.aggregators instrumentId period with
    | none =>
      rw [reached] at moved
      rw [moved.2, List.append_nil, ← kept]
      exact congrArg KLineTrack.history moved.1
    | some start =>
      rw [reached] at moved
      rw [← foldl_pushBounded, ← kept]
      exact moved.history
  · intro instrumentId period
    have follows := invariant.follows instrumentId period
    have moved := event.handle_movedTo actor.aggregators instrumentId period
    rw [after]
    cases reached : event.periodStart actor.aggregators instrumentId period with
    | none =>
      rw [reached] at moved
      rw [moved.2, List.append_nil]
      exact moved.1 ▸ follows
    | some start =>
      rw [reached] at moved
      have trackInTime := inTime.track reached
      unfold KLineTrack.InTime at trackInTime
      apply moved.follows follows
      · intro kline isCurrent
        rw [isCurrent] at trackInTime
        exact trackInTime
      · intro noCurrent
        rw [noCurrent] at trackInTime
        apply follows.inOrder.before_of_last
        have kept := invariant.kept instrumentId period
        have last := getLast?_rtake (by decide : 0 < KLineTrack.maxHistory)
          (appended instrumentId period actor.wal)
        rw [← kept] at last
        rw [← last]
        exact trackInTime

theorem Invariant.step (invariant : Invariant actor) (inTurn : actor.InTurn input) :
    Invariant (actor.step input) := by
  cases input with
  | handle event written => exact invariant.handle inTurn
  | crash event written appends =>
    have crashed := invariant.crash event ((writtenOf_sublist written
      ((event.handle actor.aggregators).2.take appends)).trans (List.take_sublist _ _))
    rw [← persist_eq] at crashed
    exact crashed
  | restart =>
    apply invariant_started invariant.named
    intro instrumentId period
    exact (invariant.follows instrumentId period).inOrder

/-- If every event that is handled comes in turn, the histories are time series throughout. -/
theorem isSeries_of_along {inputs : List Input} (along : Along step InTurn inputs (started [])) :
    IsSeries (inputs.foldl step (started [])) := by
  have start : Invariant (started []) := by
    apply invariant_started
    · exact List.forall_mem_nil _
    · intro instrumentId period
      exact .nil
  exact (foldl_along Invariant (fun _ _ invariant => invariant.step) along start).isSeries

/-- A tick that comes after the timer has closed its period opens the period again. -/
def lateTick : List Input :=
  [.handle (.tick "IF" 1 1 0) fun _ => true,
    .handle (.timer 3000 ["IF"]) fun _ => true,
    .handle (.tick "IF" 1 1 1000) fun _ => true,
    .handle (.tick "IF" 1 1 3000) fun _ => true]

theorem lateTick_not_isSeries : ¬IsSeries (lateTick.foldl step (started [])) := by
  intro isSeries
  have inOrder := (isSeries "IF" .Sec3).1
  revert inOrder
  decide +kernel

/-- Two bars closed by the timer, a crash after the first append of the next ones, and a tick. -/
theorem crashedTimer_isSeries :
    IsSeries (([.handle (.tick "IF" 1 1 0) fun _ => true,
      .handle (.timer 6000 ["IF"]) fun _ => true,
      .crash (.timer 12000 ["IF"]) (fun _ => true) 1,
      .handle (.tick "IF" 2 1 12000) fun _ => true] : List Input).foldl step (started [])) := by
  apply isSeries_of_along
  decide +kernel

end KLineActor

end QAExchange
