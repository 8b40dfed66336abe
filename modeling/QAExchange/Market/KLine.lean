import Mathlib.Algebra.Order.Ring.Rat
import QAExchange.Foundation.LastWindow

/-! # K-lines

The aggregation of ticks into bars of seven periods. A bar is closed by a tick or by
the timer, whichever shows first that its period is over.
-/

namespace QAExchange

open Foundation

structure KLine where
  timestamp : ℤ
  openPrice : ℚ
  high : ℚ
  low : ℚ
  close : ℚ
  volume : ℤ
  amount : ℚ
  openOi : ℤ
  closeOi : ℤ
  isFinished : Bool
  deriving DecidableEq

namespace KLine

def new (timestamp : ℤ) (price : ℚ) : KLine where
  timestamp := timestamp
  openPrice := price
  high := price
  low := price
  close := price
  volume := 0
  amount := 0
  openOi := 0
  closeOi := 0
  isFinished := false

def update (price : ℚ) (volume : ℤ) (kline : KLine) : KLine :=
  { kline with
    close := price
    high := max kline.high price
    low := min kline.low price
    volume := kline.volume + volume
    amount := kline.amount + price * volume }

def finish (kline : KLine) : KLine := { kline with isFinished := true }

def InOrder (klines : List KLine) : Prop :=
  klines.Pairwise fun left right => left.timestamp < right.timestamp

instance (klines : List KLine) : Decidable (InOrder klines) :=
  inferInstanceAs (Decidable (klines.Pairwise fun left right => left.timestamp < right.timestamp))

end KLine

inductive KLinePeriod
  | Sec3
  | Min1
  | Min5
  | Min15
  | Min30
  | Min60
  | Day
  deriving DecidableEq

namespace KLinePeriod

def fromInt (value : ℤ) : Option KLinePeriod :=
  if value = 0 then some .Day
  else if value = 3 then some .Sec3
  else if value = 4 then some .Min1
  else if value = 5 then some .Min5
  else if value = 6 then some .Min15
  else if value = 7 then some .Min30
  else if value = 8 then some .Min60
  else none

def toInt : KLinePeriod → ℤ
  | .Day => 0
  | .Sec3 => 3
  | .Min1 => 4
  | .Min5 => 5
  | .Min15 => 6
  | .Min30 => 7
  | .Min60 => 8

@[simp] theorem fromInt_toInt (period : KLinePeriod) : fromInt period.toInt = some period := by
  cases period <;> rfl

def seconds : KLinePeriod → ℤ
  | .Sec3 => 3
  | .Min1 => 60
  | .Min5 => 300
  | .Min15 => 900
  | .Min30 => 1800
  | .Min60 => 3600
  | .Day => 86400

theorem seconds_pos (period : KLinePeriod) : 0 < period.seconds := by
  cases period <;> decide

def alignTimestamp (period : KLinePeriod) (timestampMs : ℤ) : ℤ :=
  match period with
  | .Day => (timestampMs.tdiv 1000).tdiv 86400 * 86400 * 1000
  | _ => (timestampMs.tdiv 1000).tdiv period.seconds * period.seconds * 1000

def periods : List KLinePeriod := [.Sec3, .Min1, .Min5, .Min15, .Min30, .Min60, .Day]

theorem filterMap_periods {α : Type} (found : KLinePeriod → List α) (period : KLinePeriod) :
    (periods.flatMap fun each => (found each).map fun entry => (each, entry)).filterMap
      (fun entry => if entry.1 = period then some entry.2 else none) = found period := by
  have one (each : KLinePeriod) :
      ((found each).map fun entry => (each, entry)).filterMap
        (fun entry => if entry.1 = period then some entry.2 else none) =
      if each = period then found each else [] := by
    rw [List.filterMap_map]
    split_ifs with same
    · have every : (fun entry => if entry.1 = period then some entry.2 else none) ∘
          (fun entry : α => (each, entry)) = some := by
        funext entry
        exact if_pos same
      rw [every, List.filterMap_some]
    · apply List.filterMap_eq_nil_iff.mpr
      intro entry _
      exact if_neg same
  rw [List.filterMap_flatMap]
  simp only [one]
  cases period <;> simp [periods]

end KLinePeriod

/-- What the aggregator has for one period: its entries in `current_klines`,
`history_klines` and `last_period_timestamps`. -/
structure KLineTrack where
  current : Option KLine
  history : List KLine
  lastPeriodTimestamp : Option ℤ

namespace KLineTrack

def empty : KLineTrack where
  current := none
  history := []
  lastPeriodTimestamp := none

def maxHistory : ℕ := 1000

/-- Finished bars go to the history one after the other. -/
def pushHistory (klines : List KLine) (track : KLineTrack) : KLineTrack :=
  { track with history := klines.foldl (pushBounded maxHistory) track.history }

/-- The loop body of `on_tick`, for a period that starts at `periodStart`. -/
def onTick (periodStart : ℤ) (price : ℚ) (volume : ℤ) (track : KLineTrack) :
    KLineTrack × List KLine :=
  let stamped := { track with lastPeriodTimestamp := some periodStart }
  match track.current with
  | some current =>
    if current.timestamp ≠ periodStart then
      ({ stamped.pushHistory [current.finish] with
        current := some ((KLine.new periodStart price).update price volume) }, [current.finish])
    else ({ stamped with current := some (current.update price volume) }, [])
  | none =>
    ({ stamped with current := some ((KLine.new periodStart price).update price volume) }, [])

/-- The bars without trades up to the current period, at most as many as there is fuel. -/
def gapKlines (periodMs currentPeriodStart : ℤ) (lastPrice : ℚ) : ℕ → ℤ → List KLine
  | 0, _ => []
  | fuel + 1, gapTs =>
    if gapTs < currentPeriodStart then
      (KLine.new gapTs lastPrice).finish ::
        gapKlines periodMs currentPeriodStart lastPrice fuel (gapTs + periodMs)
    else []

/-- The loop body of `on_timer`. -/
def onTimer (periodMs currentPeriodStart : ℤ) (lastPrice : ℚ) (track : KLineTrack) :
    KLineTrack × List KLine :=
  let stamped := { track with lastPeriodTimestamp := some currentPeriodStart }
  match track.current with
  | some current =>
    if current.timestamp ≠ currentPeriodStart then
      let finished := current.finish ::
        gapKlines periodMs currentPeriodStart lastPrice 100 (current.timestamp + periodMs)
      ({ stamped.pushHistory finished with
        current := some (.new currentPeriodStart lastPrice) }, finished)
    else (stamped, [])
  | none => ({ stamped with current := some (.new currentPeriodStart lastPrice) }, [])

/-! ## What a tick and the timer have in common -/

/-- A track has come to the period that starts at `periodStart`, and these bars are finished. -/
structure Moved (periodStart : ℤ) (track next : KLineTrack) (finished : List KLine) : Prop where
  isCurrent : ∃ kline, next.current = some kline ∧ kline.timestamp = periodStart
  history : next.history = finished.foldl (pushBounded maxHistory) track.history
  isFinished : ∀ kline ∈ finished, kline.isFinished = true
  closed : (finished = [] ∧ ∀ kline ∈ track.current, kline.timestamp = periodStart) ∨
    ∃ current gaps, track.current = some current ∧ current.timestamp ≠ periodStart ∧
      finished = current.finish :: gaps ∧ KLine.InOrder gaps ∧
      ∀ gap ∈ gaps, current.timestamp < gap.timestamp ∧ gap.timestamp < periodStart

theorem onTick_moved (periodStart : ℤ) (price : ℚ) (volume : ℤ) (track : KLineTrack) :
    Moved periodStart track (track.onTick periodStart price volume).1
      (track.onTick periodStart price volume).2 := by
  unfold onTick
  cases isCurrent : track.current with
  | none =>
    refine ⟨⟨_, rfl, rfl⟩, rfl, List.forall_mem_nil _, .inl ⟨rfl, ?_⟩⟩
    rw [isCurrent]
    intro kline absent
    cases absent
  | some current =>
    dsimp only
    split_ifs with ended
    · refine ⟨⟨_, rfl, rfl⟩, rfl, ?_, .inr ⟨current, [], isCurrent, ended, rfl, .nil, ?_⟩⟩
      · intro kline member
        rw [List.mem_singleton.mp member]
        rfl
      · exact List.forall_mem_nil _
    · have same : current.timestamp = periodStart := not_not.mp ended
      refine ⟨⟨_, rfl, same⟩, rfl, List.forall_mem_nil _, .inl ⟨rfl, ?_⟩⟩
      rw [isCurrent]
      intro kline isKline
      cases isKline
      exact same

theorem isFinished_gapKlines
    (member : kline ∈ gapKlines periodMs currentPeriodStart lastPrice fuel gapTs) :
    kline.isFinished = true := by
  induction fuel generalizing gapTs with
  | zero => cases member
  | succ fuel induction =>
    rw [gapKlines] at member
    split_ifs at member with inside
    · rcases List.mem_cons.mp member with rfl | later
      · rfl
      · exact induction later
    · cases member

theorem gapKlines_between (positive : 0 < periodMs)
    (member : kline ∈ gapKlines periodMs currentPeriodStart lastPrice fuel gapTs) :
    gapTs ≤ kline.timestamp ∧ kline.timestamp < currentPeriodStart := by
  induction fuel generalizing gapTs with
  | zero => cases member
  | succ fuel induction =>
    rw [gapKlines] at member
    split_ifs at member with inside
    · rcases List.mem_cons.mp member with rfl | later
      · exact ⟨le_rfl, inside⟩
      · have bounds := induction later
        omega
    · cases member

theorem gapKlines_inOrder (positive : 0 < periodMs) (currentPeriodStart : ℤ) (lastPrice : ℚ)
    (fuel : ℕ) (gapTs : ℤ) :
    KLine.InOrder (gapKlines periodMs currentPeriodStart lastPrice fuel gapTs) := by
  induction fuel generalizing gapTs with
  | zero => exact .nil
  | succ fuel induction =>
    rw [gapKlines]
    split_ifs with inside
    · apply List.Pairwise.cons _ (induction _)
      intro kline later
      have bounds := gapKlines_between positive later
      change gapTs < kline.timestamp
      omega
    · exact .nil

theorem onTimer_moved (positive : 0 < periodMs) (currentPeriodStart : ℤ) (lastPrice : ℚ)
    (track : KLineTrack) :
    Moved currentPeriodStart track (track.onTimer periodMs currentPeriodStart lastPrice).1
      (track.onTimer periodMs currentPeriodStart lastPrice).2 := by
  unfold onTimer
  cases isCurrent : track.current with
  | none =>
    refine ⟨⟨_, rfl, rfl⟩, rfl, List.forall_mem_nil _, .inl ⟨rfl, ?_⟩⟩
    rw [isCurrent]
    intro kline absent
    cases absent
  | some current =>
    dsimp only
    split_ifs with ended
    · refine ⟨⟨_, rfl, rfl⟩, rfl, ?_, .inr ⟨current, _, isCurrent, ended, rfl,
        gapKlines_inOrder positive _ _ _ _, ?_⟩⟩
      · intro kline member
        rcases List.mem_cons.mp member with rfl | gap
        · rfl
        · exact isFinished_gapKlines gap
      · intro gap member
        have bounds := gapKlines_between positive member
        omega
    · have same : current.timestamp = currentPeriodStart := not_not.mp ended
      refine ⟨⟨current, rfl, same⟩, rfl, List.forall_mem_nil _, .inl ⟨rfl, ?_⟩⟩
      rw [isCurrent]
      intro kline isKline
      cases isKline
      exact same

/-- The bars that have been finished come before the current one, in the order of time. -/
def Follows (finished : List KLine) (track : KLineTrack) : Prop :=
  KLine.InOrder (finished ++ track.current.toList)

theorem Follows.inOrder {track : KLineTrack} (follows : track.Follows finished) :
    KLine.InOrder finished :=
  (List.pairwise_append.mp follows).1

theorem Moved.inOrder (moved : Moved periodStart track next finished)
    (follows : track.Follows before) : KLine.InOrder (before ++ finished) := by
  rcases moved.closed with
    ⟨none_closed, _⟩ | ⟨current, gaps, isCurrent, _, isFinished, gapsInOrder, between⟩
  · rw [none_closed, List.append_nil]
    exact follows.inOrder
  · unfold Follows at follows
    rw [isCurrent] at follows
    rcases List.pairwise_append.mp follows with ⟨inOrder, _, earlier⟩
    rw [isFinished]
    apply List.pairwise_append.mpr
    refine ⟨inOrder, List.Pairwise.cons ?_ gapsInOrder, ?_⟩
    · intro gap member
      exact (between gap member).1
    · intro kline member other isOther
      have before_current : kline.timestamp < current.timestamp :=
        earlier kline member current (List.mem_singleton_self current)
      rcases List.mem_cons.mp isOther with rfl | gap
      · exact before_current
      · exact before_current.trans (between other gap).1

/-- The period is not over already: neither the current bar lies after it, nor, where there
is none, does the last finished one lie in it or after it. -/
def InTime (periodStart : ℤ) (track : KLineTrack) : Prop :=
  match track.current with
  | some current => current.timestamp ≤ periodStart
  | none => ∀ kline ∈ track.history.getLast?, kline.timestamp < periodStart

instance (periodStart : ℤ) (track : KLineTrack) : Decidable (InTime periodStart track) := by
  unfold InTime
  cases track.current with
  | some current => exact inferInstanceAs (Decidable (current.timestamp ≤ periodStart))
  | none =>
    exact inferInstanceAs (Decidable (∀ kline ∈ track.history.getLast?,
      kline.timestamp < periodStart))

theorem Moved.follows (moved : Moved periodStart track next finished)
    (follows : track.Follows before)
    (notAfter : ∀ kline ∈ track.current, kline.timestamp ≤ periodStart)
    (after : track.current = none → ∀ kline ∈ before, kline.timestamp < periodStart) :
    next.Follows (before ++ finished) := by
  rcases moved.isCurrent with ⟨last, isLast, atStart⟩
  unfold Follows
  rw [isLast]
  apply List.pairwise_append.mpr
  refine ⟨moved.inOrder follows, List.pairwise_singleton _ _, ?_⟩
  intro kline member other isOther
  rw [List.mem_singleton.mp isOther, atStart]
  unfold Follows at follows
  rcases moved.closed with ⟨none_closed, same⟩ | ⟨current, gaps, isCurrent, ended, isFinished, _, between⟩
  · rw [none_closed, List.append_nil] at member
    cases isCurrent : track.current with
    | none => exact after isCurrent kline member
    | some current =>
      rw [isCurrent] at follows
      have earlier := (List.pairwise_append.mp follows).2.2 kline member current
        (List.mem_singleton_self current)
      rw [← same current isCurrent]
      exact earlier
  · have isBefore : current.timestamp < periodStart :=
      lt_of_le_of_ne (notAfter current isCurrent) ended
    rw [isCurrent] at follows
    rw [isFinished] at member
    rcases List.mem_append.mp member with old | new
    · have earlier := (List.pairwise_append.mp follows).2.2 kline old current
        (List.mem_singleton_self current)
      exact earlier.trans isBefore
    · rcases List.mem_cons.mp new with rfl | gap
      · exact isBefore
      · exact (between kline gap).2

end KLineTrack

/-! ## One instrument -/

structure KLineAggregator where
  tracks : KLinePeriod → KLineTrack
  lastPrice : Option ℚ

namespace KLineAggregator

def new : KLineAggregator where
  tracks _ := .empty
  lastPrice := none

def onTick (price : ℚ) (volume timestampMs : ℤ) (aggregator : KLineAggregator) :
    KLineAggregator × List (KLinePeriod × KLine) :=
  let moved := fun period =>
    (aggregator.tracks period).onTick (period.alignTimestamp timestampMs) price volume
  ({ tracks := fun period => (moved period).1, lastPrice := some price },
    KLinePeriod.periods.flatMap fun period => (moved period).2.map fun kline => (period, kline))

def onTimer (currentTimestampMs : ℤ) (aggregator : KLineAggregator) :
    KLineAggregator × List (KLinePeriod × KLine) :=
  match aggregator.lastPrice with
  | none => (aggregator, [])
  | some lastPrice =>
    let moved := fun period =>
      (aggregator.tracks period).onTimer (period.seconds * 1000)
        (period.alignTimestamp currentTimestampMs) lastPrice
    ({ aggregator with tracks := fun period => (moved period).1 },
      KLinePeriod.periods.flatMap fun period => (moved period).2.map fun kline => (period, kline))

def finishedIn (period : KLinePeriod) (finished : List (KLinePeriod × KLine)) : List KLine :=
  finished.filterMap fun entry => if entry.1 = period then some entry.2 else none

theorem onTick_moved (price : ℚ) (volume timestampMs : ℤ) (aggregator : KLineAggregator)
    (period : KLinePeriod) : (aggregator.tracks period).Moved (period.alignTimestamp timestampMs)
      ((aggregator.onTick price volume timestampMs).1.tracks period)
      (finishedIn period (aggregator.onTick price volume timestampMs).2) := by
  have found := KLinePeriod.filterMap_periods (fun each =>
    ((aggregator.tracks each).onTick (each.alignTimestamp timestampMs) price volume).2) period
  rw [finishedIn, onTick, found]
  exact KLineTrack.onTick_moved _ _ _ _

theorem onTimer_moved {lastPrice : ℚ} (currentTimestampMs : ℤ) {aggregator : KLineAggregator}
    (priced : aggregator.lastPrice = some lastPrice) (period : KLinePeriod) :
    (aggregator.tracks period).Moved (period.alignTimestamp currentTimestampMs)
      ((aggregator.onTimer currentTimestampMs).1.tracks period)
      (finishedIn period (aggregator.onTimer currentTimestampMs).2) := by
  have found := KLinePeriod.filterMap_periods (fun each =>
    ((aggregator.tracks each).onTimer (each.seconds * 1000)
      (each.alignTimestamp currentTimestampMs) lastPrice).2) period
  have positive : 0 < period.seconds * 1000 := Int.mul_pos period.seconds_pos (by decide)
  simp only [onTimer, priced]
  rw [finishedIn, found]
  exact KLineTrack.onTimer_moved positive _ _ _

theorem onTimer_unpriced (currentTimestampMs : ℤ) {aggregator : KLineAggregator}
    (unpriced : aggregator.lastPrice = none) :
    aggregator.onTimer currentTimestampMs = (aggregator, []) := by
  simp only [onTimer, unpriced]

end KLineAggregator

abbrev KLineAggregators := String → Option KLineAggregator

structure FinishedKLine where
  instrumentId : String
  period : KLinePeriod
  kline : KLine

namespace KLineAggregators

variable (aggregators : KLineAggregators)

def track (instrumentId : String) (period : KLinePeriod) : KLineTrack :=
  match aggregators instrumentId with
  | none => .empty
  | some aggregator => aggregator.tracks period

def replaceWith (instrumentId : String) (moved : KLineAggregator × List (KLinePeriod × KLine)) :
    KLineAggregators × List FinishedKLine :=
  (Function.update aggregators instrumentId (some moved.1),
    moved.2.map fun entry => ⟨instrumentId, entry.1, entry.2⟩)

/-- `KLineManager::on_tick`, and what the actor does with a tick. -/
def onTick (instrumentId : String) (price : ℚ) (volume timestampMs : ℤ) :
    KLineAggregators × List FinishedKLine :=
  aggregators.replaceWith instrumentId
    (((aggregators instrumentId).getD .new).onTick price volume timestampMs)

/-- The timer goes through the aggregators in the order in which the map has them. -/
def onTimer (currentTimestampMs : ℤ) :
    List String → KLineAggregators → KLineAggregators × List FinishedKLine
  | [], aggregators => (aggregators, [])
  | instrumentId :: order, aggregators =>
    match aggregators instrumentId with
    | none => onTimer currentTimestampMs order aggregators
    | some aggregator =>
      let moved := aggregators.replaceWith instrumentId (aggregator.onTimer currentTimestampMs)
      let others := onTimer currentTimestampMs order moved.1
      (others.1, moved.2 ++ others.2)

end KLineAggregators

def finishedOf (instrumentId : String) (period : KLinePeriod) (finished : List FinishedKLine) :
    List KLine :=
  finished.filterMap fun entry =>
    if entry.instrumentId = instrumentId ∧ entry.period = period then some entry.kline else none

@[simp] theorem finishedOf_append (instrumentId : String) (period : KLinePeriod)
    (first second : List FinishedKLine) :
    finishedOf instrumentId period (first ++ second) =
      finishedOf instrumentId period first ++ finishedOf instrumentId period second :=
  List.filterMap_append

theorem finishedOf_same (instrumentId : String) (period : KLinePeriod)
    (finished : List (KLinePeriod × KLine)) :
    finishedOf instrumentId period (finished.map fun entry => ⟨instrumentId, entry.1, entry.2⟩) =
      KLineAggregator.finishedIn period finished := by
  rw [finishedOf, KLineAggregator.finishedIn, List.filterMap_map]
  apply List.filterMap_congr
  intro entry _
  simp only [Function.comp_apply, true_and]

theorem finishedOf_other (different : other ≠ instrumentId) (period : KLinePeriod)
    (finished : List (KLinePeriod × KLine)) :
    finishedOf instrumentId period (finished.map fun entry => ⟨other, entry.1, entry.2⟩) = [] := by
  rw [finishedOf, List.filterMap_map]
  apply List.filterMap_eq_nil_iff.mpr
  intro entry _
  exact if_neg fun same => different same.1

end QAExchange
