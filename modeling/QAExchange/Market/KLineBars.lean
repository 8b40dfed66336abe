import Mathlib.Data.List.Chain
import Mathlib.Data.List.Nodup
import Mathlib.Order.Bounds.Basic
import QAExchange.Foundation.Runs
import QAExchange.Market.KLine

/-! # Bars and their ticks

The bars of a sequence of ticks and timer calls, and which ticks each of them has taken.
-/

namespace QAExchange

open Foundation

inductive KLineCall
  | tick (price : ℚ) (volume timestampMs : ℤ)
  | timer (timestampMs : ℤ)

namespace KLineCall

def time : KLineCall → ℤ
  | tick _ _ timestampMs => timestampMs
  | timer timestampMs => timestampMs

def price? : KLineCall → Option ℚ
  | tick price _ _ => some price
  | timer _ => none

def volume : KLineCall → ℤ
  | tick _ volume _ => volume
  | timer _ => 0

def amount : KLineCall → ℚ
  | tick price volume _ => price * volume
  | timer _ => 0

def prices (calls : List KLineCall) : List ℚ := calls.filterMap price?

/-- The interval of a bar: its timestamp, and a period behind it. -/
def Within (periodMs start : ℤ) (call : KLineCall) : Prop :=
  start ≤ call.time ∧ call.time < start + periodMs

instance (periodMs start : ℤ) (call : KLineCall) : Decidable (call.Within periodMs start) :=
  inferInstanceAs (Decidable (_ ∧ _))

def inside (periodMs start : ℤ) (calls : List KLineCall) : List KLineCall :=
  calls.filter fun call => call.Within periodMs start

/-- The last price before an interval, if a timer call is the first call in it. -/
def opening (periodMs start : ℤ) (calls : List KLineCall) : Option ℚ :=
  match (inside periodMs start calls).head? with
  | some (.timer _) => (prices (calls.filter fun call => call.time < start)).getLast?
  | _ => none

def barPrices (periodMs start : ℤ) (calls : List KLineCall) : List ℚ :=
  (opening periodMs start calls).toList ++ prices (inside periodMs start calls)

end KLineCall

open KLineCall

/-- A bar has the volume and the amount of ticks, and the first, last, highest and lowest of
its prices. -/
structure KLine.Shows (ticks : List KLineCall) (prices : List ℚ) (bar : KLine) : Prop where
  volume : bar.volume = (ticks.map KLineCall.volume).sum
  amount : bar.amount = (ticks.map KLineCall.amount).sum
  first : ∀ price ∈ prices.head?, bar.openPrice = price
  close : ∀ price ∈ prices.getLast?, bar.close = price
  high : prices ≠ [] → IsGreatest { price | price ∈ prices } bar.high
  low : prices ≠ [] → IsLeast { price | price ∈ prices } bar.low

def KLine.Aggregates (periodMs : ℤ) (calls : List KLineCall) (bar : KLine) : Prop :=
  bar.Shows (inside periodMs bar.timestamp calls) (barPrices periodMs bar.timestamp calls)

/-! ## A further call -/

section Append

variable {periodMs start : ℤ} {calls : List KLineCall} {call : KLineCall}

theorem prices_append (first second : List KLineCall) :
    prices (first ++ second) = prices first ++ prices second :=
  List.filterMap_append

theorem inside_append_within (within : call.Within periodMs start) :
    inside periodMs start (calls ++ [call]) = inside periodMs start calls ++ [call] := by
  rw [inside, List.filter_append, List.filter_singleton, decide_eq_true within]
  rfl

theorem inside_append_other (other : ¬ call.Within periodMs start) :
    inside periodMs start (calls ++ [call]) = inside periodMs start calls := by
  rw [inside, List.filter_append, List.filter_singleton, decide_eq_false other]
  exact List.append_nil _

theorem before_append (notBefore : start ≤ call.time) :
    ((calls ++ [call]).filter fun each => each.time < start) =
      calls.filter fun each => each.time < start := by
  rw [List.filter_append, List.filter_singleton, decide_eq_false (not_lt.mpr notBefore)]
  exact List.append_nil _

theorem barPrices_append_other (other : ¬ call.Within periodMs start)
    (notBefore : start ≤ call.time) :
    barPrices periodMs start (calls ++ [call]) = barPrices periodMs start calls := by
  rw [barPrices, opening, inside_append_other other, before_append notBefore, barPrices, opening]

theorem barPrices_append_opened (within : call.Within periodMs start)
    (opened : inside periodMs start calls ≠ []) :
    barPrices periodMs start (calls ++ [call]) =
      barPrices periodMs start calls ++ call.price?.toList := by
  rw [barPrices, opening, inside_append_within within, before_append within.1, barPrices, opening,
    List.head?_append_of_ne_nil _ opened, prices_append, List.append_assoc]
  cases call <;> rfl

theorem barPrices_append_first (within : call.Within periodMs start)
    (none_inside : inside periodMs start calls = []) :
    barPrices periodMs start (calls ++ [call]) = match call with
      | .tick price _ _ => [price]
      | .timer _ => (prices (calls.filter fun each => each.time < start)).getLast?.toList := by
  rw [barPrices, opening, inside_append_within within, before_append within.1, none_inside]
  cases call with
  | tick price volume timestampMs => rfl
  | timer timestampMs => exact List.append_nil _

theorem prices_eq_nil {part : List KLineCall} (unpriced : prices calls = [])
    (isPart : part.Sublist calls) : prices part = [] :=
  List.eq_nil_of_sublist_nil (unpriced ▸ isPart.filterMap price?)

theorem barPrices_of_unpriced (unpriced : prices calls = []) :
    barPrices periodMs start calls = [] := by
  have no_opening : opening periodMs start calls = none := by
    rw [opening, prices_eq_nil unpriced List.filter_sublist]
    split <;> rfl
  rw [barPrices, no_opening, inside, prices_eq_nil unpriced List.filter_sublist]
  rfl

theorem barPrices_append_priced {price : ℚ} {volume timestampMs : ℤ}
    (within : (tick price volume timestampMs).Within periodMs start)
    (unpriced : prices calls = []) :
    barPrices periodMs start (calls ++ [tick price volume timestampMs]) = [price] := by
  have no_opening : opening periodMs start (calls ++ [tick price volume timestampMs]) = none := by
    rw [opening, before_append within.1, prices_eq_nil unpriced List.filter_sublist]
    split <;> rfl
  have no_price : prices (inside periodMs start calls) = [] :=
    prices_eq_nil unpriced List.filter_sublist
  rw [barPrices, no_opening, inside_append_within within, prices_append, no_price]
  rfl

theorem inside_eq_nil (earlier : ∀ each ∈ calls, each.time < start) :
    inside periodMs start calls = [] := by
  apply List.filter_eq_nil_iff.mpr
  intro each member within
  exact not_le.mpr (earlier each member) (of_decide_eq_true within).1

theorem barPrices_eq_nil (untouched : inside periodMs start calls = []) :
    barPrices periodMs start calls = [] := by
  rw [barPrices, opening, untouched]
  rfl

end Append

/-! ## Bars -/

theorem mem_concat (prices : List ℚ) (price : ℚ) :
    { other | other ∈ prices ++ [price] } = insert price { other | other ∈ prices } := by
  ext other
  rw [Set.mem_insert_iff, Set.mem_ofPred_eq, List.mem_append, List.mem_singleton, or_comm]
  rfl

theorem sum_map_concat {Sum : Type} [AddMonoid Sum] (value : KLineCall → Sum)
    (calls : List KLineCall) (call : KLineCall) :
    ((calls ++ [call]).map value).sum = (calls.map value).sum + value call := by
  rw [List.map_append, List.sum_append, List.map_singleton, List.sum_singleton]

theorem sums_of_unpriced (unpriced : prices calls = []) :
    (calls.map KLineCall.volume).sum = 0 ∧ (calls.map KLineCall.amount).sum = 0 := by
  induction calls with
  | nil => exact ⟨rfl, rfl⟩
  | cons call calls induction =>
    cases call with
    | tick price volume timestampMs => cases unpriced
    | timer timestampMs =>
      rcases induction unpriced with ⟨noVolume, noAmount⟩
      rw [List.map_cons, List.map_cons, List.sum_cons, List.sum_cons, noVolume, noAmount]
      exact ⟨rfl, add_zero 0⟩

namespace KLine

variable {ticks : List KLineCall} {prices : List ℚ} {bar : KLine}

theorem Shows.timer (shows : bar.Shows ticks prices) (timestampMs : ℤ) :
    bar.Shows (ticks ++ [.timer timestampMs]) prices := by
  refine ⟨?_, ?_, shows.first, shows.close, shows.high, shows.low⟩
  · rw [sum_map_concat, ← shows.volume]
    exact (add_zero bar.volume).symm
  · rw [sum_map_concat, ← shows.amount]
    exact (add_zero bar.amount).symm

theorem Shows.update (shows : bar.Shows ticks prices) (priced : prices ≠ []) (price : ℚ)
    (volume timestampMs : ℤ) :
    (bar.update price volume).Shows (ticks ++ [.tick price volume timestampMs])
      (prices ++ [price]) := by
  constructor
  · rw [sum_map_concat, ← shows.volume]
    rfl
  · rw [sum_map_concat, ← shows.amount]
    rfl
  · rw [List.head?_append_of_ne_nil _ priced]
    exact shows.first
  · rw [List.getLast?_concat]
    rintro last ⟨⟩
    rfl
  · intro _
    rw [mem_concat, KLine.update, max_comm]
    exact (shows.high priced).insert price
  · intro _
    rw [mem_concat, KLine.update, min_comm]
    exact (shows.low priced).insert price

theorem shows_of_equal (volume : bar.volume = (ticks.map KLineCall.volume).sum)
    (amount : bar.amount = (ticks.map KLineCall.amount).sum) (openPrice : bar.openPrice = price)
    (close : bar.close = price) (high : bar.high = price) (low : bar.low = price) :
    bar.Shows ticks [price] := by
  refine ⟨volume, amount, ?_, ?_, fun _ => ?_, fun _ => ?_⟩
  · rintro first ⟨⟩
    exact openPrice
  · rintro last ⟨⟩
    exact close
  · rw [high]
    exact ⟨List.mem_cons_self, fun other member => (List.mem_singleton.mp member).le⟩
  · rw [low]
    exact ⟨List.mem_cons_self, fun other member => (List.mem_singleton.mp member).ge⟩

theorem shows_new (timestamp timestampMs : ℤ) (price : ℚ) :
    (new timestamp price).Shows [.timer timestampMs] [price] :=
  shows_of_equal rfl (add_zero 0).symm rfl rfl rfl rfl

theorem shows_first (timestamp timestampMs : ℤ) (price : ℚ) (volume : ℤ)
    (unpriced : KLineCall.prices ticks = []) :
    ((new timestamp price).update price volume).Shows (ticks ++ [.tick price volume timestampMs])
      [price] := by
  rcases sums_of_unpriced unpriced with ⟨noVolume, noAmount⟩
  refine shows_of_equal ?_ ?_ rfl rfl (max_self price) (min_self price)
  · rw [sum_map_concat, noVolume]
    rfl
  · rw [sum_map_concat, noAmount]
    rfl

theorem shows_empty (timestamp : ℤ) (price : ℚ) : (new timestamp price).finish.Shows [] [] :=
  ⟨rfl, rfl, fun price absent => absurd absent (Option.not_mem_none price),
    fun price absent => absurd absent (Option.not_mem_none price),
    fun priced => absurd rfl priced, fun priced => absurd rfl priced⟩

variable {periodMs : ℤ} {calls : List KLineCall} {call : KLineCall}

theorem Aggregates.finish (aggregates : bar.Aggregates periodMs calls) :
    bar.finish.Aggregates periodMs calls :=
  ⟨aggregates.volume, aggregates.amount, aggregates.first, aggregates.close, aggregates.high,
    aggregates.low⟩

theorem Aggregates.ended (aggregates : bar.Aggregates periodMs calls) (positive : 0 < periodMs)
    (isOver : bar.timestamp + periodMs ≤ call.time) :
    bar.Aggregates periodMs (calls ++ [call]) := by
  have other : ¬call.Within periodMs bar.timestamp := fun within => not_lt.mpr isOver within.2
  rw [Aggregates, inside_append_other other, barPrices_append_other other (by omega)]
  exact aggregates

end KLine

/-! ## One period -/

def KLinePeriod.milliseconds (period : KLinePeriod) : ℤ := period.seconds * 1000

theorem KLinePeriod.milliseconds_pos (period : KLinePeriod) : 0 < period.milliseconds :=
  Int.mul_pos period.seconds_pos (by decide)

theorem KLinePeriod.alignTimestamp_spec (period : KLinePeriod) {timestampMs : ℤ}
    (notNegative : 0 ≤ timestampMs) :
    period.milliseconds ∣ period.alignTimestamp timestampMs ∧
      period.alignTimestamp timestampMs ≤ timestampMs ∧
      timestampMs < period.alignTimestamp timestampMs + period.milliseconds := by
  have inSeconds : timestampMs.tdiv 1000 = timestampMs / 1000 :=
    Int.tdiv_eq_ediv_of_nonneg notNegative
  have inPeriods (seconds : ℤ) :
      (timestampMs / 1000).tdiv seconds = timestampMs / 1000 / seconds :=
    Int.tdiv_eq_ediv_of_nonneg (Int.ediv_nonneg notNegative (by decide))
  have aligned : period.alignTimestamp timestampMs =
      timestampMs / 1000 / period.seconds * period.seconds * 1000 := by
    cases period <;> simp only [alignTimestamp, inSeconds, inPeriods, seconds]
  rw [aligned, milliseconds]
  constructor
  · rw [mul_assoc]
    exact Int.dvd_mul_left _ _
  · cases period <;> dsimp only [seconds] <;> omega

theorem add_le_of_dvd {periodMs first second : ℤ} (isFirst : periodMs ∣ first)
    (isSecond : periodMs ∣ second) (less : first < second) : first + periodMs ≤ second := by
  have gap := Int.le_of_dvd (Int.sub_pos_of_lt less) (Int.dvd_sub isSecond isFirst)
  omega

/-- The track of one period, the last price, and the bars that have been finished. -/
structure KLineRun where
  track : KLineTrack
  lastPrice : Option ℚ
  finished : List KLine

namespace KLineRun

def new : KLineRun := ⟨.empty, none, []⟩

def step (period : KLinePeriod) (run : KLineRun) : KLineCall → KLineRun
  | .tick price volume timestampMs =>
    let moved := run.track.onTick (period.alignTimestamp timestampMs) price volume
    ⟨moved.1, some price, run.finished ++ moved.2⟩
  | .timer timestampMs =>
    match run.lastPrice with
    | none => run
    | some lastPrice =>
      let moved := run.track.onTimer (period.seconds * 1000)
        (period.alignTimestamp timestampMs) lastPrice
      ⟨moved.1, some lastPrice, run.finished ++ moved.2⟩

def bars (run : KLineRun) : List KLine := run.finished ++ run.track.current.toList

structure Invariant (period : KLinePeriod) (calls : List KLineCall) (run : KLineRun) : Prop where
  lastPrice : run.lastPrice = (prices calls).getLast?
  missing : run.track.current = none → prices calls = [] ∧ run.finished = []
  current : ∀ bar ∈ run.track.current,
    barPrices period.milliseconds bar.timestamp calls ≠ [] ∧
      inside period.milliseconds bar.timestamp calls ≠ [] ∧
      ∀ call ∈ calls, call.time < bar.timestamp + period.milliseconds
  aligned : ∀ bar ∈ run.bars, period.milliseconds ∣ bar.timestamp
  aggregates : ∀ bar ∈ run.bars, bar.Aggregates period.milliseconds calls
  inOrder : KLine.InOrder run.bars
  covered : ∀ call ∈ calls, call.price? ≠ none →
    ∃ bar ∈ run.bars, call.Within period.milliseconds bar.timestamp

variable {period : KLinePeriod} {calls : List KLineCall} {call : KLineCall} {run : KLineRun}

section

variable (invariant : Invariant period calls run)
include invariant

theorem Invariant.current_le (later : ∀ each ∈ calls, each.time ≤ call.time)
    (isCurrent : bar ∈ run.track.current) : bar.timestamp ≤ call.time := by
  rcases List.exists_mem_of_ne_nil _ (invariant.current bar isCurrent).2.1 with ⟨each, member⟩
  rcases List.mem_filter.mp member with ⟨isCall, within⟩
  exact (of_decide_eq_true within).1.trans (later each isCall)

theorem Invariant.current_le_start (later : ∀ each ∈ calls, each.time ≤ call.time) {start : ℤ}
    (isStart : period.milliseconds ∣ start) (within : call.Within period.milliseconds start)
    {bar : KLine} (isCurrent : bar ∈ run.track.current) : bar.timestamp ≤ start := by
  by_contra isAfter
  have isAligned := invariant.aligned bar
    (List.mem_append_right _ (Option.mem_toList.mpr isCurrent))
  have apart := add_le_of_dvd isStart isAligned (not_le.mp isAfter)
  exact not_lt.mpr (apart.trans (invariant.current_le later isCurrent)) within.2

theorem Invariant.moved (later : ∀ each ∈ calls, each.time ≤ call.time) {start : ℤ}
    {track : KLineTrack} {finished : List KLine} {next : KLine}
    (moved : run.track.Moved start track finished) (isStart : period.milliseconds ∣ start)
    (within : call.Within period.milliseconds start) (isNext : track.current = some next)
    (aggregates : next.Aggregates period.milliseconds (calls ++ [call]))
    (priced : barPrices period.milliseconds start (calls ++ [call]) ≠ [])
    (gaps : ∀ bar ∈ finished.tail, period.milliseconds ∣ bar.timestamp ∧
      ∃ timestamp price, bar = (KLine.new timestamp price).finish) :
    Invariant period (calls ++ [call])
      ⟨track, (prices (calls ++ [call])).getLast?, run.finished ++ finished⟩ := by
  have positive := period.milliseconds_pos
  have atStart : next.timestamp = start := by
    rcases moved.isCurrent with ⟨kline, isKline, same⟩
    rw [isNext] at isKline
    rw [Option.some.inj isKline, same]
  have oldAligned : ∀ current ∈ run.track.current, period.milliseconds ∣ current.timestamp :=
    fun current isCurrent => invariant.aligned current
      (List.mem_append_right _ (Option.mem_toList.mpr isCurrent))
  have notAfter : ∀ current ∈ run.track.current, current.timestamp ≤ start :=
    fun current isCurrent => invariant.current_le_start later isStart within isCurrent
  have inOrder := moved.follows invariant.inOrder notAfter fun absent bar isFinished => by
    rw [(invariant.missing absent).2] at isFinished
    cases isFinished
  rw [KLineTrack.Follows, isNext] at inOrder
  have ofFinished : ∀ bar ∈ finished, ∃ current ∈ run.track.current, bar = current.finish ∨
      current.timestamp < bar.timestamp ∧ bar ∈ finished.tail := by
    intro bar member
    rcases moved.closed with ⟨none_closed, -⟩ | ⟨current, gapBars, isOld, -, isFinished, -, between⟩
    · rw [none_closed] at member
      cases member
    · rw [isFinished] at member ⊢
      refine ⟨current, isOld, ?_⟩
      rcases List.mem_cons.mp member with isFirst | isGap
      · exact Or.inl isFirst
      · exact Or.inr ⟨(between bar isGap).1, isGap⟩
  have aligned : ∀ bar ∈ run.finished ++ finished, period.milliseconds ∣ bar.timestamp := by
    intro bar member
    rcases List.mem_append.mp member with member | member
    · exact invariant.aligned bar (List.mem_append_left _ member)
    · rcases ofFinished bar member with ⟨current, isCurrent, rfl | ⟨-, isGap⟩⟩
      · exact oldAligned current isCurrent
      · exact (gaps bar isGap).1
  have isOver : ∀ bar ∈ run.finished ++ finished,
      bar.timestamp + period.milliseconds ≤ call.time := by
    intro bar member
    have less := (List.pairwise_append.mp inOrder).2.2 bar member next List.mem_cons_self
    rw [atStart] at less
    exact (add_le_of_dvd (aligned bar member) isStart less).trans within.1
  constructor
  · rfl
  · intro absent
    rw [isNext] at absent
    cases absent
  · rw [isNext]
    rintro bar ⟨⟩
    rw [atStart, inside_append_within within]
    refine ⟨priced, List.append_ne_nil_of_right_ne_nil _ (List.cons_ne_nil call []), ?_⟩
    intro each member
    rcases List.mem_append.mp member with member | member
    · exact (later each member).trans_lt within.2
    · rw [List.mem_singleton.mp member]
      exact within.2
  all_goals rw [bars, isNext, Option.toList_some]
  · intro bar member
    rcases List.mem_append.mp member with member | member
    · exact aligned bar member
    · rw [List.mem_singleton.mp member, atStart]
      exact isStart
  · intro bar member
    rcases List.mem_append.mp member with member | member
    · have past := isOver bar member
      rcases List.mem_append.mp member with member | member
      · exact (invariant.aggregates bar (List.mem_append_left _ member)).ended positive past
      · rcases ofFinished bar member with ⟨current, isCurrent, rfl | ⟨less, isGap⟩⟩
        · exact ((invariant.aggregates current (List.mem_append_right _
            (Option.mem_toList.mpr isCurrent))).ended positive past).finish
        · rcases gaps bar isGap with ⟨isAligned, timestamp, price, rfl⟩
          have apart := add_le_of_dvd (oldAligned current isCurrent) isAligned less
          apply KLine.Aggregates.ended _ positive past
          have untouched : inside period.milliseconds
              (KLine.new timestamp price).finish.timestamp calls = [] :=
            inside_eq_nil fun each isCall =>
              ((invariant.current current isCurrent).2.2 each isCall).trans_le apart
          rw [KLine.Aggregates, untouched, barPrices_eq_nil untouched]
          exact KLine.shows_empty timestamp price
    · rw [List.mem_singleton.mp member]
      exact aggregates
  · exact inOrder
  · intro each member isTick
    rcases List.mem_append.mp member with member | member
    · rcases invariant.covered each member isTick with ⟨bar, isBar, inBar⟩
      rcases List.mem_append.mp isBar with isBar | isBar
      · exact ⟨bar, List.mem_append_left _ (List.mem_append_left _ isBar), inBar⟩
      · have isCurrent := Option.mem_toList.mp isBar
        rcases moved.closed with ⟨-, same⟩ | ⟨current, gapBars, isOld, -, isFinished, -⟩
        · refine ⟨next, List.mem_append_right _ List.mem_cons_self, ?_⟩
          rw [atStart, ← same bar isCurrent]
          exact inBar
        · rw [Option.mem_unique isCurrent isOld] at inBar
          refine ⟨current.finish, List.mem_append_left _ (List.mem_append_right _ ?_), inBar⟩
          rw [isFinished]
          exact List.mem_cons_self
    · rw [List.mem_singleton.mp member]
      exact ⟨next, List.mem_append_right _ List.mem_cons_self, atStart ▸ within⟩

theorem Invariant.before (later : ∀ each ∈ calls, each.time ≤ call.time) {start : ℤ}
    (isStart : period.milliseconds ∣ start) (within : call.Within period.milliseconds start)
    {current : KLine} (isCurrent : run.track.current = some current)
    (ended : current.timestamp ≠ start) : ∀ each ∈ calls, each.time < start := by
  have less := lt_of_le_of_ne (invariant.current_le_start later isStart within isCurrent) ended
  have apart := add_le_of_dvd (invariant.aligned current (List.mem_append_right _
    (Option.mem_toList.mpr isCurrent))) isStart less
  exact fun each isCall => ((invariant.current current isCurrent).2.2 each isCall).trans_le apart

theorem Invariant.tick {price : ℚ} {volume timestampMs : ℤ} (notNegative : 0 ≤ timestampMs)
    (later : ∀ each ∈ calls, each.time ≤ (KLineCall.tick price volume timestampMs).time) :
    Invariant period (calls ++ [.tick price volume timestampMs])
      (run.step period (.tick price volume timestampMs)) := by
  have ⟨isStart, notLate, notOver⟩ := period.alignTimestamp_spec notNegative
  have within : (KLineCall.tick price volume timestampMs).Within period.milliseconds
      (period.alignTimestamp timestampMs) := ⟨notLate, notOver⟩
  have lastPrice : some price = (prices (calls ++ [.tick price volume timestampMs])).getLast? := by
    rw [prices_append]
    exact (List.getLast?_concat ..).symm
  -- A tick that opens its bar.
  have opens (unpriced : prices (inside period.milliseconds
        (period.alignTimestamp timestampMs) calls) = [])
      (isPrices : barPrices period.milliseconds (period.alignTimestamp timestampMs)
        (calls ++ [.tick price volume timestampMs]) = [price]) :
      ((KLine.new (period.alignTimestamp timestampMs) price).update price volume).Aggregates
        period.milliseconds (calls ++ [.tick price volume timestampMs]) := by
    change KLine.Shows (inside _ (period.alignTimestamp timestampMs) _)
      (barPrices _ (period.alignTimestamp timestampMs) _) _
    rw [isPrices, inside_append_within within]
    exact KLine.shows_first _ _ price volume unpriced
  have moved := run.track.onTick_moved (period.alignTimestamp timestampMs) price volume
  rw [step, lastPrice]
  cases isCurrent : run.track.current with
  | none =>
    have unpriced := (invariant.missing isCurrent).1
    have isPrices := barPrices_append_priced within unpriced
    simp only [KLineTrack.onTick, isCurrent] at moved ⊢
    apply invariant.moved later moved isStart within rfl
    · exact opens (prices_eq_nil unpriced List.filter_sublist) isPrices
    · rw [isPrices]
      exact List.cons_ne_nil price []
    · intro bar absent
      cases absent
  | some current =>
    rcases invariant.current current isCurrent with ⟨priced, opened, ends⟩
    simp only [KLineTrack.onTick, isCurrent] at moved ⊢
    split_ifs at moved ⊢ with ended
    · have untouched : inside period.milliseconds _ calls = [] :=
        inside_eq_nil (invariant.before later isStart within isCurrent ended)
      have isPrices := barPrices_append_first within untouched
      apply invariant.moved later moved isStart within rfl
      · apply opens _ isPrices
        rw [untouched]
        rfl
      · rw [isPrices]
        exact List.cons_ne_nil price []
      · intro bar absent
        cases absent
    · have same : current.timestamp = period.alignTimestamp timestampMs := not_not.mp ended
      rw [← same] at within
      have isPrices := barPrices_append_opened within opened
      apply invariant.moved later moved isStart (same ▸ within) rfl
      · change KLine.Shows (inside _ current.timestamp _) (barPrices _ current.timestamp _) _
        rw [isPrices, inside_append_within within]
        exact (invariant.aggregates current (List.mem_append_right _
          (Option.mem_toList.mpr isCurrent))).update priced price volume timestampMs
      · rw [← same, isPrices]
        exact List.append_ne_nil_of_left_ne_nil priced _
      · intro bar absent
        cases absent

end

theorem mem_gapKlines {periodMs start gapTs : ℤ} {lastPrice : ℚ} {fuel : ℕ} {bar : KLine}
    (isStart : periodMs ∣ gapTs)
    (member : bar ∈ KLineTrack.gapKlines periodMs start lastPrice fuel gapTs) :
    periodMs ∣ bar.timestamp ∧ ∃ timestamp price, bar = (KLine.new timestamp price).finish := by
  induction fuel generalizing gapTs with
  | zero => cases member
  | succ fuel induction =>
    rw [KLineTrack.gapKlines] at member
    split_ifs at member with inside
    · rcases List.mem_cons.mp member with rfl | later
      · exact ⟨isStart, gapTs, lastPrice, rfl⟩
      · exact induction (Int.dvd_add isStart (Int.dvd_refl periodMs)) later
    · cases member

theorem Invariant.timer (invariant : Invariant period calls run) {timestampMs : ℤ}
    (notNegative : 0 ≤ timestampMs)
    (later : ∀ each ∈ calls, each.time ≤ (KLineCall.timer timestampMs).time) :
    Invariant period (calls ++ [.timer timestampMs]) (run.step period (.timer timestampMs)) := by
  have ⟨isStart, notLate, notOver⟩ := period.alignTimestamp_spec notNegative
  have within : (KLineCall.timer timestampMs).Within period.milliseconds
      (period.alignTimestamp timestampMs) := ⟨notLate, notOver⟩
  have samePrices : prices (calls ++ [.timer timestampMs]) = prices calls :=
    (prices_append calls _).trans (List.append_nil _)
  have lastPrice := invariant.lastPrice
  rw [← samePrices] at lastPrice
  cases isCurrent : run.track.current with
  | none =>
    rcases invariant.missing isCurrent with ⟨unpriced, none_finished⟩
    have no_bar : run.bars = [] := by
      rw [bars, isCurrent, none_finished]
      rfl
    rw [samePrices, unpriced] at lastPrice
    have unchanged : run.step period (.timer timestampMs) = run := by
      simp only [step, lastPrice, List.getLast?_nil]
    rw [unchanged]
    constructor
    · rw [lastPrice, samePrices, unpriced]
    · exact fun _ => ⟨samePrices.trans unpriced, none_finished⟩
    · intro bar isBar
      rw [isCurrent] at isBar
      cases isBar
    all_goals rw [no_bar]
    · exact List.forall_mem_nil _
    · exact List.forall_mem_nil _
    · exact List.Pairwise.nil
    · intro call member isTick
      have isPrice : prices (calls ++ [.timer timestampMs]) ≠ [] := by
        rcases Option.ne_none_iff_exists'.mp isTick with ⟨price, found⟩
        exact List.ne_nil_of_mem (List.mem_filterMap.mpr ⟨call, member, found⟩)
      exact absurd (samePrices.trans unpriced) isPrice
  | some current =>
    rcases invariant.current current isCurrent with ⟨priced, opened, ends⟩
    have someLast : ∃ price, run.lastPrice = some price := by
      cases found : run.lastPrice with
      | some price => exact ⟨price, rfl⟩
      | none =>
        rw [found, samePrices] at lastPrice
        have unpriced := List.getLast?_eq_none_iff.mp lastPrice.symm
        exact absurd (barPrices_of_unpriced unpriced) priced
    rcases someLast with ⟨price, isLast⟩
    have moved := run.track.onTimer_moved period.milliseconds_pos
      (period.alignTimestamp timestampMs) price
    rw [isLast] at lastPrice
    simp only [step, isLast]
    rw [← KLinePeriod.milliseconds, lastPrice]
    simp only [KLineTrack.onTimer, isCurrent] at moved ⊢
    split_ifs at moved ⊢ with ended
    · have before := invariant.before later isStart within isCurrent ended
      have untouched : inside period.milliseconds _ calls = [] := inside_eq_nil before
      have all : (calls.filter fun each => each.time < period.alignTimestamp timestampMs) =
          calls := List.filter_eq_self.mpr fun each isCall => decide_eq_true (before each isCall)
      have isPrices := barPrices_append_first within untouched
      dsimp only at isPrices
      rw [all, ← samePrices, ← lastPrice] at isPrices
      apply invariant.moved later moved isStart within rfl
      · change KLine.Shows (inside _ (period.alignTimestamp timestampMs) _)
          (barPrices _ (period.alignTimestamp timestampMs) _) _
        rw [isPrices, inside_append_within within, untouched]
        exact KLine.shows_new _ timestampMs price
      · rw [isPrices]
        exact List.cons_ne_nil price []
      · intro bar isGap
        have isAligned := invariant.aligned current (List.mem_append_right _
          (Option.mem_toList.mpr isCurrent))
        exact mem_gapKlines (Int.dvd_add isAligned (Int.dvd_refl _)) isGap
    · have same : current.timestamp = period.alignTimestamp timestampMs := not_not.mp ended
      rw [← same] at within
      have isPrices := barPrices_append_opened within opened
      apply invariant.moved later moved isStart (same ▸ within) rfl
      · change KLine.Shows (inside _ current.timestamp _) (barPrices _ current.timestamp _) _
        rw [isPrices, inside_append_within within]
        have shows := invariant.aggregates current (List.mem_append_right _
          (Option.mem_toList.mpr isCurrent))
        exact (List.append_nil (barPrices _ current.timestamp calls)).symm ▸
          shows.timer timestampMs
      · rw [← same, isPrices]
        exact List.append_ne_nil_of_left_ne_nil priced _
      · intro bar absent
        cases absent

/-! ## Bars without gaps -/

/-- A tick comes into the current interval or the next one, and the timer skips a hundred
intervals at most. -/
def SkipsFew (period : KLinePeriod) (run : KLineRun) (call : KLineCall) : Prop :=
  ∀ current ∈ run.track.current, period.alignTimestamp call.time ≤ current.timestamp +
    (if call.price? = none then 101 else 1) * period.milliseconds

/-- Each bar is a period behind the one before it. -/
def Contiguous (period : KLinePeriod) (bars : List KLine) : Prop :=
  (bars.map KLine.timestamp).IsChain fun left right => left + period.milliseconds = right

theorem gapKlines_contiguous {period : KLinePeriod} {start before gapTs : ℤ} (lastPrice : ℚ)
    {fuel : ℕ} (isStart : period.milliseconds ∣ start) (isGap : period.milliseconds ∣ gapTs)
    (follows : before + period.milliseconds = gapTs) (le : gapTs ≤ start)
    (near : start ≤ gapTs + fuel * period.milliseconds) :
    (before :: (KLineTrack.gapKlines period.milliseconds start lastPrice fuel gapTs).map
      KLine.timestamp ++ [start]).IsChain fun left right => left + period.milliseconds = right := by
  have reached (same : gapTs = start) : List.IsChain
      (fun left right => left + period.milliseconds = right) [before, start] :=
    .cons_cons (follows.trans same) (.singleton start)
  induction fuel generalizing before gapTs with
  | zero =>
    apply reached
    rw [Nat.cast_zero, zero_mul, add_zero] at near
    exact le_antisymm le near
  | succ fuel induction =>
    rw [KLineTrack.gapKlines]
    split_ifs with inside
    · refine .cons_cons follows (induction (Int.dvd_add isGap (Int.dvd_refl _)) rfl
        (add_le_of_dvd isGap isStart inside) ?_ ?_)
      · rw [Nat.cast_succ, add_mul, one_mul] at near
        omega
      · exact fun same => .cons_cons same (.singleton start)
    · exact reached (le_antisymm le (not_lt.mp inside))

theorem Invariant.contiguous_step (invariant : Invariant period calls run)
    (notNegative : 0 ≤ call.time) (later : ∀ each ∈ calls, each.time ≤ call.time)
    (skips : run.SkipsFew period call) (contiguous : Contiguous period run.bars) :
    Contiguous period (run.step period call).bars := by
  have ⟨isStart, notLate, notOver⟩ := period.alignTimestamp_spec notNegative
  have within : call.Within period.milliseconds (period.alignTimestamp call.time) :=
    ⟨notLate, notOver⟩
  -- The bars when the current one is closed, with the gaps behind it.
  have closes {current next : KLine} (lastPrice : ℚ) {fuel : ℕ}
      (isCurrent : run.track.current = some current)
      (ended : current.timestamp ≠ period.alignTimestamp call.time)
      (atStart : next.timestamp = period.alignTimestamp call.time)
      (near : period.alignTimestamp call.time ≤
        current.timestamp + period.milliseconds + fuel * period.milliseconds) :
      Contiguous period (run.finished ++ current.finish :: KLineTrack.gapKlines
        period.milliseconds (period.alignTimestamp call.time) lastPrice fuel
          (current.timestamp + period.milliseconds) ++ [next]) := by
    have isAligned := invariant.aligned current
      (List.mem_append_right _ (Option.mem_toList.mpr isCurrent))
    have less := lt_of_le_of_ne (invariant.current_le_start later isStart within isCurrent) ended
    rw [bars, isCurrent, Contiguous, List.map_append] at contiguous
    rw [Contiguous, List.append_assoc, List.map_append, List.map_append, List.map_cons,
      List.map_singleton, atStart]
    exact List.isChain_split.mpr ⟨contiguous, gapKlines_contiguous lastPrice isStart
      (Int.dvd_add isAligned (Int.dvd_refl _)) rfl (add_le_of_dvd isAligned isStart less) near⟩
  have keeps {current next : KLine} (isCurrent : run.track.current = some current)
      (same : next.timestamp = current.timestamp) :
      Contiguous period (run.finished ++ [next]) := by
    rw [bars, isCurrent] at contiguous
    rw [Contiguous, List.map_append, List.map_singleton, same]
    rw [Contiguous, List.map_append] at contiguous
    exact contiguous
  cases isCurrent : run.track.current with
  | none =>
    rcases invariant.missing isCurrent with ⟨unpriced, none_finished⟩
    have lastPrice := invariant.lastPrice
    rw [unpriced] at lastPrice
    cases call with
    | tick price volume timestampMs =>
      simp only [step, bars, KLineTrack.onTick, isCurrent, none_finished]
      exact .singleton _
    | timer timestampMs =>
      simp only [step, lastPrice, List.getLast?_nil]
      exact contiguous
  | some current =>
    have near := skips current isCurrent
    cases call with
    | tick price volume timestampMs =>
      rw [price?, if_neg (Option.some_ne_none price), one_mul] at near
      simp only [step, bars, KLineTrack.onTick, isCurrent]
      split_ifs with ended
      · apply @closes _ _ price 0 isCurrent ended rfl
        rw [Nat.cast_zero, zero_mul, add_zero]
        exact near
      · rw [List.append_nil]
        exact keeps isCurrent rfl
    | timer timestampMs =>
      rw [price?, if_pos rfl, show (101 : ℤ) = 1 + 100 from rfl, add_mul, one_mul,
        ← add_assoc] at near
      cases isLast : run.lastPrice with
      | none =>
        simp only [step, isLast]
        exact contiguous
      | some lastPrice =>
        simp only [step, isLast, bars, KLineTrack.onTimer, isCurrent]
        split_ifs with ended
        · exact closes lastPrice isCurrent ended rfl near
        · rw [List.append_nil]
          exact keeps isCurrent rfl

theorem invariant_new (period : KLinePeriod) : Invariant period [] new := by
  refine ⟨rfl, fun _ => ⟨rfl, rfl⟩, ?_, List.forall_mem_nil _, List.forall_mem_nil _, .nil,
    List.forall_mem_nil _⟩
  intro bar absent
  cases absent

theorem Invariant.step (invariant : Invariant period calls run) (notNegative : 0 ≤ call.time)
    (later : ∀ each ∈ calls, each.time ≤ call.time) :
    Invariant period (calls ++ [call]) (run.step period call) := by
  cases call with
  | tick price volume timestampMs => exact invariant.tick notNegative later
  | timer timestampMs => exact invariant.timer notNegative later

theorem invariant_foldl (inOrder : calls.Pairwise fun first second => first.time ≤ second.time)
    (notNegative : ∀ call ∈ calls, 0 ≤ call.time) :
    Invariant period calls (calls.foldl (KLineRun.step period) new) := by
  induction calls using List.reverseRecOn with
  | nil => exact invariant_new period
  | append_singleton calls call induction =>
    rcases List.pairwise_append.mp inOrder with ⟨earlier, _, later⟩
    rw [List.foldl_append]
    apply (induction earlier fun each member => notNegative each
      (List.mem_append_left _ member)).step
    · exact notNegative call (List.mem_append_right _ List.mem_cons_self)
    · exact fun each member => later each member call List.mem_cons_self

theorem contiguous_foldl (inOrder : calls.Pairwise fun first second => first.time ≤ second.time)
    (notNegative : ∀ call ∈ calls, 0 ≤ call.time)
    (skips : Along (KLineRun.step period) (SkipsFew period) calls new) :
    Contiguous period (calls.foldl (KLineRun.step period) new).bars := by
  induction calls using List.reverseRecOn with
  | nil => exact .nil
  | append_singleton calls call induction =>
    rcases List.pairwise_append.mp inOrder with ⟨earlier, _, later⟩
    rcases (along_append _ _ _).mp skips with ⟨before, skipsFew, _⟩
    have old : ∀ each ∈ calls, 0 ≤ each.time := fun each member =>
      notNegative each (List.mem_append_left _ member)
    rw [List.foldl_append]
    apply (invariant_foldl earlier old).contiguous_step _ _ skipsFew
      (induction earlier old before)
    · exact notNegative call (List.mem_append_right _ List.mem_cons_self)
    · exact fun each member => later each member call List.mem_cons_self

end KLineRun

/-! ## The aggregator -/

structure AggregatorRun where
  aggregator : KLineAggregator
  finished : List (KLinePeriod × KLine)

namespace AggregatorRun

def new : AggregatorRun := ⟨.new, []⟩

def step (run : AggregatorRun) (call : KLineCall) : AggregatorRun :=
  let moved := match call with
    | .tick price volume timestampMs => run.aggregator.onTick price volume timestampMs
    | .timer timestampMs => run.aggregator.onTimer timestampMs
  ⟨moved.1, run.finished ++ moved.2⟩

def inPeriod (period : KLinePeriod) (run : AggregatorRun) : KLineRun where
  track := run.aggregator.tracks period
  lastPrice := run.aggregator.lastPrice
  finished := KLineAggregator.finishedIn period run.finished

def bars (period : KLinePeriod) (run : AggregatorRun) : List KLine := (run.inPeriod period).bars

theorem inPeriod_step (period : KLinePeriod) (run : AggregatorRun) (call : KLineCall) :
    (run.step call).inPeriod period = (run.inPeriod period).step period call := by
  have collected (found : KLinePeriod → List KLine) : KLineAggregator.finishedIn period
      (run.finished ++ KLinePeriod.periods.flatMap fun each =>
        (found each).map fun kline => (each, kline)) =
      KLineAggregator.finishedIn period run.finished ++ found period := by
    rw [KLineAggregator.finishedIn, List.filterMap_append, KLinePeriod.filterMap_periods]
    rfl
  cases call with
  | tick price volume timestampMs =>
    simp only [step, KLineAggregator.onTick, inPeriod, KLineRun.step, collected]
  | timer timestampMs =>
    cases isLast : run.aggregator.lastPrice with
    | none =>
      simp only [step, KLineAggregator.onTimer, inPeriod, KLineRun.step, isLast,
        List.append_nil]
    | some lastPrice =>
      simp only [step, KLineAggregator.onTimer, inPeriod, KLineRun.step, isLast, collected]

theorem inPeriod_foldl (period : KLinePeriod) (calls : List KLineCall) :
    (calls.foldl step new).inPeriod period = calls.foldl (KLineRun.step period) .new :=
  (List.foldl_hom (inPeriod period) fun run call => (inPeriod_step period run call).symm).symm

def SkipsFew (period : KLinePeriod) (run : AggregatorRun) (call : KLineCall) : Prop :=
  (run.inPeriod period).SkipsFew period call

instance (period : KLinePeriod) (run : AggregatorRun) (call : KLineCall) :
    Decidable (SkipsFew period run call) :=
  inferInstanceAs (Decidable (∀ current ∈ (run.inPeriod period).track.current, _))

theorem along_inPeriod {period : KLinePeriod} {calls : List KLineCall} {run : AggregatorRun}
    (skips : Along step (SkipsFew period) calls run) :
    Along (KLineRun.step period) (KLineRun.SkipsFew period) calls (run.inPeriod period) := by
  induction calls generalizing run with
  | nil => trivial
  | cons call calls induction =>
    refine ⟨skips.1, ?_⟩
    rw [← inPeriod_step]
    exact induction skips.2

/-- Every bar is made of the calls in its interval, and every tick is in one bar. -/
theorem bars_of_calls (period : KLinePeriod) {calls : List KLineCall}
    (inOrder : calls.Pairwise fun first second => first.time ≤ second.time)
    (notNegative : ∀ call ∈ calls, 0 ≤ call.time) :
    KLine.InOrder ((calls.foldl step new).bars period) ∧
      (∀ bar ∈ (calls.foldl step new).bars period,
        period.milliseconds ∣ bar.timestamp ∧ bar.Aggregates period.milliseconds calls) ∧
      (∀ call ∈ calls, call.price? ≠ none → ∃! bar, bar ∈ (calls.foldl step new).bars period ∧
        call.Within period.milliseconds bar.timestamp) ∧ (Along step (SkipsFew period) calls new →
        KLineRun.Contiguous period ((calls.foldl step new).bars period)) := by
  have invariant : KLineRun.Invariant period calls _ :=
    KLineRun.invariant_foldl inOrder notNegative
  rw [bars, inPeriod_foldl]
  refine ⟨invariant.inOrder, ?_, ?_, ?_⟩
  · exact fun bar isBar => ⟨invariant.aligned bar isBar, invariant.aggregates bar isBar⟩
  · intro call isCall isTick
    rcases invariant.covered call isCall isTick with ⟨bar, isBar, within⟩
    refine ⟨bar, ⟨isBar, within⟩, ?_⟩
    rintro other ⟨isOther, otherWithin⟩
    have notBefore {first second : KLine}
        (isFirst : first ∈ (calls.foldl (KLineRun.step period) .new).bars)
        (isSecond : second ∈ (calls.foldl (KLineRun.step period) .new).bars)
        (inFirst : call.Within period.milliseconds first.timestamp)
        (inSecond : call.Within period.milliseconds second.timestamp) :
        ¬first.timestamp < second.timestamp := by
      intro less
      have apart := add_le_of_dvd (invariant.aligned first isFirst)
        (invariant.aligned second isSecond) less
      exact not_lt.mpr (apart.trans inSecond.1) inFirst.2
    have same : other.timestamp = bar.timestamp := le_antisymm
      (not_lt.mp (notBefore isBar isOther within otherWithin))
      (not_lt.mp (notBefore isOther isBar otherWithin within))
    have distinct : ((calls.foldl (KLineRun.step period) .new).bars.map KLine.timestamp).Nodup :=
      List.pairwise_map.mpr (invariant.inOrder.imp ne_of_lt)
    exact List.inj_on_of_nodup_map distinct isOther isBar same
  · exact fun skips => KLineRun.contiguous_foldl inOrder notNegative (along_inPeriod skips)

def timedCalls : List KLineCall := [.tick 1 1 0, .timer 3000, .tick 2 1 3001]

theorem contiguous_timedCalls : KLineRun.Contiguous .Sec3 ((timedCalls.foldl step new).bars .Sec3) ∧
    ∀ bar ∈ (timedCalls.foldl step new).bars .Sec3,
      bar.Aggregates KLinePeriod.Sec3.milliseconds timedCalls := by
  have skips : Along step (SkipsFew .Sec3) timedCalls new := by decide +kernel
  rcases @bars_of_calls .Sec3 timedCalls (by decide) (by decide) with
    ⟨_, each, _, contiguous⟩
  exact ⟨contiguous skips, fun bar isBar => (each bar isBar).2⟩

/-- A bar that the timer has opened does not open with its first tick. -/
theorem openPrice_not_first :
    ¬ ∀ (period : KLinePeriod) (calls : List KLineCall),
      (calls.Pairwise fun first second => first.time ≤ second.time) →
      (∀ call ∈ calls, 0 ≤ call.time) →
      ∀ bar ∈ (calls.foldl step new).bars period,
        ∀ price ∈ (prices (inside period.milliseconds bar.timestamp calls)).head?,
          bar.openPrice = price := by
  intro claim
  have isBar : (⟨3000, 1, 2, 1, 2, 1, 2, 0, 0, false⟩ : KLine) ∈
      (timedCalls.foldl step new).bars .Sec3 := by
    decide +kernel
  have opens := claim .Sec3 timedCalls (by decide) (by decide) _ isBar 2 (by decide +kernel)
  exact absurd opens (by decide +kernel)

end AggregatorRun

end QAExchange
