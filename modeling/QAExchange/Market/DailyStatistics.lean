import QAExchange.Market.SnapshotGenerator

/-! # Statistics of the day

When the snapshots of an instrument show the volume, the turnover and the first, highest and
lowest price of the trades since the last reset.
-/

namespace QAExchange

open Foundation

namespace SnapshotGenerator

inductive Input
  | orders (instrumentId : String) (bids asks : List QueuedOrder)
  | lastPrice (instrumentId : String) (price : ℚ)
  | updateTradeStats (instrumentId : String) (volume : ℤ) (turnover : ℚ)
  | setPreClose (instrumentId : String) (preClose : ℚ)
  | generateSnapshot (instrumentId : String) (view : MarketView)
  | resetDailyStats

def bookOf (instrumentId : String) (generator : SnapshotGenerator) : LiveBook :=
  (generator.books instrumentId).getD ⟨[], [], 0⟩

def setBook (instrumentId : String) (book : LiveBook) (generator : SnapshotGenerator) :
    SnapshotGenerator :=
  { generator with books := Function.update generator.books instrumentId (some book) }

def step (generator : SnapshotGenerator) : Input → SnapshotGenerator
  | .orders instrumentId bids asks =>
    generator.setBook instrumentId
      { generator.bookOf instrumentId with bids := bids, asks := asks }
  | .lastPrice instrumentId price =>
    generator.setBook instrumentId { generator.bookOf instrumentId with lastprice := price }
  | .updateTradeStats instrumentId volume turnover =>
    generator.updateTradeStats instrumentId volume turnover
  | .setPreClose instrumentId preClose => generator.setPreClose instrumentId preClose
  | .generateSnapshot instrumentId view =>
    match generator.generateSnapshot instrumentId view with
    | .error _ => generator
    | .ok (_, next) => next
  | .resetDailyStats => generator.resetDailyStats

end SnapshotGenerator

/-- The trades of one instrument since the last reset. -/
structure TradingDay where
  prices : List ℚ
  volume : ℤ
  turnover : ℚ

namespace TradingDay

open SnapshotGenerator

def new : TradingDay := ⟨[], 0, 0⟩

def step (instrumentId : String) (day : TradingDay) : Input → TradingDay
  | .orders _ _ _ => day
  | .lastPrice other price =>
    if other = instrumentId then { day with prices := day.prices ++ [price] } else day
  | .updateTradeStats other volume turnover =>
    if other = instrumentId then
      { day with volume := day.volume + volume, turnover := day.turnover + turnover }
    else day
  | .setPreClose _ _ => day
  | .generateSnapshot _ _ => day
  | .resetDailyStats => new

def ShownBy (day : TradingDay) (snapshot : MarketSnapshot) : Prop :=
  snapshot.volume = day.volume ∧ snapshot.turnover = day.turnover ∧
    ∀ first ∈ day.prices.head?, snapshot.openPrice = first ∧
      IsGreatest { price | price ∈ day.prices } snapshot.high ∧
      IsLeast { price | price ∈ day.prices } snapshot.low

end TradingDay

structure TrackedDay where
  generator : SnapshotGenerator
  day : TradingDay

namespace TrackedDay

open SnapshotGenerator

def step (instrumentId : String) (tracked : TrackedDay) (input : Input) : TrackedDay where
  generator := tracked.generator.step input
  day := tracked.day.step instrumentId input

/-- The statistics have taken a traded price, at a snapshot, before there is another one. -/
def TakesPrices (instrumentId : String) (tracked : TrackedDay) : Input → Prop
  | .lastPrice other price => other = instrumentId → tracked.day.prices = [] ∨
      price = (tracked.generator.bookOf instrumentId).lastprice ∨
      ∃ stats ∈ tracked.generator.dailyStats instrumentId,
        stats.observe (tracked.generator.bookOf instrumentId).lastprice = stats
  | _ => True

/-- The statistics of the day are there for every trade, and begin with its first price. -/
def BeginsWithTrade (instrumentId : String) (tracked : TrackedDay) : Input → Prop
  | .lastPrice other price => other = instrumentId → 0 < price ∧
      ∀ stats ∈ tracked.generator.dailyStats instrumentId, tracked.day.prices = [] →
        stats.openPrice = price ∧ stats.high ≤ price ∧ (price ≤ stats.low ∨ stats.low = 0)
  | .updateTradeStats other volume turnover => other = instrumentId →
      tracked.generator.dailyStats instrumentId ≠ none ∨ volume = 0 ∧ turnover = 0
  | .setPreClose other preClose => other = instrumentId →
      tracked.generator.dailyStats instrumentId = none →
        ∀ price ∈ tracked.day.prices, preClose = price
  | _ => True

/-! ## The statistics along a run -/

/-- The statistics, once they have been given the last price of the book. -/
structure Follows (stats : DailyStats) (lastprice : ℚ) (day : TradingDay) : Prop where
  volume : stats.volume = day.volume
  turnover : stats.turnover = day.turnover
  last : day.prices ≠ [] → lastprice ∈ day.prices
  first : ∀ price ∈ day.prices.head?, stats.openPrice = price
  high : day.prices ≠ [] →
    IsGreatest { price | price ∈ day.prices } (stats.observe lastprice).high
  low : day.prices ≠ [] → IsLeast { price | price ∈ day.prices } (stats.observe lastprice).low

/-- What the statistics of an instrument, if there are any, and its last price show of the
day. -/
structure Invariant (entry : Option DailyStats) (lastprice : ℚ) (day : TradingDay) : Prop where
  positive : ∀ price ∈ day.prices, 0 < price
  /-- Without statistics there is one traded price at most. -/
  missing : entry = none →
    day.volume = 0 ∧ day.turnover = 0 ∧ ∀ price ∈ day.prices, price = lastprice
  follows : ∀ stats ∈ entry, Follows stats lastprice day

theorem observe_self (stats : DailyStats) (price : ℚ) :
    (stats.observe price).observe price = stats.observe price := by
  rw [DailyStats.observe, DailyStats.observe]
  congr 1
  · dsimp only
    split_ifs <;> rfl
  · dsimp only
    split_ifs <;> rfl

variable {stats : DailyStats} {price : ℚ}

theorem observe_extremes (positive : ∀ price ∈ prices, 0 < price)
    (high : IsGreatest { price | price ∈ prices } stats.high)
    (low : IsLeast { price | price ∈ prices } stats.low) :
    IsGreatest { other | other ∈ prices ++ [price] } (stats.observe price).high ∧
      IsLeast { other | other ∈ prices ++ [price] } (stats.observe price).low := by
  have notZero : stats.low ≠ 0 := ne_of_gt (positive stats.low low.1)
  have last : price ∈ prices ++ [price] := List.mem_append_right prices List.mem_cons_self
  have cases_of {other : ℚ} (member : other ∈ prices ++ [price]) :
      other ∈ prices ∨ other = price :=
    (List.mem_append.mp member).imp_right List.mem_singleton.mp
  rw [DailyStats.observe]
  dsimp only
  constructor
  · split_ifs with above
    · refine ⟨last, ?_⟩
      intro other member
      rcases cases_of member with member | rfl
      · exact (high.2 member).trans above.le
      · exact le_rfl
    · refine ⟨List.mem_append_left _ high.1, ?_⟩
      intro other member
      rcases cases_of member with member | rfl
      · exact high.2 member
      · exact not_lt.mp above
  · split_ifs with below
    · refine ⟨last, ?_⟩
      intro other member
      rcases cases_of member with member | rfl
      · exact (below.resolve_right notZero).le.trans (low.2 member)
      · exact le_rfl
    · refine ⟨List.mem_append_left _ low.1, ?_⟩
      intro other member
      rcases cases_of member with member | rfl
      · exact low.2 member
      · exact not_lt.mp fun less => below (Or.inl less)

variable {day : TradingDay} {lastprice : ℚ}

theorem follows_opened (volume : day.volume = 0) (turnover : day.turnover = 0)
    (equal : ∀ each ∈ day.prices, each = lastprice) (begins : ∀ each ∈ day.prices, price = each) :
    Follows (.opened price preClose) lastprice day := by
  have isOpened (some_price : day.prices ≠ []) : lastprice ∈ day.prices ∧ price = lastprice := by
    rcases List.exists_mem_of_ne_nil day.prices some_price with ⟨each, member⟩
    have same := equal each member
    exact ⟨same ▸ member, (begins each member).trans same⟩
  have unchanged : (DailyStats.opened lastprice preClose).observe lastprice =
      .opened lastprice preClose := by
    rw [DailyStats.opened, DailyStats.observe]
    congr 1
    · exact ite_self lastprice
    · exact ite_self lastprice
  refine ⟨volume.symm, turnover.symm, fun some_price => (isOpened some_price).1, ?_, ?_, ?_⟩
  · intro first isFirst
    exact begins first (List.mem_of_mem_head? isFirst)
  · intro some_price
    rcases isOpened some_price with ⟨member, rfl⟩
    rw [unchanged]
    exact ⟨member, fun each isEach => (equal each isEach).le⟩
  · intro some_price
    rcases isOpened some_price with ⟨member, rfl⟩
    rw [unchanged]
    exact ⟨member, fun each isEach => (equal each isEach).ge⟩

theorem Follows.snapshot (follows : Follows stats lastprice day)
    (positive : ∀ price ∈ day.prices, 0 < price) :
    Follows (stats.observe (if 0 < lastprice then lastprice else 0)) lastprice day := by
  have same (some_price : day.prices ≠ []) :
      stats.observe (if 0 < lastprice then lastprice else 0) = stats.observe lastprice := by
    rw [if_pos (positive lastprice (follows.last some_price))]
  refine ⟨follows.volume, follows.turnover, follows.last, follows.first, ?_, ?_⟩
  · intro some_price
    rw [same some_price, observe_self]
    exact follows.high some_price
  · intro some_price
    rw [same some_price, observe_self]
    exact follows.low some_price

theorem Follows.trade (follows : Follows stats lastprice day)
    (positive : ∀ each ∈ day.prices, 0 < each)
    (taken : day.prices = [] ∨ price = lastprice ∨ stats.observe lastprice = stats)
    (begins : day.prices = [] → stats.openPrice = price ∧ stats.high ≤ price ∧
      (price ≤ stats.low ∨ stats.low = 0)) :
    Follows stats price { day with prices := day.prices ++ [price] } := by
  have extremes : IsGreatest { other | other ∈ day.prices ++ [price] } (stats.observe price).high ∧
      IsLeast { other | other ∈ day.prices ++ [price] } (stats.observe price).low := by
    by_cases none_before : day.prices = []
    · rcases begins none_before with ⟨-, high, low⟩
      have isHigh : (stats.observe price).high = price := by
        rw [DailyStats.observe]
        dsimp only
        split_ifs with above
        · rfl
        · exact le_antisymm high (not_lt.mp above)
      have isLow : (stats.observe price).low = price := by
        rw [DailyStats.observe]
        dsimp only
        split_ifs with below
        · rfl
        · rw [not_or, not_lt] at below
          exact le_antisymm below.1 (low.resolve_right below.2)
      rw [none_before, isHigh, isLow]
      exact ⟨⟨List.mem_cons_self, fun other member => (List.mem_singleton.mp member).le⟩,
        List.mem_cons_self, fun other member => (List.mem_singleton.mp member).ge⟩
    · rcases taken.resolve_left none_before with rfl | unchanged
      · have same : { other | other ∈ day.prices ++ [price] } = { other | other ∈ day.prices } := by
          ext other
          constructor
          · intro member
            rcases List.mem_append.mp member with member | member
            · exact member
            · rw [List.mem_singleton.mp member]
              exact follows.last none_before
          · exact List.mem_append_left [price]
        rw [same]
        exact ⟨follows.high none_before, follows.low none_before⟩
      · have high := follows.high none_before
        have low := follows.low none_before
        rw [unchanged] at high low
        exact observe_extremes positive high low
  refine ⟨follows.volume, follows.turnover, fun _ => List.mem_append_right _ List.mem_cons_self,
    ?_, fun _ => extremes.1, fun _ => extremes.2⟩
  intro first isFirst
  cases prices : day.prices with
  | nil =>
    rw [prices] at isFirst
    rw [(begins prices).1]
    exact Option.some.inj isFirst
  | cons head rest =>
    rw [prices] at isFirst
    apply follows.first
    rw [prices]
    exact isFirst

variable {entry : Option DailyStats}

theorem Invariant.trade (invariant : Invariant entry lastprice day) (positive : 0 < price)
    (taken : day.prices = [] ∨ price = lastprice ∨
      ∃ stats ∈ entry, stats.observe lastprice = stats)
    (begins : ∀ stats ∈ entry, day.prices = [] → stats.openPrice = price ∧ stats.high ≤ price ∧
      (price ≤ stats.low ∨ stats.low = 0)) :
    Invariant entry price { day with prices := day.prices ++ [price] } := by
  constructor
  · intro each member
    rcases List.mem_append.mp member with member | member
    · exact invariant.positive each member
    · rw [List.mem_singleton.mp member]
      exact positive
  · intro isNone
    rcases invariant.missing isNone with ⟨volume, turnover, equal⟩
    refine ⟨volume, turnover, ?_⟩
    intro each member
    rcases List.mem_append.mp member with member | member
    · rcases taken with no_price | rfl | ⟨stats, isStats, -⟩
      · exact absurd no_price (List.ne_nil_of_mem member)
      · exact equal each member
      · rw [isNone] at isStats
        cases isStats
    · exact List.mem_singleton.mp member
  · intro stats isStats
    apply (invariant.follows stats isStats).trade invariant.positive _ (begins stats isStats)
    refine taken.imp_right (Or.imp_right ?_)
    rintro ⟨other, isOther, unchanged⟩
    rw [Option.mem_unique isStats isOther]
    exact unchanged

variable {generator : SnapshotGenerator} {instrumentId : String}

theorem Invariant.follows_statsOf {book : LiveBook} (view : MarketView)
    (invariant : Invariant (generator.dailyStats instrumentId) book.lastprice day) :
    Follows (generator.statsOf instrumentId (if 0 < book.lastprice then book.lastprice else 0) view)
      book.lastprice day := by
  rw [statsOf]
  cases entry : generator.dailyStats instrumentId with
  | some stats =>
    rw [entry] at invariant
    exact (invariant.follows stats rfl).snapshot invariant.positive
  | none =>
    rcases invariant.missing entry with ⟨volume, turnover, equal⟩
    have begins : ∀ each ∈ day.prices,
        (if 0 < book.lastprice then book.lastprice else 0) = each := by
      intro each member
      have same := equal each member
      rw [if_pos (same ▸ invariant.positive each member), same]
    exact (follows_opened volume turnover equal begins).snapshot invariant.positive

variable {view : MarketView}

theorem Invariant.generateSnapshot (invariant : Invariant (generator.dailyStats instrumentId)
      (generator.bookOf instrumentId).lastprice day)
    (generated : generator.generateSnapshot instrumentId view = .ok (snapshot, next)) :
    day.ShownBy snapshot ∧ Invariant (next.dailyStats instrumentId)
      (next.bookOf instrumentId).lastprice day := by
  cases found : generator.books instrumentId with
  | none =>
    rw [SnapshotGenerator.generateSnapshot, found] at generated
    cases generated
  | some book =>
    have isBook : generator.bookOf instrumentId = book := by rw [bookOf, found, Option.getD_some]
    rw [isBook] at invariant
    have follows := invariant.follows_statsOf view
    rw [SnapshotGenerator.generateSnapshot, found] at generated
    cases generated
    constructor
    · refine ⟨follows.volume, follows.turnover, ?_⟩
      intro first isFirst
      have some_price : day.prices ≠ [] := List.ne_nil_of_mem (List.mem_of_mem_head? isFirst)
      have isPositive := invariant.positive _ (follows.last some_price)
      have unchanged : (generator.statsOf instrumentId
          (if 0 < book.lastprice then book.lastprice else 0) view).observe book.lastprice =
            generator.statsOf instrumentId
              (if 0 < book.lastprice then book.lastprice else 0) view := by
        rw [if_pos isPositive, statsOf, observe_self]
      have high := follows.high some_price
      have low := follows.low some_price
      rw [unchanged] at high low
      exact ⟨follows.first first isFirst, high, low⟩
    · dsimp only
      rw [Function.update_self, bookOf, found, Option.getD_some]
      refine ⟨invariant.positive, fun isNone => absurd isNone (Option.some_ne_none _), ?_⟩
      rintro stats ⟨⟩
      exact follows

theorem Invariant.change (invariant : Invariant entry lastprice day)
    (recorded : entry ≠ none ∨ volume = 0 ∧ turnover = 0) :
    Invariant (entry.map fun stats =>
        { stats with volume := stats.volume + volume, turnover := stats.turnover + turnover })
      lastprice
      { day with volume := day.volume + volume, turnover := day.turnover + turnover } := by
  refine ⟨invariant.positive, ?_, ?_⟩
  · intro isNone
    have missing := Option.map_eq_none_iff.mp isNone
    rcases invariant.missing missing with ⟨isZero, noTurnover, rest⟩
    rcases recorded.resolve_left fun some_entry => some_entry missing with ⟨rfl, rfl⟩
    exact ⟨(add_zero day.volume).trans isZero, (add_zero day.turnover).trans noTurnover, rest⟩
  · intro stats isStats
    rcases Option.map_eq_some_iff.mp isStats with ⟨before, isBefore, rfl⟩
    have follows := invariant.follows before isBefore
    refine ⟨?_, ?_, follows.last, follows.first, follows.high, follows.low⟩
    · rw [follows.volume]
    · rw [follows.turnover]

theorem Invariant.preClose (invariant : Invariant entry lastprice day) (preClose : ℚ)
    (begins : entry = none → ∀ price ∈ day.prices, preClose = price) :
    Invariant (some { entry.getD (.opened preClose preClose) with preClose := preClose })
      lastprice day := by
  refine ⟨invariant.positive, fun isNone => absurd isNone (Option.some_ne_none _), ?_⟩
  rintro stats ⟨⟩
  cases entry with
  | none =>
    rcases invariant.missing rfl with ⟨volume, turnover, equal⟩
    exact follows_opened volume turnover equal (begins rfl)
  | some stats =>
    have follows := invariant.follows stats rfl
    exact ⟨follows.volume, follows.turnover, follows.last, follows.first, follows.high,
      follows.low⟩

def Holds (instrumentId : String) (tracked : TrackedDay) : Prop :=
  Invariant (tracked.generator.dailyStats instrumentId)
    (tracked.generator.bookOf instrumentId).lastprice tracked.day

theorem bookOf_setBook (instrumentId other : String) (book : LiveBook)
    (generator : SnapshotGenerator) : (generator.setBook other book).bookOf instrumentId =
      if instrumentId = other then book else generator.bookOf instrumentId := by
  rw [bookOf, setBook]
  dsimp only
  rw [Function.update_apply]
  split_ifs with same
  · rfl
  · rfl

theorem books_generateSnapshot
    (generated : generator.generateSnapshot instrumentId view = .ok result) :
    result.2.books = generator.books := by
  rw [SnapshotGenerator.generateSnapshot] at generated
  split at generated
  · cases generated
  · cases generated
    rfl

theorem dailyStats_generateSnapshot (generated : generator.generateSnapshot other view = .ok result)
    (different : instrumentId ≠ other) :
    result.2.dailyStats instrumentId = generator.dailyStats instrumentId := by
  rw [SnapshotGenerator.generateSnapshot] at generated
  split at generated
  · cases generated
  · cases generated
    exact Function.update_of_ne different ..

theorem Holds.step {tracked : TrackedDay} (holds : tracked.Holds instrumentId)
    (takes : tracked.TakesPrices instrumentId input)
    (begins : tracked.BeginsWithTrade instrumentId input) :
    (tracked.step instrumentId input).Holds instrumentId := by
  rcases tracked with ⟨generator, day⟩
  cases input with
  | orders other bids asks =>
    dsimp only [TrackedDay.step, SnapshotGenerator.step, TradingDay.step]
    rw [Holds, bookOf_setBook]
    split_ifs with same
    · rw [← same]
      exact holds
    · exact holds
  | lastPrice other price =>
    dsimp only [TrackedDay.step, SnapshotGenerator.step, TradingDay.step]
    rw [Holds, bookOf_setBook]
    by_cases same : other = instrumentId
    · rw [if_pos same, if_pos same.symm]
      rcases begins same with ⟨positive, begins⟩
      exact holds.trade positive (takes same) begins
    · rw [if_neg same, if_neg fun equal => same equal.symm]
      exact holds
  | updateTradeStats other volume turnover =>
    dsimp only [TrackedDay.step, SnapshotGenerator.step, TradingDay.step, updateTradeStats]
    rw [Holds]
    dsimp only
    by_cases same : other = instrumentId
    · rw [if_pos same]
      rcases same with rfl
      rw [Function.update_self]
      exact holds.change (begins rfl)
    · rw [if_neg same, Function.update_of_ne fun equal => same equal.symm]
      exact holds
  | setPreClose other preClose =>
    dsimp only [TrackedDay.step, SnapshotGenerator.step, TradingDay.step, setPreClose]
    rw [Holds]
    dsimp only
    by_cases same : other = instrumentId
    · rcases same with rfl
      rw [Function.update_self]
      exact holds.preClose preClose (begins rfl)
    · rw [Function.update_of_ne fun equal => same equal.symm]
      exact holds
  | generateSnapshot other view =>
    dsimp only [TrackedDay.step, SnapshotGenerator.step, TradingDay.step]
    cases generated : generator.generateSnapshot other view with
    | error message => exact holds
    | ok result =>
      by_cases same : other = instrumentId
      · rcases same with rfl
        exact (Invariant.generateSnapshot holds generated).2
      · rw [Holds, dailyStats_generateSnapshot generated fun equal => same equal.symm,
          bookOf, books_generateSnapshot generated]
        exact holds
  | resetDailyStats =>
    have no_price (price : ℚ) : price ∉ TradingDay.new.prices := List.not_mem_nil
    exact ⟨fun price member => absurd member (no_price price),
      fun _ => ⟨rfl, rfl, fun price member => absurd member (no_price price)⟩,
      fun stats isStats => nomatch isStats⟩

theorem foldl_step (instrumentId : String) (inputs : List Input) (tracked : TrackedDay) :
    inputs.foldl (step instrumentId) tracked =
      ⟨inputs.foldl SnapshotGenerator.step tracked.generator,
        inputs.foldl (TradingDay.step instrumentId) tracked.day⟩ := by
  induction inputs generalizing tracked with
  | nil => rfl
  | cons input inputs induction => exact induction (tracked.step instrumentId input)

def new (books : LiveBooks) : TrackedDay := ⟨⟨books, fun _ => none⟩, .new⟩

theorem holds_new (instrumentId : String) (books : LiveBooks) : (new books).Holds instrumentId := by
  have no_price (price : ℚ) : price ∉ TradingDay.new.prices := List.not_mem_nil
  exact ⟨fun price member => absurd member (no_price price),
    fun _ => ⟨rfl, rfl, fun price member => absurd member (no_price price)⟩,
    fun stats isStats => nomatch isStats⟩

end TrackedDay

/-- As long as the statistics of every day begin with its first traded price and take every
further one, each snapshot shows the day. -/
theorem snapshots_show_day (books : LiveBooks) (instrumentId : String)
    {inputs first : List SnapshotGenerator.Input}
    (takes : Along (TrackedDay.step instrumentId) (TrackedDay.TakesPrices instrumentId) inputs
      (.new books))
    (begins : Along (TrackedDay.step instrumentId) (TrackedDay.BeginsWithTrade instrumentId) inputs
      (.new books)) (reached : first <+: inputs) {view : MarketView} {snapshot : MarketSnapshot}
    {next : SnapshotGenerator}
    (generated : (first.foldl SnapshotGenerator.step ⟨books, fun _ => none⟩).generateSnapshot
      instrumentId view = .ok (snapshot, next)) :
    (first.foldl (TradingDay.step instrumentId) .new).ShownBy snapshot := by
  rcases reached with ⟨later, rfl⟩
  have holds := foldl_along (TrackedDay.Holds instrumentId)
    (fun tracked input holds allowed => TrackedDay.Holds.step holds allowed.1 allowed.2)
    (along_and ((along_append first later _).mp takes).1 ((along_append first later _).mp begins).1)
    (TrackedDay.holds_new instrumentId books)
  rw [TrackedDay.foldl_step] at holds
  exact (TrackedDay.Invariant.generateSnapshot holds generated).1

/-- A day whose first snapshot comes behind its first trade. -/
def tracedDay : List SnapshotGenerator.Input :=
  [.lastPrice "IF2501" 10, .generateSnapshot "IF2501" ⟨none, 0, 0, ""⟩,
    .updateTradeStats "IF2501" 2 20, .lastPrice "IF2501" 12]

theorem snapshots_show_tracedDay :
    ∃ snapshot next, (tracedDay.foldl SnapshotGenerator.step
        ⟨fun _ => none, fun _ => none⟩).generateSnapshot "IF2501" ⟨none, 0, 0, ""⟩ =
          .ok (snapshot, next) ∧
      (tracedDay.foldl (TradingDay.step "IF2501") .new).ShownBy snapshot := by
  have takes : Along (TrackedDay.step "IF2501") (TrackedDay.TakesPrices "IF2501") tracedDay
      (.new fun _ => none) :=
    ⟨fun _ => Or.inl rfl, trivial, trivial,
      fun _ => Or.inr (Or.inr ⟨_, rfl, by decide +kernel⟩), trivial⟩
  have begins : Along (TrackedDay.step "IF2501") (TrackedDay.BeginsWithTrade "IF2501") tracedDay
      (.new fun _ => none) :=
    ⟨fun _ => ⟨by decide +kernel, fun stats isStats => nomatch isStats⟩, trivial,
      fun _ => Or.inl (Option.some_ne_none _),
      fun _ => ⟨by decide +kernel, fun stats _ no_price => nomatch no_price⟩, trivial⟩
  exact ⟨_, _, rfl,
    snapshots_show_day (fun _ => none) "IF2501" takes begins List.prefix_rfl rfl⟩

/-- The trade statistics that come before the first snapshot are lost. -/
theorem early_trade_not_shown :
    ¬ ∀ (inputs : List SnapshotGenerator.Input) (view : MarketView) (snapshot : MarketSnapshot)
        (next : SnapshotGenerator),
      Along (TrackedDay.step "IF2501") (TrackedDay.TakesPrices "IF2501") inputs
          (.new fun _ => none) →
        (inputs.foldl SnapshotGenerator.step ⟨fun _ => none, fun _ => none⟩).generateSnapshot
            "IF2501" view = .ok (snapshot, next) →
          (inputs.foldl (TradingDay.step "IF2501") .new).ShownBy snapshot := by
  intro shows
  have takes : Along (TrackedDay.step "IF2501") (TrackedDay.TakesPrices "IF2501")
      [.lastPrice "IF2501" 10, .updateTradeStats "IF2501" 2 20] (.new fun _ => none) :=
    ⟨fun _ => Or.inl rfl, trivial, trivial⟩
  have volume := (shows _ ⟨none, 0, 0, ""⟩ _ _ takes rfl).1
  exact absurd volume (by decide +kernel)

end QAExchange
