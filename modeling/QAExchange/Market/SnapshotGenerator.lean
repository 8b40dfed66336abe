import QAExchange.Market.LiveDepth

/-! # Market snapshots

A snapshot of an instrument has the best five price levels of its order book and the
statistics of the day.
-/

namespace QAExchange

open Foundation

structure MarketSnapshot where
  instrumentId : String
  timestamp : ℤ
  tradingDay : String
  lastPrice : ℚ
  changePercent : ℚ
  changeAmount : ℚ
  /-- The prices and volumes from `bid_price1` and `bid_volume1` on. -/
  bids : List PriceLevel
  asks : List PriceLevel
  openPrice : ℚ
  high : ℚ
  low : ℚ
  preClose : ℚ
  volume : ℤ
  turnover : ℚ
  openInterest : ℤ
  upperLimit : ℚ
  lowerLimit : ℚ

structure DailyStats where
  openPrice : ℚ
  high : ℚ
  low : ℚ
  preClose : ℚ
  volume : ℤ
  turnover : ℚ
  deriving DecidableEq

namespace DailyStats

/-- The statistics at the first price. -/
def opened (price preClose : ℚ) : DailyStats where
  openPrice := price
  high := price
  low := price
  preClose := preClose
  volume := 0
  turnover := 0

def observe (lastPrice : ℚ) (stats : DailyStats) : DailyStats :=
  { stats with
    high := if stats.high < lastPrice then lastPrice else stats.high
    low := if lastPrice < stats.low ∨ stats.low = 0 then lastPrice else stats.low }

end DailyStats

structure MarketView where
  prevClose : Option ℚ
  openInterest : ℤ
  timestamp : ℤ
  tradingDay : String

structure SnapshotGenerator where
  books : LiveBooks
  dailyStats : String → Option DailyStats

def fiveLevels (levels : List PriceLevel) : List PriceLevel :=
  (List.range 5).map fun index => levels[index]?.getD ⟨0, 0⟩

namespace SnapshotGenerator

/-- The statistics with the last price of a snapshot. -/
def statsOf (instrumentId : String) (lastPrice : ℚ) (view : MarketView)
    (generator : SnapshotGenerator) : DailyStats :=
  ((generator.dailyStats instrumentId).getD
    (.opened lastPrice (view.prevClose.getD lastPrice))).observe lastPrice

def generateSnapshot (instrumentId : String) (view : MarketView) (generator : SnapshotGenerator) :
    Except String (MarketSnapshot × SnapshotGenerator) :=
  match generator.books instrumentId with
  | none => .error ("Orderbook not found for " ++ instrumentId)
  | some book =>
    let lastPrice := if 0 < book.lastprice then book.lastprice else 0
    let stats := generator.statsOf instrumentId lastPrice view
    let changeAmount := lastPrice - stats.preClose
    .ok ({
      instrumentId := instrumentId
      timestamp := view.timestamp
      tradingDay := view.tradingDay
      lastPrice := lastPrice
      changePercent := if 0 < stats.preClose then changeAmount / stats.preClose * 100 else 0
      changeAmount := changeAmount
      bids := fiveLevels (bestLevels (· ≥ ·) 5 (book.bids.take 50))
      asks := fiveLevels (bestLevels (· ≤ ·) 5 (book.asks.take 50))
      openPrice := stats.openPrice
      high := stats.high
      low := stats.low
      preClose := stats.preClose
      volume := stats.volume
      turnover := stats.turnover
      openInterest := view.openInterest
      upperLimit := stats.preClose * (11 / 10)
      lowerLimit := stats.preClose * (9 / 10) },
      { generator with
        dailyStats := Function.update generator.dailyStats instrumentId (some stats) })

def updateTradeStats (instrumentId : String) (volume : ℤ) (turnover : ℚ)
    (generator : SnapshotGenerator) : SnapshotGenerator :=
  { generator with
    dailyStats := Function.update generator.dailyStats instrumentId
      ((generator.dailyStats instrumentId).map fun stats =>
        { stats with volume := stats.volume + volume, turnover := stats.turnover + turnover }) }

def setPreClose (instrumentId : String) (preClose : ℚ) (generator : SnapshotGenerator) :
    SnapshotGenerator :=
  let stats := (generator.dailyStats instrumentId).getD (.opened preClose preClose)
  { generator with
    dailyStats := Function.update generator.dailyStats instrumentId
      (some { stats with preClose := preClose }) }

def resetDailyStats (generator : SnapshotGenerator) : SnapshotGenerator :=
  { generator with dailyStats := fun _ => none }

end SnapshotGenerator

/-! ## Price levels -/

structure ShowsBest (better : ℚ → ℚ → Prop) [DecidableRel better] (depth : ℕ)
    (orders : List QueuedOrder) (levels : List PriceLevel) : Prop where
  prices : levels.map PriceLevel.price = topKeys better QueuedOrder.price depth orders
  volumes : ∀ level ∈ levels, (level.volume : ℚ) =
    ((orders.filter fun order => order.price = level.price).map QueuedOrder.volume).sum

def WholeLots (orders : List QueuedOrder) : Prop :=
  ∀ order ∈ orders, ∃ lots : ℕ, order.volume = (lots + 1 : ℕ)

theorem truncate_natCast (number : ℕ) : truncate (number : ℚ) = number := by
  rw [truncate, Rat.num_natCast, Rat.den_natCast, Nat.cast_one, Int.tdiv_one]

variable {orders : List QueuedOrder}

theorem WholeLots.sum_eq (whole : WholeLots orders) :
    ∃ lots : ℕ, (orders.map QueuedOrder.volume).sum = lots ∧ orders.length ≤ lots := by
  induction orders with
  | nil => exact ⟨0, rfl, le_rfl⟩
  | cons order orders induction =>
    rcases whole order List.mem_cons_self with ⟨first, isFirst⟩
    rcases induction fun other member => whole other (List.mem_cons_of_mem order member) with
      ⟨later, isLater, less⟩
    refine ⟨first + 1 + later, ?_, ?_⟩
    · rw [List.map_cons, List.sum_cons, isFirst, isLater, ← Nat.cast_add]
    · rw [List.length_cons]
      omega

theorem WholeLots.filter (whole : WholeLots orders) (keep : QueuedOrder → Bool) :
    WholeLots (orders.filter keep) :=
  fun order member => whole order (List.mem_of_mem_filter member)

theorem prices_bestLevels (better : ℚ → ℚ → Prop) [DecidableRel better] (depth : ℕ)
    (orders : List QueuedOrder) : (bestLevels better depth orders).map PriceLevel.price =
      topKeys better QueuedOrder.price depth orders := by
  rw [bestLevels, topGroups, List.map_map, List.map_map]
  exact List.map_id _

variable {better : ℚ → ℚ → Prop}

/-- The levels of the first orders are the best levels exactly if no later order has one of
the best prices. -/
theorem showsBest_take_iff [DecidableRel better] [Std.Total better] [IsTrans ℚ better]
    [Std.Antisymm better] (whole : WholeLots orders) (depth seen : ℕ) :
    ShowsBest better depth orders (bestLevels better depth (orders.take seen)) ↔
      ∀ order ∈ orders.drop seen, order.price ∉ topKeys better QueuedOrder.price depth orders := by
  have wholeFirst : WholeLots (orders.take seen) := fun order member =>
    whole order (List.mem_of_mem_take member)
  have wholeRest : WholeLots (orders.drop seen) := fun order member =>
    whole order (List.mem_of_mem_drop member)
  constructor
  · intro shows order member isTop
    rw [← shows.prices, prices_bestLevels] at isTop
    have isLevel : ⟨order.price, truncate (((orders.take seen).filter fun other =>
        other.price = order.price).map QueuedOrder.volume).sum⟩ ∈
          bestLevels better depth (orders.take seen) := by
      rw [bestLevels, topGroups, List.map_map]
      exact List.mem_map_of_mem isTop
    have volume := shows.volumes _ isLevel
    dsimp only at volume
    rcases (wholeFirst.filter fun other => other.price = order.price).sum_eq with
      ⟨first, isFirst, -⟩
    rcases (wholeRest.filter fun other => other.price = order.price).sum_eq with
      ⟨rest, isRest, less⟩
    have inRest : 0 < ((orders.drop seen).filter fun other => other.price = order.price).length :=
      List.length_pos_of_mem (List.mem_filter.mpr ⟨member, decide_eq_true rfl⟩)
    have all : ((orders.filter fun other => other.price = order.price).map
        QueuedOrder.volume).sum = ((first + rest : ℕ) : ℚ) := by
      nth_rw 1 [← List.take_append_drop seen orders]
      rw [List.filter_append, List.map_append, List.sum_append, isFirst, isRest, Nat.cast_add]
    rw [isFirst, truncate_natCast, all, Int.cast_natCast, Nat.cast_inj] at volume
    omega
  · intro worse
    rw [bestLevels_take worse]
    refine ⟨prices_bestLevels better depth orders, ?_⟩
    intro level member
    rw [bestLevels, topGroups, List.map_map] at member
    rcases List.mem_map.mp member with ⟨price, -, rfl⟩
    dsimp only [Function.comp_apply]
    rcases (whole.filter fun other => other.price = price).sum_eq with ⟨lots, isLots, -⟩
    rw [isLots, truncate_natCast, Int.cast_natCast]

def filled (fields : List PriceLevel) : List PriceLevel :=
  fields.filter fun level => level.volume ≠ 0

theorem filled_fiveLevels {levels : List PriceLevel} (short : levels.length ≤ 5)
    (volumes : ∀ level ∈ levels, level.volume ≠ 0) : filled (fiveLevels levels) = levels := by
  have all : filled levels = levels :=
    List.filter_eq_self.mpr fun level member => decide_eq_true (volumes level member)
  have padded : fiveLevels levels = levels ++ List.replicate (5 - levels.length) ⟨0, 0⟩ := by
    apply List.ext_getElem?
    intro index
    rw [fiveLevels, List.getElem?_map, List.getElem?_append, List.getElem?_replicate]
    by_cases isLess : index < 5
    · rw [List.getElem?_range isLess, Option.map_some]
      split_ifs with inside beyond
      · rw [List.getElem?_eq_getElem inside]
        rfl
      · rw [List.getElem?_eq_none (Nat.le_of_not_lt inside)]
        rfl
      · omega
    · rw [List.getElem?_eq_none (by rw [List.length_range]; omega), Option.map_none,
        if_neg (by omega), if_neg (by omega)]
  rw [padded, filled, List.filter_append, ← filled, all, List.filter_replicate]
  exact List.append_nil levels

theorem volume_bestLevels [DecidableRel better] {depth : ℕ} (whole : WholeLots orders) :
    ∀ level ∈ bestLevels better depth orders, level.volume ≠ 0 := by
  intro level member
  rw [bestLevels, topGroups, List.map_map] at member
  rcases List.mem_map.mp member with ⟨price, isTop, rfl⟩
  have isKey := List.mem_of_mem_take isTop
  rw [keysBy, List.mem_insertionSort, List.mem_dedup] at isKey
  rcases List.mem_map.mp isKey with ⟨order, isOrder, same⟩
  rcases (whole.filter fun other => other.price = price).sum_eq with ⟨lots, isLots, less⟩
  have some_order : 0 < (orders.filter fun other => other.price = price).length :=
    List.length_pos_of_mem (List.mem_filter.mpr ⟨isOrder, decide_eq_true same⟩)
  dsimp only [Function.comp_apply]
  rw [isLots, truncate_natCast]
  omega

theorem filled_bestLevels [DecidableRel better] (whole : WholeLots orders) (seen : ℕ) :
    filled (fiveLevels (bestLevels better 5 (orders.take seen))) =
      bestLevels better 5 (orders.take seen) := by
  apply filled_fiveLevels
  · rw [bestLevels, topGroups, topKeys, List.length_map, List.length_map, List.length_take]
    exact Nat.min_le_left _ _
  · exact volume_bestLevels fun order member => whole order (List.mem_of_mem_take member)

/-- The levels of a depth query and of a snapshot are the best ones exactly if no order that
they do not look at, behind the first ten for each level, has one of the best prices. -/
theorem depth_right_iff {book : LiveBook} (bidLots : WholeLots book.bids)
    (askLots : WholeLots book.asks) (instrumentId : String) (depth : ℕ) (timestamp : ℤ)
    (view : MarketView) (generator : SnapshotGenerator) {snapshot : MarketSnapshot}
    {next : SnapshotGenerator} (found : generator.books instrumentId = some book)
    (generated : generator.generateSnapshot instrumentId view = .ok (snapshot, next)) :
    (ShowsBest (· ≥ ·) depth book.bids (book.snapshot instrumentId depth timestamp).bids ∧
        ShowsBest (· ≤ ·) depth book.asks (book.snapshot instrumentId depth timestamp).asks ↔
      book.Seen depth) ∧ (ShowsBest (· ≥ ·) 5 book.bids (filled snapshot.bids) ∧
        ShowsBest (· ≤ ·) 5 book.asks (filled snapshot.asks) ↔ book.Seen 5) := by
  rw [SnapshotGenerator.generateSnapshot, found] at generated
  cases generated
  rw [filled_bestLevels bidLots, filled_bestLevels askLots]
  exact ⟨and_congr (showsBest_take_iff bidLots depth _) (showsBest_take_iff askLots depth _),
    and_congr (showsBest_take_iff bidLots 5 50) (showsBest_take_iff askLots 5 50)⟩

def threeBids : LiveBook := ⟨[⟨10, 2⟩, ⟨10, 1⟩, ⟨9, 4⟩], [], 10⟩

theorem depth_right_threeBids :
    ShowsBest (· ≥ ·) 1 threeBids.bids (threeBids.snapshot "IF2501" 1 0).bids := by
  have lots : WholeLots threeBids.bids := by
    intro order member
    rcases List.mem_cons.mp member with rfl | member
    · exact ⟨1, by decide +kernel⟩
    · rcases List.mem_cons.mp member with rfl | member
      · exact ⟨0, by decide +kernel⟩
      · rw [List.mem_singleton.mp member]
        exact ⟨3, by decide +kernel⟩
  have noLots : WholeLots threeBids.asks := fun order member => absurd member List.not_mem_nil
  have right := depth_right_iff lots noLots "IF2501" 1 0 ⟨none, 0, 0, ""⟩
    ⟨fun _ => some threeBids, fun _ => none⟩ rfl rfl
  exact (right.1.mpr (by decide +kernel)).1

/-- Eleven orders at one price, of which a query of depth 1 looks at ten. -/
theorem depth_one_misses_order :
    ¬ ∀ (book : LiveBook) (depth : ℕ), WholeLots book.bids → WholeLots book.asks → 1 ≤ depth →
      ShowsBest (· ≥ ·) depth book.bids (book.snapshot "IF2501" depth 0).bids := by
  intro right
  have lots : WholeLots (List.replicate 11 ⟨10, 1⟩) := fun order member =>
    ⟨0, by rw [List.eq_of_mem_replicate member]; decide +kernel⟩
  have shows := right ⟨List.replicate 11 ⟨10, 1⟩, [], 10⟩ 1 lots
    (fun order member => absurd member List.not_mem_nil) le_rfl
  have volume := shows.volumes ⟨10, 10⟩ (by decide +kernel)
  exact absurd volume (by decide +kernel)

end QAExchange
