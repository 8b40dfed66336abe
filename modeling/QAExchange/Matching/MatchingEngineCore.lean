import QAExchange.Matching.FillAttribution
import QAExchange.PriceTime
import QAExchange.Protocol.IpcMessages

/-! # The independent matching core

The core keeps a book for each instrument and sends trade reports and order
confirmations for what the book answers.
-/

namespace QAExchange

open Foundation

variable {Q : Qars}

/-- `trades` and `accepted` are what was sent to the two channels. -/
structure MatchingEngineCore (Q : Qars) where
  orderbooks : AList fun _ : String => Q.Orderbook
  trades : List Ipc.TradeReport
  accepted : List Ipc.OrderAccepted

namespace MatchingEngineCore

def directionOf (direction : UInt8) : OrderDirection := if direction = 0 then .BUY else .SELL

def convertToMatchOrder (Q : Qars) (req : Ipc.OrderRequest) : OrderRequest :=
  .newLimitOrder (.fromCode Q (Ipc.text req.instrumentId)) (directionOf req.direction) req.price
    req.volume req.timestamp

/-- `EX_{timestamp}_{instrument}{B|S}` -/
def exchangeOrderId (req : Ipc.OrderRequest) (timestamp : ℤ) : List UInt8 :=
  let directionStr := if req.direction = 0 then "B" else "S"
  Ipc.fixedBytes 32
    ("EX_" ++ toString timestamp ++ "_" ++ Ipc.text req.instrumentId ++ directionStr)

def createTradeReport (req : Ipc.OrderRequest) (price volume : ℚ) (timestamp : ℤ)
    (fillType : UInt8) : Ipc.TradeReport where
  tradeId := Ipc.fixedBytes 32 ("T" ++ toString timestamp)
  orderId := req.orderId
  exchangeOrderId := exchangeOrderId req timestamp
  userId := req.userId
  instrumentId := req.instrumentId
  direction := req.direction
  offset := req.offset
  fillType := fillType
  price := price
  volume := volume
  commission := price * volume * (3 / 10000)
  timestamp := timestamp
  oppositeOrderId := List.replicate 32 0
  gatewayId := req.gatewayId
  sessionId := req.sessionId

def createOrderAccepted (req : Ipc.OrderRequest) (timestamp : ℤ) : Ipc.OrderAccepted where
  orderId := req.orderId
  exchangeOrderId := exchangeOrderId req timestamp
  userId := req.userId
  instrumentId := req.instrumentId
  timestamp := timestamp
  gatewayId := req.gatewayId
  sessionId := req.sessionId

def handleSuccess (req : Ipc.OrderRequest) (core : MatchingEngineCore Q) :
    Success → MatchingEngineCore Q
  | .Filled fill => { core with
      trades := core.trades ++ [createTradeReport req fill.price fill.volume fill.ts 0] }
  | .PartiallyFilled fill => { core with
      trades := core.trades ++ [createTradeReport req fill.price fill.volume fill.ts 1] }
  | .Accepted _ _ ts => { core with accepted := core.accepted ++ [createOrderAccepted req ts] }
  | .Amended .. | .Cancelled .. => core

/-- A failure is only logged. -/
def handleResult (req : Ipc.OrderRequest) (core : MatchingEngineCore Q) :
    OrderProcessingResult → MatchingEngineCore Q
  | .ok success => handleSuccess req core success
  | .error _ => core

def match' (req : Ipc.OrderRequest) (core : MatchingEngineCore Q) :
    List OrderProcessingResult × MatchingEngineCore Q :=
  let instrumentId := Ipc.text req.instrumentId
  match core.orderbooks.lookup instrumentId with
  | some orderbook =>
    let answer := Q.processOrder orderbook (convertToMatchOrder Q req)
    (answer.1, { core with orderbooks := core.orderbooks.insert instrumentId answer.2 })
  | none => ([], core)

def processOrder (core : MatchingEngineCore Q) (req : Ipc.OrderRequest) : MatchingEngineCore Q :=
  (match' req core).1.foldl (handleResult req) (match' req core).2

def reported (report : Ipc.TradeReport) : ReportedFill (List UInt8 × List UInt8) (List UInt8) where
  owner := (report.orderId, report.userId)
  tradeId := report.tradeId
  volume := report.volume

def processed (core : MatchingEngineCore Q) (req : Ipc.OrderRequest) :
    ProcessedOrder (List UInt8 × List UInt8) (List UInt8) where
  owner := (req.orderId, req.userId)
  instrument := Ipc.text req.instrumentId
  results := (emissions (handleResult req) (fun core : MatchingEngineCore Q => core.trades)
    (match' req core).1 (match' req core).2).map fun emitted =>
      (emitted.1, emitted.2.map reported)

def CrossesNow (priceTime : PriceTimeContract Q) (core : MatchingEngineCore Q)
    (req : Ipc.OrderRequest) : Prop :=
  ∃ orderbook ∈ core.orderbooks.lookup (Ipc.text req.instrumentId),
    Crosses priceTime orderbook (.fromCode Q (Ipc.text req.instrumentId))
      (directionOf req.direction) req.price req.volume req.timestamp

section Reports

variable (req : Ipc.OrderRequest) (core : MatchingEngineCore Q)

theorem handleResult_adds (result : OrderProcessingResult) :
    ∃ new, (handleResult req core result).trades = core.trades ++ new ∧
      ∀ report ∈ new, (report.orderId, report.userId) = (req.orderId, req.userId) ∧
        ∃ fill, fillOf result = some fill := by
  cases result with
  | error failed => exact ⟨[], by simp [handleResult], by simp⟩
  | ok success =>
    cases success with
    | Filled fill =>
      refine ⟨_, rfl, ?_⟩
      intro report member
      rw [List.mem_singleton.mp member]
      exact ⟨rfl, fill, rfl⟩
    | PartiallyFilled fill =>
      refine ⟨_, rfl, ?_⟩
      intro report member
      rw [List.mem_singleton.mp member]
      exact ⟨rfl, fill, rfl⟩
    | Accepted | Amended | Cancelled => exact ⟨[], by simp [handleResult, handleSuccess], by simp⟩

theorem reportsTaker_processed (priceTime : PriceTimeContract Q) :
    ReportsTaker (core.processed req) ∧
      ((core.processed req).matches' = [] ↔ ¬ core.CrossesNow priceTime req) := by
  have own : ∀ result ∈ (core.processed req).results, ∀ report ∈ result.2,
      report.owner = (core.processed req).owner ∧ ∃ fill, fillOf result.1 = some fill := by
    intro result member report isReport
    rcases List.mem_map.mp member with ⟨emitted, isEmitted, rfl⟩
    rcases List.mem_map.mp isReport with ⟨trade, isTrade, rfl⟩
    exact mem_emissions (fun core result => handleResult_adds req core result) isEmitted trade isTrade
  have answered : (core.processed req).results.map Prod.fst =
      ((core.orderbooks.lookup (Ipc.text req.instrumentId)).map fun orderbook =>
        (Q.processOrder orderbook (convertToMatchOrder Q req)).1).getD [] := by
    rw [processed, List.map_map]
    refine (map_fst_emissions _ _ _ _).trans ?_
    rw [match']
    cases core.orderbooks.lookup (Ipc.text req.instrumentId) <;> rfl
  simpa [CrossesNow] using reportsTaker_of_answer priceTime own answered

end Reports

end MatchingEngineCore

end QAExchange

/-! ## The high-performance engine

The matching loop takes orders from a queue and puts trade reports into another
one, which may be full. Like the core, it reports both fills of a match with the
ids of the incoming order.
-/

namespace QAExchange

open Foundation

variable {Q : Qars}

structure PooledOrder where
  orderId : String
  accountId : String
  instrumentId : String
  direction : UInt8
  offset : UInt8
  price : ℚ
  volume : ℚ

structure PooledTradeReport where
  tradeId : String
  orderId : String
  accountId : String
  instrumentId : String
  direction : UInt8
  offset : UInt8
  price : ℚ
  volume : ℚ
  commission : ℚ
  timestamp : ℤ

structure MatchingStats where
  tradesGenerated : ℕ
  queueDrops : ℕ

/-- `trades` is what the trade queue has taken. `full` tells whether the queue is
full at the first, the second and each further attempt to send. -/
structure HighPerfMatchingEngine (Q : Qars) where
  orderbooks : AList fun _ : String => Q.Orderbook
  trades : List PooledTradeReport
  stats : MatchingStats
  full : ℕ → Bool

namespace HighPerfMatchingEngine

structure Arrival where
  order : PooledOrder
  nanos : ℤ
  millis : ℤ

def trySend (report : PooledTradeReport) (engine : HighPerfMatchingEngine Q) :
    HighPerfMatchingEngine Q :=
  if engine.full (engine.stats.tradesGenerated + engine.stats.queueDrops) then
    { engine with stats.queueDrops := engine.stats.queueDrops + 1 }
  else
    { engine with
      trades := engine.trades ++ [report]
      stats.tradesGenerated := engine.stats.tradesGenerated + 1 }

def tradeReport (arrival : Arrival) (fill : Fill) : PooledTradeReport where
  tradeId := "T" ++ toString fill.ts
  orderId := arrival.order.orderId
  accountId := arrival.order.accountId
  instrumentId := arrival.order.instrumentId
  direction := arrival.order.direction
  offset := arrival.order.offset
  price := fill.price
  volume := fill.volume
  commission := 0
  timestamp := arrival.millis

def handleResult (arrival : Arrival) (engine : HighPerfMatchingEngine Q) :
    OrderProcessingResult → HighPerfMatchingEngine Q
  | .ok (.Filled fill) | .ok (.PartiallyFilled fill) => engine.trySend (tradeReport arrival fill)
  | .ok (.Accepted ..) | .ok (.Cancelled ..) | .ok (.Amended ..) => engine
  | .error _ => engine

def match' (arrival : Arrival) (engine : HighPerfMatchingEngine Q) :
    List OrderProcessingResult × HighPerfMatchingEngine Q :=
  let order := arrival.order
  match engine.orderbooks.lookup order.instrumentId with
  | some orderbook =>
    let answer := Q.processOrder orderbook (.newLimitOrder (.fromCode Q order.instrumentId)
      (MatchingEngineCore.directionOf order.direction) order.price order.volume arrival.nanos)
    (answer.1,
      { engine with orderbooks := engine.orderbooks.insert order.instrumentId answer.2 })
  | none => ([], engine)

def processSingleOrder (engine : HighPerfMatchingEngine Q) (arrival : Arrival) :
    HighPerfMatchingEngine Q :=
  (match' arrival engine).1.foldl (handleResult arrival) (match' arrival engine).2

/-! ## Runs -/

def reported (report : PooledTradeReport) : ReportedFill (String × String) String where
  owner := (report.orderId, report.accountId)
  tradeId := report.tradeId
  volume := report.volume

def processed (engine : HighPerfMatchingEngine Q) (arrival : Arrival) :
    ProcessedOrder (String × String) String where
  owner := (arrival.order.orderId, arrival.order.accountId)
  instrument := arrival.order.instrumentId
  results := (emissions (handleResult arrival)
    (fun engine : HighPerfMatchingEngine Q => engine.trades) (match' arrival engine).1
    (match' arrival engine).2).map fun emitted => (emitted.1, emitted.2.map reported)

def CrossesNow (priceTime : PriceTimeContract Q) (engine : HighPerfMatchingEngine Q)
    (arrival : Arrival) : Prop :=
  ∃ orderbook ∈ engine.orderbooks.lookup arrival.order.instrumentId,
    Crosses priceTime orderbook (.fromCode Q arrival.order.instrumentId)
      (MatchingEngineCore.directionOf arrival.order.direction) arrival.order.price
      arrival.order.volume arrival.nanos

section Reports

variable (arrival : Arrival) (engine : HighPerfMatchingEngine Q)

theorem trySend_adds (report : PooledTradeReport) : (engine.trySend report).trades = engine.trades ∨
      (engine.trySend report).trades = engine.trades ++ [report] := by
  rw [trySend]
  split_ifs
  · exact .inl rfl
  · exact .inr rfl

theorem handleResult_adds (result : OrderProcessingResult) :
    ∃ new, (handleResult arrival engine result).trades = engine.trades ++ new ∧
      ∀ report ∈ new, (report.orderId, report.accountId) =
          (arrival.order.orderId, arrival.order.accountId) ∧
        ∃ fill, fillOf result = some fill := by
  have sends : ∀ fill, fillOf result = some fill →
      ∃ new, (engine.trySend (tradeReport arrival fill)).trades = engine.trades ++ new ∧
        ∀ report ∈ new, (report.orderId, report.accountId) =
            (arrival.order.orderId, arrival.order.accountId) ∧
          ∃ fill, fillOf result = some fill := by
    intro fill isFill
    rcases engine.trySend_adds (tradeReport arrival fill) with dropped | taken
    · exact ⟨[], by simpa using dropped, by simp⟩
    · refine ⟨_, taken, ?_⟩
      intro report member
      rw [List.mem_singleton.mp member]
      exact ⟨rfl, fill, isFill⟩
  cases result with
  | error failed => exact ⟨[], by simp [handleResult], by simp⟩
  | ok success =>
    cases success with
    | Filled fill => exact sends fill rfl
    | PartiallyFilled fill => exact sends fill rfl
    | Accepted | Amended | Cancelled => exact ⟨[], by simp [handleResult], by simp⟩

theorem reportsTaker_processed (priceTime : PriceTimeContract Q) :
    ReportsTaker (engine.processed arrival) ∧
      ((engine.processed arrival).matches' = [] ↔ ¬ engine.CrossesNow priceTime arrival) := by
  have own : ∀ result ∈ (engine.processed arrival).results, ∀ report ∈ result.2,
      report.owner = (engine.processed arrival).owner ∧ ∃ fill, fillOf result.1 = some fill := by
    intro result member report isReport
    rcases List.mem_map.mp member with ⟨emitted, isEmitted, rfl⟩
    rcases List.mem_map.mp isReport with ⟨trade, isTrade, rfl⟩
    exact mem_emissions (fun engine result => handleResult_adds arrival engine result) isEmitted
      trade isTrade
  have answered : (engine.processed arrival).results.map Prod.fst =
      ((engine.orderbooks.lookup arrival.order.instrumentId).map fun orderbook =>
        (Q.processOrder orderbook (.newLimitOrder (.fromCode Q arrival.order.instrumentId)
          (MatchingEngineCore.directionOf arrival.order.direction) arrival.order.price
          arrival.order.volume arrival.nanos)).1).getD [] := by
    rw [processed, List.map_map]
    refine (map_fst_emissions _ _ _ _).trans ?_
    rw [match']
    cases engine.orderbooks.lookup arrival.order.instrumentId <;> rfl
  simpa [CrossesNow] using reportsTaker_of_answer priceTime own answered

end Reports

end HighPerfMatchingEngine

/-- For every run of orders through the core, and through the high-performance
engine: the reports tell the two orders of every match apart, the reported volumes
are the traded ones and different matches have different trade ids, if and only if
no order of the run crosses one that rests when it comes. -/
theorem attributed_iff_nothingCrosses (priceTime : PriceTimeContract Q) :
    (∀ (core : MatchingEngineCore Q) (requests : List Ipc.OrderRequest),
      Attributed (processedRun MatchingEngineCore.processOrder MatchingEngineCore.processed
          requests core) ↔
        NothingCrosses MatchingEngineCore.processOrder
          (MatchingEngineCore.CrossesNow priceTime) requests core) ∧
      ∀ (engine : HighPerfMatchingEngine Q) (arrivals : List HighPerfMatchingEngine.Arrival),
        Attributed (processedRun HighPerfMatchingEngine.processSingleOrder
            HighPerfMatchingEngine.processed arrivals engine) ↔
          NothingCrosses HighPerfMatchingEngine.processSingleOrder
            (HighPerfMatchingEngine.CrossesNow priceTime) arrivals engine := by
  constructor
  · intro core requests
    apply attributed_processedRun_iff
    intro core req
    exact core.reportsTaker_processed req priceTime
  · intro engine arrivals
    apply attributed_processedRun_iff
    intro engine arrival
    exact engine.reportsTaker_processed arrival priceTime

namespace MatchingEngineCore

/-- A core with an empty book for instrument `A`. -/
def oneBook : MatchingEngineCore referenceQars where
  orderbooks := (∅ : AList fun _ : String => ReferenceBook).insert "A" (.new 0)
  trades := []
  accepted := []

/-- An order for two of instrument `A` at a price of one. -/
def orderOf (orderId : String) (direction : UInt8) (timestamp : ℤ) : Ipc.OrderRequest where
  orderId := Ipc.fixedBytes 40 orderId
  userId := Ipc.fixedBytes 32 orderId
  instrumentId := Ipc.fixedBytes 16 "A"
  direction := direction
  offset := 0
  price := 1
  volume := 2
  timestamp := timestamp
  gatewayId := 0
  sessionId := 0

theorem oneOrder_attributed :
    Attributed (processedRun processOrder processed [orderOf "m" 1 1] oneBook) := by
  apply ((attributed_iff_nothingCrosses ReferenceQars.priceTime).1 oneBook [orderOf "m" 1 1]).mpr
  refine ⟨?_, trivial⟩
  intro crosses
  rcases crosses with ⟨orderbook, found, _, resting, member, _⟩
  have isA : Ipc.text (orderOf "m" 1 1).instrumentId = "A" := by decide +kernel
  have isNew : orderbook = ReferenceBook.new 0 := by
    rw [isA] at found
    exact (Option.some.inj ((AList.lookup_insert _).symm.trans found)).symm
  subst isNew
  cases member

/-- A resting order and one that takes it: both reports have the ids of the
second. -/
theorem crossedPair_not_attributed :
    ((([orderOf "m" 1 1, orderOf "t" 0 2].foldl processOrder oneBook).trades.map
      fun report => Ipc.text report.orderId) = ["t", "t"]) ∧
      ¬ Attributed (processedRun processOrder processed [orderOf "m" 1 1, orderOf "t" 0 2]
        oneBook) := by
  refine ⟨by decide +kernel, ?_⟩
  intro attributed
  have one : ∀ found ∈ (processed (processOrder oneBook (orderOf "m" 1 1))
      (orderOf "t" 0 2)).matches', (found.reports.countP fun report => report.owner =
        (Ipc.fixedBytes 40 "t", Ipc.fixedBytes 32 "t")) = 1 := by
    intro found member
    exact (attributed.matched _ (.tail _ (.head _)) found member).2.1
  exact absurd one (by decide +kernel)

end MatchingEngineCore

end QAExchange
