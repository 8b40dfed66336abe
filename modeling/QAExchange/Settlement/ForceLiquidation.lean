import QAExchange.Exchange.OrderRouter
import QAExchange.Foundation.Runs
import QAExchange.Settlement.SettlementEngine

/-! # Forced liquidation

The two ways in which an account is liquidated: a call of `force_liquidate_account`, and the
tasks that the daily settlement leaves to a worker. Both plan the same orders, but only the
call keeps a record of them.
-/

namespace QAExchange

open Foundation

inductive ForceLiquidationStatus
  | Pending
  | Submitted
  | PartiallyFilled
  | Filled
  | Cancelled
  | Rejected
  | Failed
  deriving DecidableEq

namespace ForceLiquidationStatus

def isFinal : ForceLiquidationStatus → Bool
  | Filled | Cancelled | Rejected | Failed => true
  | Pending | Submitted | PartiallyFilled => false

def isSuccess : ForceLiquidationStatus → Bool
  | Filled => true
  | _ => false

end ForceLiquidationStatus

structure ForceLiquidationOrder where
  instrumentId : String
  direction : String
  offset : String
  volume : ℚ
  price : ℚ
  orderId : Option String
  status : ForceLiquidationStatus
  error : Option Message
  filledVolume : ℚ
  filledPrice : ℚ
  submitTime : Option String
  updateTime : Option String
  retryCount : ℕ

/-- `ForceLiquidationOrder::new` -/
def ForceLiquidationOrder.new (instrumentId direction offset : String) (volume price : ℚ) :
    ForceLiquidationOrder where
  instrumentId := instrumentId
  direction := direction
  offset := offset
  volume := volume
  price := price
  orderId := none
  status := .Pending
  error := none
  filledVolume := 0
  filledPrice := 0
  submitTime := none
  updateTime := none
  retryCount := 0

structure ForceLiquidationResult where
  liquidationId : String
  accountId : String
  orders : List ForceLiquidationOrder
  triggerRiskRatio : ℚ
  balanceBefore : ℚ
  balanceAfter : ℚ
  startTime : String
  completeTime : Option String
  overallStatus : ForceLiquidationStatus
  remark : Option String

namespace ForceLiquidationResult

def isComplete (result : ForceLiquidationResult) : Bool :=
  result.orders.all fun order => order.status.isFinal

def isAllSuccess (result : ForceLiquidationResult) : Bool :=
  result.orders.all fun order => order.status.isSuccess

def updateOverallStatus (result : ForceLiquidationResult) : ForceLiquidationResult :=
  { result with
    overallStatus :=
      if result.orders.isEmpty then .Filled
      else if result.isAllSuccess then .Filled
      else if result.isComplete then .Failed
      else if result.orders.any fun order => order.status = .PartiallyFilled then
        .PartiallyFilled
      else if result.orders.any fun order => order.status = .Submitted then .Submitted
      else .Pending }

end ForceLiquidationResult

structure ForcePlan where
  instrumentId : String
  direction : String
  offset : String
  volume : ℚ
  referencePrice : ℚ

structure ForceCloseTask where
  accountId : String
  riskRatio : ℚ
  remark : Option String

structure LiquidationNotice where
  userId : String
  riskRatioBefore : ℚ
  balanceBefore : ℚ
  balanceAfter : ℚ
  instrumentsClosed : List String
  remark : Option String

structure ForcePriceTick where
  bidPrice : Option ℚ
  askPrice : Option ℚ
  lastPrice : ℚ

/-! ## Plans -/

/-- One closing order for each open side of each position, with the whole volume. The
reference prices come from the instrument and the opening price of the side. -/
def forcePlans (reference : String → ℚ → ℚ) (account : SettledAccount) : List ForcePlan :=
  account.hold.flatMap fun held =>
    (if 0 < held.2.longVolume then
      [⟨held.1, "SELL", "CLOSE", held.2.longVolume, reference held.1 held.2.openPriceLong⟩]
    else []) ++
    (if 0 < held.2.shortVolume then
      [⟨held.1, "BUY", "CLOSE", held.2.shortVolume, reference held.1 held.2.openPriceShort⟩]
    else [])

/-- The plans of `force_liquidate_account`. -/
def directPlans : SettledAccount → List ForcePlan :=
  forcePlans fun _ openPrice => if 0 < openPrice then openPrice else 1

/-- `build_force_plans`, for the worker. -/
def buildForcePlans (settlementPrices : String → Option ℚ) : SettledAccount → List ForcePlan :=
  forcePlans fun instrumentId openPrice =>
    (settlementPrices instrumentId).getD (max openPrice (1 / 100))

/-- Both `calculate_force_price`s. -/
def calculateForcePrice (tick : Option ForcePriceTick) (direction : String)
    (referencePrice : ℚ) : ℚ :=
  let fallback := max referencePrice (1 / 100)
  let price := tick.map fun tick =>
    match direction with
    | "SELL" => tick.bidPrice.getD tick.lastPrice
    | "BUY" => tick.askPrice.getD tick.lastPrice
    | _ => tick.lastPrice
  let marketPrice := (price.filter fun price => 0 < price).getD fallback
  match direction with
  | "SELL" => max (marketPrice * (995 / 1000)) (1 / 100)
  | "BUY" => max (marketPrice * (1005 / 1000)) (1 / 100)
  | _ => marketPrice

/-- What an order closes: the instrument, the direction, the offset and the volume. -/
structure ClosingSide where
  instrumentId : String
  direction : String
  offset : String
  volume : ℚ

def ForcePlan.side (plan : ForcePlan) : ClosingSide :=
  ⟨plan.instrumentId, plan.direction, plan.offset, plan.volume⟩

def ForceLiquidationOrder.side (order : ForceLiquidationOrder) : ClosingSide :=
  ⟨order.instrumentId, order.direction, order.offset, order.volume⟩

def closingSides (account : SettledAccount) : List ClosingSide :=
  account.hold.flatMap fun held =>
    (if 0 < held.2.longVolume then [⟨held.1, "SELL", "CLOSE", held.2.longVolume⟩] else []) ++
    (if 0 < held.2.shortVolume then [⟨held.1, "BUY", "CLOSE", held.2.shortVolume⟩] else [])

/-- Both ways plan the open sides, whatever their reference prices. -/
theorem map_side_forcePlans (reference : String → ℚ → ℚ) (account : SettledAccount) :
    (forcePlans reference account).map ForcePlan.side = closingSides account := by
  rw [forcePlans, closingSides, List.map_flatMap]
  congr 1
  funext held
  rw [List.map_append]
  split_ifs <;> rfl

/-- The exchange that an engine liquidates on: its accounts, its router and its ticks. -/
structure LiquidationMarket where
  State : Type
  account : State → String → Option SettledAccount
  settle : State → String → SettledAccount → State
  submitForceOrder : State → SubmitOrderRequest → State × SubmitOrderResponse
  tick : State → String → Option ForcePriceTick
  getBalance : SettledAccount → ℚ
  getRiskRatio : SettledAccount → ℚ

variable {M : LiquidationMarket}

def forceRequest (state : M.State) (accountId : String) (plan : ForcePlan) :
    SubmitOrderRequest where
  accountId := accountId
  instrumentId := plan.instrumentId
  direction := plan.direction
  offset := plan.offset
  volume := plan.volume
  price := calculateForcePrice (M.tick state plan.instrumentId) plan.direction plan.referencePrice
  orderType := "LIMIT"
  timeCondition := none
  volumeCondition := none

/-- The plans are submitted one after the other, and the router answers each of them. -/
def submitPlans (accountId : String) :
    List ForcePlan → M.State → M.State × List (SubmitOrderRequest × SubmitOrderResponse)
  | [], state => (state, [])
  | plan :: plans, state =>
    let request := forceRequest state accountId plan
    let submitted := M.submitForceOrder state request
    let later := submitPlans accountId plans submitted.1
    (later.1, (request, submitted.2) :: later.2)

/-- The order that `force_liquidate_account` keeps of an answer. -/
def orderOfResponse (now : String) (request : SubmitOrderRequest)
    (response : SubmitOrderResponse) : ForceLiquidationOrder :=
  { ForceLiquidationOrder.new request.instrumentId request.direction request.offset
      request.volume request.price with
    orderId := response.orderId
    status := if response.success then .Submitted else .Rejected
    error := if response.success then none else response.errorMessage
    submitTime := some now
    updateTime := some now }

/-! ## The engine -/

/-- The engine with the market that it works on. The last three fields are histories: what the
settlements have reported, what the worker has taken up with the account as it found it, and
the liquidations that calls have returned. -/
structure LiquidationEngine (M : LiquidationMarket) where
  market : M.State
  orderRouter : Bool
  riskMonitor : Option (List LiquidationNotice)
  forceCloseQueue : List ForceCloseTask
  liquidationSeq : ℕ
  liquidationHistory : AList fun _ : String => ForceLiquidationResult
  accountLiquidations : AList fun _ : String => List String
  reported : List String
  served : List (ForceCloseTask × Option SettledAccount)
  returned : List String

namespace LiquidationEngine

def new (market : M.State) : LiquidationEngine M where
  market := market
  orderRouter := false
  riskMonitor := none
  forceCloseQueue := []
  liquidationSeq := 1
  liquidationHistory := ∅
  accountLiquidations := ∅
  reported := []
  served := []
  returned := []

/-- `LIQ{}{:08}` -/
def generateLiquidationId (date : String) (engine : LiquidationEngine M) : String :=
  "LIQ" ++ date ++ String.ofList ((toString engine.liquidationSeq).toList.leftpad 8 '0')

def save (result : ForceLiquidationResult) (engine : LiquidationEngine M) : LiquidationEngine M :=
  { engine with
    liquidationHistory := engine.liquidationHistory.insert result.liquidationId result
    accountLiquidations := engine.accountLiquidations.insert result.accountId
      ((engine.accountLiquidations.lookup result.accountId).getD [] ++
        [result.liquidationId]) }

def notifyMonitor (notice : LiquidationNotice) (engine : LiquidationEngine M) :
    LiquidationEngine M :=
  { engine with riskMonitor := engine.riskMonitor.map (· ++ [notice]) }

def resultOf (id accountId : String) (account : SettledAccount) (balanceAfter : ℚ)
    (now : String) (remark : Option String)
    (answers : List (SubmitOrderRequest × SubmitOrderResponse)) : ForceLiquidationResult :=
  let result : ForceLiquidationResult :=
    { liquidationId := id
      accountId := accountId
      orders := answers.map fun answer => orderOfResponse now answer.1 answer.2
      triggerRiskRatio := M.getRiskRatio account
      balanceBefore := M.getBalance account
      balanceAfter := balanceAfter
      startTime := now
      completeTime := none
      overallStatus := .Pending
      remark := remark }
  let updated := result.updateOverallStatus
  if updated.isComplete then { updated with completeTime := some now } else updated

/-- `force_liquidate_account`: an error without a router or an account, else the result. -/
def forceLiquidateAccount (accountId : String) (remark : Option String) (date now : String)
    (engine : LiquidationEngine M) :
    LiquidationEngine M × Except ExchangeError ForceLiquidationResult :=
  if engine.orderRouter = false then
    (engine, .error (.InternalError
      (.ofString "OrderRouter not configured for SettlementEngine")))
  else
    match M.account engine.market accountId with
    | none => (engine, .error (.AccountError (.ofString ("Account not found: " ++ accountId))))
    | some account =>
      let id := engine.generateLiquidationId date
      let engine := { engine with liquidationSeq := engine.liquidationSeq + 1 }
      if (directPlans account).isEmpty then
        let result : ForceLiquidationResult :=
          { liquidationId := id
            accountId := accountId
            orders := []
            triggerRiskRatio := M.getRiskRatio account
            balanceBefore := M.getBalance account
            balanceAfter := M.getBalance account
            startTime := now
            completeTime := some now
            overallStatus := .Filled
            remark := remark }
        (engine.save result, .ok result)
      else
        let submitted := submitPlans accountId (directPlans account) engine.market
        let balanceAfter :=
          ((M.account submitted.1 accountId).map M.getBalance).getD (M.getBalance account)
        let result := resultOf (M := M) id accountId account balanceAfter now remark submitted.2
        let notice : LiquidationNotice :=
          { userId := accountId
            riskRatioBefore := M.getRiskRatio account
            balanceBefore := M.getBalance account
            balanceAfter := balanceAfter
            instrumentsClosed := result.orders.map ForceLiquidationOrder.instrumentId
            remark := remark }
        ((({ engine with market := submitted.1 }).save result).notifyMonitor notice, .ok result)

/-- What the worker does about a task: nothing without a router, an account or plans. The
answers of the router are dropped. -/
def carryOut (settlement : SettlementEngine) (task : ForceCloseTask)
    (engine : LiquidationEngine M) : LiquidationEngine M :=
  if engine.orderRouter = false then engine
  else
    match M.account engine.market task.accountId with
    | none => engine
    | some account =>
      let plans := buildForcePlans settlement.settlementPrices account
      if plans.isEmpty then engine
      else
        let submitted := submitPlans task.accountId plans engine.market
        let balanceAfter := ((M.account submitted.1 task.accountId).map
          SettledAccount.balance).getD account.balance
        let notice : LiquidationNotice :=
          { userId := task.accountId
            riskRatioBefore := task.riskRatio
            balanceBefore := account.balance
            balanceAfter := balanceAfter
            instrumentsClosed := []
            remark := task.remark }
        ({ engine with market := submitted.1 }).notifyMonitor notice

def work (settlement : SettlementEngine) (engine : LiquidationEngine M) : LiquidationEngine M :=
  match engine.forceCloseQueue with
  | [] => engine
  | task :: queue =>
    ({ engine with
      forceCloseQueue := queue
      served := engine.served ++ [(task, M.account engine.market task.accountId)] }).carryOut
        settlement task

/-! ### The daily settlement -/

/-- Phase 1: the figures of the accounts that are there. -/
def preCalculations (settlement : SettlementEngine) (engine : LiquidationEngine M) :
    List PreCalculatedSettlement :=
  settlement.accountIds.filterMap fun accountId =>
    (M.account engine.market accountId).map (settlement.preCalculateAccount accountId)

/-- Phase 2: the accounts are settled with their figures. -/
def applySettlements (settlement : SettlementEngine) :
    List PreCalculatedSettlement → M.State → M.State
  | [], state => state
  | preCalc :: preCalcs, state =>
    match M.account state preCalc.accountId with
    | none => applySettlements settlement preCalcs state
    | some account =>
      applySettlements settlement preCalcs
        (M.settle state preCalc.accountId (settlement.applySettlement preCalc account))

def forceClosed (settlement : SettlementEngine) (engine : LiquidationEngine M) :
    List PreCalculatedSettlement :=
  (engine.preCalculations settlement).filter PreCalculatedSettlement.needForceClose

/-- `daily_settlement`: phase 3 reports the accounts to be closed and queues a task for
each. -/
def dailySettlement (settlement : SettlementEngine) (engine : LiquidationEngine M) :
    LiquidationEngine M :=
  { engine with
    market := applySettlements settlement (engine.preCalculations settlement) engine.market
    forceCloseQueue := engine.forceCloseQueue ++ (engine.forceClosed settlement).map
      fun preCalc => ⟨preCalc.accountId, preCalc.riskRatio, some "Settlement risk threshold"⟩
    reported := engine.reported ++
      (engine.forceClosed settlement).map PreCalculatedSettlement.accountId }

end LiquidationEngine

end QAExchange
