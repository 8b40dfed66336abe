import QAExchange.Exchange.TradeGateway
import QAExchange.Exchange.TradingSession
import QAExchange.Risk.PreTradeCheck

/-! # Order router

The router checks an order, freezes its funds, sends it to the order book of
its instrument and applies what the book reports. The optional broadcaster and
the optional tick storage are only written to and are left out.
-/

namespace QAExchange

open Foundation Action

variable {Q : Qars}

inductive TimeCondition
  | IOC
  | GFS
  | GFD
  | GTD
  | GTC
  | GFA
  deriving DecidableEq

inductive VolumeCondition
  | ANY
  | MIN
  | ALL
  deriving DecidableEq

structure SubmitOrderRequest where
  accountId : String
  instrumentId : String
  direction : String
  offset : String
  volume : ℚ
  price : ℚ
  orderType : String
  timeCondition : Option TimeCondition
  volumeCondition : Option VolumeCondition
  deriving DecidableEq

namespace SubmitOrderRequest

def timeCond (req : SubmitOrderRequest) : TimeCondition := req.timeCondition.getD .GFD

def volumeCond (req : SubmitOrderRequest) : VolumeCondition := req.volumeCondition.getD .ANY

/-- Fill or kill: IOC for the whole volume. -/
def isFok (req : SubmitOrderRequest) : Bool := req.timeCond = .IOC ∧ req.volumeCond = .ALL

end SubmitOrderRequest

structure CancelOrderRequest where
  accountId : String
  orderId : String

structure SubmitOrderResponse where
  success : Bool
  orderId : Option String
  status : Option String
  errorMessage : Option Message
  errorCode : Option ℕ

def SubmitOrderResponse.rejected (orderId : String) (message : Message) (code : ℕ) :
    SubmitOrderResponse where
  success := false
  orderId := some orderId
  status := some "rejected"
  errorMessage := some message
  errorCode := some code

inductive OrderStatus
  | PendingRisk
  | PendingRoute
  | Submitted
  | PartiallyFilled
  | Filled
  | Cancelled
  | Rejected
  deriving DecidableEq

namespace OrderStatus

/-- `{:?}` of a status. -/
def debug : OrderStatus → String
  | PendingRisk => "PendingRisk"
  | PendingRoute => "PendingRoute"
  | Submitted => "Submitted"
  | PartiallyFilled => "PartiallyFilled"
  | Filled => "Filled"
  | Cancelled => "Cancelled"
  | Rejected => "Rejected"

/-- The status as `submit_order` answers it. -/
def answer : OrderStatus → String
  | Filled => "filled"
  | PartiallyFilled => "partially_filled"
  | Cancelled => "cancelled"
  | Rejected => "rejected"
  | PendingRisk | PendingRoute | Submitted => "submitted"

def isFinal : OrderStatus → Bool
  | Filled | Cancelled | Rejected => true
  | PendingRisk | PendingRoute | Submitted | PartiallyFilled => false

end OrderStatus

structure OrderRouteInfo where
  order : Order
  status : OrderStatus
  submitTime : ℤ
  updateTime : ℤ
  filledVolume : ℚ
  qaOrderId : String
  matchingEngineOrderId : Option ℕ
  timeCondition : TimeCondition
  volumeCondition : VolumeCondition

/-- One call of `process_order` of a book, for an order of the router. -/
structure Booking where
  orderId : String
  instrumentId : String
  results : List OrderProcessingResult

/-- `journal` is a history variable: the calls of the books, in order. -/
structure ExchangeMatchingEngine (Q : Qars) where
  orderbooks : String → Option Q.Orderbook
  journal : List Booking

/-- `processed` is a history variable: the book events that the router has
taken up, each with its instrument, in order. -/
structure OrderRouter (Q : Qars) where
  tradeGateway : TradeGateway Q
  riskChecker : PreTradeCheck
  matchingEngine : ExchangeMatchingEngine Q
  tradingStateMachine : Option TradingStateMachine
  orders : String → Option OrderRouteInfo
  userOrders : String → List String
  engineIdToOrder : ℕ → Option String
  engineIdToUser : ℕ → Option String
  orderSeq : ℕ
  tradeCount : ℕ
  tradeVolume : ℚ
  tradeAmount : ℚ
  processed : List (String × Success)

/-- An order that passed the checks before its funds are frozen. -/
structure Ticket where
  orderId : String
  req : SubmitOrderRequest
  force : Bool

structure Placement where
  orderId : String
  req : SubmitOrderRequest
  order : Order

structure Withdrawal where
  orderId : String
  order : Order
  engineId : ℕ
  direction : OrderDirection

/-- What `process_matching_results` has handled so far. -/
structure Handled where
  accepted : Bool
  trade : Bool

def Handled.none : Handled := ⟨false, false⟩

def OrderDirection.ofString : String → Option OrderDirection
  | "BUY" => some .BUY
  | "SELL" => some .SELL
  | _ => Option.none

namespace OrderRouter

abbrev Work (Q : Qars) := Action ExchangeError (OrderRouter Q)

abbrev Check (Q : Qars) := Action SubmitOrderResponse (OrderRouter Q)

def gateway (action : Action ExchangeError (TradeGateway Q) α) : Work Q α :=
  onPart tradeGateway (fun tradeGateway router => { router with tradeGateway }) action

/-- The accounts, which the router shares with its gateway. -/
def accountMgr (router : OrderRouter Q) : AccountManager Q := router.tradeGateway.accountMgr

def getOrderbook (router : OrderRouter Q) (instrumentId : String) : Option Q.Orderbook :=
  router.matchingEngine.orderbooks instrumentId

def modifyRoute (orderId : String) (change : OrderRouteInfo → OrderRouteInfo)
    (router : OrderRouter Q) : OrderRouter Q :=
  { router with
    orders := Function.update router.orders orderId ((router.orders orderId).map change) }

def bestPrice (queue : Option (List BookOrder)) : ℚ :=
  match queue with
  | some (order :: _) => order.price
  | some [] | none => 0

/-- The best opposite price, else the last price of the book, else 0. -/
def getMarketPriceForOrder (router : OrderRouter Q) (instrumentId direction : String) : ℚ :=
  match router.getOrderbook instrumentId with
  | none => 0
  | some book =>
    let price := match direction with
      | "BUY" => bestPrice (Q.askQueue book)
      | "SELL" => bestPrice (Q.bidQueue book)
      | _ => 0
    if price > 0 then price
    else if Q.lastprice book > 0 then Q.lastprice book
    else 0

/-- `calculate_towards`: buy open where the table has no entry. -/
def calculateTowards (direction offset : String) : ℤ := (towardsOf direction offset).getD 2

/-! ## Checks before the funds are frozen -/

/-- `O{millis}{:010}` -/
def orderIdOf (millis seq : ℕ) : String := "O" ++ (toString millis ++ padded 10 seq)

def generateOrderId (now : Now) : Check Q String := do
  let seq ← read orderSeq
  update fun router => { router with orderSeq := router.orderSeq + 1 }
  pure (orderIdOf now.millis seq)

/-- Give a market order without a price the market price. -/
def convertMarketPrice (orderId : String) (req : SubmitOrderRequest) :
    Check Q SubmitOrderRequest := do
  if req.orderType = "MARKET" ∧ req.price ≤ 0 then
    let price ← read fun router => router.getMarketPriceForOrder req.instrumentId req.direction
    if price ≤ 0 then
      fail (.rejected orderId [.text "No market price available for instrument ",
        .text req.instrumentId] 4002)
    else pure { req with price }
  else pure req

def checkTradingState (now : Now) (orderId : String) (req : SubmitOrderRequest) :
    Check Q Unit := do
  match ← read tradingStateMachine with
  | none => pure ()
  | some machine =>
    match machine.validateOrder now req.instrumentId with
    | .Allowed => pure ()
    | .Rejected reason => fail (.rejected orderId (.ofString reason) 4100)

def orderCheckRequest (req : SubmitOrderRequest) : OrderCheckRequest where
  accountId := req.accountId
  instrumentId := req.instrumentId
  direction := req.direction
  offset := req.offset
  volume := req.volume
  price := req.price
  limitPrice := req.price
  priceType := req.orderType

def checkRisk (orderId : String) (req : SubmitOrderRequest) (force : Bool) : Check Q Unit := do
  if force then pure ()
  else
    match ← read fun router =>
        router.riskChecker.check router.accountMgr (orderCheckRequest req) with
    | .ok .Pass => pure ()
    | .ok (.Reject reason code) => fail (.rejected orderId reason code.toNat)
    | .error error => fail (.rejected orderId (.text "Risk check error: " :: error.display) 9999)

def fokVolume (book : Q.Orderbook) (direction : String) (price : ℚ) : ℚ :=
  match direction with
  | "BUY" => match Q.askQueue book with
    | some asks => ((asks.filter fun o => o.price ≤ price).map BookOrder.volume).sum
    | none => 0
  | "SELL" => match Q.bidQueue book with
    | some bids => ((bids.filter fun o => price ≤ o.price).map BookOrder.volume).sum
    | none => 0
  | _ => 0

def checkFokFulfillable (router : OrderRouter Q) (instrumentId direction : String)
    (volume price : ℚ) : Bool :=
  match router.getOrderbook instrumentId with
  | none => false
  | some book => volume ≤ fokVolume book direction price

/-- Step 3.5: a fill-or-kill order needs enough volume in the book. -/
def checkFok (ticket : Ticket) : Check Q Unit := do
  let req := ticket.req
  if req.isFok && !ticket.force then
    if ← read fun router =>
        router.checkFokFulfillable req.instrumentId req.direction req.volume req.price then
      pure ()
    else
      fail (.rejected ticket.orderId
        (.ofString "FOK order cannot be fully filled immediately") 4010)
  else pure ()

/-- Steps 1 to 3 of `submit_order_with_options`. -/
def screen (now : Now) (req : SubmitOrderRequest) (force : Bool) : Check Q Ticket := do
  let orderId ← generateOrderId now
  let req ← convertMarketPrice orderId req
  checkTradingState now orderId req
  checkRisk orderId req force
  pure ⟨orderId, req, force⟩

/-- Everything before the account is taken. -/
def admitTicket (now : Now) (req : SubmitOrderRequest) (force : Bool) : Check Q Ticket := do
  let ticket ← screen now req force
  checkFok ticket
  pure ticket

/-! ## Freezing and indexing -/

def checkMoney (ticket : Ticket) (account : Account Q) : Check Q Unit :=
  let required := PreTradeCheck.requiredFunds ticket.req.direction ticket.req.offset
    ticket.req.price ticket.req.volume
  if !ticket.force && account.money < required then
    fail (.rejected ticket.orderId (PreTradeCheck.insufficientFunds account.money required) 4001)
  else pure ()

def newOrder (Q : Qars) (now : Now) (ticket : Ticket) : Order :=
  qaorderToQifi (Q.newOrder ticket.req.accountId ticket.req.instrumentId
    (calculateTowards ticket.req.direction ticket.req.offset) "EXCHANGE" now.dateTime
    ticket.req.volume ticket.req.price ticket.orderId)

def routeInfo (now : Now) (req : SubmitOrderRequest) (order : Order) (qaOrderId : String) :
    OrderRouteInfo where
  order := order
  status := .PendingRoute
  submitTime := now.nanos
  updateTime := now.nanos
  filledVolume := 0
  qaOrderId := qaOrderId
  matchingEngineOrderId := none
  timeCondition := req.timeCond
  volumeCondition := req.volumeCond

def indexOrder (now : Now) (placement : Placement) (qaOrderId : String) (router : OrderRouter Q) :
    OrderRouter Q :=
  let req := placement.req
  { router with
    orders := Function.update router.orders placement.orderId
      (some (routeInfo now req placement.order qaOrderId))
    userOrders := Function.update router.userOrders req.accountId
      (router.userOrders req.accountId ++ [placement.orderId])
    riskChecker := router.riskChecker.registerActiveOrder req.accountId
      ⟨placement.orderId, req.instrumentId, req.direction, req.price, req.orderType⟩ }

def putAccount (accountId : String) (account : Account Q) (router : OrderRouter Q) :
    OrderRouter Q :=
  { router with tradeGateway := { router.tradeGateway with
      accountMgr := router.tradeGateway.accountMgr.putAccount accountId account } }

/-- `send_order` under the account's write lock. -/
def sendOrder (now : Now) (ticket : Ticket) (account : Account Q) : Check Q String :=
  let req := ticket.req
  let (result, account) := Q.sendOrder account req.instrumentId req.volume now.dateTime
    (calculateTowards req.direction req.offset) req.price "" req.orderType
  do
    update (putAccount req.accountId account)
    match result with
    | .ok qaOrder => pure qaOrder.orderId
    | .error error =>
      fail (.rejected ticket.orderId (.text "Insufficient funds/margin: " :: error) 4001)

/-- Steps 4 to 7 of `submit_order_with_options`: take the account, check its
money (once before and once under the write lock), freeze the funds with
`send_order` and index the order. -/
def place (now : Now) (ticket : Ticket) : Check Q Placement := do
  match ← read fun router => router.accountMgr.accounts.lookup ticket.req.accountId with
  | none =>
    fail (.rejected ticket.orderId (.text "Account not found: " ::
      (AccountManager.notFound ticket.req.accountId).display) 4000)
  | some account =>
    checkMoney ticket account
    checkMoney ticket account
    let qaOrderId ← sendOrder now ticket account
    let placement := ⟨ticket.orderId, ticket.req, newOrder Q now ticket⟩
    update (indexOrder now placement qaOrderId)
    pure placement

def orderbookNotFound (instrumentId : String) : ExchangeError :=
  .MatchingError [.text "Orderbook not found for instrument: ", .text instrumentId]

def invalidDirection (direction : String) : ExchangeError :=
  .OrderError [.text "Invalid direction: ", .text direction]

def processOrder (orderId instrumentId : String) (book : Q.Orderbook) (request : OrderRequest)
    (router : OrderRouter Q) : OrderRouter Q :=
  { router with matchingEngine :=
    { orderbooks := Function.update router.matchingEngine.orderbooks instrumentId
        (some (Q.processOrder book request).2)
      journal := router.matchingEngine.journal ++
        [⟨orderId, instrumentId, (Q.processOrder book request).1⟩] } }

def limitRequest (now : Now) (instrumentId : String) (direction : OrderDirection)
    (price volume : ℚ) : OrderRequest :=
  .newLimitOrder (.fromCode Q instrumentId) direction price volume now.nanos

/-- First half of `route_to_matching_engine`: the book takes the order under
its lock. -/
def bookOrder (now : Now) (placement : Placement) : Work Q (List OrderProcessingResult) := do
  let order := placement.order
  match ← read fun router => router.getOrderbook placement.req.instrumentId with
  | none => fail (orderbookNotFound placement.req.instrumentId)
  | some book =>
    match OrderDirection.ofString order.direction with
    | none => fail (invalidDirection order.direction)
    | some direction =>
      let request := limitRequest (Q := Q) now placement.req.instrumentId direction
        order.limitPrice order.volumeOrign
      update (processOrder placement.orderId placement.req.instrumentId book request)
      pure (Q.processOrder book request).1

/-! ## Results of a book -/

def orderParams (orderId : String) (order : Order) : OrderParams where
  exchange := order.exchangeId
  instrumentId := order.instrumentId
  userId := order.userId
  orderId := orderId
  direction := order.direction
  offset := order.offset
  priceType := order.priceType
  price := order.limitPrice
  volume := order.volumeOrign

def updateTradeStats (price volume : ℚ) (router : OrderRouter Q) : OrderRouter Q :=
  { router with
    tradeCount := router.tradeCount + 1
    tradeVolume := router.tradeVolume + volume
    tradeAmount := router.tradeAmount + price * volume }

/-- What the gateway is told of a fill: the reverse indexes say whose order the
opposite one is. -/
def tradeParams (orderId : String) (order : Order) (fill : Fill) (isTaker : Bool)
    (router : OrderRouter Q) : TradeParams where
  exchange := order.exchangeId
  instrumentId := order.instrumentId
  exchangeOrderId := fill.orderId
  userId := order.userId
  orderId := orderId
  direction := order.direction
  offset := order.offset
  volume := fill.volume
  price := fill.price
  oppositeOrderId := some fill.oppositeOrderId
  oppositeUserId := router.engineIdToUser fill.oppositeOrderId
  qaOrderId := match router.orders orderId with
    | some info => info.qaOrderId
    | none => ""
  oppositeOrderIdStr := router.engineIdToOrder fill.oppositeOrderId
  isTaker := isTaker

/-- The common path of `Filled` and `PartiallyFilled`; they change the route
info differently. -/
def handleFill (now : Now) (orderId : String) (order : Order) (fill : Fill) (isTaker : Bool)
    (change : OrderRouteInfo → OrderRouteInfo) : Work Q Unit := do
  update (modifyRoute orderId change)
  update (updateTradeStats fill.price fill.volume)
  let trade ← read (tradeParams orderId order fill isTaker)
  let _ ← gateway (TradeGateway.handleTradeNew now trade)

def removeActiveOrder (userId orderId : String) (router : OrderRouter Q) : OrderRouter Q :=
  { router with riskChecker := router.riskChecker.removeActiveOrder userId orderId }

def registerEngineId (id : ℕ) (orderId userId : String) (router : OrderRouter Q) : OrderRouter Q :=
  { router with
    engineIdToOrder := Function.update router.engineIdToOrder id (some orderId)
    engineIdToUser := Function.update router.engineIdToUser id (some userId) }

/-- What an event changes in the route info of its order. The last fill stores
its own volume, a partial fill adds it. -/
def applyEvent : Success → OrderRouteInfo → OrderRouteInfo
  | .Accepted id _ ts, info =>
    { info with status := .Submitted, updateTime := ts, matchingEngineOrderId := some id }
  | .Filled fill, info =>
    { info with status := .Filled, updateTime := fill.ts, filledVolume := fill.volume }
  | .PartiallyFilled fill, info =>
    { info with
      status := .PartiallyFilled, updateTime := fill.ts,
      filledVolume := info.filledVolume + fill.volume }
  | .Cancelled _ ts, info => { info with status := .Cancelled, updateTime := ts }
  | .Amended .., info => info

def cancelledOrder (orderId : String) (order : Order) (router : OrderRouter Q) : String × ℚ :=
  match router.orders orderId with
  | some info => (info.qaOrderId, info.order.volumeOrign - info.filledVolume)
  | none => ("", order.volumeOrign)

def handleSuccessResult (now : Now) (orderId : String) (order : Order) (success : Success)
    (isTaker : Bool) : Work Q Unit :=
  match success with
  | .Accepted id _ _ => do
    update (modifyRoute orderId (applyEvent success))
    update (registerEngineId id orderId order.userId)
    let _ ← gateway (TradeGateway.handleOrderAcceptedNew now (orderParams orderId order))
  | .Filled fill => do
    handleFill now orderId order fill isTaker (applyEvent success)
    update (removeActiveOrder order.userId orderId)
  | .PartiallyFilled fill => handleFill now orderId order fill isTaker (applyEvent success)
  | .Cancelled id _ => do
    update (modifyRoute orderId (applyEvent success))
    let (qaOrderId, remaining) ← read (cancelledOrder orderId order)
    gateway (TradeGateway.handleCancelAcceptedNew now (orderParams orderId order) id remaining
      qaOrderId)
    update (removeActiveOrder order.userId orderId)
  | .Amended .. => pure ()

/-- A fill after the first one: look the order up by the engine id of the
event. Fills of unknown orders are skipped. -/
def handleLaterFill (now : Now) (success : Success) (fill : Fill) : Work Q Unit := do
  match ← read fun router => router.engineIdToOrder fill.orderId with
  | none => pure ()
  | some makerOrderId =>
    match ← read fun router => router.orders makerOrderId with
    | none => pure ()
    | some makerInfo => handleSuccessResult now makerOrderId makerInfo.order success false

def takeUp (instrumentId : String) (success : Success) (router : OrderRouter Q) : OrderRouter Q :=
  { router with processed := router.processed ++ [(instrumentId, success)] }

def markRefused (now : Now) : OrderRouteInfo → OrderRouteInfo :=
  fun info => { info with status := .Rejected, updateTime := now.nanos }

/-- One turn of the loop of `process_matching_results`. -/
def processResult (now : Now) (orderId : String) (order : Order) (handled : Handled)
    (result : OrderProcessingResult) : Work Q Handled :=
  match result with
  | .ok success => do
    update (takeUp order.instrumentId success)
    match success with
    | .Accepted .. =>
      if handled.accepted then pure handled
      else do
        handleSuccessResult now orderId order success true
        pure { handled with accepted := true }
    | .Filled fill | .PartiallyFilled fill =>
      if handled.trade then do
        handleLaterFill now success fill
        pure handled
      else do
        handleSuccessResult now orderId order success true
        pure { handled with trade := true }
    | .Amended .. | .Cancelled .. => do
      handleSuccessResult now orderId order success true
      pure handled
  | .error failed => do
    -- the gateway's error is dropped
    attempt (gateway (TradeGateway.handleOrderRejectedNew now (orderParams orderId order)
      failed.debug))
    update (modifyRoute orderId (markRefused now))
    pure handled

def processMatchingResults (now : Now) (orderId : String) (order : Order)
    (results : List OrderProcessingResult) : Work Q Unit := do
  let _ ← results.foldlM (processResult now orderId order) Handled.none

def routeToMatchingEngine (now : Now) (placement : Placement) : Work Q Unit := do
  let results ← bookOrder now placement
  processMatchingResults now placement.orderId placement.order results

/-! ## Cancelling -/

/-- The session's word on a cancel; without a state machine it is allowed. -/
def validateCancel (now : Now) (instrumentId : String) (router : OrderRouter Q) : OrderValidation :=
  match router.tradingStateMachine with
  | some machine => machine.validateCancel now instrumentId
  | none => .Allowed

def checkCancel (now : Now) (req : CancelOrderRequest) : Work Q Withdrawal := do
  match ← read fun router => router.orders req.orderId with
  | none => fail (.OrderError [.text "Order not found: ", .text req.orderId])
  | some info =>
    if info.order.userId ≠ req.accountId then
      fail (.OrderError (.ofString "Order does not belong to this account"))
    else
      match ← read (validateCancel now info.order.instrumentId) with
      | .Rejected reason =>
        fail (.OrderError [.text "Cancel rejected by trading state: ", .text reason])
      | .Allowed =>
        if info.status ≠ .Submitted ∧ info.status ≠ .PartiallyFilled then
          fail (.OrderError [.text "Order cannot be cancelled in status: ",
            .text info.status.debug])
        else
          match info.matchingEngineOrderId with
          | none => fail (.OrderError (.ofString "Matching engine order ID not found"))
          | some engineId =>
            match OrderDirection.ofString info.order.direction with
            | none => fail (invalidDirection info.order.direction)
            | some direction => pure ⟨req.orderId, info.order, engineId, direction⟩

def bookCancel (withdrawal : Withdrawal) : Work Q (List OrderProcessingResult) := do
  let instrumentId := withdrawal.order.instrumentId
  match ← read fun router => router.getOrderbook instrumentId with
  | none => fail (orderbookNotFound instrumentId)
  | some book =>
    let request := .cancelOrder withdrawal.engineId withdrawal.direction
    update (processOrder withdrawal.orderId instrumentId book request)
    pure (Q.processOrder book request).1

/-- One turn of the loop over the results of a cancel. Errors of the handler
are only logged. -/
def processCancelResult (now : Now) (withdrawal : Withdrawal) (result : OrderProcessingResult) :
    Work Q Unit :=
  match result with
  | .ok success => do
    update (takeUp withdrawal.order.instrumentId success)
    attempt (handleSuccessResult now withdrawal.orderId withdrawal.order success true)
  | .error failed =>
    fail (.MatchingError [.text "Cancel order failed: ", .text failed.debug])

def processCancelResults (now : Now) (withdrawal : Withdrawal)
    (results : List OrderProcessingResult) : Work Q Unit :=
  results.foldlM (fun _ result => processCancelResult now withdrawal result) ()

def cancelOrder (now : Now) (req : CancelOrderRequest) : Work Q Unit := do
  let withdrawal ← checkCancel now req
  let results ← bookCancel withdrawal
  processCancelResults now withdrawal results

/-- The volume of an IOC order that `handle_ioc_remaining` cancels, if it does:
only for an order without a final status, and above a tolerance of 0.001. -/
def iocRemaining (router : OrderRouter Q) (orderId : String) : Option ℚ :=
  match router.orders orderId with
  | none => none
  | some info =>
    let remaining := info.order.volumeOrign - info.filledVolume
    if info.timeCondition ≠ .IOC then none
    else if info.status.isFinal then none
    else if remaining > 1 / 1000 then some remaining
    else none

def handleIocRemaining (now : Now) (orderId accountId : String) : Work Q Unit := do
  match ← read fun router => router.iocRemaining orderId with
  | none => pure ()
  | some _ => attempt (cancelOrder now ⟨accountId, orderId⟩)

/-- The status string of an order, `submitted` where it is missing. -/
def finalStatus (router : OrderRouter Q) (orderId : String) : String :=
  match router.orders orderId with
  | some info => info.status.answer
  | none => "submitted"

def markRejected : OrderRouteInfo → OrderRouteInfo :=
  fun info => { info with status := .Rejected }

/-- The IOC follow-up and the answer after an order was routed. -/
def finish (now : Now) (placement : Placement) (router : OrderRouter Q) :
    SubmitOrderResponse × OrderRouter Q :=
  let router :=
    if placement.req.timeCond = .IOC then
      (exec (handleIocRemaining now placement.orderId placement.req.accountId) router).2
    else router
  (⟨true, some placement.orderId, some (router.finalStatus placement.orderId), none, none⟩,
    router)

def route (now : Now) (placement : Placement) (router : OrderRouter Q) :
    SubmitOrderResponse × OrderRouter Q :=
  match exec (routeToMatchingEngine now placement) router with
  | (.ok _, router) => finish now placement router
  | (.error error, router) =>
    (.rejected placement.orderId (.text "Routing error: " :: error.display) 5000,
      modifyRoute placement.orderId markRejected router)

def submitOrderWithOptions (now : Now) (req : SubmitOrderRequest) (force : Bool)
    (router : OrderRouter Q) : SubmitOrderResponse × OrderRouter Q :=
  match exec (admitTicket now req force) router with
  | (.error response, router) => (response, router)
  | (.ok ticket, router) =>
    match exec (place now ticket) router with
    | (.error response, router) => (response, router)
    | (.ok placement, router) => route now placement router

def submitOrder (now : Now) (req : SubmitOrderRequest) (router : OrderRouter Q) :
    SubmitOrderResponse × OrderRouter Q := submitOrderWithOptions now req false router

/-! ## Restoring after a restart -/

/-- The status of a pending order of `dailyorders`. -/
def restoredStatus : String → Option OrderStatus
  | "SUBMITTED" => some .Submitted
  | "ALIVE" => some .PartiallyFilled
  | _ => none

/-- The engine id in the first `Accepted` event. -/
def acceptedId : List OrderProcessingResult → Option ℕ
  | [] => none
  | .ok (.Accepted id _ _) :: _ => some id
  | _ :: rest => acceptedId rest

/-- Put the remaining volume of a pending order back into its book. All events
but the first `Accepted` are dropped. The result is `none` for an order that is
skipped because of its direction. -/
def reenter (now : Now) (orderId : String) (order : Order) (router : OrderRouter Q) :
    Option (Option ℕ × OrderRouter Q) :=
  if order.volumeLeft > 0 then
    match router.getOrderbook order.instrumentId with
    | none => some (none, router)
    | some book =>
      match OrderDirection.ofString order.direction with
      | none => none
      | some direction =>
        let request := limitRequest (Q := Q) now order.instrumentId direction
          order.limitPrice order.volumeLeft
        let router := processOrder orderId order.instrumentId book request router
        match acceptedId (Q.processOrder book request).1 with
        | none => some (none, router)
        | some id => some (some id, registerEngineId id orderId order.userId router)
  else some (none, router)

def restoredInfo (now : Now) (orderId : String) (order : Order) (status : OrderStatus)
    (engineId : Option ℕ) : OrderRouteInfo where
  order := order
  status := status
  submitTime := order.insertDateTime.tdiv 1000000000
  updateTime := now.millis / 1000
  filledVolume := order.volumeOrign - order.volumeLeft
  qaOrderId := orderId
  matchingEngineOrderId := engineId
  timeCondition := .GFD
  volumeCondition := .ANY

/-- The body of the inner loop of `restore_orders_from_accounts`. -/
def restoreOrder (now : Now) (accountId : String) (router : OrderRouter Q)
    (entry : String × Order) : OrderRouter Q :=
  let (orderId, order) := entry
  match restoredStatus order.status with
  | none => router
  | some status =>
    if (router.orders orderId).isSome then router
    else
      match reenter now orderId order router with
      | none => router
      | some (engineId, router) =>
        { router with
          orders := Function.update router.orders orderId
            (some (restoredInfo now orderId order status engineId))
          userOrders := Function.update router.userOrders accountId
            (router.userOrders accountId ++ [orderId]) }

def dailyEntries (account : Account Q) : List (String × Order) :=
  account.dailyorders.entries.map fun entry => (entry.1, entry.2)

def restoreOrdersFromAccounts (now : Now) (router : OrderRouter Q) : OrderRouter Q :=
  router.accountMgr.getAllAccounts.foldl (fun router account =>
    (dailyEntries account).foldl (restoreOrder now account.accountCookie) router) router

/-- `OrderRouter::new` with a gateway, a risk checker, order books and an
optional state machine. -/
def new (tradeGateway : TradeGateway Q) (riskChecker : PreTradeCheck)
    (orderbooks : String → Option Q.Orderbook) (tradingStateMachine : Option TradingStateMachine) :
    OrderRouter Q where
  tradeGateway := tradeGateway
  riskChecker := riskChecker
  matchingEngine := ⟨orderbooks, []⟩
  tradingStateMachine := tradingStateMachine
  orders := fun _ => none
  userOrders := fun _ => []
  engineIdToOrder := fun _ => none
  engineIdToUser := fun _ => none
  orderSeq := 1
  tradeCount := 0
  tradeVolume := 0
  tradeAmount := 0
  processed := []

end OrderRouter

end QAExchange
