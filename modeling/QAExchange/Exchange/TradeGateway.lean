import QAExchange.Exchange.AccountManager
import QAExchange.Matching.TradeRecorder
import QAExchange.Storage.WalRecord

/-! # Trade gateway

The gateway turns the results of the matching engine into records, account
updates and notifications. Subscribers, the DIFF snapshots and the notification
broker only receive copies of what is in `sent` and are left out.
-/

namespace QAExchange

open Foundation Action

variable {Q : Qars}

structure TradeNotification where
  tradeId : String
  userId : String
  orderId : String
  instrumentId : String
  direction : String
  offset : String
  price : ℚ
  volume : ℚ
  timestamp : ℤ
  commission : ℚ

structure AccountUpdateNotification where
  userId : String
  balance : ℚ
  available : ℚ
  margin : ℚ
  positionProfit : ℚ
  riskRatio : ℚ
  timestamp : ℤ

structure OrderStatusNotification where
  exchangeId : String
  instrumentId : String
  exchangeOrderId : String
  direction : String
  offset : String
  priceType : String
  volume : ℚ
  price : ℚ
  status : String
  timestamp : ℤ
  orderId : String
  userId : String
  reason : Option String

inductive Notification
  | Trade (trade : TradeNotification)
  | AccountUpdate (account : AccountUpdateNotification)
  | OrderStatus (order : OrderStatusNotification)

/-- `volume as i64`: towards zero, and saturating. -/
def asI64 (number : ℚ) : ℤ :=
  max (-(2 ^ 63)) (min (2 ^ 63 - 1) (number.num.tdiv number.den))

inductive MarketCall
  | updateTradeStats (instrumentId : String) (volume : ℤ) (turnover : ℚ)
  | onTrade (instrumentId : String) (price : ℚ) (volume : ℤ)

/-- A fill that `receive_deal_sim` has booked into an account. -/
structure Deal where
  userId : String
  orderId : String
  qaOrderId : String
  price : ℚ
  volume : ℚ

/-- `deals` is a history variable: the fills booked into accounts, in order. -/
structure TradeGateway (Q : Qars) where
  accountMgr : AccountManager Q
  sent : List Notification
  tradeSeq : ℕ
  idGenerator : String → ℕ
  wal : WalLogs
  tradeRecorder : Option TradeRecorder
  marketDataService : Option (List MarketCall)
  deals : List Deal

structure OrderParams where
  exchange : String
  instrumentId : String
  userId : String
  orderId : String
  direction : String
  offset : String
  priceType : String
  price : ℚ
  volume : ℚ

/-- The parameters of `handle_trade_new`. -/
structure TradeParams where
  exchange : String
  instrumentId : String
  exchangeOrderId : ℤ
  userId : String
  orderId : String
  direction : String
  offset : String
  volume : ℚ
  price : ℚ
  oppositeOrderId : Option ℤ
  oppositeUserId : Option String
  qaOrderId : String
  oppositeOrderIdStr : Option String
  isTaker : Bool

namespace TradeGateway

/-- Work of the gateway: it can fail and keeps what it did before. -/
abbrev Work (Q : Qars) := Action ExchangeError (TradeGateway Q)

def onWal (action : Action ExchangeError WalLogs α) : Work Q α :=
  onPart wal (fun wal gateway => { gateway with wal }) action

def onAccounts (action : Action ExchangeError (AccountManager Q) α) : Work Q α :=
  onPart accountMgr (fun accountMgr gateway => { gateway with accountMgr }) action

/-- `ExchangeIdGenerator::next_sequence` -/
def nextSequence (instrumentId : String) : Work Q ℤ := do
  update fun gateway => { gateway with
    idGenerator := Function.update gateway.idGenerator instrumentId
      (gateway.idGenerator instrumentId + 1) }
  read fun gateway => gateway.idGenerator instrumentId

def sendNotification (notification : Notification) : Work Q Unit :=
  update fun gateway => { gateway with sent := gateway.sent ++ [notification] }

def directionU8 : String → ℕ
  | "BUY" => 0
  | "SELL" => 1
  | _ => 0

def offsetU8 : String → ℕ
  | "OPEN" => 0
  | "CLOSE" => 1
  | "CLOSETODAY" => 2
  | _ => 0

def priceTypeU8 : String → ℕ
  | "LIMIT" => 0
  | "MARKET" => 1
  | _ => 0

def frozenMargin (userId orderId : String) (gateway : TradeGateway Q) : ℚ :=
  match gateway.accountMgr.accounts.lookup userId with
  | some account => match account.frozen.lookup orderId with
    | some frozen => frozen.money
    | none => 0
  | none => 0

/-- `write_order_status_update`; `frozen_amount` is 0 at every call. -/
def writeOrderStatusUpdate (now : Now) (orderId userId instrumentId : String) (status : ℕ)
    (volumeOrign volumeLeft volumeFilled frozenMargin : ℚ) (direction offset : String)
    (limitPrice avgPrice : ℚ) (lastMsg : String) : Work Q Unit :=
  onWal (WalLogs.appendAccount userId
    (.OrderStatusUpdate (WalRecord.toFixedArray 64 orderId) (WalRecord.toFixedArray 32 userId)
      (WalRecord.toFixedArray 16 instrumentId) status volumeOrign volumeLeft volumeFilled
      frozenMargin 0 (directionU8 direction) (offsetU8 offset) limitPrice avgPrice
      (WalRecord.toFixedArray 128 lastMsg) now.nanos)
    "Failed to append OrderStatusUpdate: ")

def orderStatusNotification (now : Now) (order : OrderParams) (exchangeOrderId : ℤ)
    (status : String) (reason : Option String) : Notification :=
  .OrderStatus
    { exchangeId := order.exchange, instrumentId := order.instrumentId,
      exchangeOrderId := toString exchangeOrderId, direction := order.direction,
      offset := order.offset, priceType := order.priceType, volume := order.volume,
      price := order.price, status, timestamp := now.nanos, orderId := order.orderId,
      userId := order.userId, reason }

/-- `ExchangeResponseRecord` -/
def responseRecord (now : Now) (responseType : ℕ) (exchangeOrderId : ℤ)
    (instrumentId userId : String) (tradeId : ℤ) (volume price : ℚ) : WalRecord :=
  .ExchangeResponseRecord responseType exchangeOrderId (WalRecord.toFixedArray 16 instrumentId)
    (WalRecord.toFixedArray 32 userId) now.nanos tradeId volume price
    (WalRecord.toFixedArray 128 "")

def handleOrderAcceptedNew (now : Now) (order : OrderParams) : Work Q ℤ := do
  let exchangeOrderId ← nextSequence order.instrumentId
  onWal (WalLogs.appendInstrument order.instrumentId
    (.ExchangeOrderRecord (WalRecord.toFixedArray 16 order.exchange)
      (WalRecord.toFixedArray 16 order.instrumentId) exchangeOrderId
      (directionU8 order.direction) (offsetU8 order.offset) (priceTypeU8 order.priceType)
      order.price order.volume now.nanos (WalRecord.toFixedArray 32 order.orderId)
      (WalRecord.toFixedArray 32 order.userId))
    "Failed to append ExchangeOrderRecord: ")
  onWal (WalLogs.appendAccount order.userId
    (responseRecord now 0 exchangeOrderId order.instrumentId order.userId 0 0 0)
    "Failed to append ExchangeResponseRecord: ")
  sendNotification (orderStatusNotification now order exchangeOrderId "ACCEPTED" none)
  let frozen ← read (frozenMargin order.userId order.orderId)
  attempt (writeOrderStatusUpdate now order.orderId order.userId order.instrumentId 0
    order.volume order.volume 0 frozen order.direction order.offset order.price 0 "订单接受")
  pure exchangeOrderId

def handleOrderRejectedNew (now : Now) (order : OrderParams) (reason : String) : Work Q ℤ := do
  let exchangeOrderId ← nextSequence order.instrumentId
  sendNotification (orderStatusNotification now order exchangeOrderId "REJECTED" (some reason))
  attempt (writeOrderStatusUpdate now order.orderId order.userId order.instrumentId 3
    order.volume order.volume 0 0 order.direction order.offset order.price 0 reason)
  pure exchangeOrderId

/-- `update_account`: book the fill into the account and its order. -/
def updateAccount (now : Now) (accountId instrumentId direction offset : String)
    (price volume : ℚ) (qaOrderId : String) : Work Q (String × ℚ × ℚ) := do
  let account ← onAccounts (AccountManager.getAccount accountId)
  match towardsOf direction offset with
  | none =>
    fail (.OrderError [.text "Invalid direction/offset: ", .text direction, .text "/",
      .text offset])
  | some towards =>
    let account := Q.receiveDealSim account instrumentId volume price now.dateTime qaOrderId
      ("T" ++ toString now.nanos) qaOrderId towards
    match account.dailyorders.lookup qaOrderId with
    | some order =>
      let order := Q.tradeOrder order volume
      onAccounts (update (AccountManager.putAccount accountId
        { account with dailyorders := account.dailyorders.insert qaOrderId order }))
      pure (order.status, order.volumeLeft, order.volumeOrign)
    | none =>
      onAccounts (update (AccountManager.putAccount accountId account))
      pure ("ALIVE", volume, volume)

/-- `push_account_update` -/
def pushAccountUpdate (now : Now) (accountId : String) : Work Q Unit := do
  let account ← onAccounts (AccountManager.getAccount accountId)
  sendNotification (.AccountUpdate
    { userId := accountId, balance := account.balance, available := account.money,
      margin := Q.getMargin account + account.getFrozenMargin,
      positionProfit := account.positionProfit, riskRatio := account.riskRatio,
      timestamp := now.nanos })

/-- `create_trade_notification` and `emit_trade_notification` -/
def emitTradeNotification (now : Now) (trade : TradeParams) : Work Q Unit := do
  let seq ← read tradeSeq
  update fun gateway => { gateway with tradeSeq := gateway.tradeSeq + 1 }
  sendNotification (.Trade
    { tradeId := "T" ++ toString now.millis ++ padded 10 seq, userId := trade.userId,
      orderId := trade.orderId, instrumentId := trade.instrumentId,
      direction := trade.direction, offset := trade.offset, price := trade.price,
      volume := trade.volume, timestamp := now.nanos,
      commission := trade.price * trade.volume * (3 / 10000) })

def tradeOrderIds (trade : TradeParams) : ℤ × ℤ :=
  match trade.direction with
  | "BUY" => (trade.exchangeOrderId, trade.oppositeOrderId.getD 0)
  | "SELL" => (trade.oppositeOrderId.getD 0, trade.exchangeOrderId)
  | _ => (trade.exchangeOrderId, 0)

/-- `ExchangeTradeRecord` -/
def tradeRecord (now : Now) (trade : TradeParams) (tradeId : ℤ) : WalRecord :=
  .ExchangeTradeRecord (WalRecord.toFixedArray 16 trade.exchange)
    (WalRecord.toFixedArray 16 trade.instrumentId) (tradeOrderIds trade).1
    (tradeOrderIds trade).2 trade.price trade.volume now.nanos tradeId

/-- The users of the buying and of the selling order. An unknown opposite user
is replaced by the taker's own. -/
def tradeUsers (trade : TradeParams) : String × String :=
  match trade.direction with
  | "BUY" => (trade.userId, trade.oppositeUserId.getD trade.userId)
  | "SELL" => (trade.oppositeUserId.getD trade.userId, trade.userId)
  | _ => (trade.userId, trade.userId)

def tradeOrders (trade : TradeParams) : String × String :=
  let opposite := trade.oppositeOrderIdStr.getD
    ("opposite_" ++ toString (trade.oppositeOrderId.getD 0))
  match trade.direction with
  | "BUY" => (trade.orderId, opposite)
  | "SELL" => (opposite, trade.orderId)
  | _ => (trade.orderId, "unknown")

def recordTrade (now : Now) (trade : TradeParams) (recorder : TradeRecorder) : TradeRecorder :=
  recorder.recordTrade now trade.instrumentId (tradeUsers trade).1 (tradeUsers trade).2
    (tradeOrders trade).1 (tradeOrders trade).2 trade.orderId trade.price trade.volume now.date

def marketCalls (trade : TradeParams) : List MarketCall :=
  [.updateTradeStats trade.instrumentId (asI64 trade.volume) (trade.price * trade.volume),
   .onTrade trade.instrumentId trade.price (asI64 trade.volume)]

def recordTaker (now : Now) (trade : TradeParams) : Work Q Unit :=
  runIf trade.isTaker (update fun gateway => { gateway with
    tradeRecorder := gateway.tradeRecorder.map (recordTrade now trade) })

def feedMarket (trade : TradeParams) : Work Q Unit :=
  update fun gateway => { gateway with
    marketDataService := gateway.marketDataService.map (· ++ marketCalls trade) }

def bookDeal (now : Now) (trade : TradeParams) : Work Q ℚ := do
  let (_, volumeLeft, _) ← updateAccount now trade.userId trade.instrumentId trade.direction
    trade.offset trade.price trade.volume trade.qaOrderId
  update fun gateway => { gateway with
    deals := gateway.deals ++
      [⟨trade.userId, trade.orderId, trade.qaOrderId, trade.price, trade.volume⟩] }
  pure volumeLeft

/-- The status record and the notifications after a booked fill. -/
def reportFill (now : Now) (trade : TradeParams) (volumeLeft : ℚ) : Work Q Unit := do
  let statusU8 := if volumeLeft ≤ 0 then 1 else 4
  let frozen ← read (frozenMargin trade.userId trade.qaOrderId)
  attempt (writeOrderStatusUpdate now trade.qaOrderId trade.userId trade.instrumentId statusU8
    (trade.volume + volumeLeft) volumeLeft trade.volume frozen trade.direction trade.offset
    trade.price trade.price (if statusU8 = 1 then "全部成交" else "部分成交"))
  emitTradeNotification now trade
  pushAccountUpdate now trade.userId

/-- `handle_trade_new` once the trade has its id. -/
def carryOutTrade (now : Now) (trade : TradeParams) (tradeId : ℤ) : Work Q Unit := do
  onWal (WalLogs.appendInstrument trade.instrumentId (tradeRecord now trade tradeId)
    "Failed to append ExchangeTradeRecord: ")
  onWal (WalLogs.appendAccount trade.userId
    (responseRecord now 2 trade.exchangeOrderId trade.instrumentId trade.userId tradeId
      trade.volume trade.price)
    "Failed to append ExchangeResponseRecord (Trade): ")
  recordTaker now trade
  feedMarket trade
  let volumeLeft ← bookDeal now trade
  reportFill now trade volumeLeft

def handleTradeNew (now : Now) (trade : TradeParams) : Work Q ℤ := do
  let tradeId ← nextSequence trade.instrumentId
  carryOutTrade now trade tradeId
  pure tradeId

/-- Release the funds frozen under the order's qars id. A missing account is
only logged. -/
def releaseFrozen (userId qaOrderId : String) : Work Q Unit :=
  attempt do
    let account ← onAccounts (AccountManager.getAccount userId)
    onAccounts (update (AccountManager.putAccount userId (account.cancelOrder qaOrderId).2))

def handleCancelAcceptedNew (now : Now) (order : OrderParams) (exchangeOrderId : ℤ)
    (remainingVolume : ℚ) (qaOrderId : String) : Work Q Unit := do
  releaseFrozen order.userId qaOrderId
  sendNotification (orderStatusNotification now { order with volume := remainingVolume }
    exchangeOrderId "CANCELLED" none)
  attempt (writeOrderStatusUpdate now qaOrderId order.userId order.instrumentId 2
    remainingVolume 0 0 0 order.direction order.offset order.price 0 "用户撤单")

end TradeGateway

end QAExchange
