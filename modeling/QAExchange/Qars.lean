import Mathlib.Algebra.Order.Field.Rat
import Mathlib.Data.List.AList
import QAExchange.Foundation.Text

/-! # The qars library

The types that the exchange takes from qars and, as the structure `Qars`, the
functions of qars that it calls. Prices, volumes and amounts are rationals.
-/

namespace QAExchange

open Foundation

inductive OrderDirection
  | BUY
  | SELL
  deriving DecidableEq

inductive OrderType
  | Market
  | Limit
  deriving DecidableEq

structure Fill where
  orderId : ℕ
  direction : OrderDirection
  orderType : OrderType
  price : ℚ
  volume : ℚ
  ts : ℤ
  oppositeOrderId : ℕ
  deriving DecidableEq

inductive Success
  | Accepted (id : ℕ) (orderType : OrderType) (ts : ℤ)
  | Filled (fill : Fill)
  | PartiallyFilled (fill : Fill)
  | Amended (id : ℕ) (price volume : ℚ) (ts : ℤ)
  | Cancelled (id : ℕ) (ts : ℤ)
  deriving DecidableEq

inductive Failed
  | ValidationFailed (reason : String)
  | DuplicateOrderID (id : ℕ)
  | NoMatch (id : ℕ)
  | OrderNotFound (id : ℕ)

/-- `{:?}` of a failure. -/
def Failed.debug : Failed → String
  | .ValidationFailed reason => "ValidationFailed(\"" ++ reason ++ "\")"
  | .DuplicateOrderID id => "DuplicateOrderID(" ++ toString id ++ ")"
  | .NoMatch id => "NoMatch(" ++ toString id ++ ")"
  | .OrderNotFound id => "OrderNotFound(" ++ toString id ++ ")"

abbrev OrderProcessingResult := Except Failed Success

def Success.subject : Success → ℕ
  | .Accepted id _ _ | .Amended id _ _ _ | .Cancelled id _ => id
  | .Filled fill | .PartiallyFilled fill => fill.orderId

def Success.fill? : Success → Option Fill
  | .Filled fill | .PartiallyFilled fill => some fill
  | .Accepted .. | .Amended .. | .Cancelled .. => none

/-- `InstrumentAsset(u64)`: the hash of the instrument code. -/
structure InstrumentAsset where
  hash : ℕ

inductive OrderRequest
  | newLimitOrder (asset : InstrumentAsset) (direction : OrderDirection) (price volume : ℚ)
      (ts : ℤ)
  | cancelOrder (id : ℕ) (direction : OrderDirection)

structure BookOrder where
  price : ℚ
  volume : ℚ

structure Order where
  seqno : ℤ
  userId : String
  orderId : String
  exchangeId : String
  instrumentId : String
  direction : String
  offset : String
  volumeOrign : ℚ
  priceType : String
  limitPrice : ℚ
  timeCondition : String
  volumeCondition : String
  insertDateTime : ℤ
  exchangeOrderId : String
  status : String
  volumeLeft : ℚ
  lastMsg : String

/-- Order of the account layer, as far as `qaorderToQifi` reads it. -/
structure QAOrder where
  userId : String
  orderId : String
  exchangeId : String
  instrumentId : String
  direction : String
  offset : String
  volume : ℚ
  priceType : String
  limitPrice : ℚ
  timeCondition : String
  volumeCondition : String
  exchangeOrderId : String
  volumeLeft : ℚ
  lastMsg : String

structure Frozen where
  money : ℚ

structure QAPosition where
  volumeLongToday : ℚ
  volumeLongHis : ℚ
  volumeShortToday : ℚ
  volumeShortHis : ℚ

/-- `QA_Account`: the fields that the exchange reads or writes itself, and the
rest, which only qars sees. -/
structure QAAccount (Rest : Type) where
  accountCookie : String
  money : ℚ
  balance : ℚ
  riskRatio : ℚ
  positionProfit : ℚ
  frozen : AList fun _ : String => Frozen
  dailyorders : AList fun _ : String => Order
  hold : AList fun _ : String => QAPosition
  rest : Rest

structure Qars where
  Orderbook : Type
  Rest : Type
  processOrder : Orderbook → OrderRequest → List OrderProcessingResult × Orderbook
  /-- `bid_queue.get_sorted_orders()` -/
  bidQueue : Orderbook → Option (List BookOrder)
  /-- `ask_queue.get_sorted_orders()` -/
  askQueue : Orderbook → Option (List BookOrder)
  lastprice : Orderbook → ℚ
  /-- `InstrumentAsset::from_code`, a hash of the standard library. -/
  assetHash : String → ℕ
  /-- `QAOrder::new(account, code, towards, exchange, time, volume, price, order_id)` -/
  newOrder (account code : String) (towards : ℤ) (exchange time : String) (volume price : ℚ)
    (orderId : String) : QAOrder
  /-- `send_order(code, amount, time, towards, price, id, price_type)` -/
  sendOrder (account : QAAccount Rest) (code : String) (amount : ℚ) (time : String)
    (towards : ℤ) (price : ℚ) (id priceType : String) : Except Message QAOrder × QAAccount Rest
  /-- `receive_deal_sim(code, amount, price, time, order_id, trade_id, real_order_id, towards)` -/
  receiveDealSim (account : QAAccount Rest) (code : String) (amount price : ℚ) (time : String)
    (orderId tradeId realOrderId : String) (towards : ℤ) : QAAccount Rest
  getMargin : QAAccount Rest → ℚ
  /-- `Order::trade` -/
  tradeOrder : Order → ℚ → Order
  /-- `Order::cancel` -/
  cancelOrder : Order → Order

variable {Q : Qars}

/-- `InstrumentAsset::from_code` -/
def InstrumentAsset.fromCode (Q : Qars) (code : String) : InstrumentAsset := ⟨Q.assetHash code⟩

abbrev Account (Q : Qars) := QAAccount Q.Rest

end QAExchange
