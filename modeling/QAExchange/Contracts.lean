import QAExchange.Exchange.AccountManager
import QAExchange.Foundation.BookLedger
import QAExchange.Foundation.LimitOrderBook

/-! # What the exchange relies on in qars

Two contracts of the order book: `BookContract` fixes the shape of the events,
`PriceTimeContract` also which orders match. `OrderContract` and
`AccountContract` are about orders and accounts.
-/

namespace QAExchange

open Foundation

variable {Q : Qars}

/-- What an event means in the life of its order. The exchange never amends an
order; an amendment would fill nothing. -/
def Success.life : Success → LifeEvent ℚ
  | .Accepted .. => .opened
  | .Filled fill => .final fill.volume
  | .PartiallyFilled fill => .part fill.volume
  | .Amended .. => .part 0
  | .Cancelled .. => .cancelled

def Success.entry (success : Success) : Entry ℕ ℚ := (success.subject, success.life)

/-- The event that tells an order with `left` open of a fill. -/
def Fill.report (left : ℚ) (fill : Fill) : Success :=
  if fill.volume = left then .Filled fill else .PartiallyFilled fill

@[simp] theorem Fill.subject_report (left : ℚ) (fill : Fill) :
    (fill.report left).subject = fill.orderId := by
  unfold Fill.report
  split <;> rfl

@[simp] theorem Fill.fill?_report (left : ℚ) (fill : Fill) :
    (fill.report left).fill? = some fill := by
  unfold Fill.report
  split <;> rfl

@[simp] theorem Fill.life_report (left : ℚ) (fill : Fill) :
    (fill.report left).life = fillEvent left fill.volume := by
  unfold Fill.report fillEvent
  split <;> rfl

structure Opposed (taker maker : Fill) : Prop where
  opposite : taker.oppositeOrderId = maker.orderId
  back : maker.oppositeOrderId = taker.orderId
  volume : maker.volume = taker.volume
  price : maker.price = taker.price

/-- The fill events of one incoming order: for each match one event of the
incoming order and then one of the resting order, each the last one exactly
when the match completes its order. -/
inductive Matches (taker : ℕ) : (ℕ → ℚ) → List Success → (ℕ → ℚ) → Prop
  | done (left) : Matches taker left [] left
  | pair {left left' takerFill makerFill reports} : Opposed takerFill makerFill →
      takerFill.orderId = taker → makerFill.orderId ≠ taker → 0 < takerFill.volume →
      takerFill.volume ≤ left taker → takerFill.volume ≤ left makerFill.orderId →
      Matches taker (settle left taker makerFill.orderId takerFill.volume) reports left' →
      Matches taker left (takerFill.report (left taker) ::
        makerFill.report (left makerFill.orderId) :: reports) left'

theorem Matches.fills (matched : Matches taker left reports left') :
    Fills taker left (reports.map Success.entry) left' := by
  induction matched with
  | done left => exact .done left
  | @pair left left' takerFill makerFill reports opposed isTaker differs positive takerOpen
      makerOpen _ induction =>
      have entries : (takerFill.report (left taker) ::
          makerFill.report (left makerFill.orderId) :: reports).map Success.entry =
          (taker, fillEvent (left taker) takerFill.volume) ::
            (makerFill.orderId, fillEvent (left makerFill.orderId) takerFill.volume) ::
              reports.map Success.entry := by
        simp [Success.entry, isTaker, opposed.volume]
      rw [entries]
      exact .pair differs positive takerOpen makerOpen induction

/-- What one call of `process_order` answers, as far as events go. -/
structure BookContract (Q : Qars) where
  ledger : Q.Orderbook → Ledger ℕ ℚ
  newLimitOrder : ∀ (book : Q.Orderbook) asset direction price volume ts,
    let answer := Q.processOrder book (.newLimitOrder asset direction price volume ts)
    (∃ failed, answer.1 = [.error failed] ∧ ledger answer.2 = ledger book) ∨
    (∃ id orderType accepted reports, answer.1 =
        .ok (.Accepted id orderType accepted) :: reports.map .ok ∧
      ¬(ledger book).issued id ∧ 0 < volume ∧
      (∀ other, (ledger answer.2).issued other ↔ other = id ∨ (ledger book).issued other) ∧
      Matches id (Function.update (ledger book).left id volume) reports (ledger answer.2).left)
  cancelOrder : ∀ (book : Q.Orderbook) id direction,
    let answer := Q.processOrder book (.cancelOrder id direction)
    (∃ failed, answer.1 = [.error failed] ∧ ledger answer.2 = ledger book) ∨
    (∃ ts, answer.1 = [.ok (.Cancelled id ts)] ∧ 0 < (ledger book).left id ∧
      (∀ other, (ledger answer.2).issued other ↔ (ledger book).issued other) ∧
      (ledger answer.2).left = Function.update (ledger book).left id 0)

/-- `QAOrder::new` copies its arguments and spells the direction and the offset
that `towards` stands for. -/
structure OrderContract (Q : Qars) : Prop where
  userId : ∀ account code towards exchange time volume price orderId,
    (Q.newOrder account code towards exchange time volume price orderId).userId = account
  instrumentId : ∀ account code towards exchange time volume price orderId,
    (Q.newOrder account code towards exchange time volume price orderId).instrumentId = code
  volume : ∀ account code towards exchange time volume price orderId,
    (Q.newOrder account code towards exchange time volume price orderId).volume = volume
  limitPrice : ∀ account code towards exchange time volume price orderId,
    (Q.newOrder account code towards exchange time volume price orderId).limitPrice = price
  direction : ∀ direction offset towards, towardsOf direction offset = some towards →
    ∀ account code exchange time volume price orderId,
      (Q.newOrder account code towards exchange time volume price orderId).direction = direction
  offset : ∀ direction offset towards, towardsOf direction offset = some towards →
    ∀ account code exchange time volume price orderId,
      (Q.newOrder account code towards exchange time volume price orderId).offset = offset

/-- `send_order` leaves money and frozen funds alone when it fails. -/
structure AccountContract (Q : Qars) : Prop where
  sendOrder_error : ∀ account code amount time towards price id priceType error,
    (Q.sendOrder account code amount time towards price id priceType).1 = .error error →
    (Q.sendOrder account code amount time towards price id priceType).2.money = account.money ∧
    (Q.sendOrder account code amount time towards price id priceType).2.frozen = account.frozen

namespace OrderDirection

def side : OrderDirection → Side
  | .BUY => .buy
  | .SELL => .sell

end OrderDirection

inductive SweepReports (taker : ℕ) : ℚ → List (Match ℕ ℚ ℚ) → List Success → Prop
  | done (left) : SweepReports taker left [] []
  | pair {left found matches' takerFill makerFill reports} : Opposed takerFill makerFill →
      takerFill.orderId = taker → makerFill.orderId = found.maker →
      takerFill.volume = found.volume → takerFill.price = found.price →
      SweepReports taker (left - found.volume) matches' reports →
      SweepReports taker left (found :: matches') (takerFill.report left ::
        makerFill.report (found.volume + found.remains) :: reports)

/-- A book in price-time priority. `queue` lists the resting orders of a side. -/
structure PriceTimeContract (Q : Qars) where
  queue : Q.Orderbook → Side → List (Resting ℕ ℚ ℚ)
  issued : Q.Orderbook → ℕ → Prop
  isQueue : ∀ book side, IsQueue side (queue book side)
  nodup : ∀ book side, ((queue book side).map Resting.id).Nodup
  disjoint : ∀ book side, ∀ order ∈ queue book side, ∀ other ∈ queue book side.opposite,
    order.id ≠ other.id
  issued_of_mem : ∀ book side, ∀ order ∈ queue book side, issued book order.id
  bidQueue : ∀ book, (Q.bidQueue book).getD [] =
    (queue book .buy).map fun order => ⟨order.price, order.volume⟩
  askQueue : ∀ book, (Q.askQueue book).getD [] =
    (queue book .sell).map fun order => ⟨order.price, order.volume⟩
  newLimitOrder : ∀ (book : Q.Orderbook) asset (direction : OrderDirection) price volume ts,
    let answer := Q.processOrder book (.newLimitOrder asset direction price volume ts)
    let side := direction.side
    let swept := sweep side price volume (queue book side.opposite)
    (∃ failed, answer.1 = [.error failed] ∧ queue answer.2 = queue book ∧
      issued answer.2 = issued book) ∨
    (∃ id orderType accepted reports, answer.1 =
        .ok (.Accepted id orderType accepted) :: reports.map .ok ∧
      ¬issued book id ∧ 0 < volume ∧
      (∀ other, issued answer.2 other ↔ other = id ∨ issued book other) ∧
      SweepReports id volume swept.matches' reports ∧
      queue answer.2 side.opposite = swept.queue ∧
      queue answer.2 side = if 0 < swept.left then
        enqueue side ⟨id, price, swept.left⟩ (queue book side) else queue book side)
  cancelOrder : ∀ (book : Q.Orderbook) id (direction : OrderDirection),
    let answer := Q.processOrder book (.cancelOrder id direction)
    if id ∈ (queue book direction.side).map Resting.id then
      (∃ ts, answer.1 = [.ok (.Cancelled id ts)]) ∧ issued answer.2 = issued book ∧
      queue answer.2 direction.side.opposite = queue book direction.side.opposite ∧
      queue answer.2 direction.side =
        (queue book direction.side).filter fun order => order.id ≠ id
    else (∃ failed, answer.1 = [.error failed]) ∧ queue answer.2 = queue book ∧
      issued answer.2 = issued book

end QAExchange
