import QAExchange.Contracts

/-! # A reference order book

A book in price-time priority that numbers its orders from 1. It shows that the
contracts of the order book can be met.
-/

namespace QAExchange

open Foundation

structure ReferenceBook where
  queue : Side → List (Resting ℕ ℚ ℚ)
  nextId : ℕ
  lastprice : ℚ
  isQueue : ∀ side, IsQueue side (queue side)
  nodup : ∀ side, ((queue side).map Resting.id).Nodup
  disjoint : ∀ side, ∀ order ∈ queue side, ∀ other ∈ queue side.opposite, order.id ≠ other.id
  below : ∀ side, ∀ order ∈ queue side, order.id < nextId

namespace ReferenceBook

def new (prevClose : ℚ) : ReferenceBook where
  queue _ := []
  nextId := 1
  lastprice := prevClose
  isQueue side := .nil side
  nodup _ := .nil
  disjoint := by simp
  below := by simp

def reports (taker : ℕ) (direction : OrderDirection) (ts : ℤ) :
    ℚ → List (Match ℕ ℚ ℚ) → List Success
  | _, [] => []
  | left, found :: rest =>
    Fill.report left ⟨taker, direction, .Limit, found.price, found.volume, ts, found.maker⟩ ::
    Fill.report (found.volume + found.remains)
      ⟨found.maker, match direction with | .BUY => .SELL | .SELL => .BUY, .Limit,
        found.price, found.volume, ts, taker⟩ ::
    reports taker direction ts (left - found.volume) rest

theorem reports_sweepReports (taker : ℕ) (direction : OrderDirection) (ts : ℤ) (left : ℚ)
    (found : List (Match ℕ ℚ ℚ)) :
    SweepReports taker left found (reports taker direction ts left found) := by
  induction found generalizing left with
  | nil => exact .done left
  | cons first rest induction =>
    exact .pair ⟨rfl, rfl, rfl, rfl⟩ rfl rfl rfl rfl (induction _)

/-- The queues after an order swept the opposite side and rests with `left`. -/
def queuesAfter (book : ReferenceBook) (side : Side) (price : ℚ)
    (swept : Sweep ℕ ℚ ℚ) : Side → List (Resting ℕ ℚ ℚ) :=
  Function.update (Function.update book.queue side.opposite swept.queue) side
    (if 0 < swept.left then enqueue side ⟨book.nextId, price, swept.left⟩ (book.queue side)
      else book.queue side)

section

variable {book : ReferenceBook}

@[simp] theorem queuesAfter_opposite (swept : Sweep ℕ ℚ ℚ) :
    book.queuesAfter side price swept side.opposite = swept.queue := by
  simp [queuesAfter, Function.update_of_ne side.opposite_ne]

@[simp] theorem queuesAfter_self (swept : Sweep ℕ ℚ ℚ) :
    book.queuesAfter side price swept side =
      if 0 < swept.left then enqueue side ⟨book.nextId, price, swept.left⟩ (book.queue side)
      else book.queue side := by
  simp [queuesAfter]

theorem mem_queuesAfter (member : order ∈ book.queuesAfter side price
      (sweep side price volume (book.queue side.opposite)) other) :
    (other = side ∧ order.id = book.nextId) ∨ ∃ before ∈ book.queue other, before.id = order.id := by
  rcases side.eq_or_eq_opposite other with rfl | rfl
  · rw [queuesAfter_self] at member
    split at member
    · rcases mem_enqueue.mp member with rfl | before
      · exact .inl ⟨rfl, rfl⟩
      · exact .inr ⟨order, before, rfl⟩
    · exact .inr ⟨order, member, rfl⟩
  · rw [queuesAfter_opposite] at member
    rcases mem_sweep_queue member with ⟨before, isBefore, same, _⟩
    exact .inr ⟨before, isBefore, same⟩

end

theorem mem_of_mem_remove {queue : Side → List (Resting ℕ ℚ ℚ)} {side other : Side} {id : ℕ}
    {order : Resting ℕ ℚ ℚ} (member : order ∈ Function.update queue side
      ((queue side).filter fun order => order.id ≠ id) other) : order ∈ queue other := by
  by_cases same : other = side
  · subst same
    rw [Function.update_self] at member
    exact List.mem_of_mem_filter member
  · rwa [Function.update_of_ne same] at member

/-- The book after it accepted a limit order. -/
def placeLimit (book : ReferenceBook) (side : Side) (price volume : ℚ) : ReferenceBook where
  queue := book.queuesAfter side price (sweep side price volume (book.queue side.opposite))
  nextId := book.nextId + 1
  lastprice := match (sweep side price volume (book.queue side.opposite)).matches'.getLast? with
    | some last => last.price
    | none => book.lastprice
  isQueue other := by
    rcases side.eq_or_eq_opposite other with rfl | rfl
    · rw [queuesAfter_self]
      split
      · exact (book.isQueue _).enqueue ‹_›
      · exact book.isQueue _
    · rw [queuesAfter_opposite]
      exact (book.isQueue _).sweep
  nodup other := by
    rcases side.eq_or_eq_opposite other with rfl | rfl
    · rw [queuesAfter_self]
      split
      · rw [((enqueue_perm _ _ _).map Resting.id).nodup_iff, List.map_cons, List.nodup_cons]
        refine ⟨fun member => ?_, book.nodup _⟩
        rcases List.mem_map.mp member with ⟨before, isBefore, same⟩
        exact absurd (book.below _ before isBefore) (by simp [same])
      · exact book.nodup _
    · rw [queuesAfter_opposite]
      exact (book.nodup _).sublist (sweep_queue_ids _)
  disjoint other order orderMem opposed opposedMem := by
    rcases mem_queuesAfter orderMem with ⟨isSide, isNew⟩ | ⟨before, isBefore, same⟩ <;>
      rcases mem_queuesAfter opposedMem with ⟨isSide', isNew'⟩ | ⟨before', isBefore', same'⟩
    · exact absurd (isSide'.trans isSide.symm) other.opposite_ne
    · have := book.below _ before' isBefore'
      omega
    · have := book.below _ before isBefore
      omega
    · rw [← same, ← same']
      exact book.disjoint other before isBefore before' isBefore'
  below other order member := by
    rcases mem_queuesAfter member with ⟨_, isNew⟩ | ⟨before, isBefore, same⟩
    · omega
    · have := book.below other before isBefore
      omega

/-- The book without an order. -/
def remove (book : ReferenceBook) (side : Side) (id : ℕ) : ReferenceBook where
  queue := Function.update book.queue side ((book.queue side).filter fun order => order.id ≠ id)
  nextId := book.nextId
  lastprice := book.lastprice
  isQueue other := by
    by_cases same : other = side
    · subst same
      rw [Function.update_self]
      exact ⟨(book.isQueue other).sorted.filter _, fun order member =>
        (book.isQueue other).positive order (List.mem_of_mem_filter member)⟩
    · rw [Function.update_of_ne same]
      exact book.isQueue other
  nodup other := by
    by_cases same : other = side
    · subst same
      rw [Function.update_self]
      exact (book.nodup other).sublist (List.filter_sublist.map _)
    · rw [Function.update_of_ne same]
      exact book.nodup other
  disjoint other order member opposed opposedMem :=
    book.disjoint other order (mem_of_mem_remove member) opposed (mem_of_mem_remove opposedMem)
  below other order member := book.below other order (mem_of_mem_remove member)

def processOrder (book : ReferenceBook) (request : OrderRequest) :
    List OrderProcessingResult × ReferenceBook :=
  match request with
  | .newLimitOrder _ direction price volume ts =>
    if 0 < volume then
      (.ok (.Accepted book.nextId .Limit ts) ::
        (reports book.nextId direction ts volume
          (sweep direction.side price volume (book.queue direction.side.opposite)).matches').map
            .ok,
        book.placeLimit direction.side price volume)
    else ([.error (.ValidationFailed "invalid volume")], book)
  | .cancelOrder id direction =>
    if id ∈ (book.queue direction.side).map Resting.id then
      ([.ok (.Cancelled id 0)], book.remove direction.side id)
    else ([.error (.OrderNotFound id)], book)

end ReferenceBook

/-! ## A reference qars

The reference book with accounts that freeze the price of an order until it is
filled or cancelled. It meets all contracts.
-/

namespace ReferenceQars

/-- `QAOrder::new` -/
def newOrder (account code : String) (towards : ℤ) (exchange _time : String) (volume price : ℚ)
    (orderId : String) : QAOrder where
  userId := account
  orderId := orderId
  exchangeId := exchange
  instrumentId := code
  direction := if 0 < towards then "BUY" else "SELL"
  offset := if towards.natAbs = 3 then "CLOSE" else if towards.natAbs = 4 then "CLOSETODAY" else "OPEN"
  volume := volume
  priceType := "LIMIT"
  limitPrice := price
  timeCondition := "GFD"
  volumeCondition := "ANY"
  exchangeOrderId := ""
  volumeLeft := volume
  lastMsg := ""

def sendOrder (account : QAAccount Unit) (code : String) (amount : ℚ) (time : String)
    (towards : ℤ) (price : ℚ) (_id _priceType : String) : Except Message QAOrder × QAAccount Unit :=
  if account.money < amount * price then (.error (.ofString "NotEnoughMoney"), account)
  else
    let id := "A" ++ toString account.dailyorders.keys.length
    let order := newOrder account.accountCookie code towards "" time amount price id
    (.ok order, { account with
      money := account.money - amount * price
      frozen := account.frozen.insert id ⟨amount * price⟩
      dailyorders := account.dailyorders.insert id (qaorderToQifi order) })

def receiveDealSim (account : QAAccount Unit) (_code : String) (amount price : ℚ)
    (_time orderId _tradeId _realOrderId : String) (_towards : ℤ) : QAAccount Unit :=
  match account.frozen.lookup orderId with
  | some frozen =>
    { account with frozen := account.frozen.insert orderId ⟨frozen.money - amount * price⟩ }
  | none => account

/-- `Order::trade` -/
def tradeOrder (order : Order) (amount : ℚ) : Order :=
  { order with
    volumeLeft := order.volumeLeft - amount
    status := if order.volumeLeft = amount then "FINISHED" else order.status }

/-- `Order::cancel` -/
def cancelOrder (order : Order) : Order := { order with status := "CANCEL" }

end ReferenceQars

def referenceQars : Qars where
  Orderbook := ReferenceBook
  Rest := Unit
  processOrder := ReferenceBook.processOrder
  bidQueue book := some ((book.queue .buy).map fun order => ⟨order.price, order.volume⟩)
  askQueue book := some ((book.queue .sell).map fun order => ⟨order.price, order.volume⟩)
  lastprice := ReferenceBook.lastprice
  assetHash code := code.length
  newOrder := ReferenceQars.newOrder
  sendOrder := ReferenceQars.sendOrder
  receiveDealSim := ReferenceQars.receiveDealSim
  getMargin _ := 0
  tradeOrder := ReferenceQars.tradeOrder
  cancelOrder := ReferenceQars.cancelOrder

end QAExchange
