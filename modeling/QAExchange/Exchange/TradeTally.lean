import QAExchange.Exchange.Consistency

/-! # Where fills are counted

`Tally` collects the places that count fills: the deals booked into accounts,
the trade records in the logs of the instruments, the market data feed and the
trade statistics. Each applied fill adds to all of them.
-/

namespace QAExchange

open Foundation Action

variable {Q : Qars}

def WalRecord.deal : WalRecord → ℚ × ℚ
  | .ExchangeTradeRecord _ _ _ _ dealPrice dealVolume _ _ => (dealPrice, dealVolume)
  | .ExchangeOrderRecord .. | .ExchangeResponseRecord .. | .OrderStatusUpdate .. => (0, 0)

@[ext]
structure Tally where
  deals : List (String × ℚ × ℚ)
  records : String → List (ℚ × ℚ)
  feed : Option (List MarketCall)
  count : ℕ
  volume : ℚ
  amount : ℚ

def fillCalls (instrumentId : String) (fill : Fill) : List MarketCall :=
  [.updateTradeStats instrumentId (asI64 fill.volume) (fill.price * fill.volume),
   .onTrade instrumentId fill.price (asI64 fill.volume)]

/-- The tally after a fill of an order. -/
def Tally.addFill (orderId instrumentId : String) (fill : Fill) (tally : Tally) : Tally where
  deals := tally.deals ++ [(orderId, fill.price, fill.volume)]
  records := Function.update tally.records instrumentId
    (tally.records instrumentId ++ [(fill.price, fill.volume)])
  feed := tally.feed.map (· ++ fillCalls instrumentId fill)
  count := tally.count + 1
  volume := tally.volume + fill.volume
  amount := tally.amount + fill.price * fill.volume

/-- The tally after an applied event. -/
def Tally.add (tally : Tally) (entry : Applied) : Tally :=
  match entry.2.2.fill? with
  | some fill => tally.addFill entry.1 entry.2.1 fill
  | none => tally

/-- The tally after some fills, each with its order and instrument. -/
def Tally.addFills (fills : List (String × String × Fill)) (tally : Tally) : Tally :=
  fills.foldl (fun tally fill => tally.addFill fill.1 fill.2.1 fill.2.2) tally

def appliedFills (applied : List Applied) : List (String × String × Fill) :=
  applied.filterMap fun entry => entry.2.2.fill?.map fun fill => (entry.1, entry.2.1, fill)

namespace Tally

theorem foldl_add (applied : List Applied) (tally : Tally) :
    applied.foldl add tally = tally.addFills (appliedFills applied) := by
  induction applied generalizing tally with
  | nil => rfl
  | cons entry applied induction =>
    rw [List.foldl_cons, induction]
    cases found : entry.2.2.fill? <;> simp [add, addFills, appliedFills, found]

variable (fills : List (String × String × Fill)) (tally : Tally)

theorem addFills_cons (fill : String × String × Fill) :
    tally.addFills (fill :: fills) = (tally.addFill fill.1 fill.2.1 fill.2.2).addFills fills := rfl

theorem deals_addFills : (tally.addFills fills).deals =
    tally.deals ++ fills.map fun fill => (fill.1, fill.2.2.price, fill.2.2.volume) := by
  induction fills generalizing tally with
  | nil => simp [addFills]
  | cons fill fills induction =>
    rw [addFills_cons, induction]
    simp [addFill]

theorem records_addFills (instrumentId : String) : (tally.addFills fills).records instrumentId =
    tally.records instrumentId ++ (fills.filter fun fill => fill.2.1 = instrumentId).map
      fun fill => (fill.2.2.price, fill.2.2.volume) := by
  induction fills generalizing tally with
  | nil => simp [addFills]
  | cons fill fills induction =>
    rw [addFills_cons, induction]
    by_cases same : fill.2.1 = instrumentId
    · subst same
      simp [addFill]
    · simp [addFill, Function.update_of_ne (Ne.symm same), same]

theorem feed_addFills : (tally.addFills fills).feed =
    tally.feed.map (· ++ fills.flatMap fun fill => fillCalls fill.2.1 fill.2.2) := by
  induction fills generalizing tally with
  | nil => simp [addFills]
  | cons fill fills induction =>
    rw [addFills_cons, induction]
    cases found : tally.feed <;> simp [addFill, found]

theorem volume_addFills : (tally.addFills fills).volume =
    tally.volume + (fills.map fun fill => fill.2.2.volume).sum := by
  induction fills generalizing tally with
  | nil => simp [addFills]
  | cons fill fills induction =>
    rw [addFills_cons, induction, List.map_cons, List.sum_cons, ← add_assoc]
    rfl

end Tally

namespace OrderRouter

def tally (router : OrderRouter Q) : Tally where
  deals := router.tradeGateway.sinks.deals.map fun deal => (deal.orderId, deal.price, deal.volume)
  records instrumentId := (router.tradeGateway.sinks.tradeLog instrumentId).map WalRecord.deal
  feed := router.tradeGateway.sinks.feed
  count := router.tradeCount
  volume := router.tradeVolume
  amount := router.tradeAmount

/-- Applying an event counts its fill once. -/
theorem tally_settleEvent {now : Now} {orderId : String} {order : Order} {success : Success}
    {isTaker : Bool} {router : OrderRouter Q} {after : TradeGateway Q}
    (told : Told now orderId order success isTaker router after) :
    (setGateway after (settleEvent orderId order success router)).tally =
      router.tally.add (orderId, order.instrumentId, success) := by
  have counted : ∀ fill, success.fill? = some fill →
      (settleEvent orderId order success router).tradeCount = router.tradeCount + 1 ∧
      (settleEvent orderId order success router).tradeVolume = router.tradeVolume + fill.volume ∧
      (settleEvent orderId order success router).tradeAmount =
        router.tradeAmount + fill.price * fill.volume := by
    intro fill isFill
    cases success <;> simp only [Success.fill?, reduceCtorEq, Option.some.injEq] at isFill <;>
      subst isFill <;> exact ⟨rfl, rfl, rfl⟩
  unfold Told at told
  cases isFill : success.fill? with
  | some fill =>
    rw [isFill] at told
    rcases told with ⟨tradeId, told⟩
    rcases counted fill isFill with ⟨count, volume, amount⟩
    simp only [Tally.add, isFill]
    ext1
    · simp [tally, setGateway, told, TradeGateway.Sinks.trade, Tally.addFill, tradeParams]
    · funext instrumentId
      by_cases same : instrumentId = order.instrumentId
      · subst same
        simp [tally, setGateway, told, TradeGateway.Sinks.trade, Tally.addFill, tradeParams,
          TradeGateway.tradeRecord, WalRecord.deal]
      · simp [tally, setGateway, told, TradeGateway.Sinks.trade, Tally.addFill, tradeParams,
          Function.update_of_ne same]
    · simp only [tally, setGateway, told, TradeGateway.Sinks.trade, Tally.addFill, tradeParams]
      rfl
    · exact count
    · exact volume
    · exact amount
  | none =>
    rw [isFill] at told
    simp only [Tally.add, isFill, tally, setGateway, told, Tally.mk.injEq, true_and]
    cases success <;> first | exact ⟨rfl, rfl, rfl⟩ | cases isFill

end OrderRouter

end QAExchange
