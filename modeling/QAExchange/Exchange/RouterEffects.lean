import QAExchange.Exchange.GatewayEffects
import QAExchange.Exchange.Journal

/-! # What one book event does to the router

`settleEvent` is the change that an event makes outside the gateway. On a good
disk, for an order of a known account, handling the event succeeds and does
exactly that.
-/

namespace QAExchange.OrderRouter

open Foundation Action

variable {Q : Qars}

/-- An order that its account can book: the account is known and the direction
and the offset are in the table of `towards`. -/
structure Sound (users : Set String) (order : Order) : Prop where
  user : order.userId ∈ users
  towards : ∃ towards, towardsOf order.direction order.offset = some towards

def settleEvent (orderId : String) (order : Order) (success : Success) (router : OrderRouter Q) :
    OrderRouter Q :=
  let router := modifyRoute orderId (applyEvent success) router
  match success with
  | .Accepted id _ _ => registerEngineId id orderId order.userId router
  | .Filled fill =>
    removeActiveOrder order.userId orderId (updateTradeStats fill.price fill.volume router)
  | .PartiallyFilled fill => updateTradeStats fill.price fill.volume router
  | .Cancelled .. => removeActiveOrder order.userId orderId router
  | .Amended .. => router

section

variable (orderId : String) (order : Order) (success : Success) (router : OrderRouter Q)

@[simp] theorem settleEvent_matchingEngine :
    (settleEvent orderId order success router).matchingEngine = router.matchingEngine := by
  cases success <;> rfl

@[simp] theorem settleEvent_processed :
    (settleEvent orderId order success router).processed = router.processed := by
  cases success <;> rfl

@[simp] theorem settleEvent_orderSeq :
    (settleEvent orderId order success router).orderSeq = router.orderSeq := by
  cases success <;> rfl

@[simp] theorem settleEvent_tradingStateMachine :
    (settleEvent orderId order success router).tradingStateMachine =
      router.tradingStateMachine := by
  cases success <;> rfl

theorem settleEvent_config : (settleEvent orderId order success router).riskChecker.config =
    router.riskChecker.config := by
  cases success <;> rfl

/-- Events only take active orders off the lists. -/
theorem settleEvent_activeOrders
    (member : info ∈ (settleEvent orderId order success router).riskChecker.activeOrders
      accountId) : info ∈ router.riskChecker.activeOrders accountId := by
  cases success with
  | Accepted | PartiallyFilled | Amended => exact member
  | Filled | Cancelled =>
    by_cases same : accountId = order.userId
    · subst same
      simp only [settleEvent, OrderRouter.removeActiveOrder, PreTradeCheck.removeActiveOrder,
        Function.update_self] at member
      exact List.mem_of_mem_filter member
    · simp only [settleEvent, OrderRouter.removeActiveOrder, PreTradeCheck.removeActiveOrder,
        Function.update_of_ne same] at member
      exact member

theorem settleEvent_orders : (settleEvent orderId order success router).orders =
    Function.update router.orders orderId ((router.orders orderId).map (applyEvent success)) := by
  cases success <;> rfl

theorem settleEvent_engineIdToOrder : (settleEvent orderId order success router).engineIdToOrder =
      if success.isAccepted then
        Function.update router.engineIdToOrder success.subject (some orderId)
      else router.engineIdToOrder := by
  cases success <;> rfl

end

def setGateway (tradeGateway : TradeGateway Q) (router : OrderRouter Q) : OrderRouter Q :=
  { router with tradeGateway }

/-- The gateway after it was told of an event: only a fill reaches the sinks. -/
def Told (now : Now) (orderId : String) (order : Order) (success : Success) (isTaker : Bool)
    (router : OrderRouter Q) (after : TradeGateway Q) : Prop :=
  match success.fill? with
  | some fill => ∃ tradeId, after.sinks =
      router.tradeGateway.sinks.trade now (tradeParams orderId order fill isTaker router) tradeId
  | none => after.sinks = router.tradeGateway.sinks

/-- An event keeps the qars id of its order. -/
@[simp] theorem applyEvent_qaOrderId (success : Success) (info : OrderRouteInfo) :
    (applyEvent success info).qaOrderId = info.qaOrderId := by
  cases success <;> rfl

@[simp] theorem applyEvent_order (success : Success) (info : OrderRouteInfo) :
    (applyEvent success info).order = info.order := by
  cases success <;> rfl

theorem tradeParams_modifyRoute (orderId : String) (order : Order) (fill : Fill) (isTaker : Bool)
    (success : Success) (router : OrderRouter Q) :
    tradeParams orderId order fill isTaker (modifyRoute orderId (applyEvent success) router) =
      tradeParams orderId order fill isTaker router := by
  simp only [tradeParams, modifyRoute, Function.update_self]
  cases router.orders orderId <;> simp

theorem handleFill_exec (now : Now) (orderId : String) (fill : Fill) (isTaker : Bool)
    (success : Success) (isFill : success.fill? = some fill) (sound : Sound users order)
    {router : OrderRouter Q} (ready : router.tradeGateway.Ready users) :
    ∃ after, exec (handleFill now orderId order fill isTaker (applyEvent success)) router =
        (.ok (), setGateway after (updateTradeStats fill.price fill.volume
            (modifyRoute orderId (applyEvent success) router))) ∧
      after.Ready users ∧ Told now orderId order success isTaker router after := by
  rcases sound.towards with ⟨towards, known⟩
  let trade := tradeParams orderId order fill isTaker router
  rcases TradeGateway.handleTradeNew_does now trade sound.user known ready with
    ⟨tradeId, ⟨value, succeeded⟩, ready', told⟩
  refine ⟨(exec (TradeGateway.handleTradeNew now trade) router.tradeGateway).2, ?_, ready', ?_⟩
  · have ran : exec (TradeGateway.handleTradeNew now trade) router.tradeGateway =
        (.ok value, (exec (TradeGateway.handleTradeNew now trade) router.tradeGateway).2) :=
      Prod.ext succeeded rfl
    have same : tradeParams orderId order fill isTaker (updateTradeStats fill.price fill.volume
        (modifyRoute orderId (applyEvent success) router)) = trade :=
      tradeParams_modifyRoute orderId order fill isTaker success router
    simp only [handleFill, exec_bind, exec_update, exec_read, same, gateway, exec_onPart]
    rw [show (updateTradeStats fill.price fill.volume
      (modifyRoute orderId (applyEvent success) router)).tradeGateway = router.tradeGateway from rfl,
      ran]
    rfl
  · simp only [Told, isFill]
    exact ⟨tradeId, told⟩

/-- Handling an event of a sound order succeeds and settles the event. -/
theorem handleSuccessResult_exec (now : Now) (orderId : String) (success : Success) (isTaker : Bool)
    (sound : Sound users order) (router : OrderRouter Q) (ready : router.tradeGateway.Ready users) :
    ∃ after, exec (handleSuccessResult now orderId order success isTaker) router =
        (.ok (), setGateway after (settleEvent orderId order success router)) ∧
      after.Ready users ∧ Told now orderId order success isTaker router after := by
  cases success with
  | Accepted id orderType ts =>
    rcases TradeGateway.handleOrderAcceptedNew_safe now (orderParams orderId order)
      router.tradeGateway ready with ⟨⟨value, succeeded⟩, ready'⟩
    refine ⟨_, ?_, ready', TradeGateway.handleOrderAcceptedNew_keeps_sinks _ _ _⟩
    have ran : exec (TradeGateway.handleOrderAcceptedNew now (orderParams orderId order))
      router.tradeGateway = (.ok value, _) := Prod.ext succeeded rfl
    simp only [handleSuccessResult, exec_bind, exec_update, gateway, exec_onPart]
    rw [show (registerEngineId id orderId order.userId (modifyRoute orderId
      (applyEvent (.Accepted id orderType ts)) router)).tradeGateway = router.tradeGateway from
        rfl, ran]
    rfl
  | Filled fill =>
    rcases handleFill_exec now orderId fill isTaker (.Filled fill) rfl sound ready with
      ⟨after, ran, ready', told⟩
    refine ⟨after, ?_, ready', told⟩
    simp only [handleSuccessResult]
    rw [exec_bind_ok ran]
    rfl
  | PartiallyFilled fill =>
    exact handleFill_exec now orderId fill isTaker (.PartiallyFilled fill) rfl sound ready
  | Amended id price volume ts =>
    refine ⟨router.tradeGateway, ?_, ready, rfl⟩
    have same : modifyRoute orderId (applyEvent (.Amended id price volume ts)) router = router := by
      have nothing : applyEvent (.Amended id price volume ts) = fun info => info := rfl
      simp [modifyRoute, nothing]
    simp [handleSuccessResult, settleEvent, same, setGateway]
  | Cancelled id ts =>
    let cancelled := cancelledOrder orderId order
      (modifyRoute orderId (applyEvent (.Cancelled id ts)) router)
    rcases TradeGateway.handleCancelAcceptedNew_safe now (orderParams orderId order) id
      cancelled.2 cancelled.1 router.tradeGateway ready with ⟨⟨value, succeeded⟩, ready'⟩
    refine ⟨_, ?_, ready', TradeGateway.handleCancelAcceptedNew_keeps_sinks now
      (orderParams orderId order) id cancelled.2 cancelled.1 _⟩
    have ran : exec (TradeGateway.handleCancelAcceptedNew now (orderParams orderId order) id
      cancelled.2 cancelled.1) router.tradeGateway = (.ok value, _) := Prod.ext succeeded rfl
    simp only [handleSuccessResult, exec_bind, exec_update, exec_read, gateway, exec_onPart]
    rw [show (modifyRoute orderId (applyEvent (.Cancelled id ts)) router).tradeGateway =
      router.tradeGateway from rfl, ran]
    rfl

/-! ## What the handling of results leaves alone -/

def termsOf (router : OrderRouter Q) (orderId : String) :
    Option (Order × TimeCondition × VolumeCondition) :=
  (router.orders orderId).map fun info => (info.order, info.timeCondition, info.volumeCondition)

def frame (router : OrderRouter Q) :
    ExchangeMatchingEngine Q × Option TradingStateMachine × ℕ × (String → List String) ×
      (String → Option (Order × TimeCondition × VolumeCondition)) :=
  (router.matchingEngine, router.tradingStateMachine, router.orderSeq, router.userOrders,
    router.termsOf)

theorem termsOf_modifyRoute (orderId : String) (change : OrderRouteInfo → OrderRouteInfo)
    (kept : ∀ info, (change info).order = info.order ∧
      (change info).timeCondition = info.timeCondition ∧
      (change info).volumeCondition = info.volumeCondition) (router : OrderRouter Q) :
    (modifyRoute orderId change router).termsOf = router.termsOf := by
  funext other
  by_cases same : other = orderId
  · subst same
    cases found : router.orders other <;> simp [termsOf, modifyRoute, found, kept]
  · simp [termsOf, modifyRoute, Function.update_of_ne same]

theorem frame_applyEvent (orderId : String) (success : Success) (router : OrderRouter Q) :
    frame (modifyRoute orderId (applyEvent success) router) = frame router := by
  have same : (modifyRoute orderId (applyEvent success) router).termsOf = router.termsOf := by
    refine termsOf_modifyRoute orderId _ (fun info => ?_) router
    cases success <;> exact ⟨rfl, rfl, rfl⟩
  rw [frame, same]
  rfl

theorem frame_markRefused (now : Now) (orderId : String) (router : OrderRouter Q) :
    frame (modifyRoute orderId (markRefused now) router) = frame router := by
  have same : (modifyRoute orderId (markRefused now) router).termsOf = router.termsOf :=
    termsOf_modifyRoute orderId (markRefused now) (fun _ => ⟨rfl, rfl, rfl⟩) router
  rw [frame, same]
  rfl

theorem gateway_keeps_frame (action : Action ExchangeError (TradeGateway Q) α) :
    Keeps frame (gateway action) := fun _ => rfl

theorem handleFill_keeps_frame (now : Now) (orderId : String) (order : Order) (fill : Fill)
    (isTaker : Bool) (success : Success) :
    Keeps frame (handleFill (Q := Q) now orderId order fill isTaker (applyEvent success)) :=
  .bind (.update (frame_applyEvent orderId success)) fun _ => .bind (.update fun _ => rfl) fun _ =>
    .bind (.read _ _) fun _ => .bind (gateway_keeps_frame _) fun _ => .pure _ _

theorem handleSuccessResult_keeps_frame (now : Now) (orderId : String) (order : Order)
    (success : Success) (isTaker : Bool) :
    Keeps frame (handleSuccessResult (Q := Q) now orderId order success isTaker) := by
  cases success with
  | Accepted =>
    exact .bind (.update (frame_applyEvent _ _)) fun _ => .bind (.update fun _ => rfl) fun _ =>
      .bind (gateway_keeps_frame _) fun _ => .pure _ _
  | Filled =>
    exact .bind (handleFill_keeps_frame _ _ _ _ _ _) fun _ => .update fun _ => rfl
  | PartiallyFilled => exact handleFill_keeps_frame now orderId order _ isTaker _
  | Amended => exact .pure _ _
  | Cancelled =>
    exact .bind (.update (frame_applyEvent _ _)) fun _ => .bind (.read _ _) fun _ =>
      .bind (gateway_keeps_frame _) fun _ => .update fun _ => rfl

theorem handleLaterFill_keeps_frame (now : Now) (success : Success) (fill : Fill) :
    Keeps frame (handleLaterFill (Q := Q) now success fill) := by
  refine .bind (.read _ _) fun found => ?_
  cases found with
  | none => exact .pure _ _
  | some makerOrderId =>
    refine .bind (.read _ _) fun known => ?_
    cases known with
    | none => exact .pure _ _
    | some makerInfo => exact handleSuccessResult_keeps_frame _ _ _ _ _

theorem processResult_keeps_frame (now : Now) (orderId : String) (order : Order)
    (handled : Handled) (result : OrderProcessingResult) :
    Keeps frame (processResult (Q := Q) now orderId order handled result) := by
  cases result with
  | ok success =>
    refine .bind (.update fun _ => rfl) fun _ => ?_
    cases success with
    | Accepted =>
      dsimp only
      split
      · exact .pure _ _
      · exact .bind (handleSuccessResult_keeps_frame _ _ _ _ _) fun _ => .pure _ _
    | Filled | PartiallyFilled =>
      dsimp only
      split
      · exact .bind (handleLaterFill_keeps_frame _ _ _) fun _ => .pure _ _
      · exact .bind (handleSuccessResult_keeps_frame _ _ _ _ _) fun _ => .pure _ _
    | Amended | Cancelled =>
      exact .bind (handleSuccessResult_keeps_frame _ _ _ _ _) fun _ => .pure _ _
  | error failed =>
    exact .bind (.attempt (gateway_keeps_frame _)) fun _ =>
      .bind (.update (frame_markRefused now orderId)) fun _ => .pure _ _

theorem processMatchingResults_keeps_frame (now : Now) (orderId : String) (order : Order)
    (results : List OrderProcessingResult) :
    Keeps frame (processMatchingResults (Q := Q) now orderId order results) :=
  .bind (.foldlM (fun handled result => processResult_keeps_frame now orderId order handled result)
    results Handled.none) fun _ => .pure _ _

theorem processCancelResult_keeps_frame (now : Now) (withdrawal : Withdrawal)
    (result : OrderProcessingResult) :
    Keeps frame (processCancelResult (Q := Q) now withdrawal result) := by
  cases result with
  | ok success =>
    exact .bind (.update fun _ => rfl) fun _ => .attempt (handleSuccessResult_keeps_frame _ _ _ _ _)
  | error failed => exact .fail _ _

structure Cancellable (now : Now) (router : OrderRouter Q) (req : CancelOrderRequest)
    (withdrawal : Withdrawal) (info : OrderRouteInfo) : Prop where
  found : router.orders req.orderId = some info
  owner : info.order.userId = req.accountId
  session : router.validateCancel now info.order.instrumentId = .Allowed
  status : info.status = .Submitted ∨ info.status = .PartiallyFilled
  engineId : info.matchingEngineOrderId = some withdrawal.engineId
  direction : OrderDirection.ofString info.order.direction = some withdrawal.direction
  order : withdrawal.order = info.order
  orderId : withdrawal.orderId = req.orderId

/-- `checkCancel` lets exactly the cancellable orders through. -/
theorem exec_checkCancel (now : Now) (req : CancelOrderRequest) (router : OrderRouter Q) :
    (∃ withdrawal info, Cancellable now router req withdrawal info ∧
      exec (checkCancel now req) router = (.ok withdrawal, router)) ∨
    ((∀ withdrawal info, ¬Cancellable now router req withdrawal info) ∧
      ∃ error, exec (checkCancel now req) router = (.error error, router)) := by
  simp only [checkCancel, exec_bind, exec_read]
  rcases found : router.orders req.orderId with _ | info
  · exact .inr ⟨fun _ _ cancellable => by simp [cancellable.found] at found, _, rfl⟩
  have only : ∀ {withdrawal other}, Cancellable now router req withdrawal other →
      other = info := fun cancellable => Option.some.inj (cancellable.found.symm.trans found)
  by_cases owner : info.order.userId = req.accountId
  swap
  · simp only [ne_eq, owner, not_false_eq_true, if_true, exec_fail]
    exact .inr ⟨fun _ _ cancellable => owner (only cancellable ▸ cancellable.owner), _, rfl⟩
  simp only [ne_eq, owner, not_true_eq_false, if_false, exec_bind, exec_read]
  rcases session : router.validateCancel now info.order.instrumentId with _ | reason
  swap
  · refine .inr ⟨fun _ _ cancellable => ?_, _, rfl⟩
    have allowed := cancellable.session
    rw [only cancellable, session] at allowed
    cases allowed
  by_cases status : info.status = .Submitted ∨ info.status = .PartiallyFilled
  swap
  · simp only [not_or] at status
    simp only [status.1, status.2, not_false_eq_true, and_self, if_true, exec_fail]
    refine .inr ⟨fun _ _ cancellable => ?_, _, rfl⟩
    exact absurd (only cancellable ▸ cancellable.status) (not_or.mpr status)
  simp only [← not_or, status, not_true_eq_false, if_false]
  rcases registered : info.matchingEngineOrderId with _ | engineId
  · refine .inr ⟨fun _ _ cancellable => ?_, _, rfl⟩
    have known := cancellable.engineId
    rw [only cancellable, registered] at known
    cases known
  rcases valid : OrderDirection.ofString info.order.direction with _ | direction
  · refine .inr ⟨fun _ _ cancellable => ?_, _, rfl⟩
    have known := cancellable.direction
    rw [only cancellable, valid] at known
    cases known
  exact .inl ⟨⟨req.orderId, info.order, engineId, direction⟩, info,
    ⟨found, owner, session, status, registered, valid, rfl, rfl⟩, rfl⟩

theorem exec_checkCancel_ok {now : Now} {req : CancelOrderRequest} {router : OrderRouter Q}
    {withdrawal : Withdrawal} {info : OrderRouteInfo}
    (cancellable : Cancellable now router req withdrawal info) :
    exec (checkCancel now req) router = (.ok withdrawal, router) := by
  rcases exec_checkCancel now req router with ⟨⟨_, _, _, _⟩, other, cancellable', ran⟩ | ⟨never, _⟩
  · rcases withdrawal with ⟨_, _, _, _⟩
    obtain rfl := Option.some.inj (cancellable.found.symm.trans cancellable'.found)
    obtain rfl := cancellable.orderId.trans cancellable'.orderId.symm
    obtain rfl := cancellable.order.trans cancellable'.order.symm
    obtain rfl := Option.some.inj (cancellable.engineId.symm.trans cancellable'.engineId)
    obtain rfl := Option.some.inj (cancellable.direction.symm.trans cancellable'.direction)
    exact ran
  · exact absurd cancellable (never withdrawal info)

/-- `bookOrder` calls the book exactly when there is one and the direction is
one of the two. -/
theorem exec_bookOrder (now : Now) (placement : Placement) (router : OrderRouter Q) :
    (∃ book direction, router.getOrderbook placement.req.instrumentId = some book ∧
      OrderDirection.ofString placement.order.direction = some direction ∧
      exec (bookOrder now placement) router =
        (.ok (Q.processOrder book (limitRequest (Q := Q) now placement.req.instrumentId direction
          placement.order.limitPrice placement.order.volumeOrign)).1,
          processOrder placement.orderId placement.req.instrumentId book
            (limitRequest (Q := Q) now placement.req.instrumentId direction
              placement.order.limitPrice placement.order.volumeOrign) router)) ∨
    ((∀ book direction, router.getOrderbook placement.req.instrumentId = some book →
        OrderDirection.ofString placement.order.direction ≠ some direction) ∧
      ∃ error, exec (bookOrder now placement) router = (.error error, router)) := by
  simp only [bookOrder, exec_bind, exec_read]
  rcases hosted : router.getOrderbook placement.req.instrumentId with _ | book
  · exact .inr ⟨by simp, _, rfl⟩
  rcases valid : OrderDirection.ofString placement.order.direction with _ | direction
  · exact .inr ⟨by simp, _, rfl⟩
  · exact .inl ⟨book, direction, rfl, rfl, rfl⟩

theorem exec_bookCancel (withdrawal : Withdrawal) (router : OrderRouter Q) :
    (∃ book, router.getOrderbook withdrawal.order.instrumentId = some book ∧
      exec (bookCancel withdrawal) router =
        (.ok (Q.processOrder book (.cancelOrder withdrawal.engineId withdrawal.direction)).1,
          processOrder withdrawal.orderId withdrawal.order.instrumentId book
            (.cancelOrder withdrawal.engineId withdrawal.direction) router)) ∨
    (router.getOrderbook withdrawal.order.instrumentId = none ∧
      ∃ error, exec (bookCancel withdrawal) router = (.error error, router)) := by
  simp only [bookCancel, exec_bind, exec_read]
  rcases hosted : router.getOrderbook withdrawal.order.instrumentId with _ | book
  · exact .inr ⟨rfl, _, rfl⟩
  · exact .inl ⟨book, rfl, rfl⟩

end QAExchange.OrderRouter
