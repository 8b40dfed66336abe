import QAExchange.Exchange.BookedVolume
import QAExchange.Exchange.FilledVolume
import QAExchange.Exchange.Rejection

/-! # What is left of an IOC order

After the results of an IOC order are handled, the router cancels what the book
did not match. It does so by an ordinary cancel, which the trading session can
refuse, and not for a remainder within the tolerance.
-/

namespace QAExchange.OrderRouter

open Foundation Action

variable {Q : Qars}

variable {info : OrderRouteInfo}

theorem replay_engineId_eq {events : List Success} {id : ℕ}
    (own : ∀ success ∈ events, success.subject = id)
    (accepted : info.matchingEngineOrderId = some id ∨
      ∃ success ∈ events, success.isAccepted = true) :
    (replay events info).matchingEngineOrderId = some id := by
  induction events generalizing info with
  | nil => simpa using accepted
  | cons success events induction =>
    refine induction (fun other member => own other (List.mem_cons_of_mem _ member)) ?_
    have subject := own success List.mem_cons_self
    cases success with
    | Accepted other => exact .inl (congrArg some subject)
    | Filled | PartiallyFilled | Amended | Cancelled =>
      rcases accepted with before | ⟨other, member, accepted⟩
      · exact .inl before
      · rcases List.mem_cons.mp member with rfl | later
        · cases accepted
        · exact .inr ⟨other, later, accepted⟩

theorem statusAfter_open (sets : statusAfter success = some status)
    (notEnd : success.life.isEnd = false) : status = .Submitted ∨ status = .PartiallyFilled := by
  cases success <;> simp only [statusAfter, Option.some.injEq, reduceCtorEq] at sets <;>
    subst sets <;> simp [Success.life, LifeEvent.isEnd] at notEnd ⊢

/-- The route info of an order with `left` open in its book. -/
structure UpToDate (left : ℚ) (id : ℕ) (info : OrderRouteInfo) : Prop where
  final : left = 0 → info.status.isFinal = true
  status : 0 < left → info.status = .Submitted ∨ info.status = .PartiallyFilled
  remaining : 0 < left → info.order.volumeOrign - info.filledVolume = left
  engineId : info.matchingEngineOrderId = some id

variable {users : Set String} {applied : List Applied} {router : OrderRouter Q} {now : Now}
  {placement : Placement}

variable {orderId : String}

/-- An order whose events are all taken up is up to date with its book. -/
theorem Consistent.upToDate (consistent : Consistent contract users applied router) {key : OrderKey}
    (owned : (orderId, key) ∈ router.owners)
    (whole : ofKey key router.reports = ofKey key router.processed)
    (found : router.orders orderId = some info) {book : Q.Orderbook}
    (hosted : router.getOrderbook key.1 = some book) :
    UpToDate ((contract.ledger book).left key.2) key.2 info := by
  have life := consistent.life_in_book owned found hosted
  have positive := (consistent.life owned found).1
  rcases consistent.route orderId info found with ⟨first, idle, pending, replayed⟩
  rw [consistent.heard orderId key owned, ← whole, fromAccepted_of_begins life
    (List.prefix_refl _)] at replayed
  -- the last event sets the status
  have last : ∀ earlier last, ofKey key router.reports = earlier ++ [last] →
      statusAfter last = some info.status := by
    intro earlier last split
    have member : last ∈ ofKey key router.reports := by simp [split]
    rcases statusAfter_of_life life member with ⟨status, sets⟩
    have after := replay_status earlier last first
    rw [← split, ← replayed, sets, Option.some_or] at after
    rw [sets, after]
  refine ⟨fun closed => ?_, fun stillOpen => ?_, fun stillOpen => ?_, ?_⟩
  · rcases life.isEnd_of_closed positive closed with ⟨_, _, spent, ends⟩
    rcases List.map_eq_append_iff.mp spent with ⟨earlier, rest, split, _, isLast⟩
    rcases List.map_eq_singleton_iff.mp isLast with ⟨success, rfl, rfl⟩
    exact (isEnd_of_statusAfter (last earlier success split)).mpr ends
  · have noEnd := life.isEnd_eq_false stillOpen
    rcases List.eq_nil_or_concat' (ofKey key router.reports) with none | ⟨earlier, success, split⟩
    · exact absurd (by rw [none]; rfl) life.ne_nil
    · refine statusAfter_open (last earlier success split) (noEnd _ ?_)
      exact List.mem_map.mpr ⟨success, by rw [split]; simp, rfl⟩
  · have noEnd := life.isEnd_eq_false stillOpen
    have noLast : ∀ fill, .Filled fill ∉ ofKey key router.reports := fun fill member => by
      have ends := noEnd _ (List.mem_map.mpr ⟨_, member, rfl⟩)
      cases ends
    rw [replayed, replay_filledVolume noLast, idle.filledVolume, zero_add, ← replayed,
      ← filledTotal_life]
    rcases life.filledTotal_add_left with ⟨sum, _⟩ | ⟨closed, _⟩
    · linarith
    · exact absurd closed stillOpen.ne'
  · rw [replayed]
    refine replay_engineId_eq (fun success member => (mem_ofKey.mp member).2) (.inr ?_)
    rcases Journal.exists_report_of_mem_owners owned with ⟨report, reported, rfl, accepted⟩
    exact ⟨report.2, mem_ofKey.mpr ⟨reported, rfl⟩, accepted⟩

theorem Consistent.status_ne_rejected (consistent : Consistent contract users applied router)
    (owned : (orderId, key) ∈ router.owners) (found : router.orders orderId = some info) :
    info.status ≠ .Rejected := by
  rcases consistent.life owned found with ⟨_, left, life⟩
  rcases consistent.route orderId info found with ⟨first, _, pending, replayed⟩
  have heard := consistent.heard orderId key owned
  rcases List.eq_nil_or_concat' (appliedTo orderId applied) with none | ⟨earlier, success, split⟩
  · rw [replayed, none, replay_nil, pending key owned]
    simp
  · have member : success ∈ ofKey key router.processed := by
      refine mem_of_mem_fromAccepted ?_
      rw [← heard, split]
      simp
    have reported := mem_ofKey.mpr
      ⟨consistent.taken _ (mem_ofKey.mp member).1, (mem_ofKey.mp member).2⟩
    rcases statusAfter_of_life life reported with ⟨status, sets⟩
    have after := replay_status earlier success first
    rw [← split, ← replayed, sets, Option.some_or, Option.some.injEq] at after
    rw [after]
    cases success <;> simp only [statusAfter, Option.some.injEq, reduceCtorEq] at sets <;>
      subst sets <;> simp

/-- The router after it has handled the results of a booking that left `left` of
the order open. -/
structure Routed (priceTime : PriceTimeContract Q) (placement : Placement)
    (direction : OrderDirection) (id : ℕ) (left : ℚ) (router : OrderRouter Q) : Prop where
  info : ∃ info, router.orders placement.orderId = some info ∧ info.order = placement.order ∧
    UpToDate left id info
  book : ∃ book, router.getOrderbook placement.req.instrumentId = some book ∧
    priceTime.volumes book id = left ∧
    (0 < left → id ∈ (priceTime.queue book direction.side).map Resting.id)
  owner : ∀ key, (placement.orderId, key) ∈ router.owners ↔
    key = (placement.req.instrumentId, id)
  ready : ∃ users, router.tradeGateway.Ready users ∧ Sound users placement.order

def unmatched (book : Q.Orderbook) (order : Order) : ℚ :=
  order.volumeOrign - fokVolume book order.direction order.limitPrice

/-- An order that its book takes is routed without an error, and the router knows
what is left of it. -/
theorem exec_routeToMatchingEngine (priceTime : PriceTimeContract Q) (orders : OrderContract Q)
    (ok : PoolOk priceTime.bookContract start users applied
      ⟨router, before ++ [.booking placement]⟩)
    (apart : Journal.NoSharedIds (route now placement router).2.matchingEngine.journal)
    (accepted : ¬RefusedByBook now router placement) :
    ∃ book direction id routed, router.getOrderbook placement.req.instrumentId = some book ∧
      OrderDirection.ofString placement.order.direction = some direction ∧
      exec (routeToMatchingEngine now placement) router = (.ok (), routed) ∧
      routed.tradingStateMachine = router.tradingStateMachine ∧
      routed.termsOf = router.termsOf ∧
      Routed priceTime placement direction id (max 0 (unmatched book placement.order)) routed := by
  rcases ok.tasks _ (List.mem_append_right _ (List.mem_singleton_self _)) with
    ⟨instrument, unowned, info, found, sameOrder, status⟩
  rcases exec_bookOrder_accepted priceTime.bookContract accepted with
    ⟨book, direction, id, orderType, ts, events, hosted, valid, ran, answer, fresh, positive,
      fills⟩
  have left := priceTime.left_of_accepted answer
  rw [← priceTime.fokVolume_eq book valid] at left
  generalize isRequest : limitRequest (Q := Q) now placement.req.instrumentId direction
    placement.order.limitPrice placement.order.volumeOrign = request at ran answer
  rw [show OrderRequest.newLimitOrder (.fromCode Q placement.req.instrumentId) direction
    placement.order.limitPrice placement.order.volumeOrign now.nanos = request from isRequest]
    at left
  let booked := processOrder placement.orderId placement.req.instrumentId book request router
  let key : OrderKey := (placement.req.instrumentId, id)
  have owners : ∀ after : OrderRouter Q, after.matchingEngine = booked.matchingEngine →
      after.owners = router.owners ++ [(placement.orderId, key)] := fun after same => by
    rw [OrderRouter.owners, same]
    exact Consistent.owners_accepted answer fills router
  have frame := processMatchingResults_keeps_frame now placement.orderId placement.order
    (Q.processOrder book request).1 booked
  have solo := solo_booked ran
  rcases handled : exec (processMatchingResults now placement.orderId placement.order
    (Q.processOrder book request).1) booked with ⟨error | _, routed⟩ <;>
    rw [handled] at frame solo
  · -- after an error the order would be marked as rejected
    have marked : (route now placement router).2 =
        modifyRoute placement.orderId markRejected routed := by
      simp only [route, routeToMatchingEngine]
      rw [exec_bind_ok ran, handled]
    rw [marked] at apart
    rcases (PoolOk.solo orders before [] ok solo apart (fun _ => false) (by simp)).1 with
      ⟨users', applied', ok'⟩
    have owned : (placement.orderId, key) ∈
        (modifyRoute placement.orderId markRejected routed).owners :=
      (owners routed (congrArg Prod.fst frame)).symm ▸ by simp
    rcases ok'.consistent.known _ key owned with ⟨info', found', _⟩
    refine absurd ?_ (ok'.consistent.status_ne_rejected owned found')
    simp only [proceedRouting, modifyRoute, Function.update_self, Option.map_eq_some_iff] at found'
    rcases found' with ⟨_, _, rfl⟩
    rfl
  · have routedEq : exec (routeToMatchingEngine now placement) router = (.ok (), routed) := by
      rw [routeToMatchingEngine, exec_bind_ok ran, handled]
    have apart' : Journal.NoSharedIds routed.matchingEngine.journal := by
      have finished : (route now placement router).2 = (finish now placement routed).2 := by
        simp only [route, routedEq]
      rcases journal_solo (solo_closing now placement routed) with ⟨more, grown⟩
      rw [finished] at apart
      exact (grown ▸ apart).of_append
    have inOrder : router.reports.filter (fun report => Report.key report = key) =
        router.processed.filter (fun report => Report.key report = key) ++
          (Task.booking placement).pending.filter fun report => Report.key report = key := by
      have none := ok.consistent.ofKey_reports_eq_nil hosted fresh
      rw [ofKey, List.map_eq_nil_iff, List.filter_eq_nil_iff] at none
      rw [List.filter_eq_nil_iff.mpr none, List.filter_eq_nil_iff.mpr fun report member =>
        none report (ok.consistent.taken report member)]
      rfl
    rcases PoolOk.solo orders before [] ok solo apart' _ inOrder with ⟨⟨users', applied', ok'⟩, whole⟩
    have newOwners := owners routed (congrArg Prod.fst frame)
    have owned : (placement.orderId, key) ∈ routed.owners := by simp [newOwners]
    rcases ok'.consistent.known _ key owned with ⟨info', found', _⟩
    have hosted' : routed.getOrderbook placement.req.instrumentId =
        some (Q.processOrder book request).2 := by
      rw [getOrderbook, show routed.matchingEngine = booked.matchingEngine from
        congrArg Prod.fst frame]
      exact Consistent.getOrderbook_processOrder ..
    have terms : routed.termsOf = router.termsOf := congrArg (fun kept => kept.2.2.2.2) frame
    have sameOrder' : info'.order = placement.order := by
      have same := congrFun terms placement.orderId
      rw [termsOf, termsOf, show routed.orders placement.orderId = some info' from found',
        show router.orders placement.orderId = some info from found] at same
      simp only [Option.map_some, Option.some.injEq, Prod.mk.injEq] at same
      rw [same.1, sameOrder]
    have volumes : priceTime.volumes (Q.processOrder book request).2 id =
        max 0 (unmatched book placement.order) := by
      rw [left.1, unmatched]
      rcases le_total placement.order.volumeOrign
        (fokVolume book placement.order.direction placement.order.limitPrice) with enough | short
      · rw [min_eq_left enough, sub_self, max_eq_left (sub_nonpos.mpr enough)]
      · rw [min_eq_right short, max_eq_right (sub_nonneg.mpr short)]
    have upToDate := ok'.consistent.upToDate owned (by
      simp only [proceedRouting, Task.pending, List.filter_nil, List.append_nil] at whole
      exact congrArg (List.map Prod.snd) whole) found' hosted'
    refine ⟨book, direction, id, routed, hosted, valid, routedEq,
      congrArg (fun kept => kept.2.1) frame, terms, ⟨info', found', sameOrder', volumes ▸ upToDate⟩,
      ⟨_, hosted', volumes, volumes ▸ left.2⟩, fun other => ⟨fun owns => ?_, ?_⟩,
      users', ok'.consistent.ready, sameOrder' ▸ ok'.consistent.sound _ info' found'⟩
    · exact ok'.consistent.uniqueKey _ _ _ owns owned
    · rintro rfl
      exact owned

structure NothingLeft (priceTime : PriceTimeContract Q) (orderId : String)
    (router : OrderRouter Q) : Prop where
  final : ∀ info, router.orders orderId = some info → info.status.isFinal = true
  resting : ∀ key book, (orderId, key) ∈ router.owners → router.getOrderbook key.1 = some book →
    priceTime.volumes book key.2 = 0

section

variable {priceTime : PriceTimeContract Q} {direction : OrderDirection} {id : ℕ} {left : ℚ}

section

variable (routed : Routed priceTime placement direction id left router)
include routed

theorem Routed.not_nothingLeft (stillOpen : 0 < left) :
    ¬NothingLeft priceTime placement.orderId router := by
  intro nothing
  rcases routed.book with ⟨book, hosted, volumes, _⟩
  have none := nothing.resting _ book ((routed.owner _).mpr rfl) hosted
  exact stillOpen.ne (none.symm.trans volumes)

theorem Routed.cancelled (stillOpen : 0 < left)
    (owner : placement.order.userId = placement.req.accountId)
    (instrument : placement.order.instrumentId = placement.req.instrumentId)
    (valid : OrderDirection.ofString placement.order.direction = some direction)
    (session : router.validateCancel now placement.order.instrumentId = .Allowed) :
    NothingLeft priceTime placement.orderId
      (exec (cancelOrder now ⟨placement.req.accountId, placement.orderId⟩) router).2 := by
  rcases routed.info with ⟨info, found, sameOrder, upToDate⟩
  rcases routed.book with ⟨book, hosted, _, member⟩
  rcases routed.ready with ⟨users, ready, sound⟩
  have cancellable : Cancellable now router ⟨placement.req.accountId, placement.orderId⟩
      ⟨placement.orderId, placement.order, id, direction⟩ info :=
    ⟨found, sameOrder ▸ owner, sameOrder ▸ session, upToDate.status stillOpen, upToDate.engineId,
      sameOrder ▸ valid, sameOrder.symm, rfl⟩
  let withdrawal : Withdrawal := ⟨placement.orderId, placement.order, id, direction⟩
  let request : OrderRequest := .cancelOrder id direction
  rw [← instrument] at hosted
  rcases exec_bookCancel withdrawal router with ⟨book', hosted', ran⟩ | ⟨nowhere, _⟩
  swap
  · exact absurd (hosted.symm.trans nowhere) (by simp)
  obtain rfl := Option.some.inj (hosted.symm.trans hosted')
  rcases priceTime.cancel_of_mem (member stillOpen) with ⟨ts, answer, gone⟩
  let booked := processOrder placement.orderId placement.order.instrumentId book request router
  rcases exec_processCancelResult now withdrawal ts sound
    (show booked.tradeGateway.Ready users from ready) with ⟨after, settled, _⟩
  have ended : (exec (cancelOrder now ⟨placement.req.accountId, placement.orderId⟩) router).2 =
      applyReport placement.orderId placement.order
        (placement.order.instrumentId, .Cancelled id ts) after booked := by
    rw [cancelOrder, exec_bind_ok (exec_checkCancel_ok cancellable), exec_bind_ok ran]
    simp only [withdrawal, answer, processCancelResults, List.foldlM_cons, List.foldlM_nil]
    rw [exec_bind_ok settled]
    rfl
  rw [ended]
  have engine : (applyReport placement.orderId placement.order
      (placement.order.instrumentId, .Cancelled id ts) after booked).matchingEngine =
      booked.matchingEngine := settleEvent_matchingEngine ..
  constructor
  · intro info' found'
    have orders := settleEvent_orders placement.orderId placement.order (.Cancelled id ts)
      (takeUp placement.order.instrumentId (.Cancelled id ts) booked)
    have known : (takeUp placement.order.instrumentId (.Cancelled id ts) booked).orders
        placement.orderId = some info := found
    rw [known] at orders
    have same := (congrFun orders placement.orderId).symm.trans found'
    rw [Function.update_self, Option.map_some, Option.some.injEq] at same
    rw [← same]
    rfl
  · intro key book' owns hosted'
    have owners : booked.owners = router.owners := by
      rw [Consistent.owners_processOrder, answer, show [Except.ok (Success.Cancelled id ts)] =
        [Success.Cancelled id ts].map .ok from rfl, Booking.owners_eq_nil, List.append_nil]
      simp [Success.isAccepted]
    rw [OrderRouter.owners, engine] at owns
    rw [show Journal.owners booked.matchingEngine.journal = booked.owners from rfl, owners] at owns
    obtain rfl := (routed.owner key).mp owns
    rw [getOrderbook, engine, ← instrument] at hosted'
    have isBook : booked.getOrderbook placement.order.instrumentId = some book' := hosted'
    rw [Consistent.getOrderbook_processOrder, Option.some.injEq] at isBook
    rw [← isBook]
    exact gone

/-- The follow-up of an IOC order removes its remainder exactly if that is above
the tolerance and the session allows the cancel. -/
theorem Routed.finish_iff (nonneg : 0 ≤ left)
    (owner : placement.order.userId = placement.req.accountId)
    (instrument : placement.order.instrumentId = placement.req.instrumentId)
    (valid : OrderDirection.ofString placement.order.direction = some direction)
    (ioc : placement.req.timeCond = .IOC)
    (terms : (router.termsOf placement.orderId).map (fun terms => terms.2.1) = some .IOC) :
    NothingLeft priceTime placement.orderId (finish now placement router).2 ↔
      left ≤ 0 ∨ 1 / 1000 < left ∧
        router.validateCancel now placement.order.instrumentId = .Allowed := by
  rcases routed.info with ⟨info, found, sameOrder, upToDate⟩
  simp only [finish, ioc, if_true, handleIocRemaining, exec_bind, exec_read]
  rcases nonneg.eq_or_lt with closed | stillOpen
  · have none : router.iocRemaining placement.orderId = none := by
      refine iocRemaining_of_final fun other found' => ?_
      obtain rfl := Option.some.inj (found.symm.trans found')
      exact upToDate.final closed.symm
    rw [none]
    refine iff_of_true ⟨fun other found' => ?_, fun key book owns hosted => ?_⟩ (.inl closed.ge)
    · obtain rfl := Option.some.inj (found.symm.trans found')
      exact upToDate.final closed.symm
    · obtain rfl := (routed.owner key).mp owns
      rcases routed.book with ⟨book', hosted', volumes, _⟩
      obtain rfl := Option.some.inj (hosted.symm.trans hosted')
      exact volumes.trans closed.symm
  have notFinal : info.status.isFinal = false := by
    rcases upToDate.status stillOpen with status | status <;> rw [status] <;> rfl
  have isIoc : info.timeCondition = .IOC := by
    rw [termsOf, found] at terms
    exact Option.some.inj terms
  have remaining : router.iocRemaining placement.orderId =
      if left > 1 / 1000 then some left else none := by
    simp only [iocRemaining, found, isIoc, notFinal, upToDate.remaining stillOpen]
    simp
  rw [remaining]
  simp only [not_le.mpr stillOpen, false_or]
  split_ifs with enough
  · simp only [exec_attempt]
    refine ⟨fun nothing => ⟨enough, ?_⟩, fun removed =>
      routed.cancelled stillOpen owner instrument valid removed.2⟩
    -- a cancel that is refused changes nothing
    rcases exec_checkCancel now ⟨placement.req.accountId, placement.orderId⟩ router with
      ⟨withdrawal, other, cancellable, _⟩ | ⟨_, error, ran⟩
    · obtain rfl := Option.some.inj (found.symm.trans cancellable.found)
      exact sameOrder ▸ cancellable.session
    · rw [cancelOrder, exec_bind_error ran] at nothing
      exact absurd nothing (routed.not_nothingLeft stillOpen)
  · exact iff_of_false (routed.not_nothingLeft stillOpen) fun removed => enough removed.1

end

end

/-! ## IOC orders -/

/-- The book refuses the order, or matches all of it, or the remainder is above
the tolerance and the session allows to cancel it. -/
def Removable (now : Now) (router : OrderRouter Q) (placement : Placement) : Prop :=
  RefusedByBook now router placement ∨
    ∀ book, router.getOrderbook placement.req.instrumentId = some book →
      unmatched book placement.order ≤ 0 ∨ 1 / 1000 < unmatched book placement.order ∧
        router.validateCancel now placement.order.instrumentId = .Allowed

theorem timeCond_of_pricedRequest (price : router.pricedRequest req = some priced) :
    priced.timeCond = req.timeCond := by
  simp only [pricedRequest] at price
  split_ifs at price <;> obtain rfl := Option.some.inj price <;> rfl

theorem nothingLeft_of_unowned (priceTime : PriceTimeContract Q) (unowned : Unowned router orderId)
    (final : ∀ info, router.orders orderId = some info → info.status.isFinal = true) :
    NothingLeft priceTime orderId router :=
  ⟨final, fun key _ owns => absurd owns (unowned key)⟩

/-- A routed IOC order leaves nothing behind exactly if what the book does not
match can be removed. -/
theorem route_nothingLeft_iff (priceTime : PriceTimeContract Q) (orders : OrderContract Q)
    (ok : PoolOk priceTime.bookContract start users applied
      ⟨router, before ++ [.booking placement]⟩)
    (apart : Journal.NoSharedIds (route now placement router).2.matchingEngine.journal)
    (owner : placement.order.userId = placement.req.accountId) (ioc : placement.req.timeCond = .IOC)
    (terms : (router.termsOf placement.orderId).map (fun terms => terms.2.1) = some .IOC) :
    NothingLeft priceTime placement.orderId (route now placement router).2 ↔
      Removable now router placement := by
  rcases ok.tasks _ (List.mem_append_right _ (List.mem_singleton_self _)) with
    ⟨instrument, unowned, _⟩
  by_cases refused : RefusedByBook now router placement
  · refine iff_of_true (nothingLeft_of_unowned priceTime ?_ ?_) (.inl refused)
    · intro key
      rw [(route_refused refused).2.1]
      exact unowned key
    · exact (route_refused refused).2.2
  · rcases exec_routeToMatchingEngine priceTime orders ok apart refused with
      ⟨book, direction, id, routed, hosted, valid, ran, machine, sameTerms, isRouted⟩
    have finished : (route now placement router).2 = (finish now placement routed).2 := by
      simp only [route, ran]
    have session : routed.validateCancel now placement.order.instrumentId =
        router.validateCancel now placement.order.instrumentId := by
      simp only [validateCancel, machine]
    rw [finished, isRouted.finish_iff (le_max_left _ _) owner instrument valid ioc (by rwa [sameTerms]),
      session]
    simp only [max_le_iff, le_refl, true_and, lt_max_iff, Removable, refused, false_or]
    constructor
    · intro removed other hosted'
      obtain rfl := Option.some.inj (hosted.symm.trans hosted')
      rcases removed with none | ⟨never | enough, allowed⟩
      · exact .inl none
      · norm_num at never
      · exact .inr ⟨enough, allowed⟩
    · intro removable
      rcases removable book hosted with none | ⟨enough, allowed⟩
      · exact .inl none
      · exact .inr ⟨.inr enough, allowed⟩

/-- An IOC order of `b`. -/
def iocOrder (instrumentId : String) (volume price : ℚ) : SubmitOrderRequest :=
  { ReferenceExchange.openOrder "b" instrumentId "BUY" volume price with
    timeCondition := some .IOC }

/-- `a` submits an order that is smaller. -/
def smallSell : List (Turn Call Now) :=
  .call (.submit (ReferenceExchange.openOrder "a" "X" "SELL" 3 100)) :: ReferenceExchange.steps 0 8

def smallSellResting : OrderRouter referenceQars :=
  ((service referenceQars).run smallSell ⟨ReferenceExchange.twoTraders, []⟩).shared

def auctionClock : Now :=
  { ReferenceExchange.clock with
    dateTime := "2023-11-14 09:26:00"
    timeOfDay := 33960 }

def openingAuction : OrderRouter referenceQars :=
  ReferenceExchange.router [ReferenceExchange.account "b" 1000000] ["CFFEX.IF2312"] (some .new)

end QAExchange.OrderRouter
