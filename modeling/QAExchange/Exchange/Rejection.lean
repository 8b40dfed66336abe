import QAExchange.Exchange.FillDelivery

/-! # What a rejected order leaves behind

An order can be turned down before its funds are frozen, by `send_order`, or by
the book. Before the freeze nothing is left behind. The book's refusals come
after it, and nothing takes the freeze and the active order back.
-/

namespace QAExchange.OrderRouter

open Foundation Action ReferenceExchange

variable {Q : Qars}

/-- The id is not in use: the risk checker does not list it, and no book took an
order under it. -/
structure IdUnused (router : OrderRouter Q) (orderId : String) : Prop where
  inactive : ∀ accountId, ¬router.riskChecker.IsActive accountId orderId
  unowned : Unowned router orderId

theorem Consistent.idUnused {contract : BookContract Q} {users : Set String}
    {applied : List Applied} {router : OrderRouter Q}
    (consistent : Consistent contract users applied router) (now : Now) :
    IdUnused router (router.nextOrderId now) where
  inactive := by
    rintro accountId ⟨info, member, same⟩
    exact (consistent.active accountId info member).ne now same
  unowned key owned := by
    rcases consistent.known _ key owned with ⟨info, found, _⟩
    exact (consistent.below _ info found).ne now rfl

/-- Nothing of a rejected order is left: the account has its money and its frozen
funds back, and the order is not listed as active. -/
structure Released (accountId orderId : String) (before after : OrderRouter Q) : Prop where
  account : (after.accountMgr.accounts.lookup accountId).map
      (fun account => (account.money, account.frozen)) =
    (before.accountMgr.accounts.lookup accountId).map
      fun account => (account.money, account.frozen)
  inactive : ¬after.riskChecker.IsActive accountId orderId

/-- There is no book for the order, or it is spelled with no valid direction, or
the book's answer is a failure. -/
def RefusedByBook (now : Now) (router : OrderRouter Q) (placement : Placement) : Prop :=
  ∀ book direction, router.getOrderbook placement.req.instrumentId = some book →
    OrderDirection.ofString placement.order.direction = some direction →
    ∃ failed, (Q.processOrder book (limitRequest (Q := Q) now placement.req.instrumentId direction
      placement.order.limitPrice placement.order.volumeOrign)).1 = [.error failed]

variable {router : OrderRouter Q} {now : Now} {placement : Placement}

theorem iocRemaining_of_final
    (final : ∀ info, router.orders orderId = some info → info.status.isFinal = true) :
    router.iocRemaining orderId = none := by
  unfold iocRemaining
  cases found : router.orders orderId with
  | none => rfl
  | some info =>
    simp only [final info found, if_true]
    split_ifs <;> rfl

theorem final_of_modifyRoute (final : ∀ info, (change info).status.isFinal = true)
    (router : OrderRouter Q) :
    ∀ info, (modifyRoute orderId change router).orders orderId = some info →
      info.status.isFinal = true := by
  intro info found
  simp only [modifyRoute, Function.update_self, Option.map_eq_some_iff] at found
  rcases found with ⟨before, _, rfl⟩
  exact final before

theorem route_refused (refused : RefusedByBook now router placement) :
    (route now placement router).2.riskChecker = router.riskChecker ∧
      (route now placement router).2.owners = router.owners ∧
      ∀ info, (route now placement router).2.orders placement.orderId = some info →
        info.status.isFinal = true := by
  rcases exec_bookOrder now placement router with
    ⟨book, direction, hosted, valid, ran⟩ | ⟨_, error, ran⟩
  · rcases refused book direction hosted valid with ⟨failed, answer⟩
    generalize isRequest : limitRequest (Q := Q) now placement.req.instrumentId direction
      placement.order.limitPrice placement.order.volumeOrign = request at answer ran
    rw [answer] at ran
    let booked := processOrder placement.orderId placement.req.instrumentId book request router
    have routed : ∃ after, exec (routeToMatchingEngine now placement) router =
        (.ok (), modifyRoute placement.orderId (markRefused now) (setGateway after booked)) :=
      ⟨_, by rw [routeToMatchingEngine, exec_bind_ok ran]; rfl⟩
    rcases routed with ⟨after, routed⟩
    have final : ∀ info, (modifyRoute placement.orderId (markRefused now)
        (setGateway after booked)).orders placement.orderId = some info →
          info.status.isFinal = true := final_of_modifyRoute (fun _ => rfl) _
    have finished : (route now placement router).2 =
        modifyRoute placement.orderId (markRefused now) (setGateway after booked) := by
      simp only [route, routed, finish, handleIocRemaining, exec_bind, exec_read,
        iocRemaining_of_final final, exec_pure, ite_self]
    have noOwner : (⟨placement.orderId, placement.req.instrumentId,
        (Q.processOrder book request).1⟩ : Booking).owners = [] := by
      rw [answer]
      rfl
    rw [finished]
    refine ⟨rfl, ?_, final⟩
    have owners := Consistent.owners_processOrder placement.orderId placement.req.instrumentId book
      request router
    rw [noOwner, List.append_nil] at owners
    exact owners
  · simp only [route, routeToMatchingEngine, exec_bind, ran]
    exact ⟨rfl, rfl, final_of_modifyRoute (fun _ => rfl) router⟩

theorem exec_bookOrder_accepted (contract : BookContract Q)
    (accepted : ¬RefusedByBook now router placement) :
    ∃ book direction id orderType ts, ∃ events : List Success,
      router.getOrderbook placement.req.instrumentId = some book ∧
      OrderDirection.ofString placement.order.direction = some direction ∧
      let request := limitRequest (Q := Q) now placement.req.instrumentId direction
        placement.order.limitPrice placement.order.volumeOrign
      exec (bookOrder now placement) router = (.ok (Q.processOrder book request).1,
        processOrder placement.orderId placement.req.instrumentId book request router) ∧
      (Q.processOrder book request).1 = .ok (.Accepted id orderType ts) :: events.map .ok ∧
      ¬(contract.ledger book).issued id ∧ 0 < placement.order.volumeOrign ∧
      ∀ success ∈ events, success.fill?.isSome = true := by
  simp only [RefusedByBook, not_forall] at accepted
  rcases accepted with ⟨book, direction, hosted, valid, accepted⟩
  rcases exec_bookOrder now placement router with
    ⟨book', direction', hosted', valid', ran⟩ | ⟨nowhere, _⟩
  swap
  · exact absurd valid (nowhere book direction hosted)
  obtain rfl := Option.some.inj (hosted.symm.trans hosted')
  obtain rfl := Option.some.inj (valid.symm.trans valid')
  rcases contract.newLimitOrder book (.fromCode Q placement.req.instrumentId) direction
    placement.order.limitPrice placement.order.volumeOrign now.nanos with
    ⟨failed, answer, _⟩ | ⟨id, orderType, ts, events, answer, fresh, positive, _, matched⟩
  · exact absurd ⟨failed, answer⟩ accepted
  · exact ⟨book, direction, id, orderType, ts, events, hosted, valid, ran, answer, fresh, positive,
      matched.isSome_fill⟩

theorem route_owned (contract : BookContract Q) (accepted : ¬RefusedByBook now router placement) :
    ∃ key, (placement.orderId, key) ∈ (route now placement router).2.owners := by
  rcases exec_bookOrder_accepted contract accepted with
    ⟨book, direction, id, orderType, ts, events, _, _, ran, answer, _, _, fills⟩
  generalize limitRequest (Q := Q) now placement.req.instrumentId direction
    placement.order.limitPrice placement.order.volumeOrign = request at ran answer
  let booked := processOrder placement.orderId placement.req.instrumentId book request router
  have owned : (placement.orderId, placement.req.instrumentId, id) ∈ booked.owners := by
    rw [Consistent.owners_accepted answer fills router]
    simp
  -- what follows the booking only adds to the journal
  have grows : ∃ more, (route now placement router).2.matchingEngine.journal =
      booked.matchingEngine.journal ++ more := by
    have frame := processMatchingResults_keeps_frame now placement.orderId placement.order
      (Q.processOrder book request).1 booked
    simp only [route, routeToMatchingEngine]
    rw [exec_bind_ok ran]
    rcases handled : exec (processMatchingResults now placement.orderId placement.order
      (Q.processOrder book request).1) booked with ⟨_ | _, after⟩ <;> rw [handled] at frame
    · exact ⟨[], by rw [List.append_nil]; exact congrArg (fun kept => kept.1.journal) frame⟩
    · rcases journal_solo (solo_closing now placement after) with ⟨more, grown⟩
      exact ⟨more, grown.trans (congrArg (fun kept => kept.1.journal ++ more) frame)⟩
  rcases grows with ⟨more, grown⟩
  refine ⟨(placement.req.instrumentId, id), ?_⟩
  rw [OrderRouter.owners, grown, Journal.owners_append]
  exact List.mem_append_left _ owned

theorem accountId_of_pricedRequest (price : router.pricedRequest req = some priced) :
    priced.accountId = req.accountId := by
  simp only [pricedRequest] at price
  split_ifs at price <;> obtain rfl := Option.some.inj price <;> rfl

theorem released_of_untouched {after : OrderRouter Q} (unused : IdUnused router orderId)
    (account : (after.accountMgr.accounts.lookup accountId).map
      (fun account => (account.money, account.frozen)) =
      (router.accountMgr.accounts.lookup accountId).map
        fun account => (account.money, account.frozen))
    (risk : after.riskChecker = router.riskChecker) : Released accountId orderId router after where
  account := account
  inactive := by
    rw [risk]
    exact unused.inactive accountId

/-- An order that ends in no book is released exactly if it got no further than
`send_order`. -/
theorem released_iff (contract : BookContract Q) (accounts : AccountContract Q)
    (unused : IdUnused router (router.nextOrderId now)) (req : SubmitOrderRequest) :
    (Unowned (submitOrder now req router).2 (router.nextOrderId now) →
      Released req.accountId (router.nextOrderId now) router (submitOrder now req router).2) ↔
    ∀ priced account qaOrder, Admissible now router req priced false →
      Freezes now router ⟨router.nextOrderId now, priced, false⟩ account qaOrder →
      ¬RefusedByBook now router (placementOf Q now ⟨router.nextOrderId now, priced, false⟩) := by
  simp only [submitOrder, submitOrderWithOptions]
  rcases exec_admitTicket now req false router with ⟨priced, admissible, ran⟩ | ⟨refused, _, _, ran⟩
  swap
  · simp only [ran]
    refine iff_of_true (fun _ => released_of_untouched unused rfl rfl) ?_
    exact fun priced _ _ admissible => absurd admissible (refused priced)
  have sameAccount := accountId_of_pricedRequest admissible.price
  simp only [ran]
  rcases exec_place now ⟨router.nextOrderId now, priced, false⟩ router.nextOrderSeq with
    ⟨account, qaOrder, freezes, ran⟩ | ⟨noFreeze, message, code, after, ran, rest⟩
  swap
  · simp only [ran]
    refine iff_of_true (fun _ => ?_) fun other account qaOrder admissible' freezes => ?_
    · rcases rest with rfl | ⟨account, error, found, failed, rfl⟩
      · exact released_of_untouched unused rfl rfl
      · refine released_of_untouched unused ?_ rfl
        rcases accounts.sendOrder_error _ _ _ _ _ _ _ _ _ failed with ⟨money, frozen⟩
        rw [← sameAccount, show router.accountMgr.accounts.lookup priced.accountId = some account
          from found]
        simp only [accountMgr, putAccount, AccountManager.putAccount, AList.lookup_insert,
          Option.map_some, Option.some.injEq, Prod.mk.injEq]
        exact ⟨money, frozen⟩
    · obtain rfl := Option.some.inj (admissible.price.symm.trans admissible'.price)
      exact absurd ⟨freezes.found, freezes.money, freezes.sent⟩ (noFreeze account qaOrder)
  simp only [ran]
  let placement := placementOf Q now ⟨router.nextOrderId now, priced, false⟩
  let frozen := router.nextOrderSeq.placed now ⟨router.nextOrderId now, priced, false⟩ account
    qaOrder
  have freezes' : Freezes now router ⟨router.nextOrderId now, priced, false⟩ account qaOrder :=
    ⟨freezes.found, freezes.money, freezes.sent⟩
  by_cases refused : RefusedByBook now frozen placement
  · rcases route_refused refused with ⟨risk, owners, _⟩
    refine iff_of_false (fun released => ?_) fun accepted => ?_
    · refine (released ?_).inactive ?_
      · intro key
        rw [show (route now _ _).2.owners = frozen.owners from owners]
        exact unused.unowned key
      · rw [show (route now _ _).2.riskChecker = frozen.riskChecker from risk]
        refine ⟨⟨router.nextOrderId now, priced.instrumentId, priced.direction, priced.price,
          priced.orderType⟩, ?_, rfl⟩
        simp [frozen, placed, indexOrder, placementOf, PreTradeCheck.registerActiveOrder,
          sameAccount]
    · exact accepted priced account qaOrder admissible freezes' refused
  · refine iff_of_true (fun unowned => ?_) fun other account qaOrder admissible' _ => ?_
    · rcases route_owned contract refused with ⟨key, owned⟩
      exact absurd owned (unowned key)
    · obtain rfl := Option.some.inj (admissible.price.symm.trans admissible'.price)
      exact refused

/-- An order that costs more than the account has is released. -/
theorem expensive_order_released :
    Released "b" (twoTraders.nextOrderId clock)
      twoTraders (submitOrder clock (openOrder "b" "X" "BUY" 10000 200)
        twoTraders).2 := by
  have fresh : twoTraders.Fresh := router_fresh _ _ _
  have unused : IdUnused twoTraders _ :=
    (fresh.poolOk ReferenceQars.priceTime.bookContract).consistent.idUnused clock
  let req := openOrder "b" "X" "BUY" 10000 200
  have price : twoTraders.pricedRequest req = some req := by decide +kernel
  have tooMuch : twoTraders.riskChecker.check
      twoTraders.accountMgr (orderCheckRequest req) ≠ .ok .Pass := by
    decide +kernel
  have noOwner : (submitOrder clock req twoTraders).2.owners =
      [] := by decide +kernel
  refine (released_iff ReferenceQars.priceTime.bookContract ReferenceQars.accountContract unused
    req).mpr (fun priced _ _ admissible => ?_) fun key owned => ?_
  · obtain rfl := Option.some.inj (admissible.price.symm.trans price)
    exact absurd (admissible.passes.risk rfl) tooMuch
  · rw [noOwner] at owned
    cases owned

/-- An order for an instrument without a book ends in no book. Its funds stay
frozen and it stays listed. -/
theorem frozen_without_book :
    let before := twoTraders
    let answered := submitOrder clock
      (openOrder "b" "Y" "BUY" 5 100) before
    answered.1.status = some "rejected" ∧ answered.2.owners = [] ∧
      (before.accountMgr.accounts.lookup "b").map (fun account => account.money) = some 1000000 ∧
      (answered.2.accountMgr.accounts.lookup "b").map (fun account => account.money) =
        some 999500 ∧
      (answered.2.riskChecker.activeOrders "b").map ActiveOrderInfo.orderId =
        ["O17000000000000000000001"] := by
  decide +kernel

end QAExchange.OrderRouter
