import QAExchange.Exchange.OrderRouter

/-! # Admission of an order

The checks of `submit_order` before the funds are frozen, as conditions on the
state, and what freezing and indexing do.
-/

namespace QAExchange.OrderRouter

open Foundation Action

variable {Q : Qars}

/-- The request with the price it is checked at; none without a market price. -/
def pricedRequest (router : OrderRouter Q) (req : SubmitOrderRequest) : Option SubmitOrderRequest :=
  if req.orderType = "MARKET" ∧ req.price ≤ 0 then
    let price := router.getMarketPriceForOrder req.instrumentId req.direction
    if price ≤ 0 then none else some { req with price }
  else some req

structure Passes (now : Now) (router : OrderRouter Q) (priced : SubmitOrderRequest)
    (force : Bool) : Prop where
  session : ∀ machine, router.tradingStateMachine = some machine →
    machine.validateOrder now priced.instrumentId = .Allowed
  risk : force = false →
    router.riskChecker.check router.accountMgr (orderCheckRequest priced) = .ok .Pass

def FokPasses (router : OrderRouter Q) (priced : SubmitOrderRequest) (force : Bool) : Prop :=
  priced.isFok = true → force = false →
    router.checkFokFulfillable priced.instrumentId priced.direction priced.volume priced.price =
      true

/-- The router after it has given out an order id. -/
def nextOrderSeq (router : OrderRouter Q) : OrderRouter Q :=
  { router with orderSeq := router.orderSeq + 1 }

def nextOrderId (now : Now) (router : OrderRouter Q) : String :=
  orderIdOf now.millis router.orderSeq

theorem exec_convertMarketPrice (orderId : String) (req : SubmitOrderRequest)
    (router : OrderRouter Q) :
    exec (convertMarketPrice orderId req) router =
      (match router.pricedRequest req with
        | some priced => .ok priced
        | none => .error (.rejected orderId [.text "No market price available for instrument ",
            .text req.instrumentId] 4002), router) := by
  unfold convertMarketPrice pricedRequest
  split_ifs
  · simp only [exec_bind, exec_read]
    split_ifs <;> rfl
  · rfl

variable {req : SubmitOrderRequest}

theorem exec_checkTradingState_ok (router : OrderRouter Q) (orderId : String)
    (session : ∀ machine, router.tradingStateMachine = some machine →
      machine.validateOrder now req.instrumentId = .Allowed) :
    exec (checkTradingState now orderId req) router = (.ok (), router) := by
  simp only [checkTradingState, exec_bind, exec_read]
  cases found : router.tradingStateMachine with
  | none => rfl
  | some machine => simp only [session machine found, exec_pure]

theorem exec_checkTradingState_error (router : OrderRouter Q) (orderId : String)
    (closed : ¬∀ machine, router.tradingStateMachine = some machine →
      machine.validateOrder now req.instrumentId = .Allowed) :
    ∃ message code, exec (checkTradingState now orderId req) router =
      (.error (.rejected orderId message code), router) := by
  simp only [checkTradingState, exec_bind, exec_read]
  cases found : router.tradingStateMachine with
  | none => exact absurd (by simp [found]) closed
  | some machine =>
    cases validated : machine.validateOrder now req.instrumentId with
    | Allowed =>
      refine absurd (fun other same => ?_) closed
      rw [found, Option.some.injEq] at same
      rw [← same, validated]
    | Rejected reason => exact ⟨_, _, by simp only [validated, exec_fail]; rfl⟩

theorem exec_checkRisk_ok (router : OrderRouter Q) (orderId : String) (risk : force = false →
      router.riskChecker.check router.accountMgr (orderCheckRequest req) = .ok .Pass) :
    exec (checkRisk orderId req force) router = (.ok (), router) := by
  cases force with
  | true => rfl
  | false =>
    simp only [checkRisk, Bool.false_eq_true, if_false, exec_bind, exec_read, risk rfl, exec_pure]

theorem exec_checkRisk_error (router : OrderRouter Q) (orderId : String) (risk : ¬(force = false →
      router.riskChecker.check router.accountMgr (orderCheckRequest req) = .ok .Pass)) :
    ∃ message code, exec (checkRisk orderId req force) router =
      (.error (.rejected orderId message code), router) := by
  cases force with
  | true => exact absurd (by simp) risk
  | false =>
    simp only [checkRisk, Bool.false_eq_true, if_false, exec_bind, exec_read]
    rcases checked : router.riskChecker.check router.accountMgr (orderCheckRequest req) with
      error | _ | ⟨reason, code⟩
    · exact ⟨_, _, rfl⟩
    · exact absurd (fun _ => checked) risk
    · exact ⟨_, _, rfl⟩

theorem exec_generateOrderId (now : Now) (router : OrderRouter Q) :
    exec (generateOrderId now) router = (.ok (router.nextOrderId now), router.nextOrderSeq) := rfl

/-- `screen` uses up an order id and lets exactly the requests through that
have a price and pass the checks. -/
theorem exec_screen (now : Now) (req : SubmitOrderRequest) (force : Bool) (router : OrderRouter Q) :
    (∃ priced, router.pricedRequest req = some priced ∧ Passes now router priced force ∧
      exec (screen now req force) router =
        (.ok ⟨router.nextOrderId now, priced, force⟩, router.nextOrderSeq)) ∨
    ((∀ priced, router.pricedRequest req = some priced → ¬Passes now router priced force) ∧
      ∃ message code, exec (screen now req force) router =
        (.error (.rejected (router.nextOrderId now) message code), router.nextOrderSeq)) := by
  rw [screen, exec_bind_ok (exec_generateOrderId now router)]
  have convert := exec_convertMarketPrice (router.nextOrderId now) req router.nextOrderSeq
  have samePrice : router.nextOrderSeq.pricedRequest req = router.pricedRequest req := rfl
  rw [samePrice] at convert
  cases price : router.pricedRequest req with
  | none =>
    simp only [price] at convert
    rw [exec_bind_error convert]
    exact .inr ⟨by simp, _, _, rfl⟩
  | some priced =>
    simp only [price] at convert
    rw [exec_bind_ok convert]
    by_cases session : ∀ machine, router.tradingStateMachine = some machine →
        machine.validateOrder now priced.instrumentId = .Allowed
    · rw [exec_bind_ok (exec_checkTradingState_ok router.nextOrderSeq _ session)]
      by_cases risk : force = false →
          router.riskChecker.check router.accountMgr (orderCheckRequest priced) = .ok .Pass
      · rw [exec_bind_ok (exec_checkRisk_ok router.nextOrderSeq _ risk)]
        exact .inl ⟨priced, rfl, ⟨session, risk⟩, rfl⟩
      · rcases exec_checkRisk_error router.nextOrderSeq
          (router.nextOrderId now) risk with ⟨message, code, refused⟩
        refine .inr ⟨fun other same passes => risk ?_, message, code, ?_⟩
        · rw [Option.some.inj same]
          exact passes.risk
        · rw [exec_bind_error refused]
    · rcases exec_checkTradingState_error router.nextOrderSeq
        (router.nextOrderId now) session with ⟨message, code, refused⟩
      refine .inr ⟨fun other same passes => session ?_, message, code, ?_⟩
      · rw [Option.some.inj same]
        exact passes.session
      · rw [exec_bind_error refused]

theorem exec_checkFok_ok (router : OrderRouter Q) (ticket : Ticket)
    (passes : FokPasses router ticket.req ticket.force) :
    exec (checkFok ticket) router = (.ok (), router) := by
  simp only [checkFok]
  split_ifs with fok
  · rw [Bool.and_eq_true, Bool.not_eq_true'] at fok
    simp only [exec_bind, exec_read, passes fok.1 fok.2, if_true, exec_pure]
  · rfl

theorem exec_checkFok_error (router : OrderRouter Q) (ticket : Ticket)
    (fails : ¬FokPasses router ticket.req ticket.force) :
    ∃ message code, exec (checkFok ticket) router =
      (.error (.rejected ticket.orderId message code), router) := by
  simp only [FokPasses, not_forall] at fails
  rcases fails with ⟨isFok, free, unfulfillable⟩
  simp only [checkFok, isFok, free, Bool.not_false, Bool.and_self, if_true, exec_bind, exec_read,
    unfulfillable, Bool.false_eq_true, if_false, exec_fail]
  exact ⟨_, _, rfl⟩

/-- The request passes every check before the account is taken. -/
structure Admissible (now : Now) (router : OrderRouter Q) (req priced : SubmitOrderRequest)
    (force : Bool) : Prop where
  price : router.pricedRequest req = some priced
  passes : Passes now router priced force
  fok : FokPasses router priced force

/-- `admitTicket` uses up an order id and lets exactly the admissible requests
through. -/
theorem exec_admitTicket (now : Now) (req : SubmitOrderRequest) (force : Bool)
    (router : OrderRouter Q) :
    (∃ priced, Admissible now router req priced force ∧ exec (admitTicket now req force) router =
      (.ok ⟨router.nextOrderId now, priced, force⟩, router.nextOrderSeq)) ∨
    ((∀ priced, ¬Admissible now router req priced force) ∧
      ∃ message code, exec (admitTicket now req force) router =
        (.error (.rejected (router.nextOrderId now) message code), router.nextOrderSeq)) := by
  rcases exec_screen now req force router with
    ⟨priced, price, passes, screened⟩ | ⟨fails, message, code, screened⟩
  · rw [admitTicket, exec_bind_ok screened]
    by_cases fok : FokPasses router priced force
    · have passed := exec_checkFok_ok router.nextOrderSeq
        ⟨router.nextOrderId now, priced, force⟩ fok
      rw [exec_bind_ok passed]
      exact .inl ⟨priced, ⟨price, passes, fok⟩, rfl⟩
    · rcases exec_checkFok_error router.nextOrderSeq
        ⟨router.nextOrderId now, priced, force⟩ fok with ⟨message, code, refused⟩
      rw [exec_bind_error refused]
      refine .inr ⟨fun other admissible => fok ?_, message, code, rfl⟩
      rw [Option.some.inj (price.symm.trans admissible.price)]
      exact admissible.fok
  · rw [admitTicket, exec_bind_error screened]
    exact .inr ⟨fun priced admissible => fails priced admissible.price admissible.passes,
      message, code, rfl⟩

/-- `send_order` as the router calls it. -/
def sent (now : Now) (ticket : Ticket) (account : Account Q) : Except Message QAOrder × Account Q :=
  Q.sendOrder account ticket.req.instrumentId ticket.req.volume now.dateTime
    (calculateTowards ticket.req.direction ticket.req.offset) ticket.req.price ""
    ticket.req.orderType

structure Freezes (now : Now) (router : OrderRouter Q) (ticket : Ticket) (account : Account Q)
    (qaOrder : QAOrder) : Prop where
  found : router.accountMgr.accounts.lookup ticket.req.accountId = some account
  money : ticket.force = false → PreTradeCheck.requiredFunds ticket.req.direction
    ticket.req.offset ticket.req.price ticket.req.volume ≤ account.money
  sent : (sent now ticket account).1 = .ok qaOrder

def placementOf (Q : Qars) (now : Now) (ticket : Ticket) : Placement :=
  ⟨ticket.orderId, ticket.req, newOrder Q now ticket⟩

/-- The router after an order was frozen and indexed. -/
def placed (now : Now) (ticket : Ticket) (account : Account Q) (qaOrder : QAOrder)
    (router : OrderRouter Q) : OrderRouter Q :=
  indexOrder now (placementOf Q now ticket) qaOrder.orderId
    (putAccount ticket.req.accountId (sent now ticket account).2 router)

theorem exec_checkMoney_ok {ticket : Ticket} {account : Account Q} (router : OrderRouter Q)
    (money : ticket.force = false → PreTradeCheck.requiredFunds ticket.req.direction
      ticket.req.offset ticket.req.price ticket.req.volume ≤ account.money) :
    exec (checkMoney ticket account) router = (.ok (), router) := by
  simp only [checkMoney]
  split_ifs with short
  · rw [Bool.and_eq_true, Bool.not_eq_true', decide_eq_true_eq] at short
    exact absurd (money short.1) (not_le.mpr short.2)
  · rfl

theorem exec_checkMoney_error {ticket : Ticket} {account : Account Q} (router : OrderRouter Q)
    (money : ¬(ticket.force = false → PreTradeCheck.requiredFunds ticket.req.direction
      ticket.req.offset ticket.req.price ticket.req.volume ≤ account.money)) :
    ∃ message code, exec (checkMoney ticket account) router =
      (.error (.rejected ticket.orderId message code), router) := by
  simp only [not_forall, not_le] at money
  rcases money with ⟨free, short⟩
  simp only [checkMoney, free, Bool.not_false, Bool.true_and, decide_eq_true short, if_true,
    exec_fail]
  exact ⟨_, _, rfl⟩

/-- `place` freezes and indexes exactly the orders that their account takes. A
failing `send_order` may leave its mark on the account. -/
theorem exec_place (now : Now) (ticket : Ticket) (router : OrderRouter Q) :
    (∃ account qaOrder, Freezes now router ticket account qaOrder ∧
      exec (place now ticket) router =
        (.ok (placementOf Q now ticket), router.placed now ticket account qaOrder)) ∨
    ((∀ account qaOrder, ¬Freezes now router ticket account qaOrder) ∧
      ∃ message code after, exec (place now ticket) router =
        (.error (.rejected ticket.orderId message code), after) ∧ (after = router ∨ ∃ account error,
          router.accountMgr.accounts.lookup ticket.req.accountId = some account ∧
          (sent now ticket account).1 = .error error ∧
          after = putAccount ticket.req.accountId (sent now ticket account).2 router)) := by
  unfold place
  simp only [exec_bind, exec_read]
  cases found : router.accountMgr.accounts.lookup ticket.req.accountId with
  | none => exact .inr ⟨fun _ _ freezes => by simp [freezes.found] at found, _, _, _, rfl, .inl rfl⟩
  | some account =>
    have only : ∀ other qaOrder, Freezes now router ticket other qaOrder → other = account :=
      fun other qaOrder freezes => Option.some.inj (freezes.found.symm.trans found)
    by_cases money : ticket.force = false → PreTradeCheck.requiredFunds ticket.req.direction
        ticket.req.offset ticket.req.price ticket.req.volume ≤ account.money
    · simp only [exec_checkMoney_ok router money, exec_bind]
      have sentEq : sent now ticket account = Q.sendOrder account ticket.req.instrumentId
        ticket.req.volume now.dateTime (calculateTowards ticket.req.direction ticket.req.offset)
        ticket.req.price "" ticket.req.orderType := rfl
      cases result : (sent now ticket account).1 with
      | ok qaOrder =>
        refine .inl ⟨account, qaOrder, ⟨found, money, result⟩, ?_⟩
        simp only [sendOrder, ← sentEq, exec_bind, exec_update, result, exec_pure]
        rfl
      | error error =>
        refine .inr ⟨fun other qaOrder freezes => ?_, .text "Insufficient funds/margin: " :: error,
          4001, _, ?_, .inr ⟨account, error, rfl, result, rfl⟩⟩
        · have := only other qaOrder freezes ▸ freezes.sent
          simp [result] at this
        · simp only [sendOrder, ← sentEq, exec_bind, exec_update, result, exec_fail]
    · rcases exec_checkMoney_error router money with ⟨message, code, refused⟩
      rw [exec_bind_error refused]
      exact .inr ⟨fun other qaOrder freezes => money (only other qaOrder freezes ▸ freezes.money),
        message, code, _, rfl, .inl rfl⟩

end QAExchange.OrderRouter
