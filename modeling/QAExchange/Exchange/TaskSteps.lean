import QAExchange.Exchange.RouterTasks
import QAExchange.Exchange.TradeTally

/-! # What one step of a task does

`TaskOk` says how far a task has come with its order. An allowed step of a task
in a consistent router has an `Outcome`: the router stays consistent, and the
orders and tasks of others are not disturbed.
-/

namespace QAExchange.OrderRouter

open Foundation Action

variable {Q : Qars}

/-- The order that only this task can change: no event of it was handled yet. -/
def Task.held : Task → Option String
  | .checkingFok ticket | .placing ticket => some ticket.orderId
  | .booking placement => some placement.orderId
  | .matching placement handled _ => if handled.accepted then none else some placement.orderId
  | .submitting .. | .closing _ | .cancelling _ | .withdrawing _ | .settling .. | .done => none

def Task.pending : Task → List Report
  | .matching placement _ results =>
    (⟨placement.orderId, placement.order.instrumentId, results⟩ : Booking).reports
  | .settling withdrawal results =>
    (⟨withdrawal.orderId, withdrawal.order.instrumentId, results⟩ : Booking).reports
  | .submitting .. | .checkingFok _ | .placing _ | .booking _ | .closing _ | .cancelling _
  | .withdrawing _ | .done => []

def Task.atBook : Task → Bool
  | .booking _ | .withdrawing _ => true
  | .submitting .. | .checkingFok _ | .placing _ | .matching .. | .closing _ | .cancelling _
  | .settling .. | .done => false

def Unowned (router : OrderRouter Q) (orderId : String) : Prop :=
  ∀ key, (orderId, key) ∉ router.owners

def Stored (router : OrderRouter Q) (orderId : String) (order : Order) : Prop :=
  ∃ info, router.orders orderId = some info ∧ info.order = order

inductive MatchingOk (applied : List Applied) (router : OrderRouter Q) (placement : Placement) :
    Handled → List OrderProcessingResult → Prop
  | refused (failed : Failed) : Unowned router placement.orderId →
      MatchingOk applied router placement Handled.none [.error failed]
  | answered : Unowned router placement.orderId →
      MatchingOk applied router placement Handled.none []
  | accepted {id orderType ts} {events : List Success} :
      (placement.orderId, placement.order.instrumentId, id) ∈ router.owners →
      appliedTo placement.orderId applied = [] →
      (∀ success ∈ events, success.fill?.isSome = true) →
      (∀ success, events.head? = some success → success.subject = id) →
      MatchingOk applied router placement Handled.none
        ((Success.Accepted id orderType ts :: events).map .ok)
  | filling {trade id} {events : List Success} :
      (placement.orderId, placement.order.instrumentId, id) ∈ router.owners →
      appliedTo placement.orderId applied ≠ [] →
      (∀ success ∈ events, success.fill?.isSome = true) →
      (trade = false → ∀ success, events.head? = some success → success.subject = id) →
      MatchingOk applied router placement ⟨true, trade⟩ (events.map .ok)

structure Withdrawable (applied : List Applied) (router : OrderRouter Q)
    (withdrawal : Withdrawal) : Prop where
  stored : Stored router withdrawal.orderId withdrawal.order
  owned : (withdrawal.orderId, withdrawal.order.instrumentId, withdrawal.engineId) ∈ router.owners
  heard : appliedTo withdrawal.orderId applied ≠ []

def TaskOk (applied : List Applied) (router : OrderRouter Q) : Task → Prop
  | .checkingFok ticket | .placing ticket =>
    router.orders ticket.orderId = none ∧ Below router.orderSeq ticket.orderId
  | .booking placement =>
    placement.order.instrumentId = placement.req.instrumentId ∧
    Unowned router placement.orderId ∧
    ∃ info, router.orders placement.orderId = some info ∧ info.order = placement.order ∧
      info.status = .PendingRoute
  | .matching placement handled results =>
    Stored router placement.orderId placement.order ∧
      MatchingOk applied router placement handled results
  | .withdrawing withdrawal => Withdrawable applied router withdrawal
  | .settling withdrawal results =>
    Withdrawable applied router withdrawal ∧ (results = [] ∨ (∃ failed, results = [.error failed]) ∨
      ∃ ts, results = [.ok (.Cancelled withdrawal.engineId ts)])
  | .submitting .. | .closing _ | .cancelling _ | .done => True

/-- The router went on: books only grow, orders are kept, and what was heard of
stays heard of. -/
structure Extends (applied : List Applied) (router : OrderRouter Q) (applied' : List Applied)
    (router' : OrderRouter Q) : Prop where
  journal : ∃ more, router'.matchingEngine.journal = router.matchingEngine.journal ++ more
  stored : ∀ orderId order, Stored router orderId order → Stored router' orderId order
  heard : ∀ orderId, appliedTo orderId applied ≠ [] → appliedTo orderId applied' ≠ []
  orderSeq : router.orderSeq ≤ router'.orderSeq
  config : router'.riskChecker.config = router.riskChecker.config

structure Untouched (orderId : String) (applied : List Applied) (router : OrderRouter Q)
    (applied' : List Applied) (router' : OrderRouter Q) : Prop where
  orders : router'.orders orderId = router.orders orderId
  unowned : Unowned router orderId → Unowned router' orderId
  unheard : appliedTo orderId applied' = []

variable {applied applied' : List Applied} {router router' : OrderRouter Q} {task : Task}

theorem Extends.owners (more : Extends applied router applied' router')
    (owns : entry ∈ router.owners) : entry ∈ router'.owners := by
  rcases more.journal with ⟨later, same⟩
  rw [OrderRouter.owners, same, Journal.owners_append]
  exact List.mem_append_left _ owns

theorem TaskOk.of_extends (ok : TaskOk applied router task)
    (more : Extends applied router applied' router')
    (untouched : ∀ orderId, task.held = some orderId →
      Untouched orderId applied router applied' router') : TaskOk applied' router' task := by
  have withdrawable : ∀ withdrawal, Withdrawable applied router withdrawal →
      Withdrawable applied' router' withdrawal := fun withdrawal before =>
    ⟨more.stored _ _ before.stored, more.owners before.owned, more.heard _ before.heard⟩
  cases task with
  | submitting | closing | cancelling | done => trivial
  | checkingFok ticket | placing ticket =>
    have same := untouched ticket.orderId rfl
    exact ⟨same.orders.trans ok.1, ok.2.mono more.orderSeq⟩
  | booking placement =>
    have same := untouched placement.orderId rfl
    rcases ok with ⟨instrument, unowned, info, found, rest⟩
    exact ⟨instrument, same.unowned unowned, info, same.orders.trans found, rest⟩
  | matching placement handled results =>
    rcases ok with ⟨stored, ok⟩
    refine ⟨more.stored _ _ stored, ?_⟩
    cases ok with
    | refused failed unowned =>
      exact .refused failed ((untouched placement.orderId rfl).unowned unowned)
    | answered unowned => exact .answered ((untouched placement.orderId rfl).unowned unowned)
    | accepted owned _ fills own =>
      exact .accepted (more.owners owned) (untouched placement.orderId rfl).unheard fills own
    | filling owned heard fills own =>
      exact .filling (more.owners owned) (more.heard _ heard) fills own
  | withdrawing withdrawal => exact withdrawable withdrawal ok
  | settling withdrawal results => exact ⟨withdrawable withdrawal ok.1, ok.2⟩

variable {contract : BookContract Q} {users : Set String}

theorem TaskOk.held (ok : TaskOk applied router task)
    (consistent : Consistent contract users applied router) (holds : task.held = some orderId) :
    appliedTo orderId applied = [] ∧ Below router.orderSeq orderId := by
  have unknown : router.orders orderId = none → Unowned router orderId := by
    intro missing key owns
    rcases consistent.known orderId key owns with ⟨info, found, _⟩
    rw [missing] at found
    cases found
  cases task with
  | submitting | closing | cancelling | withdrawing | settling | done => cases holds
  | checkingFok ticket | placing ticket =>
    obtain rfl := Option.some.inj holds
    exact ⟨consistent.unowned _ (unknown ok.1), ok.2⟩
  | booking placement =>
    obtain rfl := Option.some.inj holds
    rcases ok with ⟨_, unowned, info, found, _⟩
    exact ⟨consistent.unowned _ unowned, consistent.below _ info found⟩
  | matching placement handled results =>
    rcases ok with ⟨⟨info, found, _⟩, ok⟩
    cases ok with
    | refused failed unowned =>
      obtain rfl := Option.some.inj holds
      exact ⟨consistent.unowned _ unowned, consistent.below _ info found⟩
    | answered unowned =>
      obtain rfl := Option.some.inj holds
      exact ⟨consistent.unowned _ unowned, consistent.below _ info found⟩
    | accepted _ unheard =>
      obtain rfl := Option.some.inj holds
      exact ⟨unheard, consistent.below _ info found⟩
    | filling => cases holds

structure Outcome (contract : BookContract Q) (users : Set String) (applied : List Applied)
    (router : OrderRouter Q) (task : Task) (users' : Set String) (applied' : List Applied)
    (router' : OrderRouter Q) (task' : Task) : Prop where
  consistent : Consistent contract users' applied' router'
  tally : ∃ more, applied' = applied ++ more ∧ router'.tally = more.foldl Tally.add router.tally ∧
    (more = [] ∨ ∃ orderId report rest, more = [(orderId, report)] ∧
      task.pending = report :: rest ∧ (orderId, Report.key report) ∈ router.owners)
  ok : TaskOk applied' router' task'
  more : Extends applied router applied' router'
  untouched : ∀ orderId, task.held ≠ some orderId → appliedTo orderId applied = [] →
    Untouched orderId applied router applied' router'
  held : ∀ orderId, task'.held = some orderId → task.held = some orderId ∨
    ∃ now : Now, orderId = orderIdOf now.millis router.orderSeq
  flow : ∃ produced consumed, router'.reports = router.reports ++ produced ∧
    router'.processed = router.processed ++ consumed ∧
    task.pending ++ produced = consumed ++ task'.pending ∧
    (consumed = [] ∨ ∃ report rest, consumed = [report] ∧ task.pending = report :: rest)
  newOwner : ∀ entry ∈ router'.owners, entry ∈ router.owners ∨ ofKey entry.2 router.reports = []

/-! ## Steps outside the books -/

theorem Extends.of_same (orders : router'.orders = router.orders)
    (engine : router'.matchingEngine = router.matchingEngine)
    (orderSeq : router.orderSeq ≤ router'.orderSeq)
    (config : router'.riskChecker.config = router.riskChecker.config) :
    Extends applied router applied router' where
  journal := ⟨[], by rw [engine, List.append_nil]⟩
  stored := by
    rintro orderId order ⟨info, found, same⟩
    exact ⟨info, by rw [orders, found], same⟩
  heard _ heard := heard
  orderSeq := orderSeq
  config := config

theorem Outcome.quiet (orders : router'.orders = router.orders)
    (engine : router'.matchingEngine = router.matchingEngine)
    (processed : router'.processed = router.processed)
    (orderSeq : router.orderSeq ≤ router'.orderSeq)
    (config : router'.riskChecker.config = router.riskChecker.config)
    (tally : router'.tally = router.tally) (consistent : Consistent contract users applied router')
    (ok : TaskOk applied router' task')
    (held : ∀ orderId, task'.held = some orderId → task.held = some orderId ∨
      ∃ now : Now, orderId = orderIdOf now.millis router.orderSeq)
    (pending : task'.pending = task.pending) :
    Outcome contract users applied router task users applied router' task' where
  consistent := consistent
  tally := ⟨[], by simp, tally, .inl rfl⟩
  ok := ok
  more := .of_same orders engine orderSeq config
  untouched orderId _ unheard :=
    ⟨by rw [orders], fun unowned key => by rw [OrderRouter.owners, engine]; exact unowned key,
      unheard⟩
  held := held
  flow := ⟨[], [], by simp [OrderRouter.reports, engine], by simp [processed],
    by simp [pending], .inl rfl⟩
  newOwner entry owns := .inl (by rwa [OrderRouter.owners, engine] at owns)

theorem Outcome.same (consistent : Consistent contract users applied router)
    (ok : TaskOk applied router task')
    (held : ∀ orderId, task'.held = some orderId → task.held = some orderId)
    (pending : task'.pending = task.pending) :
    Outcome contract users applied router task users applied router task' :=
  .quiet rfl rfl rfl le_rfl rfl rfl consistent ok (fun orderId holds => .inl (held orderId holds))
    pending

variable (now : Now)

section

variable (consistent : Consistent contract users applied router)
include consistent

theorem outcome_submitting (req : SubmitOrderRequest) (force : Bool) :
    Outcome contract users applied router (.submitting req force) users applied
      (advance now router (.submitting req force)).2
      (advance now router (.submitting req force)).1 := by
  have next : Consistent contract users applied router.nextOrderSeq :=
    consistent.congr consistent.ready rfl rfl rfl rfl rfl (Nat.le_succ _)
  have fresh : router.orders (router.nextOrderId now) = none := by
    cases found : router.orders (router.nextOrderId now) with
    | none => rfl
    | some info => exact absurd rfl ((consistent.below _ info found).ne now)
  rcases exec_screen now req force router with
    ⟨priced, _, _, screened⟩ | ⟨_, message, code, screened⟩
  · simp only [advance, screened, proceed]
    refine .quiet rfl rfl rfl (Nat.le_succ _) rfl rfl next
      ⟨fresh, now, router.orderSeq, Nat.lt_succ_self _, rfl⟩ (fun orderId holds => ?_) rfl
    exact .inr ⟨now, (Option.some.inj holds).symm⟩
  · simp only [advance, screened, proceed]
    exact .quiet rfl rfl rfl (Nat.le_succ _) rfl rfl next trivial (fun _ holds => by cases holds) rfl

theorem outcome_checkingFok (ok : TaskOk applied router (.checkingFok ticket)) :
    Outcome contract users applied router (.checkingFok ticket) users applied
      (advance now router (.checkingFok ticket)).2
      (advance now router (.checkingFok ticket)).1 := by
  by_cases passes : FokPasses router ticket.req ticket.force
  · simp only [advance, exec_checkFok_ok router ticket passes, proceed]
    exact .same consistent ok (fun _ holds => holds) rfl
  · rcases exec_checkFok_error router ticket passes with ⟨message, code, refused⟩
    simp only [advance, refused, proceed]
    exact .same consistent trivial (fun _ holds => by cases holds) rfl

theorem outcome_closing (placement : Placement) :
    Outcome contract users applied router (.closing placement) users applied
      (advance now router (.closing placement)).2 (advance now router (.closing placement)).1 := by
  simp only [advance]
  split_ifs
  · cases router.iocRemaining placement.orderId with
    | none => exact .same consistent trivial (fun _ holds => by cases holds) rfl
    | some remaining => exact .same consistent trivial (fun _ holds => by cases holds) rfl
  · exact .same consistent trivial (fun _ holds => by cases holds) rfl

end

theorem newOrder_sound (orders : OrderContract Q) (ticket : Ticket) :
    Sound (insert ticket.req.accountId users) (newOrder Q now ticket) := by
  have spelled : ∃ direction offset, towardsOf direction offset =
      some (calculateTowards ticket.req.direction ticket.req.offset) := by
    unfold calculateTowards
    cases found : towardsOf ticket.req.direction ticket.req.offset with
    | some towards => exact ⟨_, _, found⟩
    | none => exact ⟨"BUY", "OPEN", rfl⟩
  rcases spelled with ⟨direction, offset, known⟩
  refine ⟨?_, calculateTowards ticket.req.direction ticket.req.offset, ?_⟩
  · simp only [newOrder, qaorderToQifi, orders.userId]
    exact Set.mem_insert _ _
  · simp only [newOrder, qaorderToQifi, orders.direction direction offset _ known,
      orders.offset direction offset _ known]
    exact known

theorem newOrder_instrumentId (orders : OrderContract Q) (ticket : Ticket) :
    (newOrder Q now ticket).instrumentId = ticket.req.instrumentId := by
  simp only [newOrder, qaorderToQifi, orders.instrumentId]

theorem outcome_placing (orders : OrderContract Q)
    (consistent : Consistent contract users applied router)
    (ok : TaskOk applied router (.placing ticket)) :
    ∃ users', Outcome contract users applied router (.placing ticket) users' applied
      (advance now router (.placing ticket)).2 (advance now router (.placing ticket)).1 := by
  rcases ok with ⟨unknown, below⟩
  rcases exec_place now ticket router with
    ⟨account, qaOrder, freezes, ran⟩ | ⟨_, message, code, after, ran, rest⟩
  · have unowned : Unowned router ticket.orderId := by
      intro key owns
      rcases consistent.known _ key owns with ⟨info, found, _⟩
      rw [unknown] at found
      cases found
    simp only [advance, ran, proceed]
    refine ⟨_, consistent.placed unknown below (newOrder_sound now orders ticket),
      ⟨[], by simp, rfl, .inl rfl⟩, ⟨newOrder_instrumentId now orders ticket, unowned, ?_⟩, ?_,
      fun other differs unheard => ?_, fun other holds => .inl holds,
      ⟨[], [], by simp [placed, indexOrder, putAccount], by simp [placed, indexOrder, putAccount],
        rfl, .inl rfl⟩, fun entry owns => .inl owns⟩
    · exact ⟨_, Function.update_self .., rfl, rfl⟩
    · refine ⟨⟨[], (List.append_nil _).symm⟩, ?_, fun _ heard => heard, le_rfl, rfl⟩
      rintro other order ⟨info, found, same⟩
      have isOther : other ≠ ticket.orderId := by
        rintro rfl
        rw [unknown] at found
        cases found
      exact ⟨info, (Function.update_of_ne isOther _ _).trans found, same⟩
    · have isOther : other ≠ ticket.orderId := by
        rintro rfl
        exact differs rfl
      exact ⟨Function.update_of_ne isOther _ _, fun unowned => unowned, unheard⟩
  · simp only [advance, ran, proceed]
    rcases rest with rfl | ⟨account, error, found, failed, rfl⟩
    · exact ⟨users, .same consistent trivial (fun _ holds => by cases holds) rfl⟩
    · refine ⟨users, .quiet rfl rfl rfl le_rfl rfl rfl ?_ trivial (fun _ holds => by cases holds) rfl⟩
      refine consistent.congr ⟨consistent.ready.disk, fun user member => ?_⟩ rfl rfl rfl rfl rfl
        le_rfl
      exact AccountManager.has_putAccount (consistent.ready.accounts user member)

theorem Extends.processOrder (orderId instrumentId : String) (book : Q.Orderbook)
    (request : OrderRequest) :
    Extends applied router applied (processOrder orderId instrumentId book request router) where
  journal := ⟨_, rfl⟩
  stored _ _ stored := stored
  heard _ heard := heard
  orderSeq := le_rfl
  config := rfl

theorem outcome_marked (consistent : Consistent contract users applied router)
    (unowned : Unowned router orderId) (change : OrderRouteInfo → OrderRouteInfo)
    (order : ∀ info, (change info).order = info.order)
    (idle : ∀ info, info.Idle → (change info).Idle) (after : TradeGateway Q)
    (ready : after.Ready users) (sinks : after.sinks = router.tradeGateway.sinks) {task : Task}
    (task' : Task) (holds : task.held = some orderId)
    (holds' : ∀ other, task'.held = some other → other = orderId)
    (pending : task'.pending = task.pending)
    (ok : Extends applied router applied (modifyRoute orderId change (setGateway after router)) →
      TaskOk applied (modifyRoute orderId change (setGateway after router)) task') :
    Outcome contract users applied router task users applied
      (modifyRoute orderId change (setGateway after router)) task' := by
  have more : Extends applied router applied
      (modifyRoute orderId change (setGateway after router)) := by
    refine ⟨⟨[], (List.append_nil _).symm⟩, ?_, fun _ heard => heard, le_rfl, rfl⟩
    rintro other kept ⟨info, found, same⟩
    by_cases isOrder : other = orderId
    · subst isOrder
      exact ⟨change info, by simp [modifyRoute, setGateway, found], (order info).trans same⟩
    · exact ⟨info, (Function.update_of_ne isOrder _ _).trans found, same⟩
  have told : Consistent contract users applied (setGateway after router) :=
    consistent.congr ready rfl rfl rfl rfl rfl le_rfl
  refine ⟨told.marked order idle unowned, ⟨[], by simp, ?_, .inl rfl⟩, ok more, more,
    fun other differs unheard => ?_, fun other keeps => ?_,
    ⟨[], [], (List.append_nil _).symm, (List.append_nil _).symm, by simp [pending], .inl rfl⟩,
    fun entry owns => .inl owns⟩
  · simp only [tally, modifyRoute, setGateway, sinks, List.foldl_nil]
  · have isOther : other ≠ orderId := by
      rintro rfl
      exact differs holds
    exact ⟨Function.update_of_ne isOther _ _, fun before => before, unheard⟩
  · rw [holds' other keeps]
    exact .inl holds

theorem outcome_booking (consistent : Consistent contract users applied router)
    (ok : TaskOk applied router (.booking placement)) :
    Outcome contract users applied router (.booking placement) users applied
      (advance now router (.booking placement)).2 (advance now router (.booking placement)).1 := by
  rcases ok with ⟨instrument, unowned, info, found, sameOrder, status⟩
  rcases exec_bookOrder now placement router with
    ⟨book, direction, hosted, _, ran⟩ | ⟨_, error, ran⟩
  swap
  · simp only [advance, ran, proceedRouting]
    exact outcome_marked consistent unowned markRejected (fun _ => rfl)
      (fun _ idle => ⟨.inr rfl, idle.filledVolume, idle.engineId⟩) router.tradeGateway
      consistent.ready rfl .done rfl (fun _ holds => by cases holds) rfl fun _ => trivial
  simp only [advance, ran, proceedRouting]
  generalize isRequest : limitRequest (Q := Q) now placement.req.instrumentId direction
    placement.order.limitPrice placement.order.volumeOrign = request
  have flow : ∃ produced consumed,
      (processOrder placement.orderId placement.req.instrumentId book request router).reports =
        router.reports ++ produced ∧
      router.processed = router.processed ++ consumed ∧
      [] ++ produced = consumed ++
        (Task.matching placement Handled.none (Q.processOrder book request).1).pending ∧
      (consumed = [] ∨ ∃ report rest, consumed = [report] ∧
        (Task.booking placement).pending = report :: rest) :=
    ⟨_, [], Consistent.reports_processOrder .., (List.append_nil _).symm, by
      simp only [Task.pending, instrument, List.nil_append], .inl rfl⟩
  have answers := contract.newLimitOrder book (.fromCode Q placement.req.instrumentId) direction
    placement.order.limitPrice placement.order.volumeOrign now.nanos
  rw [show OrderRequest.newLimitOrder (.fromCode Q placement.req.instrumentId) direction
    placement.order.limitPrice placement.order.volumeOrign now.nanos = request from isRequest]
    at answers
  rcases answers with
    ⟨failed, answer, ledger⟩ | ⟨id, orderType, ts, events, answer, fresh, positive, issued, matched⟩
  · have noOwner : (⟨placement.orderId, placement.req.instrumentId,
        (Q.processOrder book request).1⟩ : Booking).owners = [] := by
      rw [answer]
      rfl
    have unowned' : Unowned
        (processOrder placement.orderId placement.req.instrumentId book request router)
        placement.orderId := by
      intro key
      rw [Consistent.owners_processOrder, noOwner, List.append_nil]
      exact unowned key
    refine ⟨consistent.rebooked hosted noOwner fun total log explained => ?_, ⟨[], by simp, rfl, .inl rfl⟩,
      ⟨⟨info, found, sameOrder⟩, ?_⟩, .processOrder _ _ _ _, fun other _ unheard => ⟨rfl, ?_, unheard⟩,
      fun other holds => .inl holds, flow, fun entry owns => .inl ?_⟩
    · rw [answer, ledger]
      simpa using explained
    · rw [answer]
      exact .refused failed unowned'
    · intro before key
      rw [Consistent.owners_processOrder, noOwner, List.append_nil]
      exact before key
    · rwa [Consistent.owners_processOrder, noOwner, List.append_nil] at owns
  · have newOwner : (processOrder placement.orderId placement.req.instrumentId book request
        router).owners = router.owners ++ [(placement.orderId, placement.req.instrumentId, id)] :=
      Consistent.owners_accepted answer matched.isSome_fill router
    refine ⟨consistent.booked hosted answer fresh positive issued matched found status
      (by rw [sameOrder, instrument]) (by rw [sameOrder]) unowned, ⟨[], by simp, rfl, .inl rfl⟩,
      ⟨⟨info, found, sameOrder⟩, ?_⟩, .processOrder _ _ _ _,
      fun other differs unheard => ⟨rfl, ?_, unheard⟩, fun other holds => .inl holds, flow,
      fun entry owns => ?_⟩
    · rw [answer, ← List.map_cons]
      refine .accepted ?_ (consistent.unowned _ unowned) matched.isSome_fill
        fun success first => matched.head_subject first
      rw [newOwner, instrument]
      simp
    · intro before key owns
      rw [newOwner, List.mem_append, List.mem_singleton] at owns
      rcases owns with earlier | isNew
      · exact before key earlier
      · have isOrder : other = placement.orderId := congrArg Prod.fst isNew
        exact differs (by rw [isOrder]; rfl)
    · rw [newOwner, List.mem_append, List.mem_singleton] at owns
      rcases owns with earlier | rfl
      · exact .inl earlier
      · exact .inr (consistent.ofKey_reports_eq_nil hosted fresh)

end QAExchange.OrderRouter
