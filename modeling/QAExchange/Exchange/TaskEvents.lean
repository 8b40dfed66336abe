import QAExchange.Exchange.TaskSteps

/-! # What the handling of an event does

The steps of a task that take up a book event. The event is applied to the
order it is about if the router can relate it to that order, else it is dropped.
-/

namespace QAExchange.OrderRouter

open Foundation Action

variable {Q : Qars}

variable {applied : List Applied} {router : OrderRouter Q} {contract : BookContract Q}
  {users : Set String} (now : Now)

/-- The router after an event was applied to an order. -/
def applyReport (orderId : String) (order : Order) (report : Report) (after : TradeGateway Q)
    (router : OrderRouter Q) : OrderRouter Q :=
  setGateway after (settleEvent orderId order report.2 (takeUp report.1 report.2 router))

variable {task : Task}

/-- An event reaches the order it is about. -/
theorem outcome_delivered (consistent : Consistent contract users applied router)
    (apart : Journal.NoSharedIds router.matchingEngine.journal) (reported : report ∈ router.reports)
    (owned : (orderId, Report.key report) ∈ router.owners)
    (found : router.orders orderId = some info)
    (inTime : report.2.isAccepted = true ∧ appliedTo orderId applied = [] ∨
      report.2.isAccepted = false ∧ appliedTo orderId applied ≠ []) {after : TradeGateway Q}
    (ready : after.Ready users)
    (told : Told now orderId info.order report.2 isTaker (takeUp report.1 report.2 router) after)
    {task' : Task} (pending : task.pending = report :: task'.pending)
    (mine : task.held = some orderId ∨ appliedTo orderId applied ≠ [])
    (released : task'.held = none) (ok : Extends applied router (applied ++ [(orderId, report)])
        (applyReport orderId info.order report after router) →
      appliedTo orderId (applied ++ [(orderId, report)]) ≠ [] →
      TaskOk (applied ++ [(orderId, report)])
        (applyReport orderId info.order report after router) task') :
    Outcome contract users applied router task users (applied ++ [(orderId, report)])
      (applyReport orderId info.order report after router) task' := by
  have engine : (applyReport orderId info.order report after router).matchingEngine =
      router.matchingEngine := settleEvent_matchingEngine ..
  have orderSeq : (applyReport orderId info.order report after router).orderSeq =
      router.orderSeq := settleEvent_orderSeq ..
  have orders : (applyReport orderId info.order report after router).orders =
      Function.update router.orders orderId (some (applyEvent report.2 info)) := by
    have settled := settleEvent_orders orderId info.order report.2
      (takeUp report.1 report.2 router)
    rwa [show (takeUp report.1 report.2 router).orders = router.orders from rfl, found] at settled
  have heard : appliedTo orderId (applied ++ [(orderId, report)]) ≠ [] := by
    rw [appliedTo_append, appliedTo_singleton_self]
    simp
  have more : Extends applied router (applied ++ [(orderId, report)])
      (applyReport orderId info.order report after router) := by
    refine ⟨⟨[], by rw [engine, List.append_nil]⟩, ?_, fun other before => ?_,
      orderSeq.ge, settleEvent_config ..⟩
    · rintro other order ⟨info', found', same⟩
      by_cases isOrder : other = orderId
      · subst isOrder
        refine ⟨applyEvent report.2 info, by rw [orders, Function.update_self], ?_⟩
        rw [applyEvent_order, ← same, Option.some.inj (found.symm.trans found')]
      · exact ⟨info', by rw [orders, Function.update_of_ne isOrder, found'], same⟩
    · rw [appliedTo_append]
      exact List.append_ne_nil_of_left_ne_nil before _
  refine ⟨consistent.delivered apart reported owned found inTime ready,
    ⟨_, rfl, ?_, .inr ⟨orderId, report, _, rfl, pending, owned⟩⟩,
    ok more heard, more, fun other differs unheard => ?_,
    fun other holds => ?_,
    ⟨[], [report], by simp [OrderRouter.reports, engine], settleEvent_processed .., by
      simp [pending], .inr ⟨report, _, rfl, pending⟩⟩,
    fun entry owns => .inl (by rwa [OrderRouter.owners, engine] at owns)⟩
  · rcases consistent.known orderId _ owned with ⟨info', found', instrument, _⟩
    rw [← Option.some.inj (found.symm.trans found')] at instrument
    rw [applyReport, tally_settleEvent told, instrument]
    rfl
  · have isOther : other ≠ orderId := by
      rintro rfl
      rcases mine with holds | before
      · exact differs holds
      · exact before unheard
    refine ⟨by rw [orders, Function.update_of_ne isOther], fun unowned key => ?_, ?_⟩
    · rw [OrderRouter.owners, engine]
      exact unowned key
    · rw [appliedTo_append, appliedTo_singleton_of_ne isOther.symm, unheard, List.append_nil]
  · rw [released] at holds
    cases holds

/-- An event of an order that the router did not hear of is dropped. -/
theorem outcome_dropped (consistent : Consistent contract users applied router)
    (reported : report ∈ router.reports) (late : report.2.isAccepted = false)
    (unheard : ∀ orderId, (orderId, Report.key report) ∈ router.owners →
      appliedTo orderId applied = []) {task' : Task}
    (pending : task.pending = report :: task'.pending) (released : task'.held = none)
    (ok : TaskOk applied (takeUp report.1 report.2 router) task') :
    Outcome contract users applied router task users applied (takeUp report.1 report.2 router)
      task' where
  consistent := consistent.dropped reported late unheard
  tally := ⟨[], by simp, rfl, .inl rfl⟩
  ok := ok
  more := .of_same rfl rfl le_rfl rfl
  untouched _ _ nothing := ⟨rfl, fun unowned => unowned, nothing⟩
  held _ holds := by rw [released] at holds; cases holds
  flow := ⟨[], [report], (List.append_nil _).symm, rfl, by simp [pending],
    .inr ⟨report, _, rfl, pending⟩⟩
  newOwner entry owns := .inl owns

/-- The first event of a kind is taken for an event of the incoming order. -/
theorem exec_processResult_own (orderId : String) (sound : Sound users order)
    (handled handled' : Handled) (success : Success)
    (own : success.isAccepted = true ∧ handled.accepted = false ∧
        handled' = { handled with accepted := true } ∨
      success.fill?.isSome = true ∧ handled.trade = false ∧
        handled' = { handled with trade := true }) (ready : router.tradeGateway.Ready users) :
    ∃ after, exec (processResult now orderId order handled (.ok success)) router =
        (.ok handled', applyReport orderId order (order.instrumentId, success) after router) ∧
      after.Ready users ∧
      Told now orderId order success true (takeUp order.instrumentId success router) after := by
  rcases handleSuccessResult_exec now orderId success true sound
    (takeUp order.instrumentId success router) ready with ⟨after, ran, ready', told⟩
  refine ⟨after, ?_, ready', told⟩
  rcases own with ⟨accepted, first, rfl⟩ | ⟨isFill, first, rfl⟩
  · cases success <;> simp only [Success.isAccepted, Bool.false_eq_true] at accepted
    simp only [processResult, exec_bind, exec_update, first, Bool.false_eq_true, if_false, ran,
      exec_pure]
    rfl
  · cases success <;> simp only [Success.fill?, Option.isSome_none, Bool.false_eq_true] at isFill <;>
    · simp only [processResult, exec_bind, exec_update, first, Bool.false_eq_true, if_false, ran,
        exec_pure]
      rfl

theorem exec_processResult_later (orderId : String) (order : Order) (handled : Handled)
    {success : Success} (isFill : success.fill?.isSome = true) (later : handled.trade = true)
    (ready : router.tradeGateway.Ready users) : (router.engineIdToOrder success.subject = none →
      exec (processResult now orderId order handled (.ok success)) router =
        (.ok handled, takeUp order.instrumentId success router)) ∧
    ∀ makerOrderId makerInfo, router.engineIdToOrder success.subject = some makerOrderId →
      router.orders makerOrderId = some makerInfo → Sound users makerInfo.order →
      ∃ after, exec (processResult now orderId order handled (.ok success)) router =
          (.ok handled, applyReport makerOrderId makerInfo.order (order.instrumentId, success) after
            router) ∧
        after.Ready users ∧ Told now makerOrderId makerInfo.order success false
          (takeUp order.instrumentId success router) after := by
  constructor
  · intro unknown
    cases success <;> simp only [Success.fill?, Option.isSome_none, Bool.false_eq_true] at isFill <;>
    · simp only [processResult, exec_bind, exec_update, later, if_true, handleLaterFill, exec_read]
      simp only [Success.subject] at unknown
      simp only [takeUp, unknown, exec_pure]
  · intro makerOrderId makerInfo indexed found sound
    rcases handleSuccessResult_exec now makerOrderId success false sound
      (takeUp order.instrumentId success router) ready with ⟨after, ran, ready', told⟩
    refine ⟨after, ?_, ready', told⟩
    have indexed' : (takeUp order.instrumentId success router).engineIdToOrder success.subject =
      some makerOrderId := indexed
    have found' : (takeUp order.instrumentId success router).orders makerOrderId =
      some makerInfo := found
    cases success <;> simp only [Success.fill?, Option.isSome_none, Bool.false_eq_true] at isFill <;>
    · simp only [Success.subject] at indexed'
      simp only [processResult, exec_bind, exec_update, later, if_true, handleLaterFill, exec_read,
        indexed', found', ran, exec_pure]
      rfl

theorem exec_processResult_error (orderId : String) (order : Order) (handled : Handled)
    (failed : Failed) (ready : router.tradeGateway.Ready users) :
    ∃ after, exec (processResult now orderId order handled (.error failed)) router =
        (.ok handled, modifyRoute orderId (markRefused now) (setGateway after router)) ∧
      after.Ready users ∧ after.sinks = router.tradeGateway.sinks ∧
      after.accountMgr = router.tradeGateway.accountMgr :=
  ⟨_, rfl, (TradeGateway.handleOrderRejectedNew_safe now (orderParams orderId order) failed.debug
      router.tradeGateway ready).2,
    TradeGateway.handleOrderRejectedNew_keeps_sinks now (orderParams orderId order) failed.debug
      router.tradeGateway,
    TradeGateway.handleOrderRejectedNew_keeps_accounts now (orderParams orderId order)
      failed.debug router.tradeGateway⟩

theorem pending_matching (placement : Placement) (handled : Handled) (success : Success)
    (handled' : Handled) (events : List Success) :
    (Task.matching placement handled ((success :: events).map .ok)).pending =
      (placement.order.instrumentId, success) ::
        (Task.matching placement handled' (events.map .ok)).pending := by
  rw [Task.pending, Task.pending, Booking.reports_ok, Booking.reports_ok, List.map_cons]

theorem outcome_matching (consistent : Consistent contract users applied router)
    (apart : Journal.NoSharedIds router.matchingEngine.journal)
    (ok : TaskOk applied router (.matching placement handled results))
    (reported : ∀ report ∈ (Task.matching placement handled results).pending,
      report ∈ router.reports) :
    ∃ applied', Outcome contract users applied router (.matching placement handled results) users
      applied' (advance now router (.matching placement handled results)).2
      (advance now router (.matching placement handled results)).1 := by
  rcases placement with ⟨orderId, req, order⟩
  obtain ⟨⟨info, found, rfl⟩, ok⟩ := ok
  have sound := consistent.sound orderId info found
  cases ok with
  | refused failed unowned =>
    rcases exec_processResult_error now orderId info.order Handled.none failed
      consistent.ready with ⟨after, ran, ready, sinks, _⟩
    simp only [advance, ran, proceedRouting]
    refine ⟨applied, outcome_marked consistent unowned (markRefused now) (fun _ => rfl)
      (fun _ idle => ⟨.inr rfl, idle.filledVolume, idle.engineId⟩) after ready sinks
      (.matching ⟨orderId, req, info.order⟩ Handled.none []) rfl
      (fun _ holds => (Option.some.inj holds).symm) rfl
      fun more => ⟨more.stored _ _ ⟨info, found, rfl⟩, .answered unowned⟩⟩
  | answered unowned =>
    exact ⟨applied, .same consistent trivial (fun _ holds => by cases holds) rfl⟩
  | @accepted id orderType ts events owned unheard fills own =>
    rcases exec_processResult_own now orderId sound Handled.none ⟨true, false⟩
      (.Accepted id orderType ts) (.inl ⟨rfl, rfl, rfl⟩) consistent.ready with
      ⟨after, ran, ready, told⟩
    have pending := pending_matching ⟨orderId, req, info.order⟩ Handled.none
      (.Accepted id orderType ts) ⟨true, false⟩ events
    have first := reported _ (by rw [pending]; exact List.mem_cons_self)
    simp only [List.map_cons, advance, ran, proceedRouting]
    refine ⟨_, outcome_delivered now consistent apart first owned found
      (.inl ⟨rfl, unheard⟩) ready told pending (.inl rfl) rfl
      fun more heard => ⟨more.stored _ _ ⟨info, found, rfl⟩, ?_⟩⟩
    exact .filling (more.owners owned) heard fills fun _ => own
  | @filling trade id events owned heard fills own =>
    cases events with
    | nil => exact ⟨applied, .same consistent trivial (fun _ holds => by cases holds) rfl⟩
    | cons success events =>
      have pending := pending_matching ⟨orderId, req, info.order⟩ ⟨true, trade⟩ success
        ⟨true, true⟩ events
      have first := reported _ (by rw [pending]; exact List.mem_cons_self)
      have isFill := fills success List.mem_cons_self
      have late := Success.isAccepted_of_fill isFill
      have rest := fun other member => fills other (List.mem_cons_of_mem success member)
      cases trade with
      | false =>
        obtain rfl := own rfl success rfl
        rcases exec_processResult_own now orderId sound ⟨true, false⟩ ⟨true, true⟩ success
          (.inr ⟨isFill, rfl, rfl⟩) consistent.ready with ⟨after, ran, ready, told⟩
        simp only [List.map_cons, advance, ran, proceedRouting]
        refine ⟨_, outcome_delivered now consistent apart first owned found
          (.inr ⟨late, heard⟩) ready told pending (.inr heard) rfl
          fun more heard' => ⟨more.stored _ _ ⟨info, found, rfl⟩, ?_⟩⟩
        exact .filling (more.owners owned) heard' rest fun untrue => by cases untrue
      | true =>
        rcases exec_processResult_later now orderId info.order ⟨true, true⟩
          isFill rfl consistent.ready with ⟨unknown, known⟩
        cases indexed : router.engineIdToOrder success.subject with
        | none =>
          simp only [List.map_cons, advance, unknown indexed, proceedRouting]
          refine ⟨_, outcome_dropped consistent first late (fun other owns => ?_) pending rfl
            ⟨⟨info, found, rfl⟩, .filling owned heard rest fun untrue => by cases untrue⟩⟩
          by_contra before
          have entry := (consistent.index _ other).mpr ⟨_, owns, before⟩
          rw [indexed] at entry
          cases entry
        | some makerOrderId =>
          rcases (consistent.index _ _).mp indexed with ⟨instrumentId, owns, before⟩
          obtain rfl : instrumentId = info.order.instrumentId := apart _ first _ owns rfl
          rcases consistent.known _ _ owns with ⟨makerInfo, makerFound, _⟩
          rcases known makerOrderId makerInfo indexed makerFound
            (consistent.sound _ _ makerFound) with ⟨after, ran, ready, told⟩
          simp only [List.map_cons, advance, ran, proceedRouting]
          refine ⟨_, outcome_delivered now consistent apart first owns makerFound
            (.inr ⟨late, before⟩) ready told pending (.inr before) rfl
            fun more _ => ⟨more.stored _ _ ⟨info, found, rfl⟩, ?_⟩⟩
          exact .filling (more.owners owned) (more.heard _ heard) rest
            fun untrue => by cases untrue

theorem replay_engineId {events : List Success} {id : ℕ}
    (registered : (replay events info).matchingEngineOrderId = some id) :
    info.matchingEngineOrderId = some id ∨
      ∃ success ∈ events, success.isAccepted = true ∧ success.subject = id := by
  induction events generalizing info with
  | nil => exact .inl registered
  | cons success events induction =>
    rcases induction registered with before | ⟨other, member, rest⟩
    · cases success with
      | Accepted other =>
        exact .inr ⟨_, List.mem_cons_self, rfl, Option.some.inj before⟩
      | Filled | PartiallyFilled | Amended | Cancelled => exact .inl before
    · exact .inr ⟨other, List.mem_cons_of_mem _ member, rest⟩

section

variable (consistent : Consistent contract users applied router)
include consistent

theorem Cancellable.withdrawable (cancellable : Cancellable now router req withdrawal info) :
    Withdrawable applied router withdrawal := by
  have found : router.orders withdrawal.orderId = some info := by
    rw [cancellable.orderId]
    exact cancellable.found
  rcases consistent.route _ info found with ⟨first, idle, _, replayed⟩
  have registered := cancellable.engineId
  rw [replayed] at registered
  rcases replay_engineId registered with never | ⟨success, member, _, subject⟩
  · rw [idle.engineId] at never
    cases never
  have heard : appliedTo withdrawal.orderId applied ≠ [] := List.ne_nil_of_mem member
  have hasKey : ∃ key, (withdrawal.orderId, key) ∈ router.owners := by
    by_contra none
    exact heard (consistent.unowned _ fun key owns => none ⟨key, owns⟩)
  rcases hasKey with ⟨key, owns⟩
  rcases consistent.known _ key owns with ⟨other, found', instrument, _⟩
  obtain rfl := Option.some.inj (found.symm.trans found')
  rw [consistent.heard _ key owns] at member
  have sameId := (mem_ofKey.mp (mem_of_mem_fromAccepted member)).2
  refine ⟨⟨info, found, cancellable.order.symm⟩, ?_, heard⟩
  rw [cancellable.order, instrument, ← subject, sameId]
  exact owns

theorem outcome_cancelling (req : CancelOrderRequest) :
    Outcome contract users applied router (.cancelling req) users applied
      (advance now router (.cancelling req)).2 (advance now router (.cancelling req)).1 := by
  rcases exec_checkCancel now req router with ⟨withdrawal, info, cancellable, ran⟩ | ⟨_, error, ran⟩
  · simp only [advance, ran, proceed]
    exact .same consistent (cancellable.withdrawable now consistent)
      (fun _ holds => by cases holds) rfl
  · simp only [advance, ran, proceed]
    exact .same consistent trivial (fun _ holds => by cases holds) rfl

theorem outcome_withdrawing (ok : TaskOk applied router (.withdrawing withdrawal)) :
    Outcome contract users applied router (.withdrawing withdrawal) users applied
      (advance now router (.withdrawing withdrawal)).2
      (advance now router (.withdrawing withdrawal)).1 := by
  rcases exec_bookCancel withdrawal router with ⟨book, hosted, ran⟩ | ⟨_, error, ran⟩
  swap
  · simp only [advance, ran, proceed]
    exact .same consistent trivial (fun _ holds => by cases holds) rfl
  simp only [advance, ran, proceed]
  generalize isRequest : OrderRequest.cancelOrder withdrawal.engineId withdrawal.direction = request
  have answers := contract.cancelOrder book withdrawal.engineId withdrawal.direction
  rw [isRequest] at answers
  have noOwner : (⟨withdrawal.orderId, withdrawal.order.instrumentId,
      (Q.processOrder book request).1⟩ : Booking).owners = [] := by
    rcases answers with ⟨failed, answer, _⟩ | ⟨ts, answer, _⟩ <;> rw [answer] <;> rfl
  have more : Extends applied router applied
      (processOrder withdrawal.orderId withdrawal.order.instrumentId book request router) :=
    .processOrder ..
  refine ⟨consistent.rebooked hosted noOwner fun total log explained => ?_, ⟨[], by simp, rfl, .inl rfl⟩,
    ⟨⟨more.stored _ _ ok.stored, more.owners ok.owned, ok.heard⟩, ?_⟩, more,
    fun other _ unheard => ⟨rfl, fun unowned key => ?_, unheard⟩, fun other holds => ?_,
    ⟨_, [], Consistent.reports_processOrder .., (List.append_nil _).symm, rfl, .inl rfl⟩,
    fun entry owns => .inl (by rwa [Consistent.owners_processOrder, noOwner, List.append_nil]
      at owns)⟩
  · rcases answers with ⟨failed, answer, ledger⟩ | ⟨ts, answer, stillOpen, issued, closed⟩
    · rw [answer, ledger]
      simpa using explained
    · rw [answer, show [Except.ok (Success.Cancelled withdrawal.engineId ts)] =
        [Success.Cancelled withdrawal.engineId ts].map .ok from rfl, Booking.reports_ok,
        entriesOf_map]
      exact explained.withdrawn stillOpen issued closed
  · rcases answers with ⟨failed, answer, _⟩ | ⟨ts, answer, _⟩
    · exact .inr (.inl ⟨failed, answer⟩)
    · exact .inr (.inr ⟨ts, answer⟩)
  · rw [Consistent.owners_processOrder, noOwner, List.append_nil]
    exact unowned key
  · cases holds

end

theorem exec_processCancelResult (withdrawal : Withdrawal) (ts : ℤ)
    (sound : Sound users withdrawal.order) (ready : router.tradeGateway.Ready users) :
    ∃ after, exec (processCancelResult now withdrawal (.ok (.Cancelled withdrawal.engineId ts)))
        router = (.ok (), applyReport withdrawal.orderId withdrawal.order
          (withdrawal.order.instrumentId, .Cancelled withdrawal.engineId ts) after router) ∧
      after.Ready users ∧
      Told now withdrawal.orderId withdrawal.order (.Cancelled withdrawal.engineId ts) true
        (takeUp withdrawal.order.instrumentId (.Cancelled withdrawal.engineId ts) router) after := by
  rcases handleSuccessResult_exec now withdrawal.orderId (.Cancelled withdrawal.engineId ts) true
    sound (takeUp withdrawal.order.instrumentId (.Cancelled withdrawal.engineId ts) router) ready with ⟨after, ran, ready', told⟩
  refine ⟨after, ?_, ready', told⟩
  simp only [processCancelResult, exec_bind, exec_update, exec_attempt, ran]
  rfl

theorem outcome_settling (consistent : Consistent contract users applied router)
    (apart : Journal.NoSharedIds router.matchingEngine.journal)
    (ok : TaskOk applied router (.settling withdrawal results))
    (reported : ∀ report ∈ (Task.settling withdrawal results).pending, report ∈ router.reports) :
    ∃ applied', Outcome contract users applied router (.settling withdrawal results) users applied'
      (advance now router (.settling withdrawal results)).2
      (advance now router (.settling withdrawal results)).1 := by
  rcases withdrawal with ⟨orderId, order, engineId, direction⟩
  obtain ⟨⟨⟨info, found, rfl⟩, owned, heard⟩, ok⟩ := ok
  rcases ok with rfl | ⟨failed, rfl⟩ | ⟨ts, rfl⟩
  · exact ⟨applied, .same consistent trivial (fun _ holds => by cases holds) rfl⟩
  · exact ⟨applied, .same consistent trivial (fun _ holds => by cases holds) rfl⟩
  · rcases exec_processCancelResult now ⟨orderId, info.order, engineId, direction⟩ ts
      (consistent.sound _ _ found) consistent.ready with ⟨after, ran, ready, told⟩
    simp only [advance, ran, proceed]
    refine ⟨_, outcome_delivered now consistent apart (reported _ List.mem_cons_self) owned found
      (.inr ⟨rfl, heard⟩) ready told rfl (.inr heard) rfl fun more heard' => ?_⟩
    exact ⟨⟨more.stored _ _ ⟨info, found, rfl⟩, more.owners owned, heard'⟩, .inl rfl⟩

theorem outcome_advance (orders : OrderContract Q)
    (consistent : Consistent contract users applied router)
    (apart : Journal.NoSharedIds router.matchingEngine.journal) (ok : TaskOk applied router task)
    (reported : ∀ report ∈ task.pending, report ∈ router.reports) :
    ∃ users' applied', Outcome contract users applied router task users' applied'
      (advance now router task).2 (advance now router task).1 := by
  cases task with
  | submitting req force =>
    exact ⟨_, _, outcome_submitting now consistent req force⟩
  | checkingFok ticket => exact ⟨_, _, outcome_checkingFok now consistent ok⟩
  | placing ticket =>
    rcases outcome_placing now orders consistent ok with ⟨users', outcome⟩
    exact ⟨users', _, outcome⟩
  | booking placement => exact ⟨_, _, outcome_booking now consistent ok⟩
  | matching placement handled results =>
    exact ⟨_, outcome_matching now consistent apart ok reported⟩
  | closing placement => exact ⟨_, _, outcome_closing now consistent placement⟩
  | cancelling req => exact ⟨_, _, outcome_cancelling now consistent req⟩
  | withdrawing withdrawal => exact ⟨_, _, outcome_withdrawing now consistent ok⟩
  | settling withdrawal results =>
    exact ⟨_, outcome_settling now consistent apart ok reported⟩
  | done => exact ⟨_, _, .same consistent trivial (fun _ holds => holds) rfl⟩

end QAExchange.OrderRouter
