import QAExchange.Exchange.TaskEvents

/-! # Invariants of interleaved calls

`PoolOk` holds in every state that calls of the router reach in any order of
their steps: the router agrees with its books, every fill that was applied was
counted, and each report of a book was taken up or waits in exactly one task.
-/

namespace QAExchange.OrderRouter

open Foundation Action

variable {Q : Qars}

abbrev Calls (Q : Qars) := Pool (OrderRouter Q) Task

def AtStep (condition : Now → OrderRouter Q → Task → Prop) (pool : Calls Q) :
    Turn Call Now → Prop
  | .call _ => True
  | .step now index => ∀ task ∈ pool.tasks[index]?, condition now pool.shared task

instance decidableAtStep (condition : Now → OrderRouter Q → Task → Prop)
    [∀ now router task, Decidable (condition now router task)] (pool : Calls Q) :
    ∀ turn, Decidable (AtStep condition pool turn)
  | .call _ => .isTrue trivial
  | .step now index =>
    inferInstanceAs (Decidable (∀ task ∈ pool.tasks[index]?, condition now pool.shared task))

structure PoolOk (contract : BookContract Q) (start : Tally) (users : Set String)
    (applied : List Applied) (pool : Calls Q) : Prop where
  consistent : Consistent contract users applied pool.shared
  tally : pool.shared.tally = applied.foldl Tally.add start
  tasks : ∀ task ∈ pool.tasks, TaskOk applied pool.shared task
  exclusive : (pool.tasks.filterMap Task.held).Nodup
  flow : pool.shared.reports.Perm (pool.shared.processed ++ pool.tasks.flatMap Task.pending)

namespace PoolOk

variable {contract : BookContract Q} {start : Tally} {users : Set String}
  {applied : List Applied} {router : OrderRouter Q}

theorem call (ok : PoolOk contract start users applied pool) (call : Call) :
    PoolOk contract start users applied ⟨pool.shared, pool.tasks ++ [call.task]⟩ where
  consistent := ok.consistent
  tally := ok.tally
  tasks task member := by
    rcases List.mem_append.mp member with earlier | last
    · exact ok.tasks task earlier
    · rw [List.mem_singleton.mp last]
      cases call with
      | submit => trivial
      | cancel => trivial
  exclusive := by
    have nothing : [call.task].filterMap Task.held = [] := by cases call <;> rfl
    rw [List.filterMap_append, nothing, List.append_nil]
    exact ok.exclusive
  flow := by
    have nothing : [call.task].flatMap Task.pending = [] := by cases call <;> rfl
    rw [List.flatMap_append, nothing, List.append_nil]
    exact ok.flow

variable {before after : List Task} {task : Task}

theorem reported (ok : PoolOk contract start users applied ⟨router, before ++ task :: after⟩) :
    ∀ report ∈ task.pending, report ∈ router.reports := by
  intro report member
  refine ok.flow.mem_iff.mpr (List.mem_append_right _ ?_)
  exact List.mem_flatMap.mpr ⟨task, by simp, member⟩

theorem held_ne (ok : PoolOk contract start users applied ⟨router, before ++ task :: after⟩)
    (member : other ∈ before ++ after) (holds : other.held = some orderId) :
    task.held ≠ some orderId := by
  intro same
  have nodup := ok.exclusive
  have apart : orderId ∉ (before ++ after).filterMap Task.held := by
    have moved : (before ++ task :: after).Perm (task :: (before ++ after)) := List.perm_middle
    have nodup := (moved.filterMap Task.held).nodup_iff.mp nodup
    rw [List.filterMap_cons_some same] at nodup
    exact (List.nodup_cons.mp nodup).1
  exact apart (List.mem_filterMap.mpr ⟨other, member, holds⟩)

variable {task' : Task}

section

variable (ok : PoolOk contract start users applied ⟨router, before ++ task :: after⟩)
include ok

theorem exclusive_step (held : ∀ orderId, task'.held = some orderId → task.held = some orderId ∨
      ∃ now : Now, orderId = orderIdOf now.millis router.orderSeq) :
    ((before ++ task' :: after).filterMap Task.held).Nodup := by
  have moved : (before ++ task :: after).Perm (task :: (before ++ after)) := List.perm_middle
  have moved' : (before ++ task' :: after).Perm (task' :: (before ++ after)) := List.perm_middle
  have nodup := (moved.filterMap Task.held).nodup_iff.mp ok.exclusive
  have rest : ((before ++ after).filterMap Task.held).Nodup :=
    nodup.sublist ((List.sublist_cons_self _ _).filterMap _)
  rw [(moved'.filterMap Task.held).nodup_iff]
  cases holds : task'.held with
  | none => rwa [List.filterMap_cons_none holds]
  | some orderId =>
    rw [List.filterMap_cons_some holds, List.nodup_cons]
    refine ⟨fun member => ?_, rest⟩
    rcases List.mem_filterMap.mp member with ⟨other, member, otherHolds⟩
    rcases held orderId holds with same | ⟨now, fresh⟩
    · exact ok.held_ne member otherHolds same
    · have inPool : other ∈ before ++ task :: after := by
        rw [List.mem_append, List.mem_cons]
        rcases List.mem_append.mp member with early | late
        · exact .inl early
        · exact .inr (.inr late)
      have below := ((ok.tasks other inPool).held ok.consistent otherHolds).2
      exact below.ne now fresh

theorem step (outcome : Outcome contract users applied router task users' applied' router' task') :
    PoolOk contract start users' applied' ⟨router', before ++ task' :: after⟩ where
  consistent := outcome.consistent
  tally := by
    rcases outcome.tally with ⟨more, rfl, counted, _⟩
    rw [List.foldl_append, ← ok.tally]
    exact counted
  tasks other member := by
    have others : other ∈ before ++ after → TaskOk applied' router' other := by
      intro member
      have inPool : other ∈ before ++ task :: after := by
        rw [List.mem_append, List.mem_cons]
        rcases List.mem_append.mp member with early | late
        · exact .inl early
        · exact .inr (.inr late)
      have otherOk := ok.tasks other inPool
      refine otherOk.of_extends outcome.more fun orderId holds => ?_
      exact outcome.untouched orderId (ok.held_ne member holds)
        (otherOk.held ok.consistent holds).1
    rw [List.mem_append, List.mem_cons] at member
    rcases member with early | rfl | late
    · exact others (List.mem_append_left _ early)
    · exact outcome.ok
    · exact others (List.mem_append_right _ late)
  exclusive := ok.exclusive_step outcome.held
  flow := by
    rcases outcome.flow with ⟨produced, consumed, reports, processed, balance, _⟩
    have flow := ok.flow
    simp only [List.flatMap_append, List.flatMap_cons] at flow ⊢
    rw [reports, processed, List.perm_iff_count]
    intro report
    have counted := List.perm_iff_count.mp flow report
    have balanced := congrArg (List.count report) balance
    simp only [List.count_append] at counted balanced ⊢
    omega

/-- What a step takes up of an order: nothing if the order is new in the books,
else at most the next event that waits in the task. -/
theorem ofKey_processed
    (outcome : Outcome contract users applied router task users' applied' router' task')
    (owns : (orderId, key) ∈ router'.owners) :
    ofKey key router'.processed = [] ∨ (orderId, key) ∈ router.owners ∧
      (ofKey key router'.processed = ofKey key router.processed ∨
        ∃ report rest, task.pending = report :: rest ∧ Report.key report = key ∧
          ofKey key router'.processed = ofKey key router.processed ++ [report.2]) := by
  rcases outcome.flow with ⟨_, consumed, _, processed, _, taken⟩
  have consumedReported : ∀ report ∈ consumed, report ∈ router.reports := by
    rcases taken with rfl | ⟨report, rest, rfl, pending⟩
    · simp
    · intro other member
      rw [List.mem_singleton.mp member]
      exact ok.reported report (by simp [pending])
  rcases outcome.newOwner _ owns with owned | silent
  · refine .inr ⟨owned, ?_⟩
    rw [processed, ofKey_append]
    rcases taken with rfl | ⟨report, rest, rfl, pending⟩
    · simp
    · by_cases same : Report.key report = key
      · subst same
        exact .inr ⟨report, rest, pending, rfl, by rw [ofKey_singleton_self]⟩
      · exact .inl (by rw [ofKey_singleton_of_ne same, List.append_nil])
  · refine .inl (List.eq_nil_iff_forall_not_mem.mpr fun success member => ?_)
    rw [processed] at member
    have reported : (key.1, success) ∈ router.reports := by
      rcases List.mem_append.mp (mem_ofKey.mp member).1 with earlier | last
      · exact ok.consistent.taken _ earlier
      · exact consumedReported _ last
    have member' := mem_ofKey.mpr ⟨reported, (mem_ofKey.mp member).2⟩
    rw [silent] at member'
    cases member'

end

end PoolOk

/-! ## Runs -/

/-- A router fresh from `new`, with a good disk, no active orders and an empty
history of deals. -/
structure Fresh (router : OrderRouter Q) : Prop where
  created : router = new router.tradeGateway router.riskChecker router.matchingEngine.orderbooks
    router.tradingStateMachine
  disk : router.tradeGateway.wal.DiskOk
  active : ∀ accountId, router.riskChecker.activeOrders accountId = []
  deals : router.tradeGateway.deals = []

variable {router : OrderRouter Q}

/-- A fresh router agrees with its books, whatever external orders these hold. -/
theorem Fresh.poolOk (fresh : Fresh router) (contract : BookContract Q) :
    PoolOk contract router.tally ∅ [] ⟨router, []⟩ := by
  have engine : router.matchingEngine.journal = [] := by rw [fresh.created]; rfl
  have orders : router.orders = fun _ => none := by rw [fresh.created]; rfl
  have processed : router.processed = [] := by rw [fresh.created]; rfl
  have index : router.engineIdToOrder = fun _ => none := by rw [fresh.created]; rfl
  have noReports : router.reports = [] := by rw [OrderRouter.reports, engine]; rfl
  have noOwners : router.owners = [] := by rw [OrderRouter.owners, engine]; rfl
  refine ⟨⟨⟨fresh.disk, fun _ member => absurd member (Set.notMem_empty _)⟩, ?_, ?_,
    ?_, fun instrumentId book _ => ⟨0, ?_, ?_⟩, ?_, ?_, ?_, ?_, ?_, ?_, ?_, fun _ _ => rfl, ?_⟩,
    rfl, by simp, List.nodup_nil, ?_⟩
  · simp [orders]
  · simp [orders]
  · simp [fresh.active]
  · rw [noReports]
    exact .nil _ _
  · simp [noOwners]
  · simp [noOwners]
  · simp [noOwners]
  · simp [noOwners]
  · simp [noOwners]
  · simp [processed]
  · simp [index, noOwners]
  · simp [noOwners]
  · simp [orders]
  · simp [noReports, processed]

/-- Only the steps at the books change these, and only a placement the terms of its own order. -/
theorem advance_keeps (now : Now) (router : OrderRouter Q) (task : Task) : (task.atBook = false →
      (advance now router task).2.matchingEngine = router.matchingEngine) ∧
    ∀ orderId, (∀ ticket, task = .placing ticket → orderId ≠ ticket.orderId) →
      (advance now router task).2.termsOf orderId = router.termsOf orderId := by
  have kept : ∀ {condition : Prop} {other : String → Prop} {router' : OrderRouter Q},
      router'.matchingEngine = router.matchingEngine → router'.termsOf = router.termsOf →
      (condition → router'.matchingEngine = router.matchingEngine) ∧
        ∀ orderId, other orderId → router'.termsOf orderId = router.termsOf orderId :=
    fun engine terms => ⟨fun _ => engine, fun orderId _ => congrFun terms orderId⟩
  have marked : ∀ (placement : Placement) (after : OrderRouter Q),
      (modifyRoute placement.orderId markRejected after).termsOf = after.termsOf :=
    fun placement after => termsOf_modifyRoute _ markRejected (fun _ => ⟨rfl, rfl, rfl⟩) after
  cases task with
  | submitting req force =>
    rcases exec_screen now req force router with ⟨_, _, _, ran⟩ | ⟨_, _, _, ran⟩ <;>
      simp only [advance, ran, proceed] <;> exact kept rfl rfl
  | checkingFok ticket =>
    by_cases passes : FokPasses router ticket.req ticket.force
    · simp only [advance, exec_checkFok_ok router ticket passes, proceed]
      exact ⟨fun _ => trivial, fun _ _ => trivial⟩
    · rcases exec_checkFok_error router ticket passes with ⟨_, _, ran⟩
      simp only [advance, ran, proceed]
      exact ⟨fun _ => trivial, fun _ _ => trivial⟩
  | placing ticket =>
    rcases exec_place now ticket router with
      ⟨_, _, _, ran⟩ | ⟨_, _, _, _, ran, rfl | ⟨_, _, _, _, rfl⟩⟩ <;>
      simp only [advance, ran, proceed]
    · refine ⟨fun _ => rfl, fun orderId differs => ?_⟩
      simp only [termsOf, placed, indexOrder, placementOf,
        Function.update_of_ne (differs ticket rfl)]
      rfl
    · exact ⟨fun _ => trivial, fun _ _ => trivial⟩
    · exact kept rfl rfl
  | booking placement =>
    refine ⟨fun outside => Bool.noConfusion outside, fun orderId _ => ?_⟩
    rcases exec_bookOrder now placement router with ⟨_, _, _, _, ran⟩ | ⟨_, _, ran⟩ <;>
      simp only [advance, ran, proceedRouting]
    · rfl
    · rw [marked]
  | matching placement handled results =>
    cases results with
    | nil => exact kept rfl rfl
    | cons result results =>
      have frame := processResult_keeps_frame now placement.orderId placement.order handled
        result router
      have terms := congrArg (fun kept => kept.2.2.2.2) frame
      rcases ran : exec (processResult now placement.orderId placement.order handled result)
        router with ⟨_ | _, router'⟩ <;> rw [ran] at frame terms <;>
        simp only [advance, ran, proceedRouting]
      · exact kept (congrArg Prod.fst frame) ((marked placement router').trans terms)
      · exact kept (congrArg Prod.fst frame) terms
  | closing placement =>
    simp only [advance]
    split_ifs
    · cases router.iocRemaining placement.orderId <;> exact kept rfl rfl
    · exact kept rfl rfl
  | cancelling req =>
    rcases exec_checkCancel now req router with ⟨_, _, _, ran⟩ | ⟨_, _, ran⟩ <;>
      simp only [advance, ran, proceed] <;> exact ⟨fun _ => trivial, fun _ _ => trivial⟩
  | withdrawing withdrawal =>
    refine ⟨fun outside => Bool.noConfusion outside, fun orderId _ => ?_⟩
    rcases exec_bookCancel withdrawal router with ⟨_, _, ran⟩ | ⟨_, _, ran⟩ <;>
      simp only [advance, ran, proceed]
    rfl
  | settling withdrawal results =>
    cases results with
    | nil => exact kept rfl rfl
    | cons result results =>
      have frame : Keeps frame (processCancelResult (Q := Q) now withdrawal result) :=
        processCancelResult_keeps_frame now withdrawal result
      have frame := frame router
      have terms := congrArg (fun kept => kept.2.2.2.2) frame
      rcases ran : exec (processCancelResult now withdrawal result) router with
        ⟨_ | _, router'⟩ <;> rw [ran] at frame terms <;> simp only [advance, ran, proceed] <;>
        exact kept (congrArg Prod.fst frame) terms
  | done => exact kept rfl rfl

theorem engine_advance (now : Now) (router : OrderRouter Q) (task : Task)
    (outside : task.atBook = false) :
    (advance now router task).2.matchingEngine = router.matchingEngine :=
  (advance_keeps now router task).1 outside

variable {applied : List Applied}

theorem termsOf_advance (now : Now) (ok : TaskOk applied router task)
    (found : router.orders orderId = some info) :
    (advance now router task).2.termsOf orderId = router.termsOf orderId := by
  refine (advance_keeps now router task).2 orderId fun ticket placing same => ?_
  rw [placing] at ok
  rw [same, ok.1] at found
  cases found

/-- Whatever a task does, the journal only grows. -/
theorem journal_advance (now : Now) (router : OrderRouter Q) (task : Task) :
    ∃ more, (advance now router task).2.matchingEngine.journal =
      router.matchingEngine.journal ++ more := by
  have kept : ∀ {router' : OrderRouter Q}, router'.matchingEngine = router.matchingEngine →
      ∃ more, router'.matchingEngine.journal = router.matchingEngine.journal ++ more :=
    fun same => ⟨[], by rw [same, List.append_nil]⟩
  cases outside : task.atBook with
  | false => exact kept (engine_advance now router task outside)
  | true =>
    cases task with
    | booking placement =>
      rcases exec_bookOrder now placement router with ⟨_, _, _, _, ran⟩ | ⟨_, _, ran⟩ <;>
        simp only [advance, ran, proceedRouting]
      · exact ⟨_, rfl⟩
      · exact kept rfl
    | withdrawing withdrawal =>
      rcases exec_bookCancel withdrawal router with ⟨_, _, ran⟩ | ⟨_, _, ran⟩ <;>
        simp only [advance, ran, proceed]
      · exact ⟨_, rfl⟩
      · exact kept rfl
    | submitting | checkingFok | placing | matching | closing | cancelling | settling | done =>
      cases outside

theorem journal_run (turns : List (Turn Call Now)) (pool : Calls Q) :
    ∃ more, ((service Q).run turns pool).shared.matchingEngine.journal =
      pool.shared.matchingEngine.journal ++ more := by
  have grows := (service Q).run_invariant (fun later => ∃ more,
    later.shared.matchingEngine.journal = pool.shared.matchingEngine.journal ++ more)
    (fun _ _ holds => holds) (fun router _ task _ now holds => ?_) turns
    ⟨[], (List.append_nil _).symm⟩
  · exact grows
  · rcases holds with ⟨more, same⟩
    rcases journal_advance now router task with ⟨later, grown⟩
    exact ⟨more ++ later, by rw [← List.append_assoc, ← same]; exact grown⟩

/-- A task that runs alone only adds to the journal. -/
theorem journal_solo (solo : (service Q).Solo first last) :
    ∃ more, last.2.matchingEngine.journal = first.2.matchingEngine.journal ++ more := by
  rcases solo.exists_run (service Q) [] [] with ⟨turns, ran⟩
  rcases journal_run turns ⟨first.2, [first.1]⟩ with ⟨more, grown⟩
  exact ⟨more, (congrArg (fun pool => pool.shared.matchingEngine.journal) ran).symm.trans grown⟩

/-- A task that runs alone among others that wait keeps the pool in order. It
takes up its own reports one after the other, so a kind of report that only this
task waits for is taken up in the order of the books. -/
theorem PoolOk.solo (orders : OrderContract Q) (before after : List Task)
    {first : Task × OrderRouter Q}
    (ok : PoolOk contract start users applied ⟨first.2, before ++ first.1 :: after⟩)
    (solo : (service Q).Solo first last) (apart : Journal.NoSharedIds last.2.matchingEngine.journal)
    (kind : Report → Bool) (inOrder : first.2.reports.filter kind =
      first.2.processed.filter kind ++ first.1.pending.filter kind) :
    (∃ users' applied', PoolOk contract start users' applied' ⟨last.2, before ++ last.1 :: after⟩) ∧
      last.2.reports.filter kind =
        last.2.processed.filter kind ++ last.1.pending.filter kind := by
  let onItsWay (point : Task × OrderRouter Q) : Prop :=
    Journal.NoSharedIds point.2.matchingEngine.journal →
      (∃ users applied, PoolOk contract start users applied
        ⟨point.2, before ++ point.1 :: after⟩) ∧
      point.2.reports.filter kind =
        point.2.processed.filter kind ++ point.1.pending.filter kind
  have atFirst : onItsWay first := fun _ => ⟨⟨users, applied, ok⟩, inOrder⟩
  refine solo.preserves (service Q) onItsWay (fun now task router holds apart' => ?_) atFirst apart
  have apart : Journal.NoSharedIds router.matchingEngine.journal := by
    rcases journal_advance now router task with ⟨more, same⟩
    rw [show ((service Q).advance now router task).2.matchingEngine.journal = _ from same]
      at apart'
    exact apart'.of_append
  rcases holds apart with ⟨⟨users, applied, ok⟩, inOrder⟩
  rcases outcome_advance now orders ok.consistent apart (ok.tasks task (by simp)) ok.reported
    with ⟨users', applied', outcome⟩
  refine ⟨⟨users', applied', ok.step outcome⟩, ?_⟩
  rcases outcome.flow with ⟨produced, consumed, reports, processed, balance, _⟩
  have balanced := congrArg (List.filter kind) balance
  simp only [List.filter_append] at balanced
  refine (congrArg (List.filter kind) reports).trans ?_
  rw [List.filter_append, inOrder, List.append_assoc, balanced, ← List.append_assoc,
    ← List.filter_append, ← processed]
  rfl

/-- What new calls and allowed steps preserve, given that the pool is in order.
The engine ids have to be apart in the last state. -/
theorem run_preserves (contract : BookContract Q) (orders : OrderContract Q)
    {allowed : Calls Q → Turn Call Now → Prop} (invariant : Calls Q → Prop)
    (call : ∀ pool call, invariant pool → invariant ⟨pool.shared, pool.tasks ++ [Call.task call]⟩)
    (step : ∀ users applied router before task after users' applied' now,
      PoolOk contract start users applied ⟨router, before ++ task :: after⟩ →
      invariant ⟨router, before ++ task :: after⟩ →
      allowed ⟨router, before ++ task :: after⟩ (.step now before.length) →
      Outcome contract users applied router task users' applied' (advance now router task).2
        (advance now router task).1 →
      PoolOk contract start users' applied'
        ⟨(advance now router task).2, before ++ (advance now router task).1 :: after⟩ →
      invariant ⟨(advance now router task).2, before ++ (advance now router task).1 :: after⟩)
    (turns : List (Turn Call Now)) {pool : Calls Q} {users : Set String}
    (obeys : (service Q).Obeys allowed turns pool) (ok : PoolOk contract start users applied pool)
    (holds : invariant pool) (apart : Journal.NoSharedIds
      ((service Q).run turns pool).shared.matchingEngine.journal) :
    (∃ users' applied', PoolOk contract start users' applied' ((service Q).run turns pool)) ∧
      invariant ((service Q).run turns pool) := by
  let goal (pool : Calls Q) : Prop := Journal.NoSharedIds pool.shared.matchingEngine.journal →
    (∃ users applied, PoolOk contract start users applied pool) ∧ invariant pool
  refine (service Q).run_preserves goal ?_ ?_ turns pool obeys
    (fun _ => ⟨⟨users, applied, ok⟩, holds⟩) apart
  · intro pool next before apart
    rcases before apart with ⟨⟨users, applied, ok⟩, holds⟩
    exact ⟨⟨users, applied, ok.call next⟩, call pool next holds⟩
  · intro router before task after now earlier isAllowed apart'
    have apart : Journal.NoSharedIds router.matchingEngine.journal := by
      rcases journal_advance now router task with ⟨more, same⟩
      rw [show ((service Q).advance now router task).2.matchingEngine.journal = _ from same]
        at apart'
      exact apart'.of_append
    rcases earlier apart with ⟨⟨users, applied, ok⟩, holds⟩
    rcases outcome_advance now orders ok.consistent apart (ok.tasks task (by simp)) ok.reported with
      ⟨users', applied', outcome⟩
    have ok' := ok.step outcome
    exact ⟨⟨users', applied', ok'⟩,
      step users applied router before task after users' applied' now ok holds isAllowed outcome ok'⟩

theorem Fresh.run (fresh : Fresh router) (contract : BookContract Q) (orders : OrderContract Q)
    (turns : List (Turn Call Now)) (apart : Journal.NoSharedIds
      ((service Q).run turns ⟨router, []⟩).shared.matchingEngine.journal) :
    ∃ users applied, PoolOk contract router.tally users applied
      ((service Q).run turns ⟨router, []⟩) :=
  (run_preserves contract orders (fun _ => True) (fun _ _ _ => trivial)
    (fun _ _ _ _ _ _ _ _ _ _ _ _ _ _ => trivial) turns ((service Q).obeys_true turns _)
    (fresh.poolOk contract) trivial apart).1

end QAExchange.OrderRouter
