import QAExchange.Exchange.FillDelivery

/-! # Final statuses stay

The router sets the status of an order to what the event at hand says. Under
every schedule that takes up the events of each order in the order in which the
book made them, a final status is never left again.
-/

namespace QAExchange.OrderRouter

open Foundation Action ReferenceExchange

variable {Q : Qars}

/-- A task takes up an event of an order only when it is the order's next. -/
def InBookOrder (pool : Calls Q) : Turn Call Now → Prop
  | .call _ => True
  | .step _ index => ∀ task ∈ pool.tasks[index]?, ∀ report ∈ task.pending.head?,
      ∀ owner ∈ pool.shared.owners, owner.2 = Report.key report →
        ofKey owner.2 pool.shared.processed ++ [report.2] <+: ofKey owner.2 pool.shared.reports

instance decidableInBookOrder (pool : Calls Q) :
    ∀ turn : Turn Call Now, Decidable (InBookOrder pool turn)
  | .call _ => .isTrue trivial
  | .step _ index =>
    inferInstanceAs (Decidable (∀ task ∈ pool.tasks[index]?, ∀ report ∈ task.pending.head?,
      ∀ owner ∈ pool.shared.owners, owner.2 = Report.key report →
        ofKey owner.2 pool.shared.processed ++ [report.2] <+:
          ofKey owner.2 pool.shared.reports))

def BookOrderKept (pool : Calls Q) : Prop :=
  ∀ orderId key, (orderId, key) ∈ pool.shared.owners →
    ofKey key pool.shared.processed <+: ofKey key pool.shared.reports

variable {contract : BookContract Q} {start : Tally} {users users' : Set String}
  {applied applied' : List Applied} {router : OrderRouter Q} {before after : List Task}
  {task : Task} {now : Now}

theorem bookOrderKept_step
    (ok : PoolOk contract start users applied ⟨router, before ++ task :: after⟩)
    (kept : BookOrderKept ⟨router, before ++ task :: after⟩)
    (next : InBookOrder ⟨router, before ++ task :: after⟩ (.step now before.length))
    (outcome : Outcome contract users applied router task users' applied'
      (advance now router task).2 (advance now router task).1) :
    BookOrderKept ⟨(advance now router task).2, before ++ (advance now router task).1 :: after⟩ := by
  intro orderId key owns
  have more : ofKey key router.reports <+: ofKey key (advance now router task).2.reports := by
    rcases outcome.flow with ⟨produced, _, reports, _⟩
    rw [reports, ofKey_append]
    exact List.prefix_append _ _
  simp only at owns ⊢
  rcases ok.ofKey_processed outcome owns with
    nothing | ⟨owned, same | ⟨report, rest, pending, sameKey, taken⟩⟩
  · rw [nothing]
    exact List.nil_prefix
  · rw [same]
    exact (kept orderId key owned).trans more
  · rw [taken]
    exact (next task (by simp) report (by simp [pending]) _ owned sameKey.symm).trans more

def statusAfter : Success → Option OrderStatus
  | .Accepted .. => some .Submitted
  | .Filled _ => some .Filled
  | .PartiallyFilled _ => some .PartiallyFilled
  | .Cancelled .. => some .Cancelled
  | .Amended .. => none

theorem replay_status (events : List Success) (last : Success) (info : OrderRouteInfo) :
    some (replay (events ++ [last]) info).status =
      (statusAfter last).or (some (replay events info).status) := by
  rw [replay_append]
  cases last <;> rfl

variable {status : OrderStatus}

theorem isEnd_of_statusAfter (sets : statusAfter success = some status) :
    status.isFinal = true ↔ success.life.isEnd = true := by
  cases success <;> simp only [statusAfter, Option.some.injEq, reduceCtorEq] at sets <;>
    subst sets <;> simp [OrderStatus.isFinal, Success.life, LifeEvent.isEnd]

/-- The events of an order in a book: none is an amendment. -/
theorem statusAfter_of_life {events : List Success}
    (life : Life total left (events.map Success.life)) (member : success ∈ events) :
    ∃ status, statusAfter success = some status := by
  cases success with
  | Amended id price volume ts =>
    have isPart : LifeEvent.part (0 : ℚ) ∈ events.map Success.life :=
      List.mem_map.mpr ⟨_, member, rfl⟩
    exact absurd (life.fill_pos (.inl isPart)) (lt_irrefl _)
  | Accepted | Filled | PartiallyFilled | Cancelled => exact ⟨_, rfl⟩

theorem fromAccepted_of_begins {events : List Success}
    (life : Life total left (events.map Success.life)) (isPrefix : taken <+: events) :
    fromAccepted taken = taken := by
  rcases taken with _ | ⟨first, rest⟩
  · rfl
  · rcases isPrefix with ⟨later, rfl⟩
    rcases life.eq_opened_cons with ⟨others, same⟩
    rw [List.cons_append, List.map_cons, List.cons.injEq] at same
    exact fromAccepted_cons rest (Success.life_eq_opened.mp same.1)

variable {orderId : String} {key : OrderKey}

/-- The route info of an order of a book, when its events are taken up in order. -/
theorem route_of_bookOrder (ok : PoolOk contract start users applied pool)
    (kept : BookOrderKept pool) (owned : (orderId, key) ∈ pool.shared.owners)
    (found : pool.shared.orders orderId = some info) :
    ∃ first : OrderRouteInfo, first.status = .PendingRoute ∧ first.filledVolume = 0 ∧
      info = replay (ofKey key pool.shared.processed) first := by
  rcases ok.consistent.route orderId info found with ⟨first, idle, pending, replayed⟩
  rcases ok.consistent.life owned found with ⟨_, left, life⟩
  refine ⟨first, pending key owned, idle.filledVolume, ?_⟩
  rw [ok.consistent.heard orderId key owned,
    fromAccepted_of_begins life (kept orderId key owned)] at replayed
  exact replayed

/-- A final status of an order in a book: the last event of the order was taken
up and nothing more will come. -/
theorem last_of_final (ok : PoolOk contract start users applied pool) (kept : BookOrderKept pool)
    (owned : (orderId, key) ∈ pool.shared.owners) (found : pool.shared.orders orderId = some info)
    (final : info.status.isFinal = true) :
    ofKey key pool.shared.processed = ofKey key pool.shared.reports ∧
      ∃ events last, ofKey key pool.shared.processed = events ++ [last] ∧
        statusAfter last = some info.status := by
  rcases route_of_bookOrder ok kept owned found with ⟨first, pending, _, replayed⟩
  rcases ok.consistent.life owned found with ⟨_, left, life⟩
  rcases kept orderId key owned with ⟨rest, split⟩
  rcases List.eq_nil_or_concat' (ofKey key pool.shared.processed) with none | ⟨events, last, taken⟩
  · rw [replayed, none, replay_nil, pending] at final
    cases final
  · have member : last ∈ ofKey key pool.shared.reports := by
      rw [← split, taken]
      simp
    rcases statusAfter_of_life life member with ⟨status, sets⟩
    have isStatus : statusAfter last = some info.status := by
      have after := replay_status events last first
      rw [← taken, ← replayed, sets, Option.some_or] at after
      rw [sets, after]
    have ends := (isEnd_of_statusAfter isStatus).mp final
    rw [← split, taken, List.append_assoc, List.singleton_append, List.map_append,
      List.map_cons] at life
    have spent := List.map_eq_nil_iff.mp (life.eq_nil_of_isEnd ends)
    rw [spent, List.append_nil] at split
    exact ⟨split, events, last, taken, isStatus⟩

/-! ## Final statuses -/

def StillFinal (orderId : String) (status : OrderStatus) (pool : Calls Q) : Prop :=
  status.isFinal = true ∧
    ∃ info, pool.shared.orders orderId = some info ∧ info.status = status

theorem stillFinal_of_owned
    (ok : PoolOk contract start users applied ⟨router, before ++ task :: after⟩)
    (kept : BookOrderKept ⟨router, before ++ task :: after⟩)
    (next : InBookOrder ⟨router, before ++ task :: after⟩ (.step now before.length))
    (outcome : Outcome contract users applied router task users' applied'
      (advance now router task).2 (advance now router task).1)
    (ok' : PoolOk contract start users' applied'
      ⟨(advance now router task).2, before ++ (advance now router task).1 :: after⟩)
    (owned : (orderId, key) ∈ router.owners)
    (final : StillFinal orderId status ⟨router, before ++ task :: after⟩) :
    StillFinal orderId status
      ⟨(advance now router task).2, before ++ (advance now router task).1 :: after⟩ := by
  rcases final with ⟨isFinal, info, found, rfl⟩
  rcases last_of_final ok kept owned found isFinal with ⟨whole, events, last, taken, sets⟩
  have kept' := bookOrderKept_step ok kept next outcome
  have owned' := outcome.more.owners owned
  rcases outcome.more.stored orderId info.order ⟨info, found, rfl⟩ with ⟨info', found', _⟩
  rcases route_of_bookOrder ok' kept' owned' found' with ⟨first, _, _, replayed⟩
  have same : ofKey key (advance now router task).2.processed = ofKey key router.processed := by
    simp only at taken
    rcases ok.ofKey_processed outcome owned' with
      nothing | ⟨_, same | ⟨report, rest, pending, sameKey, _⟩⟩
    · rcases outcome.flow with ⟨_, consumed, _, processed, _⟩
      rw [processed, ofKey_append, taken] at nothing
      simp at nothing
    · exact same
    · have beyond := (next task (by simp) report (by simp [pending]) _ owned sameKey.symm).length_le
      simp only at whole beyond
      rw [whole, List.length_append, List.length_singleton] at beyond
      omega
  refine ⟨isFinal, info', found', ?_⟩
  simp only at taken replayed
  have after := replay_status events last first
  rw [← taken, ← same, ← replayed, sets, Option.some_or, Option.some.injEq] at after
  exact after

theorem stillFinal_of_unowned
    (ok : PoolOk contract start users applied ⟨router, before ++ task :: after⟩)
    (outcome : Outcome contract users applied router task users' applied'
      (advance now router task).2 (advance now router task).1) (unowned : Unowned router orderId)
    (final : StillFinal orderId status ⟨router, before ++ task :: after⟩) :
    StillFinal orderId status
      ⟨(advance now router task).2, before ++ (advance now router task).1 :: after⟩ := by
  rcases final with ⟨isFinal, info, found, rfl⟩
  have unheard := ok.consistent.unowned orderId unowned
  by_cases holds : task.held = some orderId
  swap
  · exact ⟨isFinal, info, (outcome.untouched orderId holds unheard).orders.trans found, rfl⟩
  have taskOk := ok.tasks task (by simp)
  cases task with
  | submitting | closing | cancelling | withdrawing | settling | done => cases holds
  | checkingFok ticket | placing ticket =>
    obtain rfl := Option.some.inj holds
    exact absurd (found.symm.trans taskOk.1) (by simp)
  | booking placement =>
    obtain rfl := Option.some.inj holds
    rcases taskOk with ⟨_, _, info', found', _, pending⟩
    rw [Option.some.inj (found.symm.trans found'), pending] at isFinal
    cases isFinal
  | matching placement handled results =>
    rcases taskOk with ⟨_, taskOk⟩
    cases taskOk with
    | refused failed =>
      obtain rfl := Option.some.inj holds
      rcases exec_processResult_error now placement.orderId placement.order Handled.none failed
        ok.consistent.ready with ⟨gateway, ran, _⟩
      -- an idle order with a final status was rejected before
      rcases ok.consistent.route _ info found with ⟨first, idle, _, replayed⟩
      rw [unheard, replay_nil] at replayed
      have rejected : info.status = .Rejected := by
        rcases idle.status with pending | rejected
        · rw [replayed, pending] at isFinal
          cases isFinal
        · rw [replayed, rejected]
      simp only [advance, ran, proceedRouting]
      refine ⟨isFinal, markRefused now info, ?_, rejected.symm⟩
      simp only at found
      simp [modifyRoute, setGateway, found]
    | answered =>
      obtain rfl := Option.some.inj holds
      exact ⟨isFinal, info, found, rfl⟩
    | accepted owned =>
      obtain rfl := Option.some.inj holds
      exact absurd owned (unowned _)
    | filling => cases holds

/-- An order of `a`, a smaller one of `b` that fills a part of it, and a cancel. -/
def sellBuyCancel : List (Turn Call Now) :=
  [.call (.submit (openOrder "a" "X" "SELL" 5 100)),
   .call (.submit (openOrder "b" "X" "BUY" 3 100)),
   .call (.cancel ⟨"a", "O17000000000000000000001"⟩)]

/-- Up to here the buyer's call has only reached the book, and the cancel of the
seller's order is over. -/
def cancelFirst : List (Turn Call Now) :=
  sellBuyCancel ++ (steps 0 8 ++ steps 1 4 ++
    steps 2 3)

end QAExchange.OrderRouter
