import QAExchange.Exchange.ReferenceExchange
import QAExchange.PriceTime

/-! # Fills reach both orders of a match

A fill of a resting order is related to that order through its engine id, which
the router indexes only when it takes up the acceptance. Under every schedule
that takes up no event before the acceptance of its order, each event is applied
exactly once.
-/

namespace QAExchange

open Foundation Action ReferenceExchange

variable {Q : Qars}

def Success.deal? (success : Success) : Option (ℚ × ℚ) :=
  success.fill?.map fun fill => (fill.price, fill.volume)

namespace OrderRouter

def dealsOf (orderId : String) (router : OrderRouter Q) : List (ℚ × ℚ) :=
  (router.tradeGateway.deals.filter fun deal => deal.orderId = orderId).map fun deal =>
    (deal.price, deal.volume)

/-- Every book event of an order was applied to the order exactly once, and
every fill was booked into its account exactly once. -/
structure AppliedOnce (router : OrderRouter Q) (orderId : String) (key : OrderKey) : Prop where
  account : (dealsOf orderId router).Perm ((ofKey key router.reports).filterMap Success.deal?)
  route : ∃ info first events, router.orders orderId = some info ∧ OrderRouteInfo.Idle first ∧
    events.Perm (ofKey key router.reports) ∧ info = replay events first

/-- A task that takes up an event finds the engine id indexed, if the event is
about an order of the router and not its acceptance. -/
def MappingStored (pool : Calls Q) : Turn Call Now → Prop
  | .call _ => True
  | .step _ index => ∀ task ∈ pool.tasks[index]?, ∀ report ∈ task.pending.head?,
      report.2.isAccepted = false → ∀ owner ∈ pool.shared.owners,
        owner.2 = Report.key report →
          pool.shared.engineIdToOrder report.2.subject = some owner.1

instance (pool : Calls Q) (turn : Turn Call Now) : Decidable (MappingStored pool turn) := by
  unfold MappingStored
  cases turn <;> infer_instance

/-- Nothing was taken up of an order before its acceptance. -/
def NothingMissed (pool : Calls Q) : Prop :=
  ∀ orderId key, (orderId, key) ∈ pool.shared.owners →
    fromAccepted (ofKey key pool.shared.processed) = ofKey key pool.shared.processed

variable {contract : BookContract Q} {start : Tally} {users users' : Set String}
  {applied applied' : List Applied} {router : OrderRouter Q} {before after : List Task}
  {task : Task} {now : Now}

theorem nothingMissed_step
    (ok : PoolOk contract start users applied ⟨router, before ++ task :: after⟩)
    (holds : NothingMissed ⟨router, before ++ task :: after⟩)
    (stored : MappingStored ⟨router, before ++ task :: after⟩ (.step now before.length))
    (outcome : Outcome contract users applied router task users' applied'
      (advance now router task).2 (advance now router task).1) :
    NothingMissed ⟨(advance now router task).2, before ++ (advance now router task).1 :: after⟩ := by
  intro orderId key owns
  simp only at owns ⊢
  rcases ok.ofKey_processed outcome owns with
    nothing | ⟨owned, same | ⟨report, rest, pending, rfl, taken⟩⟩
  · rw [nothing, fromAccepted_nil]
  · rw [same]
    exact holds orderId key owned
  · have earlier := holds orderId _ owned
    rw [taken]
    cases accepted : report.2.isAccepted with
    | true =>
      by_cases nothing : ofKey (Report.key report) router.processed = []
      · rw [nothing, List.nil_append, fromAccepted_cons _ accepted]
      · rw [fromAccepted_append_of_ne_nil _ (by rwa [earlier]), earlier]
    | false =>
      have indexed := stored task (by simp) report (by simp [pending]) accepted _ owned rfl
      rcases (ok.consistent.index _ _).mp indexed with ⟨instrumentId, owns', heard⟩
      rw [ok.consistent.heard orderId _ owned] at heard
      rw [fromAccepted_append_of_ne_nil _ heard, earlier]

theorem deals_appliedFills (applied : List Applied) (orderId : String) :
    ((((appliedFills applied).map fun fill => (fill.1, fill.2.2.price, fill.2.2.volume)).filter
      fun deal => deal.1 = orderId).map Prod.snd) =
      (appliedTo orderId applied).filterMap Success.deal? := by
  induction applied with
  | nil => rfl
  | cons entry applied induction =>
    rcases entry with ⟨other, report⟩
    rw [show (other, report) :: applied = [(other, report)] ++ applied from rfl, appliedTo_append,
      appliedFills, List.filterMap_append, List.map_append, List.filter_append, List.map_append,
      List.filterMap_append, ← induction]
    congr 1
    by_cases same : other = orderId
    · subst same
      cases found : report.2.fill? <;> simp [found, Success.deal?]
    · rw [appliedTo_singleton_of_ne same]
      cases found : report.2.fill? <;> simp [found, same]

theorem dealsOf_eq {pool : Calls Q} (ok : PoolOk contract start users applied pool)
    (empty : start.deals = []) (orderId : String) :
    dealsOf orderId pool.shared = (appliedTo orderId applied).filterMap Success.deal? := by
  have counted := congrArg Tally.deals ok.tally
  rw [Tally.foldl_add, Tally.deals_addFills, empty, List.nil_append] at counted
  have split : dealsOf orderId pool.shared =
      ((tally pool.shared).deals.filter fun deal => deal.1 = orderId).map Prod.snd := by
    simp [dealsOf, tally, TradeGateway.sinks, List.filter_map, Function.comp_def]
  rw [split, counted, deals_appliedFills]

def Quiet (pool : Calls Q) : Prop := ∀ task ∈ pool.tasks, task.pending = []

instance (pool : Calls Q) : Decidable (Quiet pool) := by
  unfold Quiet
  infer_instance

theorem Quiet.perm {pool : Calls Q} (quiet : Quiet pool)
    (ok : PoolOk contract start users applied pool) :
    pool.shared.reports.Perm pool.shared.processed := by
  have nothing : pool.tasks.flatMap Task.pending = [] := List.flatMap_eq_nil_iff.mpr quiet
  have flow := ok.flow
  rwa [nothing, List.append_nil] at flow

/-- An order of `a` and one of `b` that match. -/
def sellAndBuy : List (Turn Call Now) :=
  [.call (.submit (openOrder "a" "X" "SELL" 5 100)),
   .call (.submit (openOrder "b" "X" "BUY" 5 100))]

/-- The seller's call gets no further than the book before the buyer's call is
over: then the fill of the seller's order is lost. -/
def race : List (Turn Call Now) :=
  sellAndBuy ++ (steps 0 4 ++ steps 1 9 ++
    steps 0 3)

/-- Each book event has been taken up once or waits in one task, no two tasks work on one order,
the engine ids lead to their orders only, and no more is booked for an order than its volume. -/
structure Conserves (pool : Calls Q) : Prop where
  reports : pool.shared.reports.Perm (pool.shared.processed ++ pool.tasks.flatMap Task.pending)
  exclusive : (pool.tasks.filterMap Task.held).Nodup
  index : ∀ id orderId, pool.shared.engineIdToOrder id = some orderId →
    ∃ instrumentId, (orderId, instrumentId, id) ∈ pool.shared.owners
  owner : ∀ orderId other key, (orderId, key) ∈ pool.shared.owners →
    (other, key) ∈ pool.shared.owners → orderId = other
  deals : ∀ orderId key, (orderId, key) ∈ pool.shared.owners → ∃ info,
    pool.shared.orders orderId = some info ∧
      ((dealsOf orderId pool.shared).map Prod.snd).sum ≤ info.order.volumeOrign

theorem sum_deals (events : List Success) :
    ((events.filterMap Success.deal?).map Prod.snd).sum = filledTotal (events.map Success.life) := by
  induction events with
  | nil => rfl
  | cons success events induction =>
    cases success <;> simp [List.filterMap_cons, Success.deal?, Success.fill?, Success.life,
      filledTotal_cons, LifeEvent.volume, induction]

/-- So it is in every interleaving of calls, also where a race loses fills. -/
theorem run_conserves (contract : BookContract Q) (orders : OrderContract Q)
    {router : OrderRouter Q} (fresh : router.Fresh) (turns : List (Turn Call Now))
    (apart : Journal.NoSharedIds
      ((service Q).run turns ⟨router, []⟩).shared.matchingEngine.journal) :
    Conserves ((service Q).run turns ⟨router, []⟩) := by
  rcases fresh.run contract orders turns apart with ⟨_, applied, ok⟩
  have empty : router.tally.deals = [] := by simp [tally, TradeGateway.sinks, fresh.deals]
  refine ⟨ok.flow, ok.exclusive, fun id orderId indexed => ?_, ok.consistent.uniqueOwner,
    fun orderId key owns => ?_⟩
  · rcases (ok.consistent.index id orderId).mp indexed with ⟨instrumentId, owns, _⟩
    exact ⟨instrumentId, owns⟩
  rcases ok.consistent.known orderId key owns with ⟨info, found, _⟩
  rcases ok.consistent.life owns found with ⟨positive, _, life⟩
  refine ⟨info, found, ?_⟩
  rw [dealsOf_eq ok empty, sum_deals]
  have flow := (ofKey_perm ok.flow key).map Success.life
  rw [ofKey_append, List.map_append] at flow
  rw [ok.consistent.heard orderId key owns]
  apply life.filledTotal_le_of_subperm positive
  apply List.Subperm.trans _ flow.symm.subperm
  apply List.Sublist.subperm
  exact ((List.dropWhile_sublist _).map _).trans (List.sublist_append_left _ _)

theorem race_conserves : Conserves ((service referenceQars).run race ⟨twoTraders, []⟩) :=
  run_conserves ReferenceQars.priceTime.bookContract ReferenceQars.orderContract
    (router_fresh _ _ _) race (by decide +kernel)

end OrderRouter

end QAExchange
