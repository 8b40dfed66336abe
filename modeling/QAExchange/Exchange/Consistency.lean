import QAExchange.Exchange.Admission
import QAExchange.Exchange.RouterEffects

/-! # The router agrees with its books

`Consistent` relates the route infos and the engine id index to the journal of
the books: each order of the router is what the events that were applied to it
make of it, and these are the processed events from its acceptance on.
-/

namespace QAExchange

open Foundation Action

variable {Q : Qars}

abbrev Applied := String × Report

def appliedTo (orderId : String) (applied : List Applied) : List Success :=
  (applied.filter fun entry => entry.1 = orderId).map fun entry => entry.2.2

@[simp] theorem appliedTo_append (orderId : String) (first rest : List Applied) :
    appliedTo orderId (first ++ rest) = appliedTo orderId first ++ appliedTo orderId rest := by
  simp [appliedTo]

@[simp] theorem appliedTo_singleton_self (orderId : String) (report : Report) :
    appliedTo orderId [(orderId, report)] = [report.2] := by
  simp [appliedTo]

theorem appliedTo_singleton_of_ne (differs : other ≠ orderId) (report : Report) :
    appliedTo orderId [(other, report)] = [] := by
  simp [appliedTo, differs]

structure OrderRouteInfo.Idle (info : OrderRouteInfo) : Prop where
  status : info.status = .PendingRoute ∨ info.status = .Rejected
  filledVolume : info.filledVolume = 0
  engineId : info.matchingEngineOrderId = none

namespace OrderRouter

abbrev reports (router : OrderRouter Q) : List Report :=
  Journal.reports router.matchingEngine.journal

abbrev owners (router : OrderRouter Q) : List (String × OrderKey) :=
  Journal.owners router.matchingEngine.journal

/-- The id was given out before the sequence number was reached. -/
def Below (orderSeq : ℕ) (orderId : String) : Prop :=
  ∃ now : Now, ∃ seq < orderSeq, orderId = orderIdOf now.millis seq

theorem orderIdOf_inj {now now' : Now}
    (same : orderIdOf now.millis seq = orderIdOf now'.millis seq') : seq = seq' := by
  have digits : (Nat.toDigits 10 now.millis).length = (Nat.toDigits 10 now'.millis).length := by
    rw [Now.millis_digits, Now.millis_digits]
  exact (repr_append_padded_inj digits ((String.append_right_inj "O").mp same)).2

theorem Below.ne {orderSeq : ℕ} {orderId : String} (below : Below orderSeq orderId) (now : Now) :
    orderId ≠ orderIdOf now.millis orderSeq := by
  rcases below with ⟨earlier, seq, less, rfl⟩
  exact fun same => less.ne (orderIdOf_inj same)

theorem Below.mono {orderSeq orderSeq' : ℕ} {orderId : String} (below : Below orderSeq orderId)
    (le : orderSeq ≤ orderSeq') : Below orderSeq' orderId := by
  rcases below with ⟨now, seq, less, same⟩
  exact ⟨now, seq, less.trans_le le, same⟩

/-- The router agrees with its books. `applied` lists the events that were
applied to orders, in order. -/
structure Consistent (contract : BookContract Q) (users : Set String) (applied : List Applied)
    (router : OrderRouter Q) : Prop where
  ready : router.tradeGateway.Ready users
  sound : ∀ orderId info, router.orders orderId = some info → Sound users info.order
  below : ∀ orderId info, router.orders orderId = some info → Below router.orderSeq orderId
  active : ∀ accountId, ∀ order ∈ router.riskChecker.activeOrders accountId,
    Below router.orderSeq order.orderId
  books : ∀ instrumentId book, router.getOrderbook instrumentId = some book → ∃ total,
    Explains total (entriesOf instrumentId router.reports) (contract.ledger book) ∧
    ∀ orderId id info, (orderId, instrumentId, id) ∈ router.owners →
      router.orders orderId = some info → total id = info.order.volumeOrign
  hosted : ∀ orderId key, (orderId, key) ∈ router.owners →
    ∃ book, router.getOrderbook key.1 = some book
  known : ∀ orderId key, (orderId, key) ∈ router.owners → ∃ info,
    router.orders orderId = some info ∧ info.order.instrumentId = key.1 ∧
      0 < info.order.volumeOrign
  uniqueOwner : ∀ orderId other key, (orderId, key) ∈ router.owners →
    (other, key) ∈ router.owners → orderId = other
  uniqueKey : ∀ orderId key other, (orderId, key) ∈ router.owners →
    (orderId, other) ∈ router.owners → key = other
  taken : ∀ report ∈ router.processed, report ∈ router.reports
  index : ∀ id orderId, router.engineIdToOrder id = some orderId ↔
    ∃ instrumentId, (orderId, instrumentId, id) ∈ router.owners ∧ appliedTo orderId applied ≠ []
  heard : ∀ orderId key, (orderId, key) ∈ router.owners →
    appliedTo orderId applied = fromAccepted (ofKey key router.processed)
  unowned : ∀ orderId, (∀ key, (orderId, key) ∉ router.owners) → appliedTo orderId applied = []
  route : ∀ orderId info, router.orders orderId = some info → ∃ first : OrderRouteInfo,
    first.Idle ∧ (∀ key, (orderId, key) ∈ router.owners → first.status = .PendingRoute) ∧
      info = replay (appliedTo orderId applied) first

namespace Consistent

variable {contract : BookContract Q} {users : Set String} {applied : List Applied}
  {router : OrderRouter Q}

theorem congr (consistent : Consistent contract users applied router) {router' : OrderRouter Q}
    (ready : router'.tradeGateway.Ready users) (orders : router'.orders = router.orders)
    (risk : router'.riskChecker = router.riskChecker)
    (engine : router'.matchingEngine = router.matchingEngine)
    (processed : router'.processed = router.processed)
    (index : router'.engineIdToOrder = router.engineIdToOrder)
    (orderSeq : router.orderSeq ≤ router'.orderSeq) :
    Consistent contract users applied router' := by
  have sameBook : router'.getOrderbook = router.getOrderbook := by
    funext instrumentId
    rw [getOrderbook, engine, getOrderbook]
  have sameReports : router'.reports = router.reports := by rw [reports, engine]
  have sameOwners : router'.owners = router.owners := by rw [owners, engine]
  refine ⟨ready, ?_, fun orderId info found => ?_, fun accountId order member => ?_, ?_, ?_,
    ?_, ?_, ?_, ?_, ?_, ?_, ?_, ?_⟩
  · rw [orders]
    exact consistent.sound
  · rw [orders] at found
    exact (consistent.below orderId info found).mono orderSeq
  · rw [risk] at member
    exact (consistent.active accountId order member).mono orderSeq
  · rw [sameBook, sameReports, sameOwners, orders]
    exact consistent.books
  · rw [sameBook, sameOwners]
    exact consistent.hosted
  · rw [sameOwners, orders]
    exact consistent.known
  · rw [sameOwners]
    exact consistent.uniqueOwner
  · rw [sameOwners]
    exact consistent.uniqueKey
  · rw [processed, sameReports]
    exact consistent.taken
  · rw [index, sameOwners]
    exact consistent.index
  · rw [sameOwners, processed]
    exact consistent.heard
  · rw [sameOwners]
    exact consistent.unowned
  · rw [orders, sameOwners]
    exact consistent.route

variable {orderId other instrumentId : String}

theorem owner_eq (consistent : Consistent contract users applied router)
    (apart : Journal.NoSharedIds router.matchingEngine.journal) (reported : report ∈ router.reports)
    (owned : (orderId, Report.key report) ∈ router.owners)
    (other_owned : (other, instrumentId, report.2.subject) ∈ router.owners) : other = orderId := by
  have same : instrumentId = report.1 := apart report reported _ other_owned rfl
  subst same
  exact consistent.uniqueOwner other orderId _ other_owned owned

variable {key : OrderKey} {info : OrderRouteInfo} {book : Q.Orderbook}

/-- The reports of an order form a life of the order's volume, with the volume
left that the book holds. -/
theorem life_in_book (consistent : Consistent contract users applied router)
    (owned : (orderId, key) ∈ router.owners) (found : router.orders orderId = some info)
    (hosted : router.getOrderbook key.1 = some book) :
    Life info.order.volumeOrign ((contract.ledger book).left key.2)
      ((ofKey key router.reports).map Success.life) := by
  rcases consistent.books _ book hosted with ⟨total, explained, totals⟩
  rcases Journal.exists_report_of_mem_owners owned with ⟨report, reported, rfl, accepted⟩
  have opened : .opened ∈ eventsOf (Report.key report).2
      (entriesOf (Report.key report).1 router.reports) := by
    rw [eventsOf_entriesOf, List.mem_map]
    exact ⟨report.2, mem_ofKey.mpr ⟨reported, rfl⟩, Success.life_eq_opened.mpr accepted⟩
  have life := explained.lives _ opened
  have total : total (Report.key report).2 = info.order.volumeOrign :=
    totals orderId _ info owned found
  rwa [eventsOf_entriesOf, total] at life

theorem life (consistent : Consistent contract users applied router)
    (owned : (orderId, key) ∈ router.owners) (found : router.orders orderId = some info) :
    0 < info.order.volumeOrign ∧
      ∃ left, Life info.order.volumeOrign left ((ofKey key router.reports).map Success.life) := by
  rcases consistent.hosted orderId key owned with ⟨book, hosted⟩
  rcases consistent.known orderId _ owned with ⟨info', found', _, positive⟩
  obtain rfl := Option.some.inj (found.symm.trans found')
  exact ⟨positive, _, consistent.life_in_book owned found hosted⟩

variable {success : Success}

section

variable (consistent : Consistent contract users applied router)
include consistent

/-- The event of an order that was not heard of changes nothing. -/
theorem dropped (reported : (instrumentId, success) ∈ router.reports)
    (late : success.isAccepted = false)
    (unheard : ∀ orderId, (orderId, instrumentId, success.subject) ∈ router.owners →
      appliedTo orderId applied = []) :
    Consistent contract users applied (takeUp instrumentId success router) where
  ready := consistent.ready
  sound := consistent.sound
  below := consistent.below
  active := consistent.active
  books := consistent.books
  hosted := consistent.hosted
  known := consistent.known
  uniqueOwner := consistent.uniqueOwner
  uniqueKey := consistent.uniqueKey
  taken report member := by
    rcases List.mem_append.mp member with earlier | last
    · exact consistent.taken report earlier
    · rw [List.mem_singleton.mp last]
      exact reported
  index := consistent.index
  heard orderId key owned := by
    rw [consistent.heard orderId key owned]
    simp only [takeUp, ofKey_append]
    by_cases same : Report.key (instrumentId, success) = key
    · subst same
      have nothing := consistent.heard orderId _ owned
      rw [unheard orderId owned] at nothing
      rw [fromAccepted_append_of_nil _ nothing.symm, ← nothing, ofKey_singleton_self, eq_comm,
        fromAccepted_eq_nil]
      simpa using late
    · rw [ofKey_singleton_of_ne same, List.append_nil]
  unowned := consistent.unowned
  route := consistent.route

/-- What is heard of an order grows with every event in time. -/
theorem heard_append (owned : (orderId, instrumentId, success.subject) ∈ router.owners)
    (inTime : success.isAccepted = true ∧ appliedTo orderId applied = [] ∨
      success.isAccepted = false ∧ appliedTo orderId applied ≠ [])
    (owns : (other, key) ∈ router.owners) :
    appliedTo other (applied ++ [(orderId, instrumentId, success)]) =
      fromAccepted (ofKey key (router.processed ++ [(instrumentId, success)])) := by
  rw [appliedTo_append, ofKey_append]
  by_cases same : other = orderId
  · subst same
    have sameKey := consistent.uniqueKey other _ _ owns owned
    subst sameKey
    have before := consistent.heard other _ owned
    rw [appliedTo_singleton_self, before,
      show ofKey (instrumentId, success.subject) [(instrumentId, success)] = [success] from
        ofKey_singleton_self (instrumentId, success)]
    rcases inTime with ⟨accepted, unheard⟩ | ⟨_, heard⟩
    · rw [before] at unheard
      rw [unheard, fromAccepted_append_of_nil _ unheard, fromAccepted_cons _ accepted,
        List.nil_append]
    · rw [before] at heard
      rw [fromAccepted_append_of_ne_nil _ heard]
  · have otherKey : Report.key (instrumentId, success) ≠ key := by
      rintro rfl
      exact same (consistent.uniqueOwner other orderId _ owns owned)
    rw [appliedTo_singleton_of_ne (Ne.symm same), ofKey_singleton_of_ne otherKey, List.append_nil,
      List.append_nil]
    exact consistent.heard other key owns

theorem index_append (apart : Journal.NoSharedIds router.matchingEngine.journal)
    (reported : (instrumentId, success) ∈ router.reports)
    (owned : (orderId, instrumentId, success.subject) ∈ router.owners)
    (inTime : success.isAccepted = true ∧ appliedTo orderId applied = [] ∨
      success.isAccepted = false ∧ appliedTo orderId applied ≠ []) (id : ℕ) (other : String) :
    (if success.isAccepted then
        Function.update router.engineIdToOrder success.subject (some orderId)
      else router.engineIdToOrder) id = some other ↔
    ∃ instrumentId', (other, instrumentId', id) ∈ router.owners ∧
      appliedTo other (applied ++ [(orderId, instrumentId, success)]) ≠ [] := by
  have selfHeard : appliedTo orderId (applied ++ [(orderId, instrumentId, success)]) ≠ [] := by
    rw [appliedTo_append, appliedTo_singleton_self]
    simp
  have otherHeard : ∀ other, other ≠ orderId →
      appliedTo other (applied ++ [(orderId, instrumentId, success)]) = appliedTo other applied := by
    intro other differs
    rw [appliedTo_append, appliedTo_singleton_of_ne differs.symm, List.append_nil]
  rcases inTime with ⟨accepted, unheard⟩ | ⟨late, heard⟩
  · rw [if_pos accepted]
    by_cases sameId : id = success.subject
    · subst sameId
      rw [Function.update_self, Option.some.injEq]
      constructor
      · rintro rfl
        exact ⟨instrumentId, owned, selfHeard⟩
      · rintro ⟨instrumentId', owns, _⟩
        exact (consistent.owner_eq apart reported owned owns).symm
    · rw [Function.update_of_ne sameId, consistent.index]
      refine exists_congr fun instrumentId' => and_congr_right fun owns => ?_
      have differs : other ≠ orderId := by
        rintro rfl
        exact sameId (congrArg Prod.snd (consistent.uniqueKey other _ _ owns owned))
      rw [otherHeard other differs]
  · rw [if_neg (by simp [late]), consistent.index]
    refine exists_congr fun instrumentId' => and_congr_right fun owns => ?_
    by_cases same : other = orderId
    · subst same
      exact iff_of_true heard selfHeard
    · rw [otherHeard other same]

/-- An event that is related to its order is applied to it. -/
theorem delivered (apart : Journal.NoSharedIds router.matchingEngine.journal)
    (reported : (instrumentId, success) ∈ router.reports)
    (owned : (orderId, instrumentId, success.subject) ∈ router.owners)
    (found : router.orders orderId = some info)
    (inTime : success.isAccepted = true ∧ appliedTo orderId applied = [] ∨
      success.isAccepted = false ∧ appliedTo orderId applied ≠ []) {after : TradeGateway Q}
    (ready : after.Ready users) :
    Consistent contract users (applied ++ [(orderId, instrumentId, success)])
      (setGateway after (settleEvent orderId info.order success
        (takeUp instrumentId success router))) := by
  let router' := setGateway after (settleEvent orderId info.order success
    (takeUp instrumentId success router))
  have engine : router'.matchingEngine = router.matchingEngine := settleEvent_matchingEngine ..
  have processed : router'.processed = router.processed ++ [(instrumentId, success)] :=
    settleEvent_processed ..
  have orders : router'.orders =
      Function.update router.orders orderId (some (applyEvent success info)) := by
    have settled := settleEvent_orders orderId info.order success
      (takeUp instrumentId success router)
    rwa [show (takeUp instrumentId success router).orders = router.orders from rfl, found] at settled
  have sameBook : router'.getOrderbook = router.getOrderbook := by
    funext instrumentId
    rw [getOrderbook, engine, getOrderbook]
  have sameReports : router'.reports = router.reports := by rw [reports, engine]
  have sameOwners : router'.owners = router.owners := by rw [OrderRouter.owners, engine]
  -- the orders keep what they are about
  have orderOf : ∀ other info', router'.orders other = some info' →
      ∃ info, router.orders other = some info ∧ info'.order = info.order := by
    intro other info' found'
    rw [orders] at found'
    by_cases same : other = orderId
    · subst same
      rw [Function.update_self, Option.some.injEq] at found'
      exact ⟨info, found, by rw [← found', applyEvent_order]⟩
    · rw [Function.update_of_ne same] at found'
      exact ⟨info', found', rfl⟩
  have appliedOther : ∀ other, other ≠ orderId →
      appliedTo other (applied ++ [(orderId, instrumentId, success)]) = appliedTo other applied := by
    intro other differs
    rw [appliedTo_append, appliedTo_singleton_of_ne differs.symm, List.append_nil]
  have appliedSelf : appliedTo orderId (applied ++ [(orderId, instrumentId, success)]) =
      appliedTo orderId applied ++ [success] := by
    rw [appliedTo_append, appliedTo_singleton_self]
  refine ⟨ready, fun other info' found' => ?_, fun other info' found' => ?_,
    fun accountId order member => ?_, fun instrument book hosted => ?_, ?_, fun other key owns => ?_, ?_, ?_, fun report member => ?_,
    fun id other => ?_, fun other key owns => ?_, fun other none => ?_,
    fun other info' found' => ?_⟩
  · rcases orderOf other info' found' with ⟨info, before, same⟩
    rw [same]
    exact consistent.sound other info before
  · rcases orderOf other info' found' with ⟨info, before, _⟩
    rw [show (setGateway after (settleEvent orderId _ success
      (takeUp instrumentId success router))).orderSeq = router.orderSeq from
        settleEvent_orderSeq ..]
    exact consistent.below other info before
  · have before := settleEvent_activeOrders _ _ _ _ member
    rw [show (setGateway after (settleEvent orderId _ success
      (takeUp instrumentId success router))).orderSeq = router.orderSeq from
        settleEvent_orderSeq ..]
    exact consistent.active accountId order before
  · rw [sameBook] at hosted
    rcases consistent.books instrument book hosted with ⟨total, explained, totals⟩
    refine ⟨total, by rwa [sameReports], fun other id info' owns found' => ?_⟩
    rw [sameOwners] at owns
    rcases orderOf other info' found' with ⟨info, before, same⟩
    rw [same]
    exact totals other id info owns before
  · rw [sameOwners, sameBook]
    exact consistent.hosted
  · rw [sameOwners] at owns
    rcases consistent.known other key owns with ⟨info', before, rest⟩
    by_cases same : other = orderId
    · subst same
      rw [found, Option.some.injEq] at before
      subst before
      exact ⟨applyEvent success info, by rw [orders, Function.update_self], by simpa using rest⟩
    · exact ⟨info', by rw [orders, Function.update_of_ne same, before], rest⟩
  · rw [sameOwners]
    exact consistent.uniqueOwner
  · rw [sameOwners]
    exact consistent.uniqueKey
  · rw [processed] at member
    rw [sameReports]
    rcases List.mem_append.mp member with earlier | last
    · exact consistent.taken report earlier
    · rwa [List.mem_singleton.mp last]
  · rw [sameOwners]
    have index := settleEvent_engineIdToOrder orderId info.order success
      (takeUp instrumentId success router)
    exact (congrFun index id).symm ▸ consistent.index_append apart reported owned inTime id other
  · rw [sameOwners] at owns
    rw [processed]
    exact consistent.heard_append owned inTime owns
  · rw [sameOwners] at none
    have differs : other ≠ orderId := by
      rintro rfl
      exact none _ owned
    rw [appliedOther other differs]
    exact consistent.unowned other none
  · rw [sameOwners]
    by_cases same : other = orderId
    · subst same
      rw [orders, Function.update_self, Option.some.injEq] at found'
      rcases consistent.route other info found with ⟨first, idle, pending, replayed⟩
      refine ⟨first, idle, pending, ?_⟩
      rw [appliedSelf, replay_append, ← replayed, ← found']
      rfl
    · rw [orders, Function.update_of_ne same] at found'
      rw [appliedOther other same]
      exact consistent.route other info' found'

end

theorem marked (consistent : Consistent contract users applied router)
    (order : ∀ info, (change info).order = info.order)
    (idle : ∀ info, info.Idle → (change info).Idle)
    (unowned : ∀ key, (orderId, key) ∉ router.owners) :
    Consistent contract users applied (modifyRoute orderId change router) := by
  -- the orders keep what they are about
  have orderOf : ∀ other info', (modifyRoute orderId change router).orders other = some info' →
      ∃ info, router.orders other = some info ∧ info'.order = info.order := by
    intro other info' found'
    by_cases same : other = orderId
    · subst same
      simp only [modifyRoute, Function.update_self, Option.map_eq_some_iff] at found'
      rcases found' with ⟨info, found, rfl⟩
      exact ⟨info, found, order info⟩
    · simp only [modifyRoute, Function.update_of_ne same] at found'
      exact ⟨info', found', rfl⟩
  refine ⟨consistent.ready, fun other info' found' => ?_, fun other info' found' => ?_,
    consistent.active, fun instrument book hosted => ?_, consistent.hosted, fun other key owns => ?_,
    consistent.uniqueOwner, consistent.uniqueKey, consistent.taken, consistent.index,
    consistent.heard, consistent.unowned, fun other info' found' => ?_⟩
  · rcases orderOf other info' found' with ⟨info, before, same⟩
    rw [same]
    exact consistent.sound other info before
  · rcases orderOf other info' found' with ⟨info, before, _⟩
    exact consistent.below other info before
  · rcases consistent.books instrument book hosted with ⟨total, explained, totals⟩
    refine ⟨total, explained, fun other id info' owns found' => ?_⟩
    rcases orderOf other info' found' with ⟨info, before, same⟩
    rw [same]
    exact totals other id info owns before
  · have differs : other ≠ orderId := by
      rintro rfl
      exact unowned key owns
    rcases consistent.known other key owns with ⟨info, before, rest⟩
    exact ⟨info, by simp only [modifyRoute, Function.update_of_ne differs, before], rest⟩
  · by_cases same : other = orderId
    · subst same
      simp only [modifyRoute, Function.update_self, Option.map_eq_some_iff] at found'
      rcases found' with ⟨info, found, rfl⟩
      rcases consistent.route other info found with ⟨first, firstIdle, _, replayed⟩
      rw [consistent.unowned other unowned] at replayed ⊢
      rw [replayed]
      exact ⟨change first, idle first firstIdle, fun key owns => absurd owns (unowned key), rfl⟩
    · simp only [modifyRoute, Function.update_of_ne same] at found'
      exact consistent.route other info' found'

theorem placed (consistent : Consistent contract users applied router) {placement : Placement}
    (unknown : router.orders placement.orderId = none)
    (below : Below router.orderSeq placement.orderId)
    (sound : Sound (insert placement.req.accountId users) placement.order) :
    Consistent contract (insert placement.req.accountId users) applied
      (indexOrder now placement qaOrderId (putAccount placement.req.accountId account router)) := by
  have unowned : ∀ key, (placement.orderId, key) ∉ router.owners := by
    intro key owns
    rcases consistent.known _ _ owns with ⟨info, found, _⟩
    rw [unknown] at found
    cases found
  let info := routeInfo now placement.req placement.order qaOrderId
  have differs : ∀ other key, (other, key) ∈ router.owners → other ≠ placement.orderId := by
    rintro other key owns rfl
    exact unowned key owns
  refine ⟨⟨consistent.ready.disk, fun user member => ?_⟩, fun other info' found' => ?_,
    fun other info' found' => ?_, fun accountId order member => ?_,
    fun instrument book hosted => ?_, consistent.hosted,
    fun other key owns => ?_, consistent.uniqueOwner, consistent.uniqueKey, consistent.taken,
    consistent.index, consistent.heard, consistent.unowned, fun other info' found' => ?_⟩
  · rcases Set.mem_insert_iff.mp member with rfl | member
    · simp [indexOrder, putAccount, AccountManager.Has, AccountManager.putAccount]
    · exact AccountManager.has_putAccount (consistent.ready.accounts user member)
  · by_cases same : other = placement.orderId
    · subst same
      simp only [indexOrder, Function.update_self, Option.some.injEq] at found'
      rw [← found']
      exact sound
    · simp only [indexOrder, Function.update_of_ne same] at found'
      have before := consistent.sound other info' found'
      exact ⟨Set.mem_insert_of_mem _ before.user, before.towards⟩
  · by_cases same : other = placement.orderId
    · subst same
      exact below
    · simp only [indexOrder, Function.update_of_ne same] at found'
      exact consistent.below other info' found'
  · simp only [indexOrder, PreTradeCheck.registerActiveOrder] at member
    by_cases same : accountId = placement.req.accountId
    · subst same
      rw [Function.update_self] at member
      rcases List.mem_append.mp member with earlier | last
      · exact consistent.active _ order earlier
      · rw [List.mem_singleton.mp last]
        exact below
    · rw [Function.update_of_ne same] at member
      exact consistent.active accountId order member
  · rcases consistent.books instrument book hosted with ⟨total, explained, totals⟩
    refine ⟨total, explained, fun other id info' owns found' => ?_⟩
    simp only [indexOrder, Function.update_of_ne (differs other _ owns)] at found'
    exact totals other id info' owns found'
  · rcases consistent.known other key owns with ⟨info, before, rest⟩
    refine ⟨info, ?_, rest⟩
    simp only [indexOrder, Function.update_of_ne (differs other key owns)]
    exact before
  · by_cases same : other = placement.orderId
    · subst same
      simp only [indexOrder, Function.update_self, Option.some.injEq] at found'
      rw [consistent.unowned _ unowned, ← found']
      exact ⟨_, ⟨.inl rfl, rfl, rfl⟩, fun _ _ => rfl, rfl⟩
    · simp only [indexOrder, Function.update_of_ne same] at found'
      exact consistent.route other info' found'

/-! ## Calls of a book -/

theorem reports_processOrder (orderId instrumentId : String) (book : Q.Orderbook)
    (request : OrderRequest) (router : OrderRouter Q) :
    (processOrder orderId instrumentId book request router).reports = router.reports ++
      (⟨orderId, instrumentId, (Q.processOrder book request).1⟩ : Booking).reports := by
  simp [OrderRouter.reports, processOrder]

theorem owners_processOrder (orderId instrumentId : String) (book : Q.Orderbook)
    (request : OrderRequest) (router : OrderRouter Q) :
    (processOrder orderId instrumentId book request router).owners = router.owners ++
      (⟨orderId, instrumentId, (Q.processOrder book request).1⟩ : Booking).owners := by
  simp [OrderRouter.owners, processOrder]

variable {request : OrderRequest} {id : ℕ}

theorem owners_accepted {events : List Success} (answer : (Q.processOrder book request).1 =
      .ok (.Accepted id orderType ts) :: events.map .ok)
    (fills : ∀ success ∈ events, success.fill?.isSome = true) (router : OrderRouter Q) :
    (processOrder orderId instrumentId book request router).owners =
      router.owners ++ [(orderId, instrumentId, id)] := by
  rw [owners_processOrder, answer, ← List.map_cons, Booking.owners_accepted]
  exact fun success member => Success.isAccepted_of_fill (fills success member)

theorem getOrderbook_processOrder (orderId instrumentId : String) (book : Q.Orderbook)
    (request : OrderRequest) (router : OrderRouter Q) :
    (processOrder orderId instrumentId book request router).getOrderbook instrumentId =
      some (Q.processOrder book request).2 := by
  simp [getOrderbook, processOrder]

theorem getOrderbook_processOrder_of_ne (orderId : String) (differs : other ≠ instrumentId)
    (book : Q.Orderbook) (request : OrderRequest) (router : OrderRouter Q) :
    (processOrder orderId instrumentId book request router).getOrderbook other =
      router.getOrderbook other := by
  simp [getOrderbook, processOrder, Function.update_of_ne differs]

theorem entriesOf_reports_of_ne {booking : Booking}
    (differs : booking.instrumentId ≠ instrumentId) :
    entriesOf instrumentId booking.reports = [] := by
  exact entriesOf_map_of_ne _ differs _

theorem hosted_processOrder (hosted : ∃ book, router.getOrderbook other = some book) :
    ∃ book', (processOrder orderId instrumentId book request router).getOrderbook other =
      some book' := by
  by_cases same : other = instrumentId
  · subst same
    exact ⟨_, getOrderbook_processOrder ..⟩
  · rwa [getOrderbook_processOrder_of_ne _ same]

section

variable (consistent : Consistent contract users applied router)
include consistent

theorem rebooked (hosted : router.getOrderbook instrumentId = some book)
    (noOwner : (⟨orderId, instrumentId, (Q.processOrder book request).1⟩ : Booking).owners = [])
    (explains : ∀ total log, Explains total log (contract.ledger book) →
      Explains total (log ++ entriesOf instrumentId
        (⟨orderId, instrumentId, (Q.processOrder book request).1⟩ : Booking).reports)
        (contract.ledger (Q.processOrder book request).2)) :
    Consistent contract users applied (processOrder orderId instrumentId book request router) := by
  have sameOwners :
      (processOrder orderId instrumentId book request router).owners = router.owners := by
    rw [owners_processOrder, noOwner, List.append_nil]
  refine ⟨consistent.ready, consistent.sound, consistent.below, consistent.active,
    fun other book' hosted' => ?_,
    fun other key owns => ?_, ?_, ?_, ?_, fun report member => ?_, ?_, ?_, ?_, ?_⟩
  · rw [sameOwners, reports_processOrder, entriesOf_append]
    by_cases same : other = instrumentId
    · subst same
      rw [getOrderbook_processOrder, Option.some.injEq] at hosted'
      rcases consistent.books other book hosted with ⟨total, explained, totals⟩
      rw [← hosted']
      exact ⟨total, explains total _ explained, totals⟩
    · rw [getOrderbook_processOrder_of_ne _ same] at hosted'
      rw [entriesOf_reports_of_ne (Ne.symm same), List.append_nil]
      exact consistent.books other book' hosted'
  · rw [sameOwners] at owns
    exact hosted_processOrder (consistent.hosted other key owns)
  · rw [sameOwners]
    exact consistent.known
  · rw [sameOwners]
    exact consistent.uniqueOwner
  · rw [sameOwners]
    exact consistent.uniqueKey
  · rw [reports_processOrder]
    exact List.mem_append_left _ (consistent.taken report member)
  · rw [sameOwners]
    exact consistent.index
  · rw [sameOwners]
    exact consistent.heard
  · rw [sameOwners]
    exact consistent.unowned
  · rw [sameOwners]
    exact consistent.route

/-- Under an id that was never issued nothing was reported. -/
theorem ofKey_reports_eq_nil (hosted : router.getOrderbook instrumentId = some book)
    (fresh : ¬(contract.ledger book).issued id) : ofKey (instrumentId, id) router.reports = [] := by
  rcases consistent.books instrumentId book hosted with ⟨total, explained, _⟩
  have silent := explained.silent id fresh
  rw [show entriesOf instrumentId router.reports = entriesOf (instrumentId, id).1 router.reports
    from rfl, eventsOf_entriesOf (instrumentId, id)] at silent
  exact List.map_eq_nil_iff.mp silent

theorem not_mem_owners_of_fresh (hosted : router.getOrderbook instrumentId = some book)
    (fresh : ¬(contract.ledger book).issued id) (orderId : String) :
    (orderId, instrumentId, id) ∉ router.owners := by
  intro owns
  rcases Journal.exists_report_of_mem_owners owns with ⟨report, reported, sameKey, _⟩
  have member : report.2 ∈ ofKey (instrumentId, id) router.reports := by
    rw [← sameKey]
    exact mem_ofKey.mpr ⟨reported, rfl⟩
  rw [consistent.ofKey_reports_eq_nil hosted fresh] at member
  cases member

theorem booked (hosted : router.getOrderbook instrumentId = some book) {events : List Success}
    (answer : (Q.processOrder book request).1 =
      .ok (.Accepted id orderType ts) :: events.map .ok) (fresh : ¬(contract.ledger book).issued id)
    (positive : 0 < volume)
    (issued : ∀ other, (contract.ledger (Q.processOrder book request).2).issued other ↔
      other = id ∨ (contract.ledger book).issued other)
    (matched : Matches id (Function.update (contract.ledger book).left id volume) events
      (contract.ledger (Q.processOrder book request).2).left)
    (found : router.orders orderId = some info) (status : info.status = .PendingRoute)
    (instrument : info.order.instrumentId = instrumentId) (whole : info.order.volumeOrign = volume)
    (unowned : ∀ key, (orderId, key) ∉ router.owners) :
    Consistent contract users applied (processOrder orderId instrumentId book request router) := by
  have newOwner : (processOrder orderId instrumentId book request router).owners = _ :=
    owners_accepted answer matched.isSome_fill router
  have newReports := reports_processOrder orderId instrumentId book request router
  rw [answer, ← List.map_cons, Booking.reports_ok] at newReports
  have notOwned := consistent.not_mem_owners_of_fresh hosted fresh
  have owners_cases : ∀ other key,
      (other, key) ∈ (processOrder orderId instrumentId book request router).owners →
      (other, key) ∈ router.owners ∨ other = orderId ∧ key = (instrumentId, id) := by
    intro other key owns
    rw [newOwner, List.mem_append, List.mem_singleton, Prod.mk.injEq] at owns
    exact owns
  have unheard : appliedTo orderId applied = [] := consistent.unowned orderId unowned
  refine ⟨consistent.ready, consistent.sound, consistent.below, consistent.active,
    fun other book' hosted' => ?_,
    fun other key owns => ?_, fun other key owns => ?_, fun first second key owns owns' => ?_,
    fun other key key' owns owns' => ?_, fun report member => ?_, fun id' other => ?_,
    fun other key owns => ?_, fun other none => ?_, fun other info' found' => ?_⟩
  · rw [newReports, entriesOf_append]
    by_cases same : other = instrumentId
    · subst same
      rw [getOrderbook_processOrder, Option.some.injEq] at hosted'
      subst hosted'
      rcases consistent.books other book hosted with ⟨total, explained, totals⟩
      refine ⟨Function.update total id volume, ?_, fun order id' info' owns found' => ?_⟩
      · rw [entriesOf_map]
        exact explained.placed fresh issued matched.fills
      · rcases owners_cases order _ owns with before | ⟨rfl, sameKey⟩
        · have differs : id' ≠ id := by
            rintro rfl
            exact notOwned order before
          rw [Function.update_of_ne differs]
          exact totals order id' info' before found'
        · obtain rfl : id' = id := congrArg Prod.snd sameKey
          rw [Function.update_self, ← whole, Option.some.inj (found'.symm.trans found)]
    · rw [getOrderbook_processOrder_of_ne _ same] at hosted'
      rcases consistent.books other book' hosted' with ⟨total, explained, totals⟩
      rw [entriesOf_map_of_ne _ (Ne.symm same), List.append_nil]
      refine ⟨total, explained, fun order id' info' owns found' => ?_⟩
      rcases owners_cases order _ owns with before | ⟨rfl, sameKey⟩
      · exact totals order id' info' before found'
      · exact absurd (congrArg Prod.fst sameKey) same
  · rcases owners_cases other key owns with before | ⟨rfl, rfl⟩
    · exact hosted_processOrder (consistent.hosted other key before)
    · exact ⟨_, getOrderbook_processOrder ..⟩
  · rcases owners_cases other key owns with before | ⟨rfl, rfl⟩
    · exact consistent.known other key before
    · exact ⟨info, found, instrument, by rwa [whole]⟩
  · rcases owners_cases first key owns with before | ⟨rfl, rfl⟩ <;>
      rcases owners_cases second _ owns' with before' | ⟨rfl, same⟩
    · exact consistent.uniqueOwner first second key before before'
    · exact absurd (same ▸ before) (notOwned first)
    · exact absurd before' (notOwned second)
    · rfl
  · rcases owners_cases other key owns with before | ⟨rfl, same⟩ <;>
      rcases owners_cases _ key' owns' with before' | ⟨isOrder, same'⟩
    · exact consistent.uniqueKey other key key' before before'
    · exact absurd (isOrder ▸ before) (unowned key)
    · exact absurd before' (unowned key')
    · rw [same, same']
  · rw [newReports]
    exact List.mem_append_left _ (consistent.taken report member)
  · refine (consistent.index id' other).trans (exists_congr fun instrument' => ?_)
    refine and_congr_left fun heard => ⟨fun before => ?_, fun owns => ?_⟩
    · rw [newOwner]
      exact List.mem_append_left _ before
    · rcases owners_cases other _ owns with before | ⟨rfl, _⟩
      · exact before
      · exact absurd unheard heard
  · rcases owners_cases other key owns with before | ⟨rfl, rfl⟩
    · exact consistent.heard other key before
    · have silent := consistent.ofKey_reports_eq_nil hosted fresh
      rw [unheard, eq_comm, fromAccepted_eq_nil]
      intro success member
      have reported := consistent.taken _ (mem_ofKey.mp member).1
      have inReports := mem_ofKey.mpr ⟨reported, (mem_ofKey.mp member).2⟩
      rw [silent] at inReports
      cases inReports
  · refine consistent.unowned other fun key owns => none key ?_
    rw [newOwner]
    exact List.mem_append_left _ owns
  · rcases consistent.route other info' found' with ⟨first, idle, pending, replayed⟩
    refine ⟨first, idle, fun key owns => ?_, replayed⟩
    rcases owners_cases other key owns with before | ⟨rfl, _⟩
    · exact pending key before
    · have same : info' = info := Option.some.inj (found'.symm.trans found)
      rw [unheard, replay_nil] at replayed
      rw [← replayed, same, status]

end

end Consistent

end OrderRouter

end QAExchange
