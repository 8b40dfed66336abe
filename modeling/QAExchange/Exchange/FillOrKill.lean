import QAExchange.Exchange.BookedVolume
import QAExchange.Exchange.FilledVolume

/-! # Fill or kill

The volume of a fill-or-kill order is checked on the book before its funds are
frozen, and the order is booked later. Between the two others can take a part of
the volume. An order that found nothing then rests until it is cancelled.
-/

namespace QAExchange.OrderRouter

open Foundation Action ReferenceExchange

variable {Q : Qars}

def IsFok (router : OrderRouter Q) (orderId : String) : Prop :=
  (router.termsOf orderId).map (fun terms => terms.2) = some (.IOC, .ALL)

instance (router : OrderRouter Q) (orderId : String) : Decidable (router.IsFok orderId) := by
  unfold IsFok
  infer_instance

def AllOrNothing (router : OrderRouter Q) : Prop :=
  ∀ orderId info, router.orders orderId = some info → router.IsFok orderId →
    matchedVolume (eventsOfOrder orderId router) = 0 ∨
      matchedVolume (eventsOfOrder orderId router) = info.order.volumeOrign

/-- A booking that the book accepts: a fill-or-kill order finds its volume or
nothing, and no resting one is matched for a part of its volume. -/
structure KeepsFok (priceTime : PriceTimeContract Q) (router : OrderRouter Q)
    (placement : Placement) (book : Q.Orderbook) (direction : OrderDirection) : Prop where
  taker : router.IsFok placement.orderId →
    placement.order.volumeOrign ≤
        fokVolume book placement.order.direction placement.order.limitPrice ∨
      fokVolume book placement.order.direction placement.order.limitPrice = 0
  makers : ∀ owner ∈ router.owners, owner.2.1 = placement.req.instrumentId →
    router.IsFok owner.1 →
    ∀ found ∈ (sweep direction.side placement.order.limitPrice placement.order.volumeOrign
      (priceTime.queue book direction.side.opposite)).matches',
      found.maker = owner.2.2 → found.remains = 0

instance (priceTime : PriceTimeContract Q) (router : OrderRouter Q) (placement : Placement)
    (book : Q.Orderbook) (direction : OrderDirection) :
    Decidable (KeepsFok priceTime router placement book direction) :=
  decidable_of_iff ((router.IsFok placement.orderId →
      placement.order.volumeOrign ≤
          fokVolume book placement.order.direction placement.order.limitPrice ∨
        fokVolume book placement.order.direction placement.order.limitPrice = 0) ∧
    ∀ owner ∈ router.owners, owner.2.1 = placement.req.instrumentId → router.IsFok owner.1 →
      ∀ found ∈ (sweep direction.side placement.order.limitPrice placement.order.volumeOrign
        (priceTime.queue book direction.side.opposite)).matches',
        found.maker = owner.2.2 → found.remains = 0)
    ⟨fun both => ⟨both.1, both.2⟩, fun kept => ⟨kept.taker, kept.makers⟩⟩

/-- The step is no booking that a book accepts, or the booking keeps the
fill-or-kill orders whole. -/
def BookingKeepsFok (priceTime : PriceTimeContract Q) (now : Now) (router : OrderRouter Q) :
    Task → Prop
  | .booking placement =>
    ∀ book ∈ router.getOrderbook placement.req.instrumentId,
    ∀ direction ∈ OrderDirection.ofString placement.order.direction,
      (⟨placement.orderId, placement.req.instrumentId, (Q.processOrder book
        (limitRequest (Q := Q) now placement.req.instrumentId direction
          placement.order.limitPrice placement.order.volumeOrign)).1⟩ : Booking).owners ≠ [] →
      KeepsFok priceTime router placement book direction
  | _ => True

instance (priceTime : PriceTimeContract Q) (now : Now) (router : OrderRouter Q) :
    ∀ task, Decidable (BookingKeepsFok priceTime now router task)
  | .booking placement => by unfold BookingKeepsFok; infer_instance
  | .submitting .. | .checkingFok _ | .placing _ | .matching .. | .closing _ | .cancelling _
  | .withdrawing _ | .settling .. | .done => .isTrue trivial

/-! ## Matched volumes -/

theorem matchedVolume_matches (matched : Matches taker left events left') (key : OrderKey) :
    matchedVolume (ofKey key (events.map fun success => (key.1, success))) =
      left key.2 - left' key.2 := by
  rw [← filledTotal_life, ← eventsOf_entriesOf, entriesOf_map]
  exact matched.fills.filled_eq key.2

theorem ofKey_map_of_ne {key : OrderKey} (differs : instrumentId ≠ key.1) (events : List Success) :
    ofKey key (events.map fun success => (instrumentId, success)) = [] := by
  simp only [ofKey, List.filter_map, List.map_map, List.map_eq_nil_iff, List.filter_eq_nil_iff]
  intro success _ same
  exact differs (congrArg Prod.fst (of_decide_eq_true same))

variable {priceTime : PriceTimeContract Q} {start : Tally} {users users' : Set String}
  {applied applied' : List Applied} {router : OrderRouter Q} {before after : List Task}
  {task : Task} {now : Now}

/-- An accepted booking adds its matches to the events of an order that was in a
book before. -/
theorem matchedVolume_booked (orderId : String) {instrumentId : String} {book : Q.Orderbook}
    {request : OrderRequest} {id : ℕ} {orderType : OrderType} {ts : ℤ} {events : List Success}
    {volume : ℚ} {left' : ℕ → ℚ} {contract : BookContract Q}
    (answer : (Q.processOrder book request).1 =
      .ok (.Accepted id orderType ts) :: events.map .ok)
    (matched : Matches id (Function.update (contract.ledger book).left id volume) events left')
    (router : OrderRouter Q) {key : OrderKey} (instrument : key.1 = instrumentId)
    (differs : key.2 ≠ id) :
    matchedVolume (ofKey key (processOrder orderId instrumentId book request router).reports) =
      matchedVolume (ofKey key router.reports) +
        ((contract.ledger book).left key.2 - left' key.2) := by
  have notNew : Report.key (instrumentId, .Accepted id orderType ts) ≠ key := by
    intro same
    exact differs (congrArg Prod.snd same).symm
  have added := matchedVolume_matches matched key
  rw [Function.update_of_ne differs] at added
  rw [Consistent.reports_processOrder, answer, ← List.map_cons, Booking.reports_ok, List.map_cons,
    ← List.singleton_append, ofKey_append, ofKey_append, ofKey_singleton_of_ne notNew,
    List.nil_append, matchedVolume_append, ← instrument, added]

/-- A step that matches nothing of an order, or all that was open, keeps the
order whole. -/
theorem allOrNothing_step
    (ok : PoolOk priceTime.bookContract start users applied ⟨router, before ++ task :: after⟩)
    (whole : AllOrNothing router) (kept : BookingKeepsFok priceTime now router task)
    (outcome : Outcome priceTime.bookContract users applied router task users' applied'
      (advance now router task).2 (advance now router task).1) :
    AllOrNothing (advance now router task).2 := by
  intro orderId info' found' fok'
  by_cases owned' : ∃ key, (orderId, key) ∈ (advance now router task).2.owners
  swap
  · left
    rw [eventsOfOrder_of_unowned fun key owns => owned' ⟨key, owns⟩]
    rfl
  rcases owned' with ⟨key, owned'⟩
  rw [eventsOfOrder_of_owned outcome.consistent owned']
  have taskOk := ok.tasks task (List.mem_append_right _ List.mem_cons_self)
  -- an order that was in a book before has kept its terms
  have existing : (orderId, key) ∈ router.owners → ∃ info, router.orders orderId = some info ∧
      info'.order = info.order ∧ router.IsFok orderId := by
    intro owned
    rcases ok.consistent.known orderId key owned with ⟨info, found, _⟩
    have terms := termsOf_advance now taskOk found
    refine ⟨info, found, ?_, by rwa [IsFok, ← terms]⟩
    rw [termsOf, termsOf, found', show router.orders orderId = some info from found] at terms
    exact (Prod.mk.inj (Option.some.inj terms)).1
  have unchanged : (orderId, key) ∈ router.owners →
      matchedVolume (ofKey key (advance now router task).2.reports) =
        matchedVolume (ofKey key router.reports) →
      matchedVolume (ofKey key (advance now router task).2.reports) = 0 ∨
        matchedVolume (ofKey key (advance now router task).2.reports) =
          info'.order.volumeOrign := by
    intro owned same
    rcases existing owned with ⟨info, found, sameOrder, fok⟩
    rw [same, sameOrder, ← eventsOfOrder_of_owned ok.consistent owned]
    exact whole orderId info found fok
  by_cases outside : task.atBook = false
  · have engine := engine_advance now router task outside
    rw [OrderRouter.owners, engine] at owned'
    refine unchanged owned' ?_
    rw [OrderRouter.reports, engine]
  cases task with
  | submitting | checkingFok | placing | matching | closing | cancelling | settling | done =>
    exact absurd rfl outside
  | withdrawing withdrawal =>
    rcases exec_bookCancel withdrawal router with ⟨book, _, ran⟩ | ⟨_, _, ran⟩ <;>
      simp only [advance, ran, proceed] at owned' unchanged ⊢
    swap
    · exact unchanged owned' trivial
    rcases priceTime.bookContract.cancelOrder book withdrawal.engineId withdrawal.direction with
      ⟨failed, answer, _⟩ | ⟨ts, answer, _⟩
    · rw [Consistent.owners_processOrder, answer] at owned'
      refine unchanged (List.mem_append.mp owned' |>.resolve_right (by rintro ⟨⟩)) ?_
      rw [Consistent.reports_processOrder, answer, Booking.reports_error, List.append_nil]
    · rw [Consistent.owners_processOrder, answer] at owned'
      refine unchanged (List.mem_append.mp owned' |>.resolve_right (by rintro ⟨⟩)) ?_
      rw [Consistent.reports_processOrder, answer, ofKey_append, matchedVolume_append,
        add_eq_left]
      by_cases same : Report.key (withdrawal.order.instrumentId,
        Success.Cancelled withdrawal.engineId ts) = key
      · subst same
        exact congrArg matchedVolume (ofKey_singleton_self _)
      · exact congrArg matchedVolume (ofKey_singleton_of_ne same)
  | booking placement =>
    rcases taskOk with ⟨instrument, unowned, info, found, sameOrder, status⟩
    rcases exec_bookOrder now placement router with
      ⟨book, direction, hosted, valid, ran⟩ | ⟨_, error, ran⟩
    swap
    · simp only [advance, ran, proceedRouting] at owned' unchanged ⊢
      exact unchanged owned' rfl
    have kept := kept book hosted direction valid
    simp only [advance, ran, proceedRouting] at owned' found' fok' unchanged ⊢
    rcases priceTime.bookContract.newLimitOrder book (.fromCode Q placement.req.instrumentId)
      direction placement.order.limitPrice placement.order.volumeOrign now.nanos with
      ⟨failed, answer, _⟩ | ⟨id, orderType, ts, events, answer, fresh, positive, _, matched⟩
    · rw [show OrderRequest.newLimitOrder (.fromCode Q placement.req.instrumentId) direction
        placement.order.limitPrice placement.order.volumeOrign now.nanos =
          limitRequest (Q := Q) now placement.req.instrumentId direction
            placement.order.limitPrice placement.order.volumeOrign from rfl] at answer
      rw [Consistent.owners_processOrder, answer] at owned'
      refine unchanged (List.mem_append.mp owned' |>.resolve_right (by rintro ⟨⟩)) ?_
      rw [Consistent.reports_processOrder, answer, Booking.reports_error, List.append_nil]
    have left := priceTime.left_of_accepted answer
    have others := priceTime.volumes_of_accepted answer
    generalize isRequest : limitRequest (Q := Q) now placement.req.instrumentId direction
      placement.order.limitPrice placement.order.volumeOrign = request at *
    rw [show OrderRequest.newLimitOrder (.fromCode Q placement.req.instrumentId) direction
      placement.order.limitPrice placement.order.volumeOrign now.nanos = request from isRequest]
      at answer left others matched
    have newOwners : (processOrder placement.orderId placement.req.instrumentId book request
        router).owners = router.owners ++ [(placement.orderId, placement.req.instrumentId, id)] :=
      Consistent.owners_accepted answer matched.isSome_fill router
    have accepted : (⟨placement.orderId, placement.req.instrumentId,
        (Q.processOrder book request).1⟩ : Booking).owners ≠ [] := by
      rw [answer, ← List.map_cons, Booking.owners_accepted]
      · simp
      · exact fun success member => Success.isAccepted_of_fill
          (matched.isSome_fill success member)
    have kept := kept accepted
    rw [newOwners, List.mem_append, List.mem_singleton] at owned'
    rcases owned' with owned | isNew
    · by_cases sameBook : key.1 = placement.req.instrumentId
      swap
      · refine unchanged owned ?_
        rw [Consistent.reports_processOrder, answer, ← List.map_cons, Booking.reports_ok,
          ofKey_append, ofKey_map_of_ne (Ne.symm sameBook), List.append_nil]
      have differs : key.2 ≠ id := by
        intro same
        refine ok.consistent.not_mem_owners_of_fresh hosted fresh orderId ?_
        rwa [← sameBook, ← same]
      rcases existing owned with ⟨info', found, sameOrder', fok⟩
      have added := matchedVolume_booked placement.orderId answer matched router sameBook differs
      rcases others key.2 differs (kept.makers _ owned sameBook fok) with same | closed
      · refine unchanged owned ?_
        rw [added]
        exact add_eq_left.mpr (sub_eq_zero.mpr same.symm)
      · rw [added, show (priceTime.bookContract.ledger (Q.processOrder book request).2).left key.2 =
          0 from closed, sub_zero]
        -- either nothing of the order was matched before, or nothing is open
        have life := ok.consistent.life_in_book owned found (sameBook ▸ hosted)
        rcases life.filledTotal_add_left with ⟨sum, _⟩ | ⟨none, _⟩
        · right
          rw [← filledTotal_life, sum, sameOrder']
        · rw [none, add_zero, sameOrder', ← eventsOfOrder_of_owned ok.consistent owned]
          exact whole orderId info' found fok
    · rcases Prod.mk.inj isNew with ⟨rfl, rfl⟩
      have silent := ok.consistent.ofKey_reports_eq_nil hosted fresh
      have added := matchedVolume_matches matched (placement.req.instrumentId, id)
      have accepted : matchedVolume (ofKey (placement.req.instrumentId, id)
          [(placement.req.instrumentId, Success.Accepted id orderType ts)]) = 0 :=
        congrArg matchedVolume (ofKey_singleton_self _)
      rw [Function.update_self, show (priceTime.bookContract.ledger
        (Q.processOrder book request).2).left id = _ from left.1, sub_sub_cancel] at added
      rw [Consistent.reports_processOrder, answer, ← List.map_cons, Booking.reports_ok,
        List.map_cons, ← List.singleton_append, ofKey_append, ofKey_append, silent,
        List.nil_append, matchedVolume_append, accepted, zero_add, added,
        ← priceTime.fokVolume_eq book valid]
      obtain rfl := Option.some.inj (found.symm.trans found')
      rw [sameOrder]
      rcases kept.taker fok' with enough | none
      · exact .inr (min_eq_left enough)
      · left
        rw [none]
        exact min_eq_right positive.le

/-- In every interleaving in which a fill-or-kill order is booked only with its
whole volume or none in the book, and no booking matches a part of a resting
one, each fill-or-kill order trades its whole volume or nothing. -/
theorem fok_all_or_nothing (priceTime : PriceTimeContract Q) (orders : OrderContract Q)
    {router : OrderRouter Q} (fresh : router.Fresh) (turns : List (Turn Call Now))
    (kept : (service Q).Obeys (AtStep (BookingKeepsFok priceTime)) turns ⟨router, []⟩)
    (apart : Journal.NoSharedIds
      ((service Q).run turns ⟨router, []⟩).shared.matchingEngine.journal) :
    AllOrNothing ((service Q).run turns ⟨router, []⟩).shared := by
  have empty : AllOrNothing router := by
    intro orderId info found
    rw [show router.orders = fun _ => none by rw [fresh.created]; rfl] at found
    cases found
  refine (run_preserves priceTime.bookContract orders (fun pool => AllOrNothing pool.shared)
    (fun _ _ holds => holds) ?_ turns kept (fresh.poolOk priceTime.bookContract) empty apart).2
  intro users applied router before task after users' applied' now ok holds allowed outcome _
  exact allOrNothing_step ok holds (allowed task (by simp)) outcome

/-- A fill-or-kill order of `b`. -/
def fokOrder : SubmitOrderRequest :=
  { openOrder "b" "X" "BUY" 5 100 with
    timeCondition := some .IOC
    volumeCondition := some .ALL }

/-- `a` sells what `b` wants to buy, at once or not at all. -/
def sellAndFok : List (Turn Call Now) :=
  [.call (.submit (openOrder "a" "X" "SELL" 5 100)), .call (.submit fokOrder)]

theorem fok_whole_alone : AllOrNothing ((service referenceQars).run
    (sellAndFok ++ (steps 0 8 ++ steps 1 9))
    ⟨twoTraders, []⟩).shared :=
  fok_all_or_nothing ReferenceQars.priceTime ReferenceQars.orderContract
    (router_fresh _ _ _) _ (by decide +kernel) (by decide +kernel)

/-- Another order of `b` takes a part of the volume after the check. -/
def takenAfterCheck : List (Turn Call Now) :=
  sellAndFok ++ (steps 0 8 ++ steps 1 2) ++
    .call (.submit (openOrder "b" "X" "BUY" 3 100)) ::
      (steps 2 9 ++ steps 1 12)

theorem fok_matched_in_part :
    let last := (service referenceQars).run takenAfterCheck ⟨twoTraders, []⟩
    Quiet last ∧ last.shared.IsFok "O17000000000000000000002" ∧
      (last.shared.orders "O17000000000000000000002").map
        (fun info => info.order.volumeOrign) = some 5 ∧
      matchedVolume (eventsOfOrder "O17000000000000000000002" last.shared) = 2 := by
  decide +kernel

end QAExchange.OrderRouter
