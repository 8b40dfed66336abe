import QAExchange.Exchange.StatusOrder

/-! # The filled volume of an order

Calls one after the other take up every event in the order of the books. The
filled volume of an order is then what its matches filled, unless a last fill
follows a partial one: it stores its own volume only.
-/

namespace QAExchange.OrderRouter

open Foundation Action ReferenceExchange

variable {Q : Qars}

/-- Between two calls: all events are taken up, in order. -/
structure Settled (contract : BookContract Q) (start : OrderRouter Q) (router : OrderRouter Q) :
    Prop where
  ok : ∃ users applied, PoolOk contract start.tally users applied ⟨router, []⟩
  inOrder : router.processed = router.reports

variable {contract : BookContract Q} {router : OrderRouter Q}

/-- A call that is not interrupted takes up all its events. -/
theorem Settled.perform (orders : OrderContract Q) (settled : Settled contract start router)
    (now : Now) (call : Call)
    (apart : Journal.NoSharedIds (perform now router call).matchingEngine.journal) :
    Settled contract start (perform now router call) := by
  rcases settled.ok with ⟨users, applied, ok⟩
  have nothing : call.task.pending = [] := by cases call <;> rfl
  have inOrder : router.reports.filter (fun _ => true) =
      router.processed.filter (fun _ => true) ++ call.task.pending.filter (fun _ => true) := by
    rw [nothing, settled.inOrder, List.filter_nil, List.append_nil]
  rcases PoolOk.solo orders [] [] (ok.call call)
    (solo_perform now router call) apart (fun _ => true) inOrder with
    ⟨⟨users, applied, ok⟩, inOrder⟩
  rw [List.filter_true, List.filter_true] at inOrder
  refine ⟨⟨users, applied, ok.consistent, ok.tally, by simp, List.nodup_nil, ?_⟩, ?_⟩
  · simpa [Task.pending] using ok.flow
  · simpa [Task.pending] using inOrder.symm

theorem journal_perform (now : Now) (router : OrderRouter Q) (call : Call) :
    ∃ more, (perform now router call).matchingEngine.journal =
      router.matchingEngine.journal ++ more :=
  journal_solo (solo_perform now router call)

theorem journal_runCalls (calls : List (Now × Call)) (router : OrderRouter Q) :
    ∃ more, (runCalls calls router).matchingEngine.journal =
      router.matchingEngine.journal ++ more := by
  induction calls generalizing router with
  | nil => exact ⟨[], (List.append_nil _).symm⟩
  | cons call calls induction =>
    rcases journal_perform call.1 router call.2 with ⟨first, grown⟩
    rcases induction (perform call.1 router call.2) with ⟨more, later⟩
    exact ⟨first ++ more, by rw [← List.append_assoc, ← grown]; exact later⟩

theorem Settled.runCalls (orders : OrderContract Q) (settled : Settled contract start router)
    (calls : List (Now × Call))
    (apart : Journal.NoSharedIds (runCalls calls router).matchingEngine.journal) :
    Settled contract start (runCalls calls router) := by
  induction calls generalizing router with
  | nil => exact settled
  | cons call calls induction =>
    refine induction (settled.perform orders call.1 call.2 ?_) apart
    rcases journal_runCalls calls (OrderRouter.perform call.1 router call.2) with ⟨more, grown⟩
    rw [show (OrderRouter.runCalls (call :: calls) router).matchingEngine.journal = _ from grown]
      at apart
    exact apart.of_append

theorem Fresh.settled (fresh : router.Fresh) (contract : BookContract Q) :
    Settled contract router router where
  ok := ⟨_, _, fresh.poolOk contract⟩
  inOrder := by rw [OrderRouter.reports, fresh.created]; rfl

/-! ## What the events of an order fill -/

def eventsOfOrder (orderId : String) (router : OrderRouter Q) : List Success :=
  (router.reports.filter fun report => (orderId, Report.key report) ∈ router.owners).map Prod.snd

/-- The volume of all matches in which an order took part. -/
def matchedVolume (events : List Success) : ℚ :=
  ((events.filterMap Success.fill?).map Fill.volume).sum

/-- The filled volume is the volume of the matches. It stays within the order's
volume and reaches it exactly for a filled order. -/
structure VolumeRight (events : List Success) (info : OrderRouteInfo) : Prop where
  sum : info.filledVolume = matchedVolume events
  atMost : info.filledVolume ≤ info.order.volumeOrign
  whole : info.filledVolume = info.order.volumeOrign ↔ info.status = .Filled

/-- The order was filled in part before its last fill. -/
def PartBeforeLast (events : List Success) : Prop :=
  ∃ part last, .PartiallyFilled part ∈ events ∧ .Filled last ∈ events

theorem partBeforeLast_iff : PartBeforeLast events ↔
    (∃ success ∈ events, statusAfter success = some .PartiallyFilled) ∧
      ∃ success ∈ events, statusAfter success = some .Filled := by
  constructor
  · rintro ⟨part, last, isPart, isLast⟩
    exact ⟨⟨_, isPart, rfl⟩, _, isLast, rfl⟩
  · rintro ⟨⟨part, isPart, partial'⟩, last, isLast, filled⟩
    cases part <;> simp only [statusAfter, Option.some.injEq, reduceCtorEq] at partial'
    cases last <;> simp only [statusAfter, Option.some.injEq, reduceCtorEq] at filled
    exact ⟨_, _, isPart, isLast⟩

instance (events : List Success) : Decidable (PartBeforeLast events) :=
  decidable_of_iff _ partBeforeLast_iff.symm

@[simp] theorem matchedVolume_nil : matchedVolume [] = 0 := rfl

theorem matchedVolume_cons (success : Success) (events : List Success) :
    matchedVolume (success :: events) = success.life.volume + matchedVolume events := by
  cases success <;>
    simp [matchedVolume, List.filterMap_cons, Success.life, Success.fill?, LifeEvent.volume]

theorem matchedVolume_append (first rest : List Success) :
    matchedVolume (first ++ rest) = matchedVolume first + matchedVolume rest := by
  simp [matchedVolume]

theorem filledTotal_life (events : List Success) :
    filledTotal (events.map Success.life) = matchedVolume events := by
  induction events with
  | nil => rfl
  | cons success events induction =>
    rw [matchedVolume_cons, ← induction]
    simp [filledTotal]

theorem replay_filledVolume (partial' : ∀ last, .Filled last ∉ events) (info : OrderRouteInfo) :
    (replay events info).filledVolume = info.filledVolume + matchedVolume events := by
  induction events generalizing info with
  | nil => simp
  | cons success events induction =>
    have rest : ∀ last, .Filled last ∉ events := fun last member =>
      partial' last (List.mem_cons_of_mem _ member)
    rw [replay_cons, induction rest, matchedVolume_cons, ← add_assoc]
    congr 1
    cases success with
    | Filled last => exact absurd List.mem_cons_self (partial' last)
    | PartiallyFilled part => rfl
    | Accepted | Amended | Cancelled => simp [applyEvent, Success.life, LifeEvent.volume]

variable {total left : ℚ} {events : List Success}

/-- The last fill is the last event. -/
theorem split_last (life : Life total left (events.map Success.life))
    (member : .Filled last ∈ events) : ∃ earlier, events = earlier ++ [.Filled last] := by
  rcases List.append_of_mem member with ⟨earlier, later, rfl⟩
  rw [List.map_append, List.map_cons] at life
  have spent := List.map_eq_nil_iff.mp (life.eq_nil_of_isEnd rfl)
  exact ⟨earlier, by rw [spent]⟩

theorem volumeRight_iff (life : Life total left (events.map Success.life)) (positive : 0 < total)
    (replayed : info = replay events first) (whole : info.order.volumeOrign = total)
    (pending : first.status = .PendingRoute) (nothing : first.filledVolume = 0) :
    VolumeRight events info ↔ ¬PartBeforeLast events := by
  by_cases final : ∃ last, .Filled last ∈ events
  · rcases final with ⟨last, member⟩
    rcases split_last life member with ⟨earlier, split⟩
    have status := replay_status earlier (.Filled last) first
    rw [← split, ← replayed] at status
    have filled : info.filledVolume = last.volume := by rw [replayed, split, replay_append]; rfl
    have all : matchedVolume events = total := by
      rw [← filledTotal_life]
      exact (life.filledTotal_eq_iff positive).mpr ⟨last.volume, List.mem_map.mpr ⟨_, member, rfl⟩⟩
    have sum : matchedVolume events = matchedVolume earlier + last.volume := by
      rw [split, matchedVolume_append, matchedVolume_cons, matchedVolume_nil, add_zero]
      rfl
    constructor
    · rintro right ⟨part, _, isPart, _⟩
      have inEarlier : LifeEvent.part part.volume ∈ earlier.map Success.life := by
        rw [split] at isPart
        exact List.mem_map.mpr ⟨.PartiallyFilled part, by simpa using isPart, rfl⟩
      rw [split, List.map_append] at life
      rcases Life.of_append (List.ne_nil_of_mem inEarlier) life with ⟨_, before, _⟩
      have some := before.filledTotal_pos inEarlier
      have sumRight := right.sum
      rw [filledTotal_life] at some
      rw [filled, sum] at sumRight
      linarith
    · intro noPart
      have noFill : earlier.filterMap Success.fill? = [] := by
        rw [List.filterMap_eq_nil_iff]
        intro success inEarlier
        have inEvents : success ∈ events := by
          rw [split]
          exact List.mem_append_left _ inEarlier
        cases success with
        | PartiallyFilled part => exact absurd ⟨part, last, inEvents, member⟩ noPart
        | Filled other =>
          rcases List.append_of_mem inEarlier with ⟨before, after, rfl⟩
          rw [split, List.append_assoc, List.cons_append, List.map_append,
            List.map_cons] at life
          have spent := life.eq_nil_of_isEnd rfl
          simp at spent
        | Accepted | Amended | Cancelled => rfl
      have none : matchedVolume earlier = 0 := by rw [matchedVolume, noFill]; rfl
      rw [none, zero_add] at sum
      refine ⟨by rw [filled, sum], by rw [filled, ← sum, all, whole], ?_⟩
      rw [filled, ← sum, all, whole]
      exact iff_of_true rfl (Option.some.inj status)
  · have noLast : ∀ last, .Filled last ∉ events := fun last member => final ⟨last, member⟩
    have filled : info.filledVolume = matchedVolume events := by
      rw [replayed, replay_filledVolume noLast, nothing, zero_add]
    refine iff_of_true ⟨filled, ?_, ?_⟩ fun ⟨_, last, _, member⟩ => noLast last member
    · rw [filled, whole, ← filledTotal_life]
      exact life.filledTotal_le positive
    · rw [filled, whole, ← filledTotal_life, life.filledTotal_eq_iff positive]
      refine iff_of_false ?_ fun isFilled => ?_
      · rintro ⟨volume, member⟩
        rcases List.mem_map.mp member with ⟨success, inEvents, isFinal⟩
        cases success <;> simp only [Success.life, reduceCtorEq] at isFinal
        exact noLast _ inEvents
      · rcases List.eq_nil_or_concat' events with rfl | ⟨earlier, last, rfl⟩
        · rw [replayed, replay_nil, pending] at isFilled
          cases isFilled
        · rcases statusAfter_of_life life (List.mem_append_right _ (List.mem_singleton_self last))
            with ⟨status, sets⟩
          have after := replay_status earlier last first
          rw [← replayed, sets, Option.some_or, isFilled, Option.some.injEq] at after
          subst after
          cases last <;> simp only [statusAfter, reduceCtorEq, Option.some.injEq] at sets
          exact noLast _ (List.mem_append_right _ (List.mem_singleton_self _))

theorem eventsOfOrder_of_owned (consistent : Consistent contract users applied router)
    (owned : (orderId, key) ∈ router.owners) :
    eventsOfOrder orderId router = ofKey key router.reports := by
  unfold eventsOfOrder ofKey
  congr 1
  refine List.filter_congr fun report _ => ?_
  refine decide_eq_decide.mpr ⟨fun owns => consistent.uniqueKey _ _ _ owns owned, ?_⟩
  rintro rfl
  exact owned

theorem eventsOfOrder_of_unowned (unowned : Unowned router orderId) :
    eventsOfOrder orderId router = [] := by
  rw [eventsOfOrder, List.map_eq_nil_iff, List.filter_eq_nil_iff]
  exact fun report _ owns => unowned _ (of_decide_eq_true owns)

theorem volumeRight_idle_iff {info : OrderRouteInfo} (idle : info.Idle) :
    VolumeRight [] info ↔ 0 < info.order.volumeOrign := by
  have unfilled : info.status ≠ .Filled := by
    rcases idle.status with status | status <;> simp [status]
  constructor
  · intro right
    refine lt_of_le_of_ne (idle.filledVolume ▸ right.atMost) fun zero => ?_
    exact unfilled (right.whole.mp (idle.filledVolume.trans zero))
  · intro positive
    refine ⟨idle.filledVolume, idle.filledVolume ▸ positive.le, ?_⟩
    rw [idle.filledVolume]
    exact iff_of_false positive.ne unfilled

/-- An order of `a` and two of `b` that fill it. -/
def sellAndBuyTwice : List (Now × Call) :=
  [(clock, .submit (openOrder "a" "X" "SELL" 5 100)),
   (clock, .submit (openOrder "b" "X" "BUY" 3 100)),
   (clock, .submit (openOrder "b" "X" "BUY" 2 100))]

end QAExchange.OrderRouter
