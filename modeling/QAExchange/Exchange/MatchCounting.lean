import QAExchange.Exchange.FillDelivery

/-! # How often a match is counted

A match is reported to both of its orders, and each report that reaches an order
is counted. So a match counts twice, unless its resting order is unknown to the
router when the report is taken up.
-/

namespace QAExchange

open Foundation Action ReferenceExchange

variable {Q : Qars}

def fillsOf (owners : List (String × OrderKey)) (orderId : String) (reports : List Report) :
    List (String × Fill) :=
  reports.filterMap fun report =>
    if (orderId, Report.key report) ∈ owners then
      report.2.fill?.map fun fill => (report.1, fill)
    else none

section

variable (owners : List (String × OrderKey)) (orderId : String)

@[simp] theorem fillsOf_nil : fillsOf owners orderId [] = [] := rfl

theorem fillsOf_cons (report : Report) (reports : List Report) :
    fillsOf owners orderId (report :: reports) =
      fillsOf owners orderId [report] ++ fillsOf owners orderId reports :=
  List.filterMap_append (l := [report])

theorem fillsOf_congr {owners owners' : List (String × OrderKey)} {orderId : String}
    {reports : List Report} (same : ∀ report ∈ reports,
      (orderId, Report.key report) ∈ owners' ↔ (orderId, Report.key report) ∈ owners) :
    fillsOf owners' orderId reports = fillsOf owners orderId reports := by
  refine List.filterMap_congr fun report member => ?_
  by_cases owned : (orderId, Report.key report) ∈ owners
  · rw [if_pos owned, if_pos ((same report member).mpr owned)]
  · rw [if_neg owned, if_neg fun owns => owned ((same report member).mp owns)]

end

def Booking.matched (booking : Booking) : List (String × Fill) :=
  fillsOf booking.owners booking.orderId booking.reports

def Journal.matched (journal : List Booking) : List (String × Fill) :=
  journal.flatMap Booking.matched

namespace OrderRouter

/-- Each match of the books was counted once since the start: in the trade
records of its instrument, in the market data feed and in the trade statistics. -/
structure CountedOnce (start : Tally) (router : OrderRouter Q) : Prop where
  records : ∀ instrumentId, (router.tally.records instrumentId).Perm
    (start.records instrumentId ++ ((Journal.matched router.matchingEngine.journal).filter
      fun found => found.1 = instrumentId).map fun found => (found.2.price, found.2.volume))
  feed : ∀ calls ∈ start.feed, ∃ calls' ∈ router.tally.feed, calls'.Perm
    (calls ++ (Journal.matched router.matchingEngine.journal).flatMap fun found =>
      fillCalls found.1 found.2)
  volume : router.tally.volume = start.volume +
    ((Journal.matched router.matchingEngine.journal).map fun found => found.2.volume).sum

def Task.routed : Task → Option String
  | .matching placement _ _ => some placement.orderId
  | .submitting .. | .checkingFok _ | .placing _ | .booking _ | .closing _ | .cancelling _
  | .withdrawing _ | .settling .. | .done => none

def MakerUnknown (router : OrderRouter Q) (orderId : String) (report : Report) : Prop :=
  report.2.fill?.isSome = true → ∀ owner ∈ router.owners, owner.2 = Report.key report →
    owner.1 ≠ orderId → router.engineIdToOrder report.2.subject ≠ some owner.1

instance (router : OrderRouter Q) (orderId : String) (report : Report) :
    Decidable (MakerUnknown router orderId report) := by
  unfold MakerUnknown
  infer_instance

def MakersUnknown (pool : Calls Q) : Turn Call Now → Prop
  | .call _ => True
  | .step _ index => ∀ task ∈ pool.tasks[index]?, ∀ report ∈ task.pending.head?,
      ∀ orderId ∈ task.routed, MakerUnknown pool.shared orderId report

instance decidableMakersUnknown (pool : Calls Q) :
    ∀ turn : Turn Call Now, Decidable (MakersUnknown pool turn)
  | .call _ => .isTrue trivial
  | .step _ index =>
    inferInstanceAs (Decidable (∀ task ∈ pool.tasks[index]?, ∀ report ∈ task.pending.head?,
      ∀ orderId ∈ task.routed, MakerUnknown pool.shared orderId report))

def ownFills (owners : List (String × OrderKey)) (task : Task) : List (String × Fill) :=
  match task.routed with
  | some orderId => fillsOf owners orderId task.pending
  | none => []

/-- What was counted and what waits is what the books matched, with some matches
counted once more for their resting orders. -/
structure Counted (start : Tally) (pool : Calls Q) (fills : List (String × String × Fill))
    (makers : List (String × Fill)) : Prop where
  tally : pool.shared.tally = start.addFills fills
  perm : (fills.map Prod.snd ++ pool.tasks.flatMap (ownFills pool.shared.owners)).Perm
    (Journal.matched pool.shared.matchingEngine.journal ++ makers)

variable {contract : BookContract Q} {router router' : OrderRouter Q} {task task' : Task}

theorem ownFills_other (ok : PoolOk contract start users applied ⟨router, before ++ task :: after⟩)
    (outcome : Outcome contract users applied router task users' applied' router' task')
    {other : Task} (member : other ∈ before ++ task :: after) :
    ownFills router'.owners other = ownFills router.owners other := by
  unfold ownFills
  cases other.routed with
  | none => rfl
  | some orderId =>
    refine fillsOf_congr fun report pending => ⟨fun owns => ?_, fun owned => ?_⟩
    · rcases outcome.newOwner _ owns with owned | silent
      · exact owned
      · have reported : report ∈ router.reports :=
          ok.flow.mem_iff.mpr (List.mem_append_right _ (List.mem_flatMap.mpr ⟨other, member, pending⟩))
        have heard := mem_ofKey.mpr (⟨reported, rfl⟩ :
          ((Report.key report).1, report.2) ∈ router.reports ∧ report.2.subject = _)
        rw [silent] at heard
        cases heard
    · exact outcome.more.owners owned

/-! ## Steps -/

variable {orderId : String}

theorem fillsOf_eq_nil {owners : List (String × OrderKey)} {reports : List Report}
    (noFill : ∀ report ∈ reports, report.2.fill? = none) : fillsOf owners orderId reports = [] := by
  refine List.filterMap_eq_nil_iff.mpr fun report member => ?_
  split_ifs
  · rw [noFill report member, Option.map_none]
  · rfl

theorem tally_eq_of_noFill
    (outcome : Outcome contract users applied router task users' applied' router' task')
    (noFill : ∀ report ∈ task.pending.head?, report.2.fill? = none) :
    router'.tally = router.tally := by
  rcases outcome.tally with ⟨more, _, counted, rfl | ⟨orderId, report, rest, rfl, pending, _⟩⟩
  · exact counted
  · rw [counted, List.foldl_cons, List.foldl_nil, Tally.add, noFill report (by simp [pending])]

/-- A later event is applied to its order exactly if the order was heard of. -/
theorem heard_iff (consistent : Consistent contract users applied router) (report : Report)
    (late : report.2.isAccepted = false) (owned : (orderId, Report.key report) ∈ router.owners)
    {more : List Applied} (consistent' : Consistent contract users' (applied ++ more) router')
    (owned' : (orderId, Report.key report) ∈ router'.owners)
    (processed : router'.processed = router.processed ++ [report]) :
    appliedTo orderId applied ≠ [] ↔ appliedTo orderId more ≠ [] := by
  have before := consistent.heard orderId _ owned
  have after := consistent'.heard orderId _ owned'
  rw [processed, ofKey_append, ofKey_singleton_self, appliedTo_append] at after
  by_cases heard : appliedTo orderId applied = []
  · rw [heard] at before
    rw [heard, fromAccepted_append_of_nil _ before.symm, List.nil_append,
      fromAccepted_eq_nil.mpr (by simpa using late)] at after
    simp [heard, after]
  · rw [before] at heard
    rw [fromAccepted_append_of_ne_nil _ heard, ← before, List.append_cancel_left_eq] at after
    simp [before, heard, after]

/-- A task that takes up an event goes on with the next one or is over. -/
theorem advance_matching (now : Now) (placement : Placement) (handled : Handled)
    (result : OrderProcessingResult) (results : List OrderProcessingResult)
    (router : OrderRouter Q) :
    (advance now router (.matching placement handled (result :: results))).1 = .done ∨
      ∃ handled', (advance now router (.matching placement handled (result :: results))).1 =
        .matching placement handled' results := by
  simp only [advance]
  rcases exec (processResult now placement.orderId placement.order handled result) router with
    ⟨_ | handled', router'⟩
  · exact .inl rfl
  · exact .inr ⟨handled', rfl⟩

theorem indexed_iff (consistent : Consistent contract users applied router) {report : Report}
    (owned : (orderId, Report.key report) ∈ router.owners) :
    router.engineIdToOrder report.2.subject = some orderId ↔ appliedTo orderId applied ≠ [] := by
  rw [consistent.index]
  exact ⟨fun ⟨_, _, heard⟩ => heard, fun heard => ⟨report.1, owned, heard⟩⟩

theorem fill_pos (consistent : Consistent contract users applied router) {report : Report}
    (reported : report ∈ router.reports) (owned : (orderId, Report.key report) ∈ router.owners)
    {fill : Fill} (isFill : report.2.fill? = some fill) : 0 < fill.volume := by
  rcases consistent.known orderId _ owned with ⟨info, found, _⟩
  rcases consistent.life owned found with ⟨_, left, life⟩
  have member : report.2.life ∈ (ofKey (Report.key report) router.reports).map Success.life :=
    List.mem_map_of_mem (mem_ofKey.mpr ⟨reported, rfl⟩)
  rcases report with ⟨instrumentId, success⟩
  cases success <;> simp only [Success.fill?, Option.some.injEq, reduceCtorEq] at isFill <;>
    subst isFill
  · exact life.fill_pos (.inr member)
  · exact life.fill_pos (.inl member)

/-- What a task takes up: an event of its own order is counted if it is a fill, the
fill of a resting order is counted if that order is known. -/
theorem taken_up (ok : PoolOk contract start users applied
      ⟨router, before ++ .matching placement handled (.ok success :: results) :: after⟩)
    (outcome : Outcome contract users applied router
      (.matching placement handled (.ok success :: results)) users' applied' router' task')
    (processed : router'.processed =
      router.processed ++ [(placement.order.instrumentId, success)]) :
    ∃ newFills more, router'.tally = router.tally.addFills newFills ∧
      (newFills.map Prod.snd).Perm (fillsOf router.owners placement.orderId
        [(placement.order.instrumentId, success)] ++ more) ∧
      (more = [] ↔ MakerUnknown router placement.orderId
        (placement.order.instrumentId, success)) ∧ ∀ maker ∈ more, 0 < maker.2.volume := by
  have pending : (Task.matching placement handled (.ok success :: results)).pending =
      (placement.order.instrumentId, success) ::
        (Task.matching placement handled results).pending := rfl
  cases isFill : success.fill? with
  | none =>
    refine ⟨[], [], tally_eq_of_noFill outcome (by simp [pending, isFill]), ?_, ?_, by simp⟩
    · rw [fillsOf_eq_nil (by simp [isFill])]
      exact .nil
    · simp [MakerUnknown, isFill]
  | some fill =>
    have late := Success.isAccepted_of_fill (by rw [isFill]; rfl)
    have ownHeard : appliedTo placement.orderId applied ≠ [] := by
      rcases ok.tasks _ (List.mem_append_right _ List.mem_cons_self) with ⟨_, matchingOk⟩
      generalize isResults : Except.ok success :: results = all at matchingOk
      cases matchingOk with
      | refused | answered => simp at isResults
      | accepted =>
        simp only [List.map_cons, List.cons.injEq, Except.ok.injEq] at isResults
        rw [isResults.1] at isFill
        cases isFill
      | filling _ heard => exact heard
    rcases outcome.tally with ⟨more, rfl, counted, applies⟩
    have heard : ∀ orderId, (orderId, placement.order.instrumentId, success.subject) ∈
        router.owners → (appliedTo orderId applied ≠ [] ↔ appliedTo orderId more ≠ []) := by
      intro orderId owned
      have owned' := outcome.more.owners owned
      exact heard_iff ok.consistent (placement.order.instrumentId, success) late owned
        outcome.consistent owned' processed
    have unique : ∀ owner ∈ router.owners,
        owner.2 = (placement.order.instrumentId, success.subject) →
        (placement.orderId, placement.order.instrumentId, success.subject) ∈ router.owners →
        owner.1 = placement.orderId := by
      rintro ⟨orderId, _⟩ owns rfl own
      exact ok.consistent.uniqueOwner _ _ _ owns own
    rcases applies with rfl | ⟨orderId, report, rest, rfl, isPending, owned⟩
    · have notOwn : (placement.orderId, placement.order.instrumentId, success.subject) ∉
          router.owners := fun own => (heard _ own).mp ownHeard rfl
      refine ⟨[], [], counted, ?_, iff_of_true rfl ?_, by simp⟩
      · rw [show fillsOf router.owners placement.orderId _ = [] by
          simp [fillsOf, Report.key, notOwn]]
        exact .nil
      · rintro _ ⟨orderId, _⟩ owns rfl _ indexed
        exact (heard orderId owns).mp ((indexed_iff ok.consistent owns).mp indexed) rfl
    · rw [pending, List.cons.injEq] at isPending
      obtain rfl := isPending.1
      have added : [(orderId, placement.order.instrumentId, success)].foldl Tally.add
          router.tally = router.tally.addFills [(orderId, placement.order.instrumentId, fill)] := by
        simp [Tally.add, Tally.addFills, isFill]
      refine ⟨[(orderId, placement.order.instrumentId, fill)], ?_⟩
      by_cases own : orderId = placement.orderId
      · subst own
        refine ⟨[], counted.trans added, ?_, iff_of_true rfl ?_, by simp⟩
        · have same : fillsOf router.owners placement.orderId
              [(placement.order.instrumentId, success)] =
                [(placement.order.instrumentId, fill)] := by
            simp only [fillsOf, List.filterMap_cons, if_pos owned, isFill, Option.map_some,
              List.filterMap_nil]
          rw [same]
          exact .refl _
        · exact fun _ owner owns sameKey other => absurd (unique owner owns sameKey owned) other
      · have notOwn : (placement.orderId, placement.order.instrumentId, success.subject) ∉
            router.owners := fun owns => own (unique _ owned rfl owns)
        refine ⟨[(placement.order.instrumentId, fill)], counted.trans added, ?_,
          iff_of_false (by simp) fun unknown => ?_, fun maker isMaker => ?_⟩
        · rw [show fillsOf router.owners placement.orderId _ = [] by
            simp [fillsOf, Report.key, notOwn]]
          exact .refl _
        · refine unknown (by rw [isFill]; rfl) _ owned rfl own ?_
          refine (indexed_iff ok.consistent owned).mpr ((heard orderId owned).mpr ?_)
          rw [appliedTo_singleton_self]
          simp
        · rw [List.mem_singleton.mp isMaker]
          have reported := ok.reported (placement.order.instrumentId, success) (by simp [pending])
          exact fill_pos ok.consistent reported owned isFill

/-- What a step of a task does to the counts. `more` are the fills of resting
orders that it counts. -/
structure Counts (router : OrderRouter Q) (task : Task) (router' : OrderRouter Q) (task' : Task)
    (newFills : List (String × String × Fill)) (matched more : List (String × Fill)) : Prop where
  tally : router'.tally = router.tally.addFills newFills
  journal : Journal.matched router'.matchingEngine.journal =
    Journal.matched router.matchingEngine.journal ++ matched
  balance : (newFills.map Prod.snd ++ ownFills router'.owners task').Perm
    (ownFills router.owners task ++ matched ++ more)
  unknown : more = [] ↔ ∀ report ∈ task.pending.head?, ∀ orderId ∈ task.routed,
    MakerUnknown router orderId report
  positive : ∀ maker ∈ more, 0 < maker.2.volume

theorem Counts.quiet (outcome : Outcome contract users applied router task users' applied'
      (advance now router task).2 (advance now router task).1)
    (outside : task.atBook = false) (notRouted : task.routed = none)
    (noFill : ∀ report ∈ task.pending.head?, report.2.fill? = none)
    (notRouted' : (advance now router task).1.routed = none) :
    Counts router task (advance now router task).2 (advance now router task).1 [] [] [] where
  tally := tally_eq_of_noFill outcome noFill
  journal := by rw [engine_advance now router task outside, List.append_nil]
  balance := by simp [ownFills, notRouted, notRouted']
  unknown := by simp [notRouted]
  positive := by simp

theorem matched_append (first rest : List Booking) :
    Journal.matched (first ++ rest) = Journal.matched first ++ Journal.matched rest :=
  List.flatMap_append

theorem Counts.booking
    (ok : PoolOk contract start users applied ⟨router, before ++ .booking placement :: after⟩)
    (outcome : Outcome contract users applied router (.booking placement) users' applied'
      (advance now router (.booking placement)).2 (advance now router (.booking placement)).1) :
    ∃ matched, Counts router (.booking placement) (advance now router (.booking placement)).2
      (advance now router (.booking placement)).1 [] matched [] := by
  rcases ok.tasks _ (List.mem_append_right _ List.mem_cons_self) with ⟨instrument, unowned, _⟩
  have tally := tally_eq_of_noFill outcome (by simp [Task.pending])
  rcases exec_bookOrder now placement router with ⟨book, direction, _, _, ran⟩ | ⟨_, error, ran⟩
  · simp only [advance, ran, proceedRouting] at tally ⊢
    refine ⟨_, tally, matched_append _ [_], ?_, by simp [Task.pending], by simp⟩
    simp only [ownFills, Task.routed, Task.pending, instrument, List.map_nil, List.nil_append,
      List.append_nil, Consistent.owners_processOrder, Journal.matched, List.flatMap_cons,
      List.flatMap_nil, Booking.matched]
    refine .of_eq (fillsOf_congr fun report _ => ?_)
    rw [List.mem_append]
    exact or_iff_right (unowned _)
  · simp only [advance, ran, proceedRouting] at tally ⊢
    exact ⟨[], tally, (List.append_nil _).symm, .nil, by simp [Task.pending], by simp⟩

theorem Counts.withdrawing {withdrawal : Withdrawal}
    (outcome : Outcome contract users applied router (.withdrawing withdrawal) users' applied'
      (advance now router (.withdrawing withdrawal)).2
      (advance now router (.withdrawing withdrawal)).1) :
    Counts router (.withdrawing withdrawal) (advance now router (.withdrawing withdrawal)).2
      (advance now router (.withdrawing withdrawal)).1 [] [] [] := by
  have tally := tally_eq_of_noFill outcome (by simp [Task.pending])
  rcases exec_bookCancel withdrawal router with ⟨book, _, ran⟩ | ⟨_, error, ran⟩
  · simp only [advance, ran, proceed] at tally ⊢
    refine ⟨tally, ?_, .nil, by simp [Task.pending], by simp⟩
    refine (matched_append _ [_]).trans (congrArg _ ?_)
    rw [Journal.matched, List.flatMap_cons, List.flatMap_nil, List.append_nil, Booking.matched]
    refine fillsOf_eq_nil fun report reported => ?_
    rcases contract.cancelOrder book withdrawal.engineId withdrawal.direction with
      ⟨failed, answer, _⟩ | ⟨ts, answer, _⟩
    · rw [answer] at reported
      cases reported
    · rw [answer] at reported
      rw [List.mem_singleton.mp reported]
      rfl
  · simp only [advance, ran, proceed]
    exact ⟨rfl, (List.append_nil _).symm, .nil, by simp [Task.pending], by simp⟩

theorem ownFills_matching (owners : List (String × OrderKey)) (placement : Placement)
    (handled : Handled) (results : List OrderProcessingResult) :
    ownFills owners (.matching placement handled results) =
      fillsOf owners placement.orderId (Task.matching placement handled results).pending := rfl

theorem Counts.matching {handled : Handled} (ok : PoolOk contract start users applied
      ⟨router, before ++ .matching placement handled results :: after⟩)
    (outcome : Outcome contract users applied router (.matching placement handled results) users'
      applied' (advance now router (.matching placement handled results)).2
      (advance now router (.matching placement handled results)).1) :
    ∃ newFills more, Counts router (.matching placement handled results)
      (advance now router (.matching placement handled results)).2
      (advance now router (.matching placement handled results)).1 newFills [] more := by
  have engine := engine_advance now router (.matching placement handled results) rfl
  have owners : (advance now router (.matching placement handled results)).2.owners =
    router.owners := by rw [OrderRouter.owners, engine]
  have journal : Journal.matched (advance now router
      (.matching placement handled results)).2.matchingEngine.journal =
        Journal.matched router.matchingEngine.journal ++ [] := by rw [engine, List.append_nil]
  rcases results with _ | ⟨result, results⟩
  · exact ⟨[], [], rfl, journal, .nil, by simp [Task.pending, Booking.reports, Booking.events],
      by simp⟩
  have moved := advance_matching now placement handled result results router
  cases result with
  | error failed =>
    have spent : results = [] := by
      rcases ok.tasks _ (List.mem_append_right _ List.mem_cons_self) with ⟨_, matchingOk⟩
      generalize isResults : Except.error failed :: results = all at matchingOk
      cases matchingOk with
      | refused => exact (List.cons.inj isResults).2
      | answered => simp at isResults
      | accepted => simp at isResults
      | @filling _ _ events => cases events <;> simp at isResults
    subst spent
    have nothing : (Task.matching placement handled [.error failed]).pending = [] := rfl
    have nothing' : ownFills router.owners
        (advance now router (.matching placement handled [.error failed])).1 = [] := by
      rcases moved with spent | ⟨handled', more⟩
      · rw [spent]
        rfl
      · rw [more]
        rfl
    refine ⟨[], [], tally_eq_of_noFill outcome (by simp [nothing]), journal, ?_, by simp [nothing],
      by simp⟩
    rw [owners, nothing']
    exact .nil
  | ok success =>
    have pending : (Task.matching placement handled (.ok success :: results)).pending =
        [(placement.order.instrumentId, success)] ++
          (Task.matching placement handled results).pending := rfl
    rcases outcome.flow with ⟨produced, consumed, reports, processed, balance, taken⟩
    rw [OrderRouter.reports, engine, List.self_eq_append_right] at reports
    rw [reports, List.append_nil, pending] at balance
    -- whether the task is over or not, it took up the event and the others wait
    have rest : consumed = [(placement.order.instrumentId, success)] ∧
        ownFills router.owners
          (advance now router (.matching placement handled (.ok success :: results))).1 =
            fillsOf router.owners placement.orderId
              (Task.matching placement handled results).pending := by
      rcases moved with spent | ⟨handled', more⟩
      · rw [spent] at balance ⊢
        rw [show Task.done.pending = [] from rfl, List.append_nil] at balance
        rcases taken with rfl | ⟨report, _, rfl, _⟩
        · cases balance
        · have same := List.cons.inj balance
          have last : (Task.matching placement handled results).pending = [] := same.2
          rw [same.1, last]
          exact ⟨rfl, rfl⟩
      · rw [more] at balance ⊢
        exact ⟨(List.append_cancel_right balance).symm, ownFills_matching ..⟩
    rw [rest.1] at processed
    rcases taken_up ok outcome processed with ⟨newFills, more, tally, fills, unknown, positive⟩
    refine ⟨newFills, more, tally, journal, ?_, by simpa [pending, Task.routed] using unknown,
      positive⟩
    rw [owners, rest.2, ownFills_matching, pending, List.singleton_append, fillsOf_cons,
      List.append_nil, List.append_assoc, List.perm_iff_count]
    intro found
    have counted := List.perm_iff_count.mp fills found
    simp only [List.count_append] at counted ⊢
    omega

theorem exists_counts (ok : PoolOk contract start users applied ⟨router, before ++ task :: after⟩)
    (outcome : Outcome contract users applied router task users' applied'
      (advance now router task).2 (advance now router task).1) :
    ∃ newFills matched more, Counts router task (advance now router task).2
      (advance now router task).1 newFills matched more := by
  have taskOk := ok.tasks task (by simp)
  cases task with
  | booking placement =>
    rcases Counts.booking ok outcome with ⟨matched, counts⟩
    exact ⟨_, _, _, counts⟩
  | withdrawing withdrawal => exact ⟨_, _, _, .withdrawing outcome⟩
  | matching placement handled results =>
    rcases Counts.matching ok outcome with ⟨_, _, counts⟩
    exact ⟨_, _, _, counts⟩
  | submitting req force =>
    refine ⟨_, _, _, .quiet outcome rfl rfl (by simp [Task.pending]) ?_⟩
    simp only [advance]
    rcases exec (screen now req force) router with ⟨_ | _, _⟩ <;> rfl
  | checkingFok ticket =>
    refine ⟨_, _, _, .quiet outcome rfl rfl (by simp [Task.pending]) ?_⟩
    simp only [advance]
    rcases exec (checkFok ticket) router with ⟨_ | _, _⟩ <;> rfl
  | placing ticket =>
    refine ⟨_, _, _, .quiet outcome rfl rfl (by simp [Task.pending]) ?_⟩
    simp only [advance]
    rcases exec (place now ticket) router with ⟨_ | _, _⟩ <;> rfl
  | closing placement =>
    refine ⟨_, _, _, .quiet outcome rfl rfl (by simp [Task.pending]) ?_⟩
    simp only [advance]
    split_ifs
    · cases router.iocRemaining placement.orderId <;> rfl
    · rfl
  | cancelling req =>
    refine ⟨_, _, _, .quiet outcome rfl rfl (by simp [Task.pending]) ?_⟩
    simp only [advance]
    rcases exec (checkCancel now req) router with ⟨_ | _, _⟩ <;> rfl
  | settling withdrawal results =>
    rcases taskOk with ⟨_, rfl | ⟨failed, rfl⟩ | ⟨ts, rfl⟩⟩
    · exact ⟨_, _, _, .quiet outcome rfl rfl (by simp [Task.pending, Booking.reports,
        Booking.events]) rfl⟩
    · refine ⟨_, _, _, .quiet outcome rfl rfl (by simp [Task.pending, Booking.reports,
        Booking.events, Except.toOption]) ?_⟩
      simp only [advance]
      rcases exec (processCancelResult now withdrawal (.error failed)) router with ⟨_ | _, _⟩ <;> rfl
    · refine ⟨_, _, _, .quiet outcome rfl rfl (by simp [Task.pending, Booking.reports,
        Booking.events, Except.toOption, Success.fill?]) ?_⟩
      simp only [advance]
      rcases exec (processCancelResult now withdrawal (.ok (.Cancelled withdrawal.engineId ts)))
        router with ⟨_ | _, _⟩ <;> rfl
  | done => exact ⟨_, _, _, .quiet outcome rfl rfl (by simp [Task.pending]) rfl⟩

variable {fills : List (String × String × Fill)} {makers : List (String × Fill)}

theorem Counted.step (counted : Counted start ⟨router, before ++ task :: after⟩ fills makers)
    (ok : PoolOk contract start users applied ⟨router, before ++ task :: after⟩)
    (outcome : Outcome contract users applied router task users' applied' router' task')
    (counts : Counts router task router' task' newFills matched more) :
    Counted start ⟨router', before ++ task' :: after⟩ (fills ++ newFills) (makers ++ more) where
  tally := by
    have earlier : router.tally = start.addFills fills := counted.tally
    simp only [counts.tally, earlier, Tally.addFills, List.foldl_append]
  perm := by
    have others : ∀ tasks : List Task, (∀ other ∈ tasks, other ∈ before ++ task :: after) →
        tasks.flatMap (ownFills router'.owners) = tasks.flatMap (ownFills router.owners) :=
      fun tasks inPool => List.flatMap_congr fun other member =>
        ownFills_other ok outcome (inPool other member)
    have perm := counted.perm
    simp only [List.flatMap_append, List.flatMap_cons, List.map_append] at perm ⊢
    rw [others before (by simp +contextual), others after (by simp +contextual), counts.journal,
      List.perm_iff_count]
    intro found
    have earlier := List.perm_iff_count.mp perm found
    have balanced := List.perm_iff_count.mp counts.balance found
    simp only [List.count_append] at earlier balanced ⊢
    omega

/-- A schedule counts fills of resting orders exactly if some turn relates one to
its order. -/
theorem counted_run (orders : OrderContract Q) (turns : List (Turn Call Now))
    (ok : PoolOk contract start users applied pool) (counted : Counted start pool fills makers)
    (apart : Journal.NoSharedIds ((service Q).run turns pool).shared.matchingEngine.journal) :
    ∃ fills' more, Counted start ((service Q).run turns pool) fills' (makers ++ more) ∧
      (more = [] ↔ (service Q).Obeys MakersUnknown turns pool) ∧
      ∀ maker ∈ more, 0 < maker.2.volume := by
  induction turns generalizing pool users applied fills makers with
  | nil => exact ⟨fills, [], by simpa using counted, iff_of_true rfl trivial, by simp⟩
  | cons turn turns induction =>
    rw [Service.run_cons] at apart ⊢
    have apartNext : Journal.NoSharedIds
        ((service Q).next pool turn).shared.matchingEngine.journal := by
      rcases journal_run turns ((service Q).next pool turn) with ⟨more, grown⟩
      rw [grown] at apart
      exact apart.of_append
    rcases (service Q).next_cases pool turn with
      ⟨call, rfl, same⟩ | ⟨now, index, before, task, after, rfl, place, split, same⟩ |
      ⟨now, index, rfl, missing, same⟩
    · have counted' : Counted start ((service Q).next pool (.call call)) fills makers := by
        rw [same]
        refine ⟨counted.tally, ?_⟩
        have nothing : [(service Q).start call].flatMap (ownFills pool.shared.owners) = [] := by
          cases call <;> rfl
        rw [List.flatMap_append, nothing, List.append_nil]
        exact counted.perm
      have ok' : PoolOk contract start users applied ((service Q).next pool (.call call)) := by
        rw [same]
        exact ok.call call
      rcases induction ok' counted' apart with ⟨fills', more, counted', known, positive⟩
      exact ⟨fills', more, counted', known.trans (and_iff_right trivial).symm, positive⟩
    · rcases pool with ⟨router, tasks⟩
      cases split
      subst place
      rw [same] at apart apartNext ⊢
      have apartBefore : Journal.NoSharedIds router.matchingEngine.journal := by
        rcases journal_advance now router task with ⟨more, grown⟩
        rw [show ((service Q).advance now router task).2.matchingEngine.journal = _ from grown]
          at apartNext
        exact apartNext.of_append
      rcases outcome_advance now orders ok.consistent apartBefore (ok.tasks task (by simp))
        ok.reported with ⟨users', applied', outcome⟩
      rcases exists_counts ok outcome with ⟨newFills, matched, first, counts⟩
      rcases induction (ok.step outcome) (counted.step ok outcome counts) apart with
        ⟨fills', rest, counted', known, positive⟩
      refine ⟨fills', first ++ rest, by rwa [← List.append_assoc], ?_, fun maker member => ?_⟩
      · rw [List.append_eq_nil_iff, known, counts.unknown, Service.Obeys, same]
        refine and_congr_left fun _ => ?_
        simp [MakersUnknown]
      · rcases List.mem_append.mp member with early | late
        · exact counts.positive maker early
        · exact positive maker late
    · rw [same] at apart ⊢
      rcases induction ok counted apart with ⟨fills', more, counted', known, positive⟩
      refine ⟨fills', more, counted', known.trans ?_, positive⟩
      rw [Service.Obeys, same]
      exact (and_iff_right fun task isTask => by simp [missing] at isTask).symm

/-- With nothing left to take up, the matches were counted once exactly if no
resting order was counted. -/
theorem Counted.countedOnce_iff {pool : Calls Q} (counted : Counted start pool fills makers)
    (quiet : Quiet pool) (positive : ∀ maker ∈ makers, 0 < maker.2.volume) :
    CountedOnce start pool.shared ↔ makers = [] := by
  have nothing : pool.tasks.flatMap (ownFills pool.shared.owners) = [] := by
    refine List.flatMap_eq_nil_iff.mpr fun task member => ?_
    unfold ownFills
    cases task.routed with
    | none => rfl
    | some orderId => simp [quiet task member]
  have perm := counted.perm
  rw [nothing, List.append_nil] at perm
  have volume : pool.shared.tally.volume = start.volume +
      ((Journal.matched pool.shared.matchingEngine.journal).map fun found => found.2.volume).sum +
        (makers.map fun found => found.2.volume).sum := by
    have sum := (perm.map fun found => found.2.volume).sum_eq
    simp only [List.map_map, List.map_append, List.sum_append] at sum
    rw [counted.tally, Tally.volume_addFills, add_assoc, ← sum]
    rfl
  constructor
  · intro once
    by_contra some
    have zero := once.volume
    rw [volume] at zero
    have more := List.sum_pos (makers.map fun found => found.2.volume) (fun volume member => by
      rcases List.mem_map.mp member with ⟨maker, isMaker, rfl⟩
      exact positive maker isMaker) (by simpa using some)
    linarith
  · rintro rfl
    rw [List.append_nil] at perm
    refine ⟨fun instrumentId => ?_, fun calls isFeed => ?_, by simpa using volume⟩
    · rw [counted.tally, Tally.records_addFills]
      have filtered := (perm.filter fun found => found.1 = instrumentId).map
        fun found => (found.2.price, found.2.volume)
      simp only [List.filter_map, List.map_map] at filtered
      exact filtered.append_left _
    · refine ⟨_, by rw [counted.tally, Tally.feed_addFills, isFeed]; rfl, ?_⟩
      have fed := perm.flatMap_right fun found => fillCalls found.1 found.2
      rw [List.flatMap_map] at fed
      exact fed.append_left _

end OrderRouter

end QAExchange
