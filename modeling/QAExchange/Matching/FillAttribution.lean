import QAExchange.Contracts

/-! # Whose fills are reported

An engine hands an order to its book and emits trade reports for the events that
come back. The two fill events of a match belong to two orders. This file says
what it means that the reports of a run tell them apart.
-/

namespace QAExchange

open Foundation

def fillOf : OrderProcessingResult → Option Fill
  | .ok success => success.fill?
  | .error _ => none

structure ReportedFill (Id TradeId : Type) where
  owner : Id
  tradeId : TradeId
  volume : ℚ

/-- An order that went through an engine: its ids, its instrument, and what the
book answered, each result with the reports that were emitted for it. -/
structure ProcessedOrder (Id TradeId : Type) where
  owner : Id
  instrument : String
  results : List (OrderProcessingResult × List (ReportedFill Id TradeId))

variable {Id TradeId : Type}

structure ReportedMatch (Id TradeId : Type) where
  taker : Fill
  maker : Fill
  reports : List (ReportedFill Id TradeId)

/-- Results one after the other, each with what its handling adds to the sent
reports. -/
def emissions {State Report : Type} (handle : State → OrderProcessingResult → State)
    (sent : State → List Report) :
    List OrderProcessingResult → State → List (OrderProcessingResult × List Report)
  | [], _ => []
  | result :: results, state =>
    (result, (sent (handle state result)).drop (sent state).length) ::
      emissions handle sent results (handle state result)

namespace ProcessedOrder

def fills (order : ProcessedOrder Id TradeId) : List (Fill × List (ReportedFill Id TradeId)) :=
  order.results.filterMap fun result => (fillOf result.1).map fun fill => (fill, result.2)

/-- Fill events come in pairs, first that of the incoming order. -/
def pairUp : List (Fill × List (ReportedFill Id TradeId)) → List (ReportedMatch Id TradeId)
  | taker :: maker :: rest => ⟨taker.1, maker.1, taker.2 ++ maker.2⟩ :: pairUp rest
  | [_] | [] => []

def matches' (order : ProcessedOrder Id TradeId) : List (ReportedMatch Id TradeId) :=
  pairUp order.fills

def AcceptedAs (order : ProcessedOrder Id TradeId) (id : ℕ) : Bool :=
  order.results.any fun result =>
    match result.1 with
    | .ok (.Accepted accepted _ _) => accepted = id
    | .ok _ | .error _ => false

def reports (order : ProcessedOrder Id TradeId) : List (ReportedFill Id TradeId) :=
  order.results.flatMap Prod.snd

end ProcessedOrder

open ProcessedOrder

/-- The engine only reports fills, all of them with the ids of the incoming order. -/
structure ReportsTaker (order : ProcessedOrder Id TradeId) : Prop where
  own : ∀ result ∈ order.results, ∀ report ∈ result.2, report.owner = order.owner
  fill : ∀ result ∈ order.results, result.2 ≠ [] → ∃ fill, fillOf result.1 = some fill
  paired : order.matches' = [] → order.fills = []

theorem mem_pairUp_reports {fills : List (Fill × List (ReportedFill Id TradeId))}
    {found : ReportedMatch Id TradeId} (member : found ∈ pairUp fills)
    {report : ReportedFill Id TradeId} (isReport : report ∈ found.reports) :
    ∃ fill ∈ fills, report ∈ fill.2 := by
  induction fills using pairUp.induct with
  | case1 taker maker rest induction =>
    rcases List.mem_cons.mp member with rfl | later
    · rcases List.mem_append.mp isReport with first | second
      · exact ⟨taker, by simp, first⟩
      · exact ⟨maker, by simp, second⟩
    · rcases induction later with ⟨fill, inside, found⟩
      exact ⟨fill, by simp [inside], found⟩
  | case2 | case3 => cases member

theorem ReportsTaker.own_match {order : ProcessedOrder Id TradeId} (takes : ReportsTaker order)
    {found : ReportedMatch Id TradeId} (member : found ∈ order.matches')
    {report : ReportedFill Id TradeId} (isReport : report ∈ found.reports) :
    report.owner = order.owner := by
  rcases mem_pairUp_reports member isReport with ⟨fill, isFill, inside⟩
  rcases List.mem_filterMap.mp isFill with ⟨result, isResult, same⟩
  rcases Option.map_eq_some_iff.mp same with ⟨_, _, rfl⟩
  exact takes.own result isResult report inside

open ProcessedOrder

theorem ReportsTaker.no_reports {order : ProcessedOrder Id TradeId} (takes : ReportsTaker order)
    (unmatched : order.matches' = []) : order.reports = [] := by
  have noFills := takes.paired unmatched
  rw [reports, List.flatMap_eq_nil_iff]
  intro result member
  by_contra some
  rcases takes.fill result member some with ⟨fill, isFill⟩
  have inside : (fill, result.2) ∈ order.fills := by
    apply List.mem_filterMap.mpr
    refine ⟨result, member, ?_⟩
    rw [isFill]
    rfl
  rw [noFills] at inside
  cases inside

section Runs

variable [DecidableEq Id]

def ownerOf (run : List (ProcessedOrder Id TradeId)) (instrument : String) (id : ℕ) : Option Id :=
  (run.find? fun order => order.instrument = instrument && order.AcceptedAs id).map
    owner

def tradedVolume (run : List (ProcessedOrder Id TradeId)) (owner : Id) : ℚ :=
  (run.flatMap fun order => order.matches'.map fun found =>
    (if order.owner = owner then found.taker.volume else 0) +
      (if ownerOf run order.instrument found.maker.orderId = some owner then found.maker.volume
        else 0)).sum

def reportedVolume (run : List (ProcessedOrder Id TradeId)) (owner : Id) : ℚ :=
  (((run.flatMap reports).filter fun report => report.owner = owner).map
    ReportedFill.volume).sum

/-- Each match has two reports, exactly one with the ids of the incoming order and
exactly one with those of the resting order; the volumes that are reported for an
order add up to what it traded; and different matches have different trade ids. -/
structure Attributed (run : List (ProcessedOrder Id TradeId)) : Prop where
  matched : ∀ order ∈ run, ∀ found ∈ order.matches', found.reports.length = 2 ∧
    (found.reports.countP fun report => report.owner = order.owner) = 1 ∧
    ∀ owner ∈ ownerOf run order.instrument found.maker.orderId,
      (found.reports.countP fun report => report.owner = owner) = 1
  volumes : ∀ owner, reportedVolume run owner = tradedVolume run owner
  distinct : (run.flatMap matches').Pairwise fun first second =>
    ∀ report ∈ first.reports, ∀ other ∈ second.reports, report.tradeId ≠ other.tradeId

/-- An engine that reports every fill with the ids of the incoming order tells the
two sides of a match apart only where there is no match. -/
theorem attributed_iff_unmatched {run : List (ProcessedOrder Id TradeId)}
    (takes : ∀ order ∈ run, ReportsTaker order) :
    Attributed run ↔ ∀ order ∈ run, order.matches' = [] := by
  constructor
  · intro attributed order member
    rcases List.eq_nil_or_concat order.matches' with none | ⟨init, found, isLast⟩
    · exact none
    · have inside : found ∈ order.matches' := by simp [isLast]
      rcases attributed.matched order member found inside with ⟨two, one, _⟩
      -- both reports have the ids of the incoming order
      have both : (found.reports.countP fun report => report.owner = order.owner) =
          found.reports.length := by
        rw [List.countP_eq_length]
        intro report isReport
        exact decide_eq_true ((takes order member).own_match inside isReport)
      omega
  · intro unmatched
    have noMatches : run.flatMap matches' = [] := by
      rw [List.flatMap_eq_nil_iff]
      exact unmatched
    have noReports : run.flatMap reports = [] := by
      rw [List.flatMap_eq_nil_iff]
      intro order member
      exact (takes order member).no_reports (unmatched order member)
    constructor
    · intro order member found inside
      rw [unmatched order member] at inside
      cases inside
    · intro owner
      have nothing : (run.flatMap fun order => order.matches'.map fun found =>
          (if order.owner = owner then found.taker.volume else 0) +
            (if ownerOf run order.instrument found.maker.orderId = some owner then
              found.maker.volume else 0)) = [] := by
        rw [List.flatMap_eq_nil_iff]
        intro order member
        rw [unmatched order member]
        rfl
      rw [reportedVolume, noReports, tradedVolume, nothing]
      rfl
    · rw [noMatches]
      exact .nil

end Runs

/-! ## Orders that meet nothing -/

section Crossing

variable {Q : Qars}

theorem length_fills (order : ProcessedOrder Id TradeId) :
    order.fills.length = ((order.results.map Prod.fst).filterMap fillOf).length := by
  rw [fills]
  induction order.results with
  | nil => rfl
  | cons result results induction =>
    rw [List.map_cons, List.filterMap_cons, List.filterMap_cons]
    cases fillOf result.1 with
    | none => exact induction
    | some fill => exact congrArg Nat.succ induction

theorem pairUp_eq_nil_iff (fills : List (Fill × List (ReportedFill Id TradeId))) :
    pairUp fills = [] ↔ fills.length < 2 := by
  cases fills with
  | nil => simp [pairUp]
  | cons taker rest =>
    cases rest with
    | nil => simp [pairUp]
    | cons maker rest => simp [pairUp]

theorem SweepReports.length_fills {taker : ℕ} {left : ℚ} {matches' : List (Match ℕ ℚ ℚ)}
    {reports : List Success} (reported : SweepReports taker left matches' reports) :
    (reports.filterMap Success.fill?).length = 2 * matches'.length := by
  induction reported with
  | done left => rfl
  | pair _ _ _ _ _ _ induction =>
    simp only [List.filterMap_cons, Fill.fill?_report, List.length_cons, induction]
    omega

/-- The book takes the order, and some order of the other side rests at a price
that it accepts. -/
def Crosses (priceTime : PriceTimeContract Q) (book : Q.Orderbook) (asset : InstrumentAsset)
    (direction : OrderDirection) (price volume : ℚ) (ts : ℤ) : Prop :=
  (∀ failed, (Q.processOrder book (.newLimitOrder asset direction price volume ts)).1 ≠
    [.error failed]) ∧
    ∃ resting ∈ priceTime.queue book direction.side.opposite,
      direction.side.Accepts price resting.price

/-- An order has no match if and only if it does not cross, and never half a match. -/
theorem unmatched_iff_not_crosses (priceTime : PriceTimeContract Q)
    {order : ProcessedOrder Id TradeId} (answered : order.results.map Prod.fst =
      (Q.processOrder book (.newLimitOrder asset direction price volume ts)).1) :
    (order.matches' = [] ↔ ¬ Crosses priceTime book asset direction price volume ts) ∧
      (order.matches' = [] → order.fills = []) := by
  have answer := priceTime.newLimitOrder book asset direction price volume ts
  rcases answer with ⟨failed, refused, _⟩ |
    ⟨id, orderType, accepted, reports, taken, _, positive, _, reported, _⟩
  · rw [refused] at answered
    have noFills : order.fills = [] := by
      rw [← List.length_eq_zero_iff, length_fills, answered]
      rfl
    have unmatched : order.matches' = [] := by
      rw [matches', noFills]
      rfl
    refine ⟨iff_of_true unmatched ?_, fun _ => noFills⟩
    intro crosses
    exact crosses.1 failed refused
  · have size : order.fills.length = 2 * (sweep direction.side price volume
        (priceTime.queue book direction.side.opposite)).matches'.length := by
      rw [length_fills, answered, taken, ← reported.length_fills, List.filterMap_cons,
        List.filterMap_map]
      rfl
    have accepts : ∀ failed, (Q.processOrder book
        (.newLimitOrder asset direction price volume ts)).1 ≠ [.error failed] := by
      intro failed same
      rw [taken] at same
      cases same
    constructor
    · rw [matches', pairUp_eq_nil_iff, size, Crosses]
      have none := sweep_matches_eq_nil_iff price volume
        (priceTime.isQueue book direction.side.opposite)
      rw [← List.length_eq_zero_iff] at none
      constructor
      · intro short crosses
        rcases crosses with ⟨_, resting, member, accepted⟩
        exact none.mp (by omega) resting member accepted
      · intro apart
        have nothing := none.mpr fun resting member accepted =>
          apart ⟨accepts, resting, member, accepted⟩
        omega
    · intro unmatched
      rw [matches', pairUp_eq_nil_iff, size] at unmatched
      rw [← List.length_eq_zero_iff, size]
      omega

/-- An engine that only reports fills, with the ids of the incoming order, on what
the book of the instrument answers, if there is one. -/
theorem reportsTaker_of_answer (priceTime : PriceTimeContract Q) {book? : Option Q.Orderbook}
    {order : ProcessedOrder Id TradeId}
    (own : ∀ result ∈ order.results, ∀ report ∈ result.2, report.owner = order.owner ∧
      ∃ fill, fillOf result.1 = some fill)
    (answered : order.results.map Prod.fst = (book?.map fun book =>
      (Q.processOrder book (.newLimitOrder asset direction price volume ts)).1).getD []) :
    ReportsTaker order ∧ (order.matches' = [] ↔
      ∀ book ∈ book?, ¬ Crosses priceTime book asset direction price volume ts) := by
  have unmatched : (order.matches' = [] ↔
      ∀ book ∈ book?, ¬ Crosses priceTime book asset direction price volume ts) ∧
      (order.matches' = [] → order.fills = []) := by
    cases book? with
    | none =>
      have noFills : order.fills = [] := by
        rw [← List.length_eq_zero_iff, length_fills, answered]
        rfl
      refine ⟨iff_of_true ?_ (by simp), fun _ => noFills⟩
      rw [matches', noFills]
      rfl
    | some book => simpa using unmatched_iff_not_crosses priceTime answered
  refine ⟨⟨?_, ?_, unmatched.2⟩, unmatched.1⟩
  · intro result member report inside
    exact (own result member report inside).1
  · intro result member some
    rcases List.exists_mem_of_ne_nil _ some with ⟨report, inside⟩
    exact (own result member report inside).2

/-- What the handling of results adds, where it only adds reports of fills for the
incoming order. -/
theorem mem_emissions {State Report : Type} {handle : State → OrderProcessingResult → State}
    {sent : State → List Report} {good : OrderProcessingResult → Report → Prop}
    (adds : ∀ state result, ∃ new, sent (handle state result) = sent state ++ new ∧
      ∀ report ∈ new, good result report) {results : List OrderProcessingResult} {state : State}
    {emitted : OrderProcessingResult × List Report}
    (member : emitted ∈ emissions handle sent results state) :
    ∀ report ∈ emitted.2, good emitted.1 report := by
  induction results generalizing state with
  | nil => cases member
  | cons result results induction =>
    rcases List.mem_cons.mp member with rfl | later
    · rcases adds state result with ⟨new, same, isGood⟩
      simp only [same, List.drop_left']
      exact isGood
    · exact induction later

@[simp] theorem map_fst_emissions {State Report : Type}
    (handle : State → OrderProcessingResult → State) (sent : State → List Report)
    (results : List OrderProcessingResult) (state : State) :
    (emissions handle sent results state).map Prod.fst = results := by
  induction results generalizing state with
  | nil => rfl
  | cons result results induction => rw [emissions, List.map_cons, induction]

end Crossing

section Engines

variable [DecidableEq Id] {State Request : Type} (process : State → Request → State)
  (processed : State → Request → ProcessedOrder Id TradeId) (crosses : State → Request → Prop)

def processedRun : List Request → State → List (ProcessedOrder Id TradeId)
  | [], _ => []
  | request :: requests, state =>
    processed state request :: processedRun requests (process state request)

def NothingCrosses : List Request → State → Prop
  | [], _ => True
  | request :: requests, state =>
    ¬ crosses state request ∧ NothingCrosses requests (process state request)

theorem attributed_processedRun_iff
    (takes : ∀ state request, ReportsTaker (processed state request) ∧
      ((processed state request).matches' = [] ↔ ¬ crosses state request))
    (requests : List Request) (state : State) :
    Attributed (processedRun process processed requests state) ↔
      NothingCrosses process crosses requests state := by
  have all : (∀ order ∈ processedRun process processed requests state, ReportsTaker order) ∧
      ((∀ order ∈ processedRun process processed requests state, order.matches' = []) ↔
        NothingCrosses process crosses requests state) := by
    induction requests generalizing state with
    | nil => exact ⟨by simp [processedRun], by simp [processedRun, NothingCrosses]⟩
    | cons request requests induction =>
      rcases takes state request with ⟨first, unmatched⟩
      rcases induction (process state request) with ⟨rest, others⟩
      rw [processedRun, NothingCrosses, List.forall_mem_cons, List.forall_mem_cons, others,
        unmatched]
      exact ⟨⟨first, rest⟩, Iff.rfl⟩
  rw [attributed_iff_unmatched all.1, all.2]

end Engines

end QAExchange
