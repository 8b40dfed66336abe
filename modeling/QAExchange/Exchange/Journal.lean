import Mathlib.Data.List.TakeWhile
import QAExchange.Contracts
import QAExchange.Exchange.OrderRouter

/-! # The books' journal

What the calls of the books have reported, and whose orders the reports are
about. An engine id names an order only together with its instrument.
-/

namespace QAExchange

open Foundation

variable {Q : Qars}

abbrev Report := String × Success

abbrev OrderKey := String × ℕ

instance decidableMemOwners (owner : String × OrderKey) (owners : List (String × OrderKey)) :
    Decidable (owner ∈ owners) := inferInstance

namespace Report

def key (report : Report) : OrderKey := (report.1, report.2.subject)

end Report

def Success.isAccepted : Success → Bool
  | .Accepted .. => true
  | .Filled _ | .PartiallyFilled _ | .Amended .. | .Cancelled .. => false

theorem Success.life_eq_opened {success : Success} :
    success.life = .opened ↔ success.isAccepted = true := by
  cases success <;> simp [Success.life, Success.isAccepted]

theorem Success.isAccepted_of_fill {success : Success} (isFill : success.fill?.isSome = true) :
    success.isAccepted = false := by
  cases success <;> simp_all [Success.fill?, Success.isAccepted]

theorem Matches.isSome_fill (matched : Matches taker left reports left') :
    ∀ success ∈ reports, success.fill?.isSome = true := by
  induction matched with
  | done => simp
  | pair _ _ _ _ _ _ _ induction => simpa using induction

/-- The first event of a call's matches is the incoming order's. -/
theorem Matches.head_subject (matched : Matches taker left events left')
    (first : events.head? = some success) : success.subject = taker := by
  cases matched with
  | done => cases first
  | pair _ isTaker =>
    obtain rfl := Option.some.inj first
    rw [Fill.subject_report, isTaker]

namespace Booking

def events (booking : Booking) : List Success := booking.results.filterMap Except.toOption

def reports (booking : Booking) : List Report :=
  booking.events.map fun success => (booking.instrumentId, success)

def owners (booking : Booking) : List (String × OrderKey) :=
  (booking.reports.filter fun report => report.2.isAccepted).map fun report =>
    (booking.orderId, Report.key report)

section

variable (orderId instrumentId : String)

@[simp] theorem events_ok (events : List Success) :
    (⟨orderId, instrumentId, events.map .ok⟩ : Booking).events = events := by
  simp only [Booking.events, List.filterMap_map]
  exact List.filterMap_some

@[simp] theorem reports_ok (events : List Success) :
    (⟨orderId, instrumentId, events.map .ok⟩ : Booking).reports =
      events.map fun success => (instrumentId, success) := by
  rw [reports, events_ok]

@[simp] theorem events_error (failed : Failed) :
    (⟨orderId, instrumentId, [.error failed]⟩ : Booking).events = [] := rfl

@[simp] theorem reports_error (failed : Failed) :
    (⟨orderId, instrumentId, [.error failed]⟩ : Booking).reports = [] := rfl

/-- An accepted order is the only owner of its booking. -/
theorem owners_accepted {id : ℕ} {orderType : OrderType} {ts : ℤ} {events : List Success}
    (fills : ∀ success ∈ events, success.isAccepted = false) :
    (⟨orderId, instrumentId, (Success.Accepted id orderType ts :: events).map .ok⟩ :
      Booking).owners = [(orderId, instrumentId, id)] := by
  have only : ((Success.Accepted id orderType ts :: events).map fun success =>
      (instrumentId, success)).filter (fun report => report.2.isAccepted) =
        [(instrumentId, .Accepted id orderType ts)] := by
    rw [List.map_cons, List.filter_cons_of_pos rfl, List.filter_eq_nil_iff.mpr]
    simpa using fills
  rw [owners, reports_ok, only]
  rfl

theorem owners_eq_nil {events : List Success}
    (others : ∀ success ∈ events, success.isAccepted = false) :
    (⟨orderId, instrumentId, events.map .ok⟩ : Booking).owners = [] := by
  rw [owners, reports_ok, List.map_eq_nil_iff, List.filter_eq_nil_iff]
  simpa using others

end

end Booking

namespace Journal

def reports (journal : List Booking) : List Report := journal.flatMap Booking.reports

def owners (journal : List Booking) : List (String × OrderKey) := journal.flatMap Booking.owners

/-- No book reports an engine id under which another book has an order of the
router. -/
def NoSharedIds (journal : List Booking) : Prop :=
  ∀ report ∈ reports journal, ∀ owner ∈ owners journal, owner.2.2 = report.2.subject →
    owner.2.1 = report.1

instance (journal : List Booking) : Decidable (NoSharedIds journal) := by
  unfold NoSharedIds
  infer_instance

@[simp] theorem reports_append (first rest : List Booking) :
    reports (first ++ rest) = reports first ++ reports rest :=
  List.flatMap_append

@[simp] theorem owners_append (first rest : List Booking) :
    owners (first ++ rest) = owners first ++ owners rest :=
  List.flatMap_append

@[simp] theorem reports_singleton (booking : Booking) : reports [booking] = booking.reports := by
  simp [reports]

@[simp] theorem owners_singleton (booking : Booking) : owners [booking] = booking.owners := by
  simp [owners]

theorem NoSharedIds.of_append (apart : NoSharedIds (first ++ rest)) : NoSharedIds first := by
  intro report reported owner owned
  refine apart report ?_ owner ?_
  · rw [reports_append]
    exact List.mem_append_left _ reported
  · rw [owners_append]
    exact List.mem_append_left _ owned

theorem exists_report_of_mem_owners (owned : (orderId, key) ∈ owners journal) :
    ∃ report ∈ reports journal, Report.key report = key ∧ report.2.isAccepted = true := by
  rcases List.mem_flatMap.mp owned with ⟨booking, booked, owned⟩
  simp only [Booking.owners, List.mem_map, List.mem_filter, Prod.mk.injEq] at owned
  rcases owned with ⟨report, ⟨reported, accepted⟩, _, sameKey⟩
  exact ⟨report, List.mem_flatMap.mpr ⟨booking, booked, reported⟩, sameKey, accepted⟩

end Journal

def ofKey (key : OrderKey) (log : List Report) : List Success :=
  (log.filter fun report => Report.key report = key).map Prod.snd

def entriesOf (instrumentId : String) (log : List Report) : List (Entry ℕ ℚ) :=
  (log.filter fun report => report.1 = instrumentId).map fun report => report.2.entry

section

variable (key : OrderKey) (instrumentId : String) (first rest log : List Report)

@[simp] theorem ofKey_nil : ofKey key [] = [] := rfl

@[simp] theorem ofKey_append : ofKey key (first ++ rest) = ofKey key first ++ ofKey key rest := by
  simp [ofKey]

@[simp] theorem entriesOf_nil : entriesOf instrumentId [] = [] := rfl

@[simp] theorem entriesOf_append :
    entriesOf instrumentId (first ++ rest) =
      entriesOf instrumentId first ++ entriesOf instrumentId rest := by
  simp [entriesOf]

theorem entriesOf_map (events : List Success) :
    entriesOf instrumentId (events.map fun success => (instrumentId, success)) =
      events.map Success.entry := by
  simp only [entriesOf, List.filter_map, List.map_map]
  rw [List.filter_eq_self.mpr (by simp)]
  rfl

theorem entriesOf_map_of_ne (differs : other ≠ instrumentId) (events : List Success) :
    entriesOf instrumentId (events.map fun success => (other, success)) = [] := by
  simp [entriesOf, List.filter_eq_nil_iff, differs]

/-- The entries of one book under one id are the events of that key. -/
theorem eventsOf_entriesOf :
    eventsOf key.2 (entriesOf key.1 log) = (ofKey key log).map Success.life := by
  simp only [eventsOf, entriesOf, ofKey, List.filter_map, List.map_map, List.filter_filter]
  congr 1
  refine List.filter_congr fun report _ => ?_
  simp [Report.key, Prod.ext_iff, Success.entry, Bool.and_comm]

end

theorem ofKey_singleton_self (report : Report) : ofKey (Report.key report) [report] = [report.2] := by
  simp [ofKey]

theorem ofKey_singleton_of_ne (differs : Report.key report ≠ key) : ofKey key [report] = [] := by
  simp [ofKey, differs]

theorem mem_ofKey : success ∈ ofKey key log ↔ (key.1, success) ∈ log ∧ success.subject = key.2 := by
  simp only [ofKey, List.mem_map, List.mem_filter, decide_eq_true_eq]
  constructor
  · rintro ⟨report, ⟨member, same⟩, rfl⟩
    rw [← same]
    exact ⟨member, rfl⟩
  · rintro ⟨member, same⟩
    exact ⟨_, ⟨member, Prod.ext rfl same⟩, rfl⟩

theorem ofKey_perm {first : List Report} (same : first.Perm second) (key : OrderKey) :
    (ofKey key first).Perm (ofKey key second) :=
  (same.filter _).map _

/-! ## The events that reach an order -/

/-- What the router hears of an order: it cannot relate earlier events to the
order than its acceptance. -/
def fromAccepted (events : List Success) : List Success :=
  events.dropWhile fun success => !success.isAccepted

@[simp] theorem fromAccepted_nil : fromAccepted [] = [] := rfl

theorem fromAccepted_append_of_ne_nil (rest : List Success) (heard : fromAccepted first ≠ []) :
    fromAccepted (first ++ rest) = fromAccepted first ++ rest := by
  rw [fromAccepted, List.dropWhile_append]
  simp only [fromAccepted] at heard
  simp [heard, fromAccepted]

theorem fromAccepted_append_of_nil (rest : List Success) (unheard : fromAccepted first = []) :
    fromAccepted (first ++ rest) = fromAccepted rest := by
  rw [fromAccepted, List.dropWhile_append]
  simp only [fromAccepted] at unheard
  simp [unheard, fromAccepted]

theorem fromAccepted_eq_nil :
    fromAccepted events = [] ↔ ∀ success ∈ events, success.isAccepted = false := by
  simp [fromAccepted, List.dropWhile_eq_nil_iff]

theorem fromAccepted_cons {success : Success} (events : List Success)
    (accepted : success.isAccepted = true) :
    fromAccepted (success :: events) = success :: events := by
  simp [fromAccepted, accepted]

theorem mem_of_mem_fromAccepted (member : success ∈ fromAccepted events) : success ∈ events :=
  (List.dropWhile_sublist _).subset member

/-- The route info of an order after some events. -/
def replay (events : List Success) (info : OrderRouteInfo) : OrderRouteInfo :=
  events.foldl (fun info success => OrderRouter.applyEvent success info) info

@[simp] theorem replay_nil (info : OrderRouteInfo) : replay [] info = info := rfl

@[simp] theorem replay_append (first rest : List Success) (info : OrderRouteInfo) :
    replay (first ++ rest) info = replay rest (replay first info) :=
  List.foldl_append

@[simp] theorem replay_cons (success : Success) (events : List Success) (info : OrderRouteInfo) :
    replay (success :: events) info = replay events (OrderRouter.applyEvent success info) := rfl

end QAExchange
