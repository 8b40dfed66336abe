import QAExchange.Exchange.TradingSession

/-! # State notifications

The automatic transition of the trading state machine takes five exchanges through one
stored state. What the listeners hear at a reading of the clock depends on the exchange that
was updated before.
-/

namespace QAExchange

open TradingStateMachine

structure StateNotification where
  exchange : ExchangeType
  oldState : TradingState
  newState : TradingState
  deriving DecidableEq

namespace TradingStateMachine

/-- The machine afterwards, and what each listener is called with. -/
def updateExchangeState (exchange : ExchangeType) (newState : TradingState)
    (machine : TradingStateMachine) : TradingStateMachine × List StateNotification :=
  let oldState := machine.globalState
  if oldState ≠ newState then
    ({ machine with globalState := newState }, [⟨exchange, oldState, newState⟩])
  else (machine, [])

def autoExchanges : List ExchangeType := [.CFFEX, .SHFE, .DCE, .CZCE, .INE]

def updateExchanges (now : ℕ) :
    List ExchangeType → TradingStateMachine → TradingStateMachine × List StateNotification
  | [], machine => (machine, [])
  | exchange :: exchanges, machine =>
    let newState := machine.calendar.getCurrentState exchange now
    let updated := machine.updateExchangeState exchange newState
    let later := updateExchanges now exchanges updated.1
    (later.1, updated.2 ++ later.2)

/-- One round of `start_auto_transition`. -/
def autoTransition (machine : TradingStateMachine) (now : ℕ) :
    TradingStateMachine × List StateNotification :=
  updateExchanges now autoExchanges machine

def heardAt : List ℕ → TradingStateMachine → List (List StateNotification)
  | [], _ => []
  | now :: readings, machine =>
    (machine.autoTransition now).2 :: heardAt readings (machine.autoTransition now).1

end TradingStateMachine

namespace TradingCalendar

def changesOf (calendar : TradingCalendar) (previous now : ℕ) :
    List ExchangeType → List StateNotification
  | [] => []
  | exchange :: exchanges =>
    let oldState := calendar.getCurrentState exchange previous
    let newState := calendar.getCurrentState exchange now
    (if oldState ≠ newState then [⟨exchange, oldState, newState⟩] else []) ++
      calendar.changesOf previous now exchanges

def FindsOwnState (calendar : TradingCalendar) (previous now : ℕ) :
    List ExchangeType → TradingState → Prop
  | [], _ => True
  | exchange :: exchanges, stored =>
    stored = calendar.getCurrentState exchange previous ∧
      calendar.FindsOwnState previous now exchanges (calendar.getCurrentState exchange now)

theorem exchange_mem_of_mem_changesOf {calendar : TradingCalendar}
    (mem : notification ∈ calendar.changesOf previous now exchanges) :
    notification.exchange ∈ exchanges := by
  induction exchanges with
  | nil => exact nomatch mem
  | cons exchange exchanges induction =>
    rw [changesOf] at mem
    rcases List.mem_append.mp mem with head | later
    · split_ifs at head
      · rw [List.mem_singleton.mp head]
        exact List.mem_cons_self
      · exact nomatch head
    · exact List.mem_cons_of_mem exchange (induction later)

end TradingCalendar

namespace TradingStateMachine

@[simp] theorem updateExchangeState_calendar (exchange : ExchangeType) (newState : TradingState)
    (machine : TradingStateMachine) :
    (machine.updateExchangeState exchange newState).1.calendar = machine.calendar := by
  rw [updateExchangeState]
  split_ifs <;> rfl

/-- The stored state is the one of the exchange that was updated last. -/
@[simp] theorem updateExchangeState_globalState (exchange : ExchangeType)
    (newState : TradingState) (machine : TradingStateMachine) :
    (machine.updateExchangeState exchange newState).1.globalState = newState := by
  rw [updateExchangeState]
  split_ifs with differ
  · rfl
  · exact not_not.mp differ

@[simp] theorem updateExchanges_calendar (now : ℕ) (exchanges : List ExchangeType)
    (machine : TradingStateMachine) :
    (updateExchanges now exchanges machine).1.calendar = machine.calendar := by
  induction exchanges generalizing machine with
  | nil => rfl
  | cons exchange exchanges induction =>
    rw [updateExchanges]
    dsimp only
    rw [induction, updateExchangeState_calendar]

theorem exchange_mem_of_mem_updateExchanges
    (mem : notification ∈ (updateExchanges now exchanges machine).2) :
    notification.exchange ∈ exchanges := by
  induction exchanges generalizing machine with
  | nil => exact nomatch mem
  | cons exchange exchanges induction =>
    rw [updateExchanges] at mem
    rcases List.mem_append.mp mem with head | later
    · rw [updateExchangeState] at head
      split_ifs at head
      · rw [List.mem_singleton.mp head]
        exact List.mem_cons_self
      · exact nomatch head
    · exact List.mem_cons_of_mem exchange (induction later)

/-- One exchange is heard of as its calendar says where it finds its own previous state. -/
theorem updateExchangeState_eq_iff {machine : TradingStateMachine} :
    (machine.updateExchangeState exchange newState).2 =
        (if oldState ≠ newState then [⟨exchange, oldState, newState⟩] else []) ↔
      machine.globalState = oldState := by
  rw [updateExchangeState]
  split_ifs with stored own own
  · simp
  · rw [not_not] at own
    rw [own]
    simp [stored]
  · rw [not_not] at stored
    rw [stored]
    simp [Ne.symm own]
  · rw [not_not] at stored own
    simp [stored, own]

/-- A list of at most one notification of an exchange, before notifications of others. -/
theorem append_eq_append_iff_of_other {exchange : ExchangeType}
    {first second laterFirst laterSecond : List StateNotification}
    (isFirst : ∀ notification ∈ first, notification.exchange = exchange)
    (isSecond : ∀ notification ∈ second, notification.exchange = exchange)
    (others : ∀ notification ∈ laterFirst ++ laterSecond, notification.exchange ≠ exchange) :
    first ++ laterFirst = second ++ laterSecond ↔ first = second ∧ laterFirst = laterSecond := by
  constructor
  · intro equal
    have parts : ∀ own later : List StateNotification,
        (∀ notification ∈ own, notification.exchange = exchange) →
          (∀ notification ∈ later, notification.exchange ≠ exchange) →
            (own ++ later).filter (fun notification => notification.exchange = exchange) = own ∧
              (own ++ later).filter (fun notification => notification.exchange ≠ exchange) =
                later := by
      intro own later isOwn isLater
      rw [List.filter_append, List.filter_append]
      constructor
      · rw [List.filter_eq_self.mpr (by simpa using isOwn),
          List.filter_eq_nil_iff.mpr (by simpa using isLater), List.append_nil]
      · rw [List.filter_eq_nil_iff.mpr (by simpa using isOwn),
          List.filter_eq_self.mpr (by simpa using isLater), List.nil_append]
    have left := parts first laterFirst isFirst
      (fun notification mem => others notification (List.mem_append_left _ mem))
    have right := parts second laterSecond isSecond
      (fun notification mem => others notification (List.mem_append_right _ mem))
    rw [equal] at left
    exact ⟨left.1.symm.trans right.1, left.2.symm.trans right.2⟩
  · rintro ⟨rfl, rfl⟩
    rfl

/-- In one round the listeners hear the changes exactly when each exchange finds its own
previous state stored. -/
theorem updateExchanges_eq_changesOf_iff {previous now : ℕ} {exchanges : List ExchangeType}
    (distinct : exchanges.Nodup) (machine : TradingStateMachine) :
    (updateExchanges now exchanges machine).2 =
        machine.calendar.changesOf previous now exchanges ↔
      machine.calendar.FindsOwnState previous now exchanges machine.globalState := by
  induction exchanges generalizing machine with
  | nil => exact iff_of_true rfl trivial
  | cons exchange exchanges induction =>
    rcases List.nodup_cons.mp distinct with ⟨absent, distinctLater⟩
    rw [updateExchanges, TradingCalendar.changesOf, TradingCalendar.FindsOwnState]
    dsimp only
    have later := induction distinctLater (machine.updateExchangeState exchange
      (machine.calendar.getCurrentState exchange now)).1
    rw [updateExchangeState_calendar, updateExchangeState_globalState] at later
    have isOwn : ∀ notification ∈ (machine.updateExchangeState exchange
        (machine.calendar.getCurrentState exchange now)).2,
          notification.exchange = exchange := by
      intro notification mem
      rw [updateExchangeState] at mem
      split_ifs at mem
      · rw [List.mem_singleton.mp mem]
      · exact nomatch mem
    have isChange : ∀ notification ∈ (if machine.calendar.getCurrentState exchange previous ≠
        machine.calendar.getCurrentState exchange now then
          [(⟨exchange, machine.calendar.getCurrentState exchange previous,
            machine.calendar.getCurrentState exchange now⟩ : StateNotification)] else []),
          notification.exchange = exchange := by
      intro notification mem
      split_ifs at mem
      · rw [List.mem_singleton.mp mem]
      · exact nomatch mem
    apply (append_eq_append_iff_of_other isOwn isChange ?_).trans
    · rw [later, updateExchangeState_eq_iff]
    · intro notification mem same
      rcases List.mem_append.mp mem with heard | change
      · exact absent (same ▸ exchange_mem_of_mem_updateExchanges heard)
      · exact absent (same ▸ TradingCalendar.exchange_mem_of_mem_changesOf change)

end TradingStateMachine

namespace TradingCalendar

def InOneState (calendar : TradingCalendar) (previous now : ℕ) : Prop :=
  ∃ state, ∀ exchange ∈ autoExchanges,
    calendar.getCurrentState exchange previous = state ∧
      calendar.getCurrentState exchange now = state

/-- With the state of the last exchange stored, each exchange finds its own state only where
all have the same one. -/
theorem findsOwnState_iff (previous now : ℕ) :
    TradingCalendar.new.FindsOwnState previous now autoExchanges
        (TradingCalendar.new.getCurrentState .INE previous) ↔
      TradingCalendar.new.InOneState previous now := by
  have commodity : ∀ time, TradingCalendar.new.getCurrentState .SHFE time =
        TradingCalendar.new.getCurrentState .INE time ∧
      TradingCalendar.new.getCurrentState .DCE time =
        TradingCalendar.new.getCurrentState .INE time ∧
      TradingCalendar.new.getCurrentState .CZCE time =
        TradingCalendar.new.getCurrentState .INE time :=
    fun _ => ⟨rfl, rfl, rfl⟩
  rw [InOneState]
  simp only [autoExchanges, FindsOwnState, commodity previous, commodity now,
    List.forall_mem_cons]
  constructor
  · rintro ⟨cffex, shfe, dce, _⟩
    refine ⟨TradingCalendar.new.getCurrentState .INE previous, ⟨cffex.symm, shfe⟩, ⟨rfl, dce⟩,
      ⟨rfl, dce⟩, ⟨rfl, dce⟩, ⟨rfl, dce⟩, nofun⟩
  · rintro ⟨state, ⟨cffex, cffexNow⟩, ⟨ine, ineNow⟩, _⟩
    rw [cffex, cffexNow, ine, ineNow]
    exact ⟨rfl, rfl, rfl, rfl, rfl, trivial⟩

end TradingCalendar

namespace TradingStateMachine

/-- At every reading after the first one the listeners hear the changes since the one
before. -/
def HearsChanges (machine : TradingStateMachine) (readings : List ℕ) : Prop :=
  (heardAt readings machine).tail = (readings.zip readings.tail).map fun pair =>
    machine.calendar.changesOf pair.1 pair.2 autoExchanges

theorem autoTransition_globalState (machine : TradingStateMachine) (now : ℕ) :
    (machine.autoTransition now).1.globalState = machine.calendar.getCurrentState .INE now := by
  simp only [autoTransition, autoExchanges, updateExchanges, updateExchangeState_globalState,
    updateExchangeState_calendar]

theorem autoTransition_calendar (machine : TradingStateMachine) (now : ℕ) :
    (machine.autoTransition now).1.calendar = machine.calendar :=
  updateExchanges_calendar now autoExchanges machine

theorem autoTransition_eq_changes_iff {machine : TradingStateMachine}
    (calendar : machine.calendar = .new)
    (stored : machine.globalState = TradingCalendar.new.getCurrentState .INE previous) :
    (machine.autoTransition now).2 =
        TradingCalendar.new.changesOf previous now autoExchanges ↔
      TradingCalendar.new.InOneState previous now := by
  have distinct : autoExchanges.Nodup := by decide
  have round : (updateExchanges now autoExchanges machine).2 =
        machine.calendar.changesOf previous now autoExchanges ↔
      machine.calendar.FindsOwnState previous now autoExchanges machine.globalState :=
    updateExchanges_eq_changesOf_iff distinct machine
  rw [calendar, stored, TradingCalendar.findsOwnState_iff] at round
  exact round

theorem heardAt_eq_changes_iff {machine : TradingStateMachine} (calendar : machine.calendar = .new)
    (stored : machine.globalState = TradingCalendar.new.getCurrentState .INE previous)
    (readings : List ℕ) :
    (heardAt readings machine = ((previous :: readings).zip readings).map fun pair =>
        TradingCalendar.new.changesOf pair.1 pair.2 autoExchanges) ↔
      ∀ pair ∈ (previous :: readings).zip readings,
        TradingCalendar.new.InOneState pair.1 pair.2 := by
  induction readings generalizing machine previous with
  | nil => exact iff_of_true rfl nofun
  | cons now readings induction =>
    have storedNow : (machine.autoTransition now).1.globalState =
        TradingCalendar.new.getCurrentState .INE now := by
      rw [autoTransition_globalState, calendar]
    have later := induction ((autoTransition_calendar machine now).trans calendar) storedNow
    rw [heardAt, List.zip_cons_cons, List.map_cons, List.cons_eq_cons, later,
      autoTransition_eq_changes_iff calendar stored, List.forall_mem_cons]

/-- Over any readings the listeners hear exactly the changes of each exchange if and only if
at any two readings in a row all exchanges are in one state. -/
theorem hearsChanges_iff (readings : List ℕ) :
    new.HearsChanges readings ↔
      ∀ pair ∈ readings.zip readings.tail, TradingCalendar.new.InOneState pair.1 pair.2 := by
  cases readings with
  | nil => exact iff_of_true rfl nofun
  | cons first readings =>
    exact heardAt_eq_changes_iff (autoTransition_calendar .new first)
      (autoTransition_globalState .new first) readings

/-- Two readings in the opening auction of the index futures: no exchange changes its state,
and each reading is heard of twice. -/
theorem openingAuction_heard :
    let readings := [TradingCalendar.clock 9 26 0, TradingCalendar.clock 9 26 1]
    heardAt readings new =
        [[⟨.CFFEX, .Closed, .AuctionOrder⟩, ⟨.SHFE, .AuctionOrder, .ContinuousTrading⟩],
          [⟨.CFFEX, .ContinuousTrading, .AuctionOrder⟩,
            ⟨.SHFE, .AuctionOrder, .ContinuousTrading⟩]] ∧
      TradingCalendar.new.changesOf (TradingCalendar.clock 9 26 0)
        (TradingCalendar.clock 9 26 1) autoExchanges = [] ∧
      ¬new.HearsChanges readings := by
  dsimp only
  have heard : heardAt [TradingCalendar.clock 9 26 0, TradingCalendar.clock 9 26 1]
      new =
        [[⟨.CFFEX, .Closed, .AuctionOrder⟩, ⟨.SHFE, .AuctionOrder, .ContinuousTrading⟩],
          [⟨.CFFEX, .ContinuousTrading, .AuctionOrder⟩,
            ⟨.SHFE, .AuctionOrder, .ContinuousTrading⟩]] := by
    decide +kernel
  have changes : TradingCalendar.new.changesOf (TradingCalendar.clock 9 26 0)
      (TradingCalendar.clock 9 26 1) autoExchanges = [] := by
    decide +kernel
  refine ⟨heard, changes, ?_⟩
  intro hears
  rw [HearsChanges, heard] at hears
  exact absurd (hears.trans (congrArg (fun calls => [calls]) changes)) (by decide)

end TradingStateMachine

end QAExchange
