import QAExchange.Factor.FactorRegistry

/-! # The factor actor

Finished bars of several instruments and periods go through one engine for each instrument,
and the values of the factors are broadcast for the instrument and the period.
-/

namespace QAExchange

open Foundation

variable {K : Type} [Field K] [LinearOrder K]

structure FactorValue (K : Type) where
  factorId : String
  value : K
  deriving DecidableEq

abbrev FactorValues (K : Type) := KeyedRows (FactorValue.factorId : FactorValue K → String)

structure FactorOperator (K : Type) where
  factorId : String
  operator : StreamOperator K

structure StreamFactorEngine (K : Type) where
  registry : FactorRegistry K
  operators : KeyedRows (FactorOperator.factorId : FactorOperator K → String)
  currentValues : FactorValues K

namespace StreamFactorEngine

omit [Field K] [LinearOrder K] in
def new (registry : FactorRegistry K) : StreamFactorEngine K where
  registry := registry
  operators := .empty
  currentValues := .empty

def RollingFunc.debug : RollingFunc → String
  | .Mean => "Mean"
  | .Std => "Std"
  | .Sum => "Sum"
  | .Min => "Min"
  | .Max => "Max"
  | .Var => "Var"

def initFactor (factorId : String) (engine : StreamFactorEngine K) :
    Except String (StreamFactorEngine K) :=
  match engine.registry.get factorId with
  | none => .error ("Factor not found: " ++ factorId)
  | some factor =>
    match StreamOperator.ofDef factor.definition with
    | some operator =>
      .ok { engine with
        operators := engine.operators.insert { factorId := factorId, operator := operator } }
    | none =>
      match factor.definition with
      | .Rolling _ _ func =>
        .error ("Rolling " ++ RollingFunc.debug func ++ " not supported in stream mode")
      | _ => .error "Factor type not supported in stream mode"

def update (factorId : String) (value : K) (engine : StreamFactorEngine K) :
    Except String K × StreamFactorEngine K :=
  match engine.operators.get factorId with
  | none => (.error ("Operator not initialized: " ++ factorId), engine)
  | some found =>
    let updated := found.operator.update value
    (.ok updated.2,
      { engine with
        operators := engine.operators.insert { factorId := factorId, operator := updated.1 }
        currentValues := engine.currentValues.insert
          { factorId := factorId, value := updated.2 } })

/-- One after the other, also where an id comes twice. -/
def updateAll (sourceValue : K) (factorIds : List String) (engine : StreamFactorEngine K) :
    FactorValues K × StreamFactorEngine K :=
  factorIds.foldl (fun results factorId =>
    match results.2.update factorId sourceValue with
    | (.ok value, engine) => (results.1.insert { factorId := factorId, value := value }, engine)
    | (.error _, engine) => (results.1, engine)) (.empty, engine)

end StreamFactorEngine

structure FactorActorConfig where
  factors : List String
  periods : List ℤ

def FactorActorConfig.default : FactorActorConfig where
  factors := ["ma5", "ma10", "ma20", "ema12", "ema26", "rsi14", "macd"]
  periods := [4, 5, 6]

/-- `MarketDataEvent::KLineFinished`, with the field of the bar that is read. -/
structure FinishedKline (K : Type) where
  instrumentId : String
  period : ℤ
  close : K
  timestamp : ℤ

/-- `MarketDataEvent::FactorUpdate` -/
structure FactorUpdateEvent (K : Type) where
  instrumentId : String
  factors : FactorValues K
  period : ℤ
  timestamp : ℤ

structure InstrumentEngine (K : Type) where
  instrumentId : String
  engine : StreamFactorEngine K

abbrev FactorEngines (K : Type) :=
  KeyedRows (InstrumentEngine.instrumentId : InstrumentEngine K → String)

namespace FactorActor

/-- The engine of an instrument when its first bar comes. Factors that cannot be initialised are
left out. -/
def newEngine (config : FactorActorConfig) : StreamFactorEngine K :=
  config.factors.foldl (fun engine factorId =>
    match engine.initFactor factorId with
    | .ok engine => engine
    | .error _ => engine) (.new .withStandardFactors)

def getOrCreateEngine (config : FactorActorConfig) (instrumentId : String)
    (engines : FactorEngines K) : StreamFactorEngine K :=
  match engines.get instrumentId with
  | some found => found.engine
  | none => newEngine config

/-- The engines after an event, and what is broadcast. -/
def onKlineFinished (config : FactorActorConfig) (engines : FactorEngines K)
    (event : FinishedKline K) : FactorEngines K × List (FactorUpdateEvent K) :=
  if event.period ∈ config.periods then
    let engine := getOrCreateEngine config event.instrumentId engines
    let updated := engine.updateAll event.close config.factors
    let engines := engines.insert { instrumentId := event.instrumentId, engine := updated.2 }
    if updated.1.rows = [] then (engines, [])
    else
      (engines,
        [{ instrumentId := event.instrumentId
           factors := updated.1
           period := event.period
           timestamp := event.timestamp }])
  else (engines, [])

def run (config : FactorActorConfig) :
    FactorEngines K → List (FinishedKline K) → List (FactorUpdateEvent K)
  | _, [] => []
  | engines, event :: events =>
    let next := onKlineFinished config engines event
    next.2 ++ run config next.1 events

/-! ## Bars of one kind -/

def outputs (config : FactorActorConfig) :
    StreamFactorEngine K → List K → List (FactorValues K)
  | _, [] => []
  | engine, close :: closes =>
    let updated := engine.updateAll close config.factors
    updated.1 :: outputs config updated.2 closes

def valuesAlone (config : FactorActorConfig) (closes : List K) : List (FactorValues K) :=
  (outputs config (newEngine config) closes).filter fun values => values.rows ≠ []

def closesOf (instrumentId : String) (period : ℤ) (events : List (FinishedKline K)) : List K :=
  (events.filter fun event =>
    event.instrumentId = instrumentId ∧ event.period = period).map FinishedKline.close

def ComputesAlone (config : FactorActorConfig) (events : List (FinishedKline K))
    (instrumentId : String) (period : ℤ) : Prop :=
  ((run config .empty events).filter fun update =>
    update.instrumentId = instrumentId ∧ update.period = period).map FactorUpdateEvent.factors =
      valuesAlone config (closesOf instrumentId period events)

def labelledOutputs (config : FactorActorConfig) :
    StreamFactorEngine K → List (FinishedKline K) → List (ℤ × FactorValues K)
  | _, [] => []
  | engine, event :: events =>
    let updated := engine.updateAll event.close config.factors
    if updated.1.rows = [] then labelledOutputs config updated.2 events
    else (event.period, updated.1) :: labelledOutputs config updated.2 events

def countedOf (config : FactorActorConfig) (instrumentId : String)
    (events : List (FinishedKline K)) : List (FinishedKline K) :=
  events.filter fun event => event.instrumentId = instrumentId ∧ event.period ∈ config.periods

section Run

variable (config : FactorActorConfig) (instrumentId : String)

omit [Field K] [LinearOrder K] in
theorem countedOf_cons (event : FinishedKline K) (events : List (FinishedKline K)) :
    countedOf config instrumentId (event :: events) =
      if event.instrumentId = instrumentId ∧ event.period ∈ config.periods then
        event :: countedOf config instrumentId events
      else countedOf config instrumentId events := by
  simp only [countedOf, List.filter_cons, decide_eq_true_eq]

omit [LinearOrder K] in
theorem getOrCreateEngine_insert (engines : FactorEngines K) (other : String)
    (engine : StreamFactorEngine K) :
    getOrCreateEngine config instrumentId
        (engines.insert { instrumentId := other, engine := engine }) =
      if other = instrumentId then engine else getOrCreateEngine config instrumentId engines := by
  rw [getOrCreateEngine, KeyedRows.get_insert]
  split_ifs with same
  · rfl
  · rfl

/-- What is broadcast for an instrument depends on its own bars only. -/
theorem run_instrument (events : List (FinishedKline K)) (engines : FactorEngines K) :
    ((run config engines events).filter fun update =>
        update.instrumentId = instrumentId).map (fun update => (update.period, update.factors)) =
      labelledOutputs config (getOrCreateEngine config instrumentId engines)
        (countedOf config instrumentId events) := by
  induction events generalizing engines with
  | nil => rfl
  | cons event events induction =>
    rw [run, List.filter_append, List.map_append, induction, onKlineFinished]
    by_cases isCounted : event.period ∈ config.periods
    · rw [if_pos isCounted]
      dsimp only
      by_cases isOwn : event.instrumentId = instrumentId
      · have counted : countedOf config instrumentId (event :: events) =
            event :: countedOf config instrumentId events := by
          rw [countedOf_cons, if_pos ⟨isOwn, isCounted⟩]
        rw [counted, labelledOutputs, isOwn]
        split_ifs with nothing
        · rw [getOrCreateEngine_insert, if_pos rfl]
          rfl
        · rw [getOrCreateEngine_insert, if_pos rfl, List.filter_cons, if_pos (decide_eq_true rfl)]
          rfl
      · have skipped : countedOf config instrumentId (event :: events) =
            countedOf config instrumentId events := by
          rw [countedOf_cons, if_neg fun both => isOwn both.1]
        rw [skipped]
        split_ifs with nothing
        · rw [getOrCreateEngine_insert, if_neg isOwn]
          rfl
        · rw [getOrCreateEngine_insert, if_neg isOwn, List.filter_cons,
            if_neg (by simp [isOwn])]
          rfl
    · have skipped : countedOf config instrumentId (event :: events) =
          countedOf config instrumentId events := by
        rw [countedOf_cons, if_neg fun both => isCounted both.2]
      rw [if_neg isCounted, skipped]
      rfl

end Run

section Labels

variable (config : FactorActorConfig) {period : ℤ}

theorem labelledOutputs_same (same : ∀ event ∈ events, event.period = period)
    (engine : StreamFactorEngine K) :
    ((labelledOutputs config engine events).filter fun labelled => labelled.1 = period).map
        Prod.snd = (outputs config engine (events.map FinishedKline.close)).filter fun values =>
        values.rows ≠ [] := by
  induction events generalizing engine with
  | nil => rfl
  | cons event events induction =>
    have isPeriod := same event List.mem_cons_self
    have later := induction fun other member => same other (List.mem_cons_of_mem _ member)
    rw [labelledOutputs, List.map_cons, outputs]
    split_ifs with nothing
    · rw [later, List.filter_cons, if_neg (by simp [nothing])]
    · rw [List.filter_cons, if_pos (decide_eq_true isPeriod), List.map_cons, later,
        List.filter_cons, if_pos (decide_eq_true nothing)]

theorem labelledOutputs_other (others : ∀ event ∈ events, event.period ≠ period)
    (engine : StreamFactorEngine K) :
    ((labelledOutputs config engine events).filter fun labelled => labelled.1 = period) = [] := by
  induction events generalizing engine with
  | nil => rfl
  | cons event events induction =>
    have isOther := others event List.mem_cons_self
    have later := induction fun other member => others other (List.mem_cons_of_mem _ member)
    rw [labelledOutputs]
    split_ifs with nothing
    · exact later _
    · rw [List.filter_cons, if_neg (by simp [isOther])]
      exact later _

end Labels

/-- Every instrument has bars of only one of the periods that are counted. -/
def OnePeriodEach (config : FactorActorConfig) (events : List (FinishedKline K)) : Prop :=
  ∀ first ∈ events, ∀ second ∈ events, first.period ∈ config.periods →
    second.period ∈ config.periods → first.instrumentId = second.instrumentId →
      first.period = second.period

theorem computesAlone_of_onePeriodEach {config : FactorActorConfig}
    {events : List (FinishedKline K)} (onePeriod : OnePeriodEach config events)
    (instrumentId : String) {period : ℤ} (isCounted : period ∈ config.periods) :
    ComputesAlone config events instrumentId period := by
  have own := run_instrument config instrumentId events (.empty : FactorEngines K)
  have asLabels : ((run config .empty events).filter fun update =>
      update.instrumentId = instrumentId ∧ update.period = period).map FactorUpdateEvent.factors =
      ((labelledOutputs config (newEngine config) (countedOf config instrumentId events)).filter
        fun labelled => labelled.1 = period).map Prod.snd := by
    have isNew : getOrCreateEngine config instrumentId (.empty : FactorEngines K) =
        newEngine config := rfl
    rw [← isNew, ← own, List.filter_map, List.map_map, List.filter_filter]
    congr 1
    apply List.filter_congr
    intro update _
    simp [Bool.and_comm]
  rw [ComputesAlone, asLabels, valuesAlone]
  by_cases same : ∀ event ∈ countedOf config instrumentId events, event.period = period
  · have isOwn : closesOf instrumentId period events =
        (countedOf config instrumentId events).map FinishedKline.close := by
      rw [closesOf, countedOf]
      congr 1
      apply List.filter_congr
      intro event member
      by_cases isInstrument : event.instrumentId = instrumentId
      · by_cases isIn : event.period ∈ config.periods
        · have isPeriod := same event (List.mem_filter.mpr
            ⟨member, decide_eq_true ⟨isInstrument, isIn⟩⟩)
          simp [isInstrument, isPeriod, isCounted]
        · have isOther : event.period ≠ period := fun equal => isIn (equal ▸ isCounted)
          simp [isIn, isOther]
      · simp [isInstrument]
    rw [labelledOutputs_same config same, isOwn]
  · simp only [not_forall] at same
    obtain ⟨other, isOther, different⟩ := same
    obtain ⟨isEvent, kind⟩ := List.mem_filter.mp isOther
    have otherKind := of_decide_eq_true kind
    have allOther : ∀ event ∈ events, event.instrumentId = instrumentId →
        event.period ≠ period := by
      intro event member isInstrument isPeriod
      have equal := onePeriod event member other isEvent (isPeriod ▸ isCounted) otherKind.2
        (isInstrument.trans otherKind.1.symm)
      exact different (equal.symm.trans isPeriod)
    have noCloses : closesOf instrumentId period events = [] := by
      rw [closesOf, List.map_eq_nil_iff, List.filter_eq_nil_iff]
      intro event member both
      have kinds := of_decide_eq_true both
      exact allOther event member kinds.1 kinds.2
    have others : ∀ event ∈ countedOf config instrumentId events, event.period ≠ period := by
      intro event member
      obtain ⟨isMember, kinds⟩ := List.mem_filter.mp member
      exact allOther event isMember (of_decide_eq_true kinds).1
    rw [labelledOutputs_other config others, noCloses]
    rfl

def twoBars (minute fiveMinutes : String) : List (FinishedKline ℚ) :=
  [{ instrumentId := minute, period := 4, close := 10, timestamp := 60 },
    { instrumentId := fiveMinutes, period := 5, close := 20, timestamp := 300 }]

/-- Two instruments do not share an engine. -/
theorem twoInstruments_alone : ComputesAlone .default (twoBars "IF2501" "IC2501") "IC2501" 5 := by
  apply computesAlone_of_onePeriodEach
  · intro first isFirst second isSecond _ _ same
    simp only [twoBars, List.mem_cons, List.not_mem_nil, or_false] at isFirst isSecond
    obtain rfl | rfl := isFirst <;> obtain rfl | rfl := isSecond <;> simp_all
  · decide

/-- In one instrument the average of the five-minute bars has the bar of one minute in it. -/
theorem twoPeriods_mixed :
    ((run .default .empty (twoBars "IF2501" "IF2501")).filter fun update =>
      update.instrumentId = "IF2501" ∧ update.period = 5).map
        (fun update => (update.factors.get "ma5").map FactorValue.value) = [some 15] ∧
      ¬ComputesAlone .default (twoBars "IF2501" "IF2501") "IF2501" 5 := by
  constructor
  · decide +kernel
  · rw [ComputesAlone]
    decide +kernel

end FactorActor

end QAExchange
