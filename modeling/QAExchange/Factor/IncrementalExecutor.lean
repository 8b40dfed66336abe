import QAExchange.Factor.FactorRegistry
import QAExchange.Foundation.Text

/-! # Incremental execution

Operators by their sources and periods, and updates of sources that are passed on to them. An
operator is found by the text that its key starts with.
-/

namespace QAExchange

open Foundation

/-- The value of a `RollingStd`. -/
def RollingStd.value {K : Type} [Field K] (sqrt : K → K) (state : RollingStd K) : K :=
  sqrt state.variance

abbrev OperatorTable (Operator : Type) := String → Option Operator

namespace OperatorTable

variable {Operator Value : Type}

def key (source : String) (period : ℕ) : String := source ++ "_" ++ toString period

def startsWith (key sourceName : String) : Bool := sourceName.toList.isPrefixOf key.toList

/-- The operator of a source and a period, and the table that has it. -/
def getOrCreate (new : ℕ → Operator) (source : String) (period : ℕ)
    (table : OperatorTable Operator) : Operator × OperatorTable Operator :=
  match table (key source period) with
  | some operator => (operator, table)
  | none =>
    (new period, Function.update table (key source period) (some (new period)))

/-- Updates every operator whose key starts with the name of the source. -/
def update (feed : Operator → Value → Operator) (sourceName : String) (value : Value)
    (table : OperatorTable Operator) : OperatorTable Operator := fun key =>
  (table key).map fun operator =>
    if startsWith key sourceName then feed operator value else operator

theorem key_inj (equal : key left first = key right second) : left = right ∧ first = second := by
  have lists := congrArg String.toList equal
  simp only [key, String.toList_append, Nat.toString_eq_repr, Nat.toList_repr,
    List.append_assoc] at lists
  exact numbered_inj rfl lists

theorem startsWith_key (source : String) (period : ℕ) : startsWith (key source period) source := by
  rw [startsWith, List.isPrefixOf_iff_prefix]
  simp only [key, String.toList_append, List.append_assoc]
  exact List.prefix_append source.toList _

theorem getOrCreate_fst (new : ℕ → Operator) (source : String) (period : ℕ)
    (table : OperatorTable Operator) :
    (getOrCreate new source period table).1 = (table (key source period)).getD (new period) := by
  rw [getOrCreate]
  cases table (key source period) with
  | some operator => rfl
  | none => rfl

theorem getOrCreate_self (new : ℕ → Operator) (source : String) (period : ℕ)
    (table : OperatorTable Operator) : (getOrCreate new source period table).2 (key source period) =
      some ((table (key source period)).getD (new period)) := by
  rw [getOrCreate]
  cases found : table (key source period) with
  | some operator => exact found
  | none => exact Function.update_self ..

theorem getOrCreate_other (table : OperatorTable Operator)
    (different : key other length ≠ key source period) :
    (getOrCreate new other length table).2 (key source period) = table (key source period) := by
  rw [getOrCreate]
  cases table (key other length) with
  | some operator => rfl
  | none => exact Function.update_of_ne different.symm ..

end OperatorTable

/-! ## IncrementalExecutor -/

structure IncrementalExecutor (K : Type) where
  rollingMeans : OperatorTable (RollingMean K)
  rollingStds : OperatorTable (RollingStd K)
  emas : OperatorTable (EMA K)
  rsis : OperatorTable (RSI K)

inductive OperatorKind
  | ma
  | std
  | ema
  | rsi
  deriving DecidableEq

namespace IncrementalExecutor

variable {K : Type} [Field K] [LinearOrder K]

def new : IncrementalExecutor K where
  rollingMeans _ := none
  rollingStds _ := none
  emas _ := none
  rsis _ := none

def update (sourceName : String) (value : K) (state : IncrementalExecutor K) :
    IncrementalExecutor K where
  rollingMeans := OperatorTable.update RollingMean.update sourceName value state.rollingMeans
  rollingStds := OperatorTable.update RollingStd.update sourceName value state.rollingStds
  emas := OperatorTable.update EMA.update sourceName value state.emas
  rsis := OperatorTable.update RSI.update sourceName value state.rsis

def getOrCreateMa (source : String) (period : ℕ) (state : IncrementalExecutor K) :
    K × IncrementalExecutor K :=
  let found := OperatorTable.getOrCreate RollingMean.new source period state.rollingMeans
  (found.1.value, { state with rollingMeans := found.2 })

def getOrCreateStd (sqrt : K → K) (source : String) (period : ℕ) (state : IncrementalExecutor K) :
    K × IncrementalExecutor K :=
  let found := OperatorTable.getOrCreate RollingStd.new source period state.rollingStds
  (found.1.value sqrt, { state with rollingStds := found.2 })

def getOrCreateEma (source : String) (period : ℕ) (state : IncrementalExecutor K) :
    Option K × IncrementalExecutor K :=
  let found := OperatorTable.getOrCreate EMA.new source period state.emas
  (found.1.value, { state with emas := found.2 })

def getOrCreateRsi (source : String) (period : ℕ) (state : IncrementalExecutor K) :
    Option K × IncrementalExecutor K :=
  let found := OperatorTable.getOrCreate RSI.new source period state.rsis
  (found.1.value, { state with rsis := found.2 })

inductive Call (K : Type)
  | getOrCreate (kind : OperatorKind) (source : String) (period : ℕ)
  | update (sourceName : String) (value : K)

def step (sqrt : K → K) (state : IncrementalExecutor K) : Call K → IncrementalExecutor K
  | .getOrCreate .ma source period => (state.getOrCreateMa source period).2
  | .getOrCreate .std source period => (state.getOrCreateStd sqrt source period).2
  | .getOrCreate .ema source period => (state.getOrCreateEma source period).2
  | .getOrCreate .rsi source period => (state.getOrCreateRsi source period).2
  | .update sourceName value => state.update sourceName value

def run (sqrt : K → K) (calls : List (Call K)) : IncrementalExecutor K :=
  calls.foldl (step sqrt) new

/-- The values of the updates of the selected sources. -/
def updatesOf (selects : String → Bool) : List (Call K) → List K
  | [] => []
  | .getOrCreate _ _ _ :: calls => updatesOf selects calls
  | .update sourceName value :: calls =>
    if selects sourceName then value :: updatesOf selects calls else updatesOf selects calls

/-- Those after the call that creates an operator. -/
def fedSince (selects : String → Bool) (kind : OperatorKind) (source : String) (period : ℕ) :
    List (Call K) → List K
  | [] => []
  | .getOrCreate created name length :: calls =>
    if created = kind ∧ name = source ∧ length = period then updatesOf selects calls
    else fedSince selects kind source period calls
  | .update _ _ :: calls => fedSince selects kind source period calls

/-- The values of the updates of exactly its source that an operator was there for. -/
def fed : OperatorKind → String → ℕ → List (Call K) → List K := fun kind source =>
  fedSince (fun name => name = source) kind source

/-- No later update names a source that is another one than that of an operator, and that
the operator's key starts with. -/
def Undisturbed : Call K → Call K → Prop
  | .getOrCreate _ source period, .update name _ =>
    OperatorTable.startsWith (OperatorTable.key source period) name → name = source
  | _, _ => True

structure Keeps {Operator : Type} (sqrt : K → K) (kind : OperatorKind) (new : ℕ → Operator)
    (feed : Operator → K → Operator)
    (table : IncrementalExecutor K → OperatorTable Operator) : Prop where
  create : ∀ state source period, table (step sqrt state (.getOrCreate kind source period)) =
    (OperatorTable.getOrCreate new source period (table state)).2
  other : ∀ state created source period, created ≠ kind →
    table (step sqrt state (.getOrCreate created source period)) = table state
  update : ∀ state name value, table (step sqrt state (.update name value)) =
    OperatorTable.update feed name value (table state)

section Table

variable {Operator : Type} {sqrt : K → K} {kind : OperatorKind} {new : ℕ → Operator}
  {feed : Operator → K → Operator} {table : IncrementalExecutor K → OperatorTable Operator}

theorem Keeps.foldl_some (keeps : Keeps sqrt kind new feed table) (calls : List (Call K))
    (found : table state (OperatorTable.key source period) = some operator) :
    table (calls.foldl (step sqrt) state) (OperatorTable.key source period) =
      some ((updatesOf (OperatorTable.startsWith (OperatorTable.key source period)) calls).foldl
        feed operator) := by
  induction calls generalizing state operator with
  | nil => exact found
  | cons call calls induction =>
    cases call with
    | getOrCreate created name length =>
      apply induction
      by_cases isKind : created = kind
      · rw [isKind, keeps.create]
        by_cases same : OperatorTable.key name length = OperatorTable.key source period
        · rcases OperatorTable.key_inj same with ⟨rfl, rfl⟩
          rw [OperatorTable.getOrCreate_self, found, Option.getD_some]
        · rw [OperatorTable.getOrCreate_other _ same, found]
      · rw [keeps.other _ _ _ _ isKind, found]
    | update name value =>
      have next : table (step sqrt state (.update name value))
          (OperatorTable.key source period) = some
            (if OperatorTable.startsWith (OperatorTable.key source period) name then
              feed operator value else operator) := by
        rw [keeps.update, OperatorTable.update, found, Option.map_some]
      rw [List.foldl_cons, induction next, updatesOf]
      split_ifs with reaches
      · rw [List.foldl_cons]
      · rfl

theorem Keeps.foldl_none (keeps : Keeps sqrt kind new feed table) (calls : List (Call K))
    (missing : table state (OperatorTable.key source period) = none) :
    (table (calls.foldl (step sqrt) state) (OperatorTable.key source period)).getD (new period) =
      (fedSince (OperatorTable.startsWith (OperatorTable.key source period)) kind source period
        calls).foldl feed (new period) := by
  induction calls generalizing state with
  | nil =>
    rw [List.foldl_nil, missing]
    rfl
  | cons call calls induction =>
    cases call with
    | getOrCreate created name length =>
      rw [List.foldl_cons, fedSince]
      split_ifs with isFirst
      · rcases isFirst with ⟨rfl, rfl, rfl⟩
        have next : table (step sqrt state (.getOrCreate created name length))
            (OperatorTable.key name length) = some (new length) := by
          rw [keeps.create, OperatorTable.getOrCreate_self, missing, Option.getD_none]
        rw [keeps.foldl_some calls next, Option.getD_some]
      · apply induction
        by_cases isKind : created = kind
        · have different : OperatorTable.key name length ≠ OperatorTable.key source period := by
            intro same
            exact isFirst ⟨isKind, OperatorTable.key_inj same⟩
          rw [isKind, keeps.create, OperatorTable.getOrCreate_other _ different, missing]
        · rw [keeps.other _ _ _ _ isKind, missing]
    | update name value =>
      apply induction
      rw [keeps.update, OperatorTable.update, missing, Option.map_none]

end Table

theorem keeps_ma (sqrt : K → K) :
    Keeps sqrt .ma RollingMean.new RollingMean.update rollingMeans where
  create _ _ _ := rfl
  other _ created _ _ different := by cases created <;> first | rfl | exact absurd rfl different
  update _ _ _ := rfl

theorem keeps_std (sqrt : K → K) :
    Keeps sqrt .std RollingStd.new RollingStd.update rollingStds where
  create _ _ _ := rfl
  other _ created _ _ different := by cases created <;> first | rfl | exact absurd rfl different
  update _ _ _ := rfl

theorem keeps_ema (sqrt : K → K) : Keeps sqrt .ema EMA.new EMA.update emas where
  create _ _ _ := rfl
  other _ created _ _ different := by cases created <;> first | rfl | exact absurd rfl different
  update _ _ _ := rfl

theorem keeps_rsi (sqrt : K → K) : Keeps sqrt .rsi RSI.new RSI.update rsis where
  create _ _ _ := rfl
  other _ created _ _ different := by cases created <;> first | rfl | exact absurd rfl different
  update _ _ _ := rfl

omit [Field K] [LinearOrder K] in
theorem updatesOf_congr {first second : String → Bool} {calls : List (Call K)}
    (same : ∀ name value, Call.update name value ∈ calls → first name = second name) :
    updatesOf first calls = updatesOf second calls := by
  induction calls with
  | nil => rfl
  | cons call calls induction =>
    have rest := induction fun name value member =>
      same name value (List.mem_cons_of_mem _ member)
    cases call with
    | getOrCreate created name length => exact rest
    | update name value =>
      rw [updatesOf, updatesOf, rest, same name value List.mem_cons_self]

omit [Field K] [LinearOrder K] in
theorem fedSince_eq_fed {calls : List (Call K)} (undisturbed : calls.Pairwise Undisturbed)
    (kind : OperatorKind) (source : String) (period : ℕ) :
    fedSince (OperatorTable.startsWith (OperatorTable.key source period)) kind source period
      calls = fed kind source period calls := by
  induction undisturbed with
  | nil => rfl
  | @cons call calls later _ induction =>
    cases call with
    | update name value => exact induction
    | getOrCreate created name length =>
      rw [fed, fedSince, fedSince]
      split_ifs with isFirst
      · rcases isFirst with ⟨rfl, rfl, rfl⟩
        apply updatesOf_congr
        intro other value member
        rw [Bool.eq_iff_iff, decide_eq_true_eq]
        constructor
        · exact later _ member
        · rintro rfl
          exact OperatorTable.startsWith_key other length
      · exact induction

/-- As long as no update names a source that the key of another source's operator starts with,
every operator has the value of a new one fed with the updates of its source. -/
theorem operators_follow_sources (sqrt : K → K) {calls : List (Call K)}
    (undisturbed : calls.Pairwise Undisturbed) {first : List (Call K)} (reached : first <+: calls)
    (source : String) (period : ℕ) :
    ((run sqrt first).getOrCreateMa source period).1 =
        ((fed .ma source period first).foldl RollingMean.update (.new period)).value ∧
      ((run sqrt first).getOrCreateStd sqrt source period).1 =
        ((fed .std source period first).foldl RollingStd.update (.new period)).value sqrt ∧
      ((run sqrt first).getOrCreateEma source period).1 =
        ((fed .ema source period first).foldl EMA.update (.new period)).value ∧
      ((run sqrt first).getOrCreateRsi source period).1 =
        ((fed .rsi source period first).foldl RSI.update (.new period)).value := by
  have same := fedSince_eq_fed (undisturbed.sublist reached.sublist)
  rw [← same, ← same, ← same, ← same, getOrCreateMa, getOrCreateStd, getOrCreateEma,
    getOrCreateRsi]
  dsimp only
  rw [OperatorTable.getOrCreate_fst, OperatorTable.getOrCreate_fst, OperatorTable.getOrCreate_fst,
    OperatorTable.getOrCreate_fst, run, (keeps_ma sqrt).foldl_none first rfl,
    (keeps_std sqrt).foldl_none first rfl, (keeps_ema sqrt).foldl_none first rfl,
    (keeps_rsi sqrt).foldl_none first rfl]
  exact ⟨rfl, rfl, rfl, rfl⟩

/-- The operators of two sources, and updates of both. -/
def twoSources : List (Call ℚ) :=
  [.getOrCreate .ma "close" 5, .getOrCreate .ema "open" 3, .update "close" 10, .update "open" 4]

theorem undisturbed_twoSources : twoSources.Pairwise Undisturbed := by
  simp [twoSources, Undisturbed, OperatorTable.startsWith, OperatorTable.key]

theorem operators_follow_twoSources :
    ((run id twoSources).getOrCreateMa "close" 5).1 = 10 ∧
      ((run id twoSources).getOrCreateEma "open" 3).1 = some 4 := by
  have follows := operators_follow_sources id undisturbed_twoSources List.prefix_rfl
  exact ⟨(follows "close" 5).1.trans (by decide +kernel),
    (follows "open" 3).2.2.1.trans (by decide +kernel)⟩

/-- The average of `close_adj` takes the updates of `close`. -/
theorem operators_follow_other_source :
    ¬ ∀ (calls : List (Call ℚ)) (source : String) (period : ℕ),
      ((run id calls).getOrCreateMa source period).1 =
        ((fed .ma source period calls).foldl RollingMean.update (.new period)).value := by
  intro follows
  have equal := follows [.getOrCreate .ma "close_adj" 5, .update "close" 10] "close_adj" 5
  have ten : ((run id [.getOrCreate .ma "close_adj" 5, .update "close" 10]).getOrCreateMa
    "close_adj" 5).1 = (10 : ℚ) := by decide +kernel
  have zero : ((fed .ma "close_adj" 5 [.getOrCreate .ma "close_adj" 5, .update "close" 10]).foldl
    RollingMean.update (.new 5)).value = (0 : ℚ) := by decide +kernel
  rw [ten, zero] at equal
  exact absurd equal (by decide)

end IncrementalExecutor

end QAExchange
