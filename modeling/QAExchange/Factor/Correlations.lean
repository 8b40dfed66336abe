import Mathlib.Data.String.Basic
import QAExchange.Factor.WindowedOperators

/-! # Correlations of two instruments

The correlations that the materialized views keep for pairs of instruments. The key of a
pair does not depend on the order of its names, but the prices are taken in the order of the
call.
-/

namespace QAExchange

open Foundation

/-! ## MaterializedViewManager -/

structure ViewConfig where
  correlationWindow : ℕ

def ViewConfig.default : ViewConfig where
  correlationWindow := 60

structure MaterializedViewManager (K : Type) where
  globalCorrelations : String × String → Option (RollingCorr K)
  config : ViewConfig

/-- The arguments of an `updateCorrelation`. -/
structure CorrelationCall (K : Type) where
  names : String × String
  prices : K × K

def correlationKey (inst1 inst2 : String) : String × String :=
  if inst1 < inst2 then (inst1, inst2) else (inst2, inst1)

theorem correlationKey_comm (inst1 inst2 : String) :
    correlationKey inst1 inst2 = correlationKey inst2 inst1 := by
  rw [correlationKey, correlationKey]
  split_ifs with before after after
  · exact absurd (before.trans after) (lt_irrefl _)
  · rfl
  · rfl
  · rw [le_antisymm (not_lt.mp before) (not_lt.mp after)]

theorem correlationKey_eq_iff :
    correlationKey inst1 inst2 = correlationKey first second ↔
      (inst1, inst2) = (first, second) ∨ (inst1, inst2) = (second, first) := by
  constructor
  · intro same
    have either : ∀ left right : String, correlationKey left right = (left, right) ∨
        correlationKey left right = (right, left) := by
      intro left right
      rw [correlationKey]
      split_ifs
      · exact Or.inl rfl
      · exact Or.inr rfl
    rcases either inst1 inst2 with kept | turned
    · rw [← kept, same]
      exact either first second
    · rcases either first second with keptToo | turnedToo
      · right
        rw [turned, keptToo] at same
        rw [Prod.mk.injEq] at same ⊢
        exact same.symm
      · left
        rw [turned, turnedToo] at same
        rw [Prod.mk.injEq] at same ⊢
        exact same.symm
  · rintro (same | turned)
    · rw [Prod.mk.injEq] at same
      rw [same.1, same.2]
    · rw [Prod.mk.injEq] at turned
      rw [turned.1, turned.2, correlationKey_comm]

namespace MaterializedViewManager

variable {K : Type} [Field K]

def new (config : ViewConfig) : MaterializedViewManager K where
  globalCorrelations := fun _ => none
  config := config

def updateCorrelation (manager : MaterializedViewManager K) (inst1 inst2 : String)
    (price1 price2 : K) : MaterializedViewManager K :=
  let key := correlationKey inst1 inst2
  let rolling := (manager.globalCorrelations key).getD
    (RollingCorr.new manager.config.correlationWindow)
  { manager with
    globalCorrelations := Function.update manager.globalCorrelations key
      (some (rolling.update price1 price2)) }

def getCorrelation [LinearOrder K] (sqrt : K → K) (manager : MaterializedViewManager K)
    (inst1 inst2 : String) : Option K :=
  (manager.globalCorrelations (correlationKey inst1 inst2)).map (RollingCorr.value sqrt)

/-- The calls one after the other. -/
def run (manager : MaterializedViewManager K) (calls : List (CorrelationCall K)) :
    MaterializedViewManager K :=
  calls.foldl (fun manager call => manager.updateCorrelation call.names.1 call.names.2
    call.prices.1 call.prices.2) manager

theorem run_append_singleton (manager : MaterializedViewManager K)
    (calls : List (CorrelationCall K)) (call : CorrelationCall K) :
    manager.run (calls ++ [call]) = (manager.run calls).updateCorrelation call.names.1 call.names.2
      call.prices.1 call.prices.2 := by
  rw [run, List.foldl_append]
  rfl

@[simp] theorem run_config (manager : MaterializedViewManager K)
    (calls : List (CorrelationCall K)) : (manager.run calls).config = manager.config := by
  induction calls generalizing manager with
  | nil => rfl
  | cons call calls induction => exact induction _

end MaterializedViewManager

/-! ## What a pair of names has been told -/

section Calls

variable {K : Type}

def namesPair (first second : String) (names : String × String) : Bool :=
  decide (names = (first, second) ∨ names = (second, first))

/-- The prices of a call, that of the first instrument first. -/
def CorrelationCall.pricesFrom (first second : String) (call : CorrelationCall K) : K × K :=
  if call.names = (first, second) then call.prices else call.prices.swap

/-- The pairs of prices of two instruments, that of the first instrument first. -/
def pairsOf (first second : String) (calls : List (CorrelationCall K)) : List (K × K) :=
  (calls.filter fun call => namesPair first second call.names).map
    (CorrelationCall.pricesFrom first second)

/-- The last calls that name the two instruments do so in one order. -/
def NamedInOneOrder (window : ℕ) (first second : String) (names : List (String × String)) : Prop :=
  ∀ one ∈ lastWindow window (names.filter (namesPair first second)),
    ∀ two ∈ lastWindow window (names.filter (namesPair first second)), one = two

instance (window : ℕ) (first second : String) (names : List (String × String)) :
    Decidable (NamedInOneOrder window first second names) :=
  inferInstanceAs (Decidable (∀ one ∈ lastWindow window (names.filter (namesPair first second)),
    ∀ two ∈ lastWindow window (names.filter (namesPair first second)), one = two))

theorem namesPair_iff :
    namesPair first second names = true ↔
      correlationKey names.1 names.2 = correlationKey first second := by
  rw [namesPair, decide_eq_true_iff, correlationKey_eq_iff]

/-- The rolling state of a pair has been fed the prices of its calls as they were given. -/
theorem MaterializedViewManager.run_correlations [Field K] (config : ViewConfig)
    (first second : String) (calls : List (CorrelationCall K)) :
    ((MaterializedViewManager.new config).run calls).globalCorrelations
        (correlationKey first second) =
      if calls.filter (fun call => namesPair first second call.names) = [] then none
      else some (((calls.filter fun call => namesPair first second call.names).map
        CorrelationCall.prices).foldl (fun state pair => RollingCorr.update state pair.1 pair.2)
          (RollingCorr.new config.correlationWindow)) := by
  induction calls using List.reverseRecOn with
  | nil => rfl
  | append_singleton calls call induction =>
    rw [MaterializedViewManager.run_append_singleton, MaterializedViewManager.updateCorrelation,
      MaterializedViewManager.run_config, List.filter_append]
    dsimp only
    cases named : namesPair first second call.names with
    | true =>
      have key := namesPair_iff.mp named
      have kept : [call].filter (fun call => namesPair first second call.names) = [call] := by
        simp [named]
      rw [key, Function.update_self, induction, kept]
      have some : calls.filter (fun call => namesPair first second call.names) ++ [call] ≠
          [] := by simp
      rw [if_neg some, List.map_append, List.foldl_append]
      split_ifs with none
      · rw [none]
        rfl
      · rfl
    | false =>
      have key : correlationKey first second ≠ correlationKey call.names.1 call.names.2 := by
        intro same
        rw [namesPair_iff.mpr same.symm] at named
        exact absurd named (by decide)
      have kept : [call].filter (fun call => namesPair first second call.names) = [] := by
        simp [named]
      rw [Function.update_of_ne key, induction, kept, List.append_nil]

theorem filter_names (first second : String) (calls : List (CorrelationCall K)) :
    (calls.map CorrelationCall.names).filter (namesPair first second) =
      (calls.filter fun call => namesPair first second call.names).map CorrelationCall.names :=
  List.filter_map

end Calls

/-! ## The correlation of a pair -/

section Ordered

variable {K : Type} [Field K] [LinearOrder K]

/-- Both orders of the names give the correlation of the last pairs of prices. -/
def CorrelatesPairs (sqrt : K → K) (config : ViewConfig) (first second : String)
    (calls : List (CorrelationCall K)) : Prop :=
  let manager := (MaterializedViewManager.new config).run calls
  let pairs := pairsOf first second calls
  manager.getCorrelation sqrt first second = manager.getCorrelation sqrt second first ∧
    manager.getCorrelation sqrt first second =
      if pairs = [] then none
      else some (correlation sqrt (lastWindow config.correlationWindow pairs))

variable [IsStrictOrderedRing K]

theorem getCorrelation_run (sqrt : K → K) (config : ViewConfig) (first second : String)
    (calls : List (CorrelationCall K)) :
    ((MaterializedViewManager.new config).run calls).getCorrelation sqrt first second =
      if calls.filter (fun call => namesPair first second call.names) = [] then none
      else some (correlation sqrt (lastWindow config.correlationWindow
        ((calls.filter fun call => namesPair first second call.names).map
          CorrelationCall.prices))) := by
  rw [MaterializedViewManager.getCorrelation, MaterializedViewManager.run_correlations]
  split_ifs with none
  · rfl
  · rw [Option.map_some, RollingCorr.value, RollingCorr.foldl_buffer, RollingCorr.new,
      PairedRingBuffer.correlation_foldl]

variable {config : ViewConfig} {first second : String}

theorem correlatesPairs_iff_equal {sqrt : K → K} {calls : List (CorrelationCall K)} :
    CorrelatesPairs sqrt config first second calls ↔
      (calls.filter (fun call => namesPair first second call.names) ≠ [] →
        correlation sqrt (lastWindow config.correlationWindow
            ((calls.filter fun call => namesPair first second call.names).map
              CorrelationCall.prices)) =
          correlation sqrt (lastWindow config.correlationWindow (pairsOf first second calls))) := by
  have turned : ((MaterializedViewManager.new config).run calls).getCorrelation sqrt first second =
      ((MaterializedViewManager.new config).run calls).getCorrelation sqrt second first := by
    rw [MaterializedViewManager.getCorrelation, correlationKey_comm,
      ← MaterializedViewManager.getCorrelation]
  have empty : pairsOf first second calls = [] ↔
      calls.filter (fun call => namesPair first second call.names) = [] := by
    rw [pairsOf, List.map_eq_nil_iff]
  rw [CorrelatesPairs, and_iff_right turned, getCorrelation_run, if_congr empty rfl rfl]
  split_ifs with none
  · exact iff_of_true rfl (fun some => absurd none some)
  · rw [Option.some.injEq]
    exact (imp_iff_right none).symm

theorem correlatesPairs_of_oneOrder (sqrt : K → K) {calls : List (CorrelationCall K)}
    (oneOrder : NamedInOneOrder config.correlationWindow first second
      (calls.map CorrelationCall.names)) : CorrelatesPairs sqrt config first second calls := by
  apply correlatesPairs_iff_equal.mpr
  intro _
  rw [NamedInOneOrder, filter_names, lastWindow_map] at oneOrder
  rw [pairsOf, lastWindow_map, lastWindow_map]
  generalize lastWindow config.correlationWindow
    (calls.filter fun call => namesPair first second call.names) = window at oneOrder ⊢
  by_cases straight : ∀ call ∈ window, call.names = (first, second)
  · congr 1
    apply List.map_congr_left
    intro call mem
    rw [CorrelationCall.pricesFrom, if_pos (straight call mem)]
  · push Not at straight
    rcases straight with ⟨turned, isTurned, otherNames⟩
    have swapped : window.map (CorrelationCall.pricesFrom first second) =
        (window.map CorrelationCall.prices).map Prod.swap := by
      rw [List.map_map]
      apply List.map_congr_left
      intro call mem
      have same := oneOrder call.names (List.mem_map_of_mem mem) turned.names
        (List.mem_map_of_mem isTurned)
      rw [CorrelationCall.pricesFrom, if_neg (same ▸ otherNames)]
      rfl
    rw [swapped, correlation_swap]

/-- A call with prices that show in which order it names the instruments. -/
def tellingCall (first second : String) (names : String × String) : CorrelationCall K where
  names := names
  prices := if names = (first, second) then (0, 2) else (1, 3)

omit [LinearOrder K] [IsStrictOrderedRing K] in
theorem names_map_tellingCall (first second : String) (names : List (String × String)) :
    (names.map (tellingCall (K := K) first second)).map CorrelationCall.names = names := by
  rw [List.map_map]
  exact List.map_id names

omit [LinearOrder K] [IsStrictOrderedRing K] in
theorem filter_tellingCall (first second : String) (names : List (String × String)) :
    ((names.map (tellingCall (K := K) first second)).filter fun call =>
        namesPair first second call.names) =
      (names.filter (namesPair first second)).map (tellingCall first second) :=
  List.filter_map

theorem both_orders {window : List (String × String)}
    (named : ∀ names ∈ window, namesPair first second names = true) {one two : String × String}
    (isOne : one ∈ window) (isTwo : two ∈ window) (different : one ≠ two) :
    (first, second) ∈ window ∧ (second, first) ∈ window ∧ (second, first) ≠ (first, second) := by
  have either : ∀ names ∈ window, names = (first, second) ∨ names = (second, first) := by
    intro names mem
    exact of_decide_eq_true (named names mem)
  rcases either one isOne with rfl | rfl
  · rcases either two isTwo with rfl | rfl
    · exact absurd rfl different
    · exact ⟨isOne, isTwo, different.symm⟩
  · rcases either two isTwo with rfl | rfl
    · exact ⟨isTwo, isOne, different⟩
    · exact absurd rfl different

/-- With both orders in the window, the prices rise as they are given and fall as they are
named. -/
theorem oneOrder_of_correlatesPairs {sqrt : K → K}
    (sqrtPos : ∀ number, 0 < number → 0 < sqrt number) {names : List (String × String)}
    (correlates : CorrelatesPairs sqrt config first second (names.map (tellingCall first second))) :
    NamedInOneOrder config.correlationWindow first second names := by
  by_contra mixed
  rw [NamedInOneOrder] at mixed
  push Not at mixed
  rcases mixed with ⟨one, isOne, two, isTwo, different⟩
  have named : ∀ names' ∈ lastWindow config.correlationWindow
      (names.filter (namesPair first second)), namesPair first second names' = true := by
    intro names' mem
    exact (List.mem_filter.mp (mem_of_mem_lastWindow mem)).2
  rcases both_orders named isOne isTwo different with ⟨isStraight, isTurned, turned⟩
  have some : (names.map (tellingCall (K := K) first second)).filter
      (fun call => namesPair first second call.names) ≠ [] := by
    rw [filter_tellingCall]
    intro none
    rw [List.map_eq_nil_iff.mp none] at isOne
    exact List.not_mem_nil (mem_of_mem_lastWindow isOne)
  have equal := correlatesPairs_iff_equal.mp correlates some
  rw [pairsOf, filter_tellingCall, List.map_map, List.map_map, lastWindow_map,
    lastWindow_map] at equal
  generalize lastWindow config.correlationWindow (names.filter (namesPair first second)) =
    window at isStraight isTurned equal
  have straightPrices : tellingCall (K := K) first second (first, second) =
      ⟨(first, second), (0, 2)⟩ := by
    rw [tellingCall, if_pos rfl]
  have turnedPrices : tellingCall (K := K) first second (second, first) =
      ⟨(second, first), (1, 3)⟩ := by
    rw [tellingCall, if_neg turned]
  have rises : ∀ pair ∈ window.map (CorrelationCall.prices ∘ tellingCall (K := K) first second),
      pair.2 = 1 * pair.1 + 2 := by
    intro pair mem
    rcases List.mem_map.mp mem with ⟨names, _, rfl⟩
    by_cases straight : names = (first, second)
    · norm_num [tellingCall, straight]
    · norm_num [tellingCall, straight]
  have falls : ∀ pair ∈ window.map
      (CorrelationCall.pricesFrom first second ∘ tellingCall (K := K) first second),
      pair.2 = -(1 / 3) * pair.1 + 2 := by
    intro pair mem
    rcases List.mem_map.mp mem with ⟨names, _, rfl⟩
    by_cases straight : names = (first, second)
    · norm_num [tellingCall, straight, CorrelationCall.pricesFrom]
    · norm_num [tellingCall, straight, CorrelationCall.pricesFrom]
  rcases correlation_of_line sqrtPos one_ne_zero rises (List.mem_map_of_mem isStraight)
    (List.mem_map_of_mem isTurned) (by simp [straightPrices, turnedPrices]) with
    ⟨size, positive, given⟩
  have fallsSlope : -(1 / 3 : K) ≠ 0 := by norm_num
  rcases correlation_of_line sqrtPos fallsSlope falls (List.mem_map_of_mem isStraight)
    (List.mem_map_of_mem isTurned)
    (by simp [straightPrices, turnedPrices, CorrelationCall.pricesFrom, turned]) with
    ⟨otherSize, otherPositive, asNamed⟩
  rw [given, asNamed] at equal
  linarith

/-- For the names of some calls, whatever their prices, the correlation of a pair is that of
its last prices exactly when the last calls name it in one order. -/
theorem correlatesPairs_iff {sqrt : K → K} (sqrtPos : ∀ number, 0 < number → 0 < sqrt number)
    (config : ViewConfig) (first second : String) (names : List (String × String)) :
    (∀ calls : List (CorrelationCall K), calls.map CorrelationCall.names = names →
        CorrelatesPairs sqrt config first second calls) ↔
      NamedInOneOrder config.correlationWindow first second names := by
  constructor
  · intro correlates
    exact oneOrder_of_correlatesPairs sqrtPos
      (correlates _ (names_map_tellingCall first second names))
  · intro oneOrder calls sameNames
    exact correlatesPairs_of_oneOrder sqrt (sameNames ▸ oneOrder)

def rationalRoot (number : ℚ) : ℚ := Nat.sqrt number.num.toNat / Nat.sqrt number.den

theorem rationalRoot_pos (number : ℚ) (positive : 0 < number) : 0 < rationalRoot number := by
  have numerator : 0 < Nat.sqrt number.num.toNat := by
    have isPositive := Rat.num_pos.mpr positive
    exact Nat.sqrt_pos.mpr (by omega)
  have denominator : 0 < Nat.sqrt number.den := Nat.sqrt_pos.mpr number.den_pos
  exact div_pos (by exact_mod_cast numerator) (by exact_mod_cast denominator)

/-- Two calls in one order give the correlation 1. -/
theorem correlatesPairs_rising :
    CorrelatesPairs rationalRoot ViewConfig.default "IF2501" "IH2501"
      [⟨("IH2501", "IF2501"), (0, 2)⟩, ⟨("IH2501", "IF2501"), (1, 3)⟩] := by
  apply (correlatesPairs_iff rationalRoot_pos ViewConfig.default "IF2501" "IH2501"
    [("IH2501", "IF2501"), ("IH2501", "IF2501")]).mpr
  · decide +kernel
  · rfl

def mixedCalls : List (CorrelationCall ℚ) :=
  [⟨("IF2501", "IH2501"), (0, 2)⟩, ⟨("IH2501", "IF2501"), (1, 3)⟩]

/-- The second call names the pair the other way round: the result is 1, while the prices of
the two instruments fall. -/
theorem correlatesPairs_mixed :
    ((MaterializedViewManager.new ViewConfig.default).run mixedCalls).getCorrelation rationalRoot
        "IF2501" "IH2501" = some 1 ∧
      pairsOf "IF2501" "IH2501" mixedCalls = [(0, 2), (3, 1)] ∧
      correlation rationalRoot (lastWindow 60 (pairsOf "IF2501" "IH2501" mixedCalls)) = -1 ∧
      ¬CorrelatesPairs rationalRoot ViewConfig.default "IF2501" "IH2501" mixedCalls := by
  have result : ((MaterializedViewManager.new ViewConfig.default).run mixedCalls).getCorrelation
      rationalRoot "IF2501" "IH2501" = some 1 := by
    decide +kernel
  have pairs : pairsOf "IF2501" "IH2501" mixedCalls = [(0, 2), (3, 1)] := by decide +kernel
  have named : correlation rationalRoot
      (lastWindow 60 (pairsOf "IF2501" "IH2501" mixedCalls)) = -1 := by
    decide +kernel
  refine ⟨result, pairs, named, ?_⟩
  rintro ⟨_, correlates⟩
  have some : pairsOf "IF2501" "IH2501" mixedCalls ≠ [] := by
    rw [pairs]
    exact List.cons_ne_nil _ _
  have equal := result.symm.trans (correlates.trans ((if_neg some).trans (congrArg _ named)))
  exact absurd (Option.some.inj equal) (by decide)

end Ordered

end QAExchange
