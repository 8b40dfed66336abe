import QAExchange.Factor.RingBuffer

/-! # Welford's moments

Running moments of the values seen so far, and of two states that are merged. The numbers
are those of any field of characteristic zero.
-/

namespace QAExchange

open Foundation

variable {K : Type} [Field K]

/-! ## One variable -/

structure WelfordState (K : Type) where
  count : ℕ
  mean : K
  m2 : K
  m3 : K
  m4 : K

namespace WelfordState

def new : WelfordState K where
  count := 0
  mean := 0
  m2 := 0
  m3 := 0
  m4 := 0

def update (state : WelfordState K) (x : K) : WelfordState K :=
  let n : K := (state.count + 1 : ℕ)
  let delta := x - state.mean
  let deltaN := delta / n
  let deltaN2 := deltaN * deltaN
  let term1 := delta * deltaN * (n - 1)
  { count := state.count + 1
    mean := state.mean + deltaN
    m4 := state.m4 + (term1 * deltaN2 * (n * n - 3 * n + 3) + 6 * deltaN2 * state.m2
      - 4 * deltaN * state.m3)
    m3 := state.m3 + (term1 * deltaN * (n - 2) - 3 * deltaN * state.m2)
    m2 := state.m2 + term1 }

def variance (state : WelfordState K) : K :=
  if state.count < 2 then 0 else state.m2 / state.count

def merge (left right : WelfordState K) : WelfordState K :=
  if left.count = 0 then right
  else if right.count = 0 then left
  else
    let delta := right.mean - left.mean
    let delta2 := delta * delta
    let delta3 := delta * delta2
    let delta4 := delta2 * delta2
    let n1 : K := left.count
    let n2 : K := right.count
    let n : K := (left.count + right.count : ℕ)
    { count := left.count + right.count
      mean := (left.mean * n1 + right.mean * n2) / n
      m2 := left.m2 + right.m2 + delta2 * n1 * n2 / n
      m3 := left.m3 + right.m3 + delta3 * n1 * n2 * (n1 - n2) / (n * n)
        + 3 * delta * (n1 * right.m2 - n2 * left.m2) / n
      m4 := left.m4 + right.m4
        + delta4 * n1 * n2 * (n1 * n1 - n1 * n2 + n2 * n2) / (n * n * n)
        + 6 * delta2 * (n1 * n1 * right.m2 + n2 * n2 * left.m2) / (n * n)
        + 4 * delta * (n1 * right.m3 - n2 * left.m3) / n }

/-- The state after some values. -/
def fold (values : List K) : WelfordState K := values.foldl update new

def momentsOf (values : List K) : WelfordState K where
  count := values.length
  mean := Foundation.mean values
  m2 := centralSum 2 (Foundation.mean values) values
  m3 := centralSum 3 (Foundation.mean values) values
  m4 := centralSum 4 (Foundation.mean values) values

section Moments

variable [CharZero K]

theorem update_momentsOf (values : List K) (x : K) :
    (momentsOf values).update x = momentsOf (values ++ [x]) := by
  have some : values ++ [x] ≠ [] := by simp
  have nonzero : (values.length : K) + 1 ≠ 0 := by
    exact_mod_cast Nat.succ_ne_zero values.length
  simp only [update, momentsOf, mk.injEq, List.length_append, List.length_singleton, true_and,
    Nat.cast_add, Nat.cast_one]
  refine ⟨?_, ?_, ?_, ?_⟩
  · rw [mean_append_left some, meanShift]
    simp
  · rw [centralSum_mean_append 2 some, centralSum_two_mean_add, centralSum_two_mean_add]
    simp [meanShift, centralSum_cons, add_comm (1 : K)]
    field_simp
    ring
  · rw [centralSum_mean_append 3 some, centralSum_three_mean_add, centralSum_three_mean_add]
    simp [meanShift, centralSum_cons, add_comm (1 : K)]
    field_simp
    ring
  · rw [centralSum_mean_append 4 some, centralSum_four_mean_add, centralSum_four_mean_add]
    simp [meanShift, centralSum_cons, add_comm (1 : K)]
    field_simp
    ring

theorem fold_eq_momentsOf (values : List K) : fold values = momentsOf values := by
  induction values using List.reverseRecOn with
  | nil => simp [fold, momentsOf, new]
  | append_singleton values x induction =>
    rw [← update_momentsOf, ← induction, fold, fold, List.foldl_append]
    rfl

theorem merge_momentsOf (left right : List K) :
    (momentsOf left).merge (momentsOf right) = momentsOf (left ++ right) := by
  rw [merge]
  split_ifs with noLeft noRight
  · rw [List.length_eq_zero_iff.mp noLeft, List.nil_append]
  · rw [List.length_eq_zero_iff.mp noRight, List.append_nil]
  · have some : left ++ right ≠ [] := by
      intro none
      exact noLeft (by simp [momentsOf, (List.append_eq_nil_iff.mp none).1])
    have nonzero := length_add_length_ne_zero some
    have swapped : (right.length : K) + left.length ≠ 0 := by
      rw [add_comm]
      exact nonzero
    simp only [momentsOf, mk.injEq, List.length_append, true_and, Nat.cast_add]
    refine ⟨?_, ?_, ?_, ?_⟩
    · rw [mean_append_left some, meanShift]
      field_simp
      ring
    · rw [centralSum_mean_append 2 some, centralSum_two_mean_add, centralSum_two_mean_add,
        meanShift, meanShift, add_comm (right.length : K)]
      field_simp
      ring
    · rw [centralSum_mean_append 3 some, centralSum_three_mean_add, centralSum_three_mean_add,
        meanShift, meanShift, add_comm (right.length : K)]
      field_simp
      ring
    · rw [centralSum_mean_append 4 some, centralSum_four_mean_add, centralSum_four_mean_add,
        meanShift, meanShift, add_comm (right.length : K)]
      field_simp
      ring

end Moments

end WelfordState

/-! ## Two variables -/

structure WelfordCovarianceState (K : Type) where
  count : ℕ
  meanX : K
  meanY : K
  m2X : K
  m2Y : K
  c : K

namespace WelfordCovarianceState

def new : WelfordCovarianceState K where
  count := 0
  meanX := 0
  meanY := 0
  m2X := 0
  m2Y := 0
  c := 0

def update (state : WelfordCovarianceState K) (x y : K) : WelfordCovarianceState K :=
  let n : K := (state.count + 1 : ℕ)
  let dx := x - state.meanX
  let dy := y - state.meanY
  let meanX := state.meanX + dx / n
  let meanY := state.meanY + dy / n
  let dx2 := x - meanX
  let dy2 := y - meanY
  { count := state.count + 1
    meanX := meanX
    meanY := meanY
    m2X := state.m2X + dx * dx2
    m2Y := state.m2Y + dy * dy2
    c := state.c + dx * dy2 }

def merge (left right : WelfordCovarianceState K) : WelfordCovarianceState K :=
  if left.count = 0 then right
  else if right.count = 0 then left
  else
    let n1 : K := left.count
    let n2 : K := right.count
    let n := n1 + n2
    let dx := right.meanX - left.meanX
    let dy := right.meanY - left.meanY
    { count := left.count + right.count
      meanX := (left.meanX * n1 + right.meanX * n2) / n
      meanY := (left.meanY * n1 + right.meanY * n2) / n
      m2X := left.m2X + right.m2X + dx * dx * n1 * n2 / n
      m2Y := left.m2Y + right.m2Y + dy * dy * n1 * n2 / n
      c := left.c + right.c + dx * dy * n1 * n2 / n }

/-- The state after some pairs. -/
def fold (pairs : List (K × K)) : WelfordCovarianceState K :=
  pairs.foldl (fun state pair => state.update pair.1 pair.2) new

def momentsOf (pairs : List (K × K)) : WelfordCovarianceState K where
  count := pairs.length
  meanX := mean (pairs.map Prod.fst)
  meanY := mean (pairs.map Prod.snd)
  m2X := centralSum 2 (mean (pairs.map Prod.fst)) (pairs.map Prod.fst)
  m2Y := centralSum 2 (mean (pairs.map Prod.snd)) (pairs.map Prod.snd)
  c := crossSum (mean (pairs.map Prod.fst)) (mean (pairs.map Prod.snd)) pairs

section Moments

variable [CharZero K]

theorem update_momentsOf (pairs : List (K × K)) (x y : K) :
    (momentsOf pairs).update x y = momentsOf (pairs ++ [(x, y)]) := by
  have some : pairs ++ [(x, y)] ≠ [] := by simp
  have firsts : pairs.map Prod.fst ++ [x] ≠ [] := by simp
  have seconds : pairs.map Prod.snd ++ [y] ≠ [] := by simp
  have nonzero : (pairs.length : K) + 1 ≠ 0 := by
    exact_mod_cast Nat.succ_ne_zero pairs.length
  simp only [update, momentsOf, mk.injEq, List.length_append, List.length_singleton, true_and,
    Nat.cast_add, Nat.cast_one]
  refine ⟨?_, ?_, ?_, ?_, ?_⟩
  · rw [List.map_append, List.map_singleton, mean_append_left firsts, meanShift]
    simp
  · rw [List.map_append, List.map_singleton, mean_append_left seconds, meanShift]
    simp
  · rw [List.map_append, List.map_singleton, centralSum_mean_append 2 firsts,
      centralSum_two_mean_add, centralSum_two_mean_add]
    simp [meanShift, centralSum_cons, add_comm (1 : K)]
    field_simp
    ring
  · rw [List.map_append, List.map_singleton, centralSum_mean_append 2 seconds,
      centralSum_two_mean_add, centralSum_two_mean_add]
    simp [meanShift, centralSum_cons, add_comm (1 : K)]
    field_simp
    ring
  · rw [crossSum_mean_append some, crossSum_mean_add, crossSum_mean_add]
    simp [meanShift, crossSum_cons, add_comm (1 : K)]
    field_simp
    ring

theorem fold_eq_momentsOf (pairs : List (K × K)) : fold pairs = momentsOf pairs := by
  induction pairs using List.reverseRecOn with
  | nil => simp [fold, momentsOf, new]
  | append_singleton pairs pair induction =>
    rw [← update_momentsOf, ← induction, fold, fold, List.foldl_append]
    rfl

theorem merge_momentsOf (left right : List (K × K)) :
    (momentsOf left).merge (momentsOf right) = momentsOf (left ++ right) := by
  rw [merge]
  split_ifs with noLeft noRight
  · rw [List.length_eq_zero_iff.mp noLeft, List.nil_append]
  · rw [List.length_eq_zero_iff.mp noRight, List.append_nil]
  · have some : left ++ right ≠ [] := by
      intro none
      exact noLeft (by simp [momentsOf, (List.append_eq_nil_iff.mp none).1])
    have firsts : left.map Prod.fst ++ right.map Prod.fst ≠ [] := by
      rw [← List.map_append]
      exact fun none => some (List.map_eq_nil_iff.mp none)
    have seconds : left.map Prod.snd ++ right.map Prod.snd ≠ [] := by
      rw [← List.map_append]
      exact fun none => some (List.map_eq_nil_iff.mp none)
    have nonzero : (left.length : K) + right.length ≠ 0 := by
      have lengths := length_add_length_ne_zero firsts
      rw [List.length_map, List.length_map] at lengths
      exact lengths
    simp only [momentsOf, mk.injEq, List.length_append, true_and]
    refine ⟨?_, ?_, ?_, ?_, ?_⟩
    · rw [List.map_append, mean_append_left firsts, meanShift, List.length_map, List.length_map]
      field_simp
      ring
    · rw [List.map_append, mean_append_left seconds, meanShift, List.length_map,
        List.length_map]
      field_simp
      ring
    · rw [List.map_append, centralSum_mean_append 2 firsts, centralSum_two_mean_add,
        centralSum_two_mean_add, meanShift, meanShift, List.length_map, List.length_map,
        add_comm (right.length : K)]
      field_simp
      ring
    · rw [List.map_append, centralSum_mean_append 2 seconds, centralSum_two_mean_add,
        centralSum_two_mean_add, meanShift, meanShift, List.length_map, List.length_map,
        add_comm (right.length : K)]
      field_simp
      ring
    · rw [crossSum_mean_append some, crossSum_mean_add, crossSum_mean_add]
      simp only [meanShift, List.length_map]
      rw [add_comm (right.length : K)]
      field_simp
      ring

end Moments

end WelfordCovarianceState

open WelfordCovarianceState

/-- A folded state holds the moments of its list, and merging two of them gives the state of
the appended lists. -/
theorem welford_folds_moments [CharZero K] :
    (∀ values : List K, WelfordState.fold values = WelfordState.momentsOf values) ∧
      (∀ left right : List K, (WelfordState.fold left).merge (WelfordState.fold right) =
        WelfordState.fold (left ++ right)) ∧
      (∀ pairs : List (K × K),
        fold pairs = momentsOf pairs) ∧
      (∀ left right : List (K × K), (fold left).merge (fold right) =
          fold (left ++ right)) := by
  refine ⟨WelfordState.fold_eq_momentsOf, ?_, fold_eq_momentsOf, ?_⟩
  · intro left right
    rw [WelfordState.fold_eq_momentsOf, WelfordState.fold_eq_momentsOf,
      WelfordState.fold_eq_momentsOf, WelfordState.merge_momentsOf]
  · intro left right
    rw [fold_eq_momentsOf, fold_eq_momentsOf,
      fold_eq_momentsOf, merge_momentsOf]

/-- Unequal parts of rationals. -/
theorem welford_unequal_parts :
    WelfordState.fold [(1 : ℚ), 2, 6] = WelfordState.momentsOf [1, 2, 6] ∧
      (WelfordState.fold [(1 : ℚ), 2]).merge (WelfordState.fold [6]) =
        WelfordState.fold [1, 2, 6] ∧ (fold [((1 : ℚ), (5 : ℚ))]).merge (fold [(2, 1), (6, 0)]) =
        fold [(1, 5), (2, 1), (6, 0)] := by
  have folds := welford_folds_moments (K := ℚ)
  exact ⟨folds.1 _, folds.2.1 _ _, folds.2.2.2 _ _⟩

end QAExchange
