import Mathlib.Data.Nat.Cast.Field
import Mathlib.Data.Nat.Choose.Sum
import Mathlib.Tactic.FieldSimp
import Mathlib.Tactic.LinearCombination
import QAExchange.Foundation.FieldNumerals

/-! # Moments of lists

Sums of powers of the deviations from a center, and how they change when the center is
moved.
-/

namespace QAExchange.Foundation

open Finset

section Centers

variable {K : Type} [CommRing K]

def centralSum (power : ℕ) (center : K) (values : List K) : K :=
  (values.map fun value => (value - center) ^ power).sum

def crossSum (first second : K) (pairs : List (K × K)) : K :=
  (pairs.map fun pair => (pair.1 - first) * (pair.2 - second)).sum

@[simp] theorem centralSum_nil (power : ℕ) (center : K) : centralSum power center [] = 0 := rfl

theorem centralSum_append (power : ℕ) (center : K) (left right : List K) :
    centralSum power center (left ++ right) =
      centralSum power center left + centralSum power center right := by
  rw [centralSum, List.map_append, List.sum_append, centralSum, centralSum]

theorem centralSum_cons (power : ℕ) (center value : K) (values : List K) :
    centralSum power center (value :: values) =
      (value - center) ^ power + centralSum power center values := by
  rw [centralSum, List.map_cons, List.sum_cons, centralSum]

@[simp] theorem centralSum_zero (center : K) (values : List K) :
    centralSum 0 center values = values.length := by
  simp [centralSum]

theorem centralSum_one (center : K) (values : List K) :
    centralSum 1 center values = values.sum - values.length * center := by
  induction values with
  | nil => simp
  | cons value values induction =>
    rw [centralSum_cons, induction, List.sum_cons, List.length_cons]
    push_cast
    ring

theorem centralSum_add (power : ℕ) (center shift : K) (values : List K) :
    centralSum power (center + shift) values = ∑ index ∈ range (power + 1),
      (-shift) ^ (power - index) * power.choose index * centralSum index center values := by
  induction values with
  | nil => simp
  | cons value values induction =>
    have one : (value - (center + shift)) ^ power = ∑ index ∈ range (power + 1),
        (-shift) ^ (power - index) * power.choose index * (value - center) ^ index := by
      have split : value - (center + shift) = (value - center) + -shift := by ring
      rw [split, add_pow]
      apply sum_congr rfl
      intro index _
      ring
    rw [centralSum_cons, induction, one, ← sum_add_distrib]
    apply sum_congr rfl
    intro index _
    rw [centralSum_cons]
    ring

@[simp] theorem crossSum_nil (first second : K) : crossSum first second [] = 0 := rfl

theorem crossSum_append (first second : K) (left right : List (K × K)) :
    crossSum first second (left ++ right) =
      crossSum first second left + crossSum first second right := by
  rw [crossSum, List.map_append, List.sum_append, crossSum, crossSum]

theorem crossSum_cons (first second : K) (pair : K × K) (pairs : List (K × K)) :
    crossSum first second (pair :: pairs) =
      (pair.1 - first) * (pair.2 - second) + crossSum first second pairs := by
  rw [crossSum, List.map_cons, List.sum_cons, crossSum]

theorem crossSum_add (first second firstShift secondShift : K) (pairs : List (K × K)) :
    crossSum (first + firstShift) (second + secondShift) pairs =
      crossSum first second pairs
        - firstShift * centralSum 1 second (pairs.map Prod.snd)
        - secondShift * centralSum 1 first (pairs.map Prod.fst)
        + pairs.length * firstShift * secondShift := by
  induction pairs with
  | nil => simp
  | cons pair pairs induction =>
    rw [crossSum_cons, induction, crossSum_cons, List.map_cons, List.map_cons, centralSum_cons,
      centralSum_cons, List.length_cons]
    push_cast
    ring

end Centers

/-! ## The mean -/

section Means

variable {K : Type} [Field K]

def mean (values : List K) : K := values.sum / values.length

@[simp] theorem mean_nil : mean ([] : List K) = 0 := by
  simp [mean]

variable [CharZero K]

theorem length_mul_mean (values : List K) : values.length * mean values = values.sum := by
  cases values with
  | nil => simp
  | cons value values =>
    have positive : ((value :: values).length : K) ≠ 0 := by
      exact_mod_cast Nat.succ_ne_zero values.length
    rw [mean]
    field_simp

/-- The deviations from the mean cancel out. -/
@[simp] theorem centralSum_one_mean (values : List K) : centralSum 1 (mean values) values = 0 := by
  rw [centralSum_one, length_mul_mean, sub_self]

theorem centralSum_two_mean_add (values : List K) (shift : K) :
    centralSum 2 (mean values + shift) values =
      centralSum 2 (mean values) values + values.length * shift ^ 2 := by
  rw [centralSum_add]
  simp [sum_range_succ, Nat.choose]
  ring

theorem centralSum_three_mean_add (values : List K) (shift : K) :
    centralSum 3 (mean values + shift) values = centralSum 3 (mean values) values
      - 3 * shift * centralSum 2 (mean values) values - values.length * shift ^ 3 := by
  rw [centralSum_add]
  simp [sum_range_succ, Nat.choose]
  ring

theorem centralSum_four_mean_add (values : List K) (shift : K) :
    centralSum 4 (mean values + shift) values = centralSum 4 (mean values) values
      - 4 * shift * centralSum 3 (mean values) values
      + 6 * shift ^ 2 * centralSum 2 (mean values) values + values.length * shift ^ 4 := by
  rw [centralSum_add]
  simp [sum_range_succ, Nat.choose]
  ring

theorem crossSum_mean_add (pairs : List (K × K)) (firstShift secondShift : K) :
    crossSum (mean (pairs.map Prod.fst) + firstShift) (mean (pairs.map Prod.snd) + secondShift)
        pairs = crossSum (mean (pairs.map Prod.fst)) (mean (pairs.map Prod.snd)) pairs +
      pairs.length * firstShift * secondShift := by
  rw [crossSum_add, centralSum_one_mean, centralSum_one_mean]
  ring

def meanShift (values others : List K) : K :=
  others.length * (mean others - mean values) / (values.length + others.length)

omit [CharZero K] in
@[simp] theorem mean_singleton (value : K) : mean [value] = value := by
  simp [mean]

section

variable {left right : List K} (some : left ++ right ≠ [])
include some

theorem length_add_length_ne_zero : (left.length : K) + right.length ≠ 0 := by
  have lengths := List.length_pos_iff.mpr some
  rw [List.length_append] at lengths
  exact_mod_cast lengths.ne'

theorem mean_append_left : mean (left ++ right) = mean left + meanShift left right := by
  have positive := length_add_length_ne_zero some
  rw [meanShift, mean, List.sum_append, List.length_append, ← length_mul_mean left,
    ← length_mul_mean right]
  push_cast
  field_simp
  ring

theorem mean_append_right : mean (left ++ right) = mean right + meanShift right left := by
  have positive := length_add_length_ne_zero some
  rw [meanShift, mean, List.sum_append, List.length_append, ← length_mul_mean left,
    ← length_mul_mean right, add_comm (right.length : K)]
  push_cast
  field_simp
  ring

end

theorem centralSum_mean_append (power : ℕ) {left right : List K} (some : left ++ right ≠ []) :
    centralSum power (mean (left ++ right)) (left ++ right) =
      centralSum power (mean left + meanShift left right) left +
        centralSum power (mean right + meanShift right left) right := by
  rw [centralSum_append, ← mean_append_left some, ← mean_append_right some]

theorem crossSum_mean_append {left right : List (K × K)} (some : left ++ right ≠ []) :
    crossSum (mean ((left ++ right).map Prod.fst)) (mean ((left ++ right).map Prod.snd))
        (left ++ right) =
      crossSum (mean (left.map Prod.fst) + meanShift (left.map Prod.fst) (right.map Prod.fst))
          (mean (left.map Prod.snd) + meanShift (left.map Prod.snd) (right.map Prod.snd)) left +
        crossSum (mean (right.map Prod.fst) + meanShift (right.map Prod.fst) (left.map Prod.fst))
          (mean (right.map Prod.snd) + meanShift (right.map Prod.snd) (left.map Prod.snd))
          right := by
  have firsts : left.map Prod.fst ++ right.map Prod.fst ≠ [] := by
    rw [← List.map_append]
    exact fun none => some (List.map_eq_nil_iff.mp none)
  have seconds : left.map Prod.snd ++ right.map Prod.snd ≠ [] := by
    rw [← List.map_append]
    exact fun none => some (List.map_eq_nil_iff.mp none)
  rw [crossSum_append, List.map_append, List.map_append, ← mean_append_left firsts,
    ← mean_append_left seconds, ← mean_append_right firsts, ← mean_append_right seconds]

/-! ## Variance and covariance -/

def variance (values : List K) : K := centralSum 2 (mean values) values / values.length

def covariance (pairs : List (K × K)) : K :=
  crossSum (mean (pairs.map Prod.fst)) (mean (pairs.map Prod.snd)) pairs / pairs.length

theorem variance_eq (values : List K) :
    variance values =
      (values.map fun value => value * value).sum / values.length - mean values * mean values := by
  have around := centralSum_two_mean_add values (-mean values)
  have squares : centralSum 2 (mean values + -mean values) values =
      (values.map fun value => value * value).sum := by
    rw [centralSum]
    congr 1
    apply List.map_congr_left
    intro value _
    ring
  rw [squares] at around
  rw [variance, around]
  by_cases none : (values.length : K) = 0
  · have empty : values = [] := by
      apply List.length_eq_zero_iff.mp
      exact_mod_cast none
    simp [empty]
  · field_simp
    ring

theorem covariance_eq (pairs : List (K × K)) :
    covariance pairs = (pairs.map fun pair => pair.1 * pair.2).sum / pairs.length -
      mean (pairs.map Prod.fst) * mean (pairs.map Prod.snd) := by
  have around := crossSum_mean_add pairs (-mean (pairs.map Prod.fst))
    (-mean (pairs.map Prod.snd))
  have products : crossSum (mean (pairs.map Prod.fst) + -mean (pairs.map Prod.fst))
      (mean (pairs.map Prod.snd) + -mean (pairs.map Prod.snd)) pairs =
        (pairs.map fun pair => pair.1 * pair.2).sum := by
    rw [crossSum]
    congr 1
    apply List.map_congr_left
    intro pair _
    ring
  rw [products] at around
  rw [covariance, around]
  by_cases none : (pairs.length : K) = 0
  · have empty : pairs = [] := by
      apply List.length_eq_zero_iff.mp
      exact_mod_cast none
    simp [empty]
  · field_simp
    ring

omit [CharZero K] in
/-- Fewer than two values do not vary. -/
theorem variance_of_short {values : List K} (short : values.length < 2) : variance values = 0 := by
  match values, short with
  | [], _ => simp [variance]
  | [value], _ => simp [variance, centralSum_cons]

omit [CharZero K] in
theorem covariance_of_short {pairs : List (K × K)} (short : pairs.length < 2) :
    covariance pairs = 0 := by
  match pairs, short with
  | [], _ => simp [covariance]
  | [pair], _ => simp [covariance, crossSum_cons]

omit [CharZero K] in
theorem covariance_swap (pairs : List (K × K)) :
    covariance (pairs.map Prod.swap) = covariance pairs := by
  have products : ∀ first second : K,
      crossSum second first (pairs.map Prod.swap) = crossSum first second pairs := by
    intro first second
    rw [crossSum, crossSum, List.map_map]
    congr 1
    apply List.map_congr_left
    intro pair _
    exact mul_comm _ _
  rw [covariance, covariance, List.length_map, List.map_map, List.map_map]
  exact congrArg (· / (pairs.length : K)) (products _ _)

end Means

section Correlations

variable {K : Type} [Field K] [LinearOrder K]

/-- The correlation, with 0 where one side does not vary. -/
def correlation (sqrt : K → K) (pairs : List (K × K)) : K :=
  if variance (pairs.map Prod.fst) ≤ 0 ∨ variance (pairs.map Prod.snd) ≤ 0 then 0
  else covariance pairs / (sqrt (variance (pairs.map Prod.fst)) *
    sqrt (variance (pairs.map Prod.snd)))

theorem correlation_swap (sqrt : K → K) (pairs : List (K × K)) :
    correlation sqrt (pairs.map Prod.swap) = correlation sqrt pairs := by
  have firsts : (pairs.map Prod.swap).map Prod.fst = pairs.map Prod.snd := by
    rw [List.map_map]
    rfl
  have seconds : (pairs.map Prod.swap).map Prod.snd = pairs.map Prod.fst := by
    rw [List.map_map]
    rfl
  rw [correlation, correlation, firsts, seconds, covariance_swap]
  refine if_congr or_comm rfl ?_
  rw [mul_comm (sqrt (variance (pairs.map Prod.snd)))]

variable [IsStrictOrderedRing K]

theorem variance_pos {values : List K} {first second : K} (one : first ∈ values)
    (two : second ∈ values) (different : first ≠ second) : 0 < variance values := by
  have squares : ∀ square ∈ values.map fun value => (value - mean values) ^ 2, 0 ≤ square := by
    intro square mem
    rcases List.mem_map.mp mem with ⟨value, _, rfl⟩
    exact sq_nonneg _
  have positive : ∀ value ∈ values, value ≠ mean values →
      0 < centralSum 2 (mean values) values := by
    intro value mem other
    have part := List.single_le_sum squares _ (List.mem_map_of_mem mem)
    exact (sq_pos_of_ne_zero (sub_ne_zero.mpr other)).trans_le part
  have length : (0 : K) < values.length := by
    exact_mod_cast List.length_pos_of_mem one
  apply div_pos _ length
  by_cases atMean : first = mean values
  · exact positive second two (fun equal => different (atMean.trans equal.symm))
  · exact positive first one atMean

theorem covariance_of_line {pairs : List (K × K)} {slope offset : K}
    (onLine : ∀ pair ∈ pairs, pair.2 = slope * pair.1 + offset) :
    covariance pairs = slope * variance (pairs.map Prod.fst) := by
  by_cases none : pairs = []
  · simp [none, covariance, variance]
  · have length : (pairs.length : K) ≠ 0 := by
      exact_mod_cast fun zero => none (List.length_eq_zero_iff.mp zero)
    have seconds : pairs.map Prod.snd =
        (pairs.map Prod.fst).map fun first => slope * first + offset := by
      rw [List.map_map]
      exact List.map_congr_left onLine
    have products : (pairs.map fun pair => pair.1 * pair.2) = (pairs.map Prod.fst).map
        fun first => slope * (first * first) + offset * first := by
      rw [List.map_map]
      apply List.map_congr_left
      intro pair mem
      rw [onLine pair mem]
      change pair.1 * (slope * pair.1 + offset) = slope * (pair.1 * pair.1) + offset * pair.1
      ring
    rw [covariance_eq, variance_eq, products, seconds, mean, mean]
    have scaled : ∀ (factor : K) (values : List K),
        (values.map fun value => factor * value).sum = factor * values.sum := by
      intro factor values
      rw [List.sum_map_mul_left, List.map_id']
    simp only [List.sum_map_add, scaled, List.sum_map_mul_left, List.length_map, List.map_const',
      List.sum_replicate, nsmul_eq_mul]
    field_simp
    ring

/-- The correlation on a line that is not vertical or flat has the sign of the slope. -/
theorem correlation_of_line {sqrt : K → K} (sqrtPos : ∀ number, 0 < number → 0 < sqrt number)
    {pairs : List (K × K)} {slope offset : K} (sloped : slope ≠ 0)
    (onLine : ∀ pair ∈ pairs, pair.2 = slope * pair.1 + offset) {one two : K × K}
    (isOne : one ∈ pairs) (isTwo : two ∈ pairs) (different : one.1 ≠ two.1) :
    ∃ size, 0 < size ∧ correlation sqrt pairs = slope * size := by
  have firsts := variance_pos (List.mem_map_of_mem isOne) (List.mem_map_of_mem isTwo) different
  have seconds : 0 < variance (pairs.map Prod.snd) := by
    apply variance_pos (List.mem_map_of_mem isOne) (List.mem_map_of_mem isTwo)
    rw [onLine one isOne, onLine two isTwo]
    intro equal
    exact different (mul_left_cancel₀ sloped (add_right_cancel equal))
  refine ⟨variance (pairs.map Prod.fst) / (sqrt (variance (pairs.map Prod.fst)) *
    sqrt (variance (pairs.map Prod.snd))), ?_, ?_⟩
  · exact div_pos firsts (mul_pos (sqrtPos _ firsts) (sqrtPos _ seconds))
  · rw [correlation, if_neg, covariance_of_line onLine, mul_div_assoc]
    exact not_or.mpr ⟨not_le.mpr firsts, not_le.mpr seconds⟩

end Correlations

end QAExchange.Foundation
