import QAExchange.Factor.Extremes
import QAExchange.Factor.Welford

/-! # Operators over a sliding window

The windowed sum, average, minimum and maximum, and the rolling mean, standard deviation and
correlation. After any updates each is the statistic of the last values.
-/

namespace QAExchange

open Foundation

/-! ## WindowedSum and WindowedAvg -/

section Sums

variable {K : Type} [Field K]

structure WindowedSum (K : Type) where
  buffer : RingBuffer K
  sum : K

namespace WindowedSum

def new (windowSize : ℕ) : WindowedSum K := { buffer := RingBuffer.new windowSize, sum := 0 }

def update (state : WindowedSum K) (value : K) : WindowedSum K :=
  let pushed := state.buffer.push value
  match pushed.2 with
  | some expired => { buffer := pushed.1, sum := state.sum - expired + value }
  | none => { buffer := pushed.1, sum := state.sum + value }

def value (state : WindowedSum K) : K := state.sum

def count (state : WindowedSum K) : ℕ := state.buffer.len

end WindowedSum

structure WindowedAvg (K : Type) where
  inner : WindowedSum K

namespace WindowedAvg

def new (windowSize : ℕ) : WindowedAvg K := { inner := WindowedSum.new windowSize }

def update (state : WindowedAvg K) (value : K) : WindowedAvg K :=
  { inner := state.inner.update value }

def value (state : WindowedAvg K) : K :=
  let count := state.inner.count
  if count = 0 then 0 else state.inner.value / count

end WindowedAvg

structure RollingMean (K : Type) where
  buffer : NumericRingBuffer K

namespace RollingMean

def new (windowSize : ℕ) : RollingMean K := { buffer := NumericRingBuffer.new windowSize }

def update (state : RollingMean K) (value : K) : RollingMean K :=
  { buffer := state.buffer.push value }

def value (state : RollingMean K) : K := state.buffer.mean

end RollingMean

/-! ## RollingStd -/

structure WindowedWelfordState (K : Type) where
  buffer : RingBuffer K
  state : WelfordState K

namespace WindowedWelfordState

def new (windowSize : ℕ) : WindowedWelfordState K where
  buffer := RingBuffer.new windowSize
  state := WelfordState.new

def recalculate (window : WindowedWelfordState K) : WindowedWelfordState K :=
  { window with state := window.buffer.buffer.foldl WelfordState.update WelfordState.new }

def update (window : WindowedWelfordState K) (x : K) : WindowedWelfordState K :=
  let pushed := window.buffer.push x
  if window.buffer.isFull then
    match pushed.2 with
    | some _ => recalculate { window with buffer := pushed.1 }
    | none => { window with buffer := pushed.1 }
  else { buffer := pushed.1, state := window.state.update x }

def mean (window : WindowedWelfordState K) : K := window.state.mean

def variance (window : WindowedWelfordState K) : K := window.state.variance

end WindowedWelfordState

structure RollingStd (K : Type) where
  welford : WindowedWelfordState K

namespace RollingStd

def new (windowSize : ℕ) : RollingStd K := { welford := WindowedWelfordState.new windowSize }

def update (state : RollingStd K) (value : K) : RollingStd K :=
  { welford := state.welford.update value }

def mean (state : RollingStd K) : K := state.welford.mean

def variance (state : RollingStd K) : K := state.welford.variance

end RollingStd

structure RollingCorr (K : Type) where
  buffer : PairedRingBuffer K

namespace RollingCorr

def new (windowSize : ℕ) : RollingCorr K := { buffer := PairedRingBuffer.new windowSize }

def update (state : RollingCorr K) (x y : K) : RollingCorr K :=
  { buffer := state.buffer.push x y }

variable [LinearOrder K]

def covariance (state : RollingCorr K) : K := state.buffer.covariance

def value (sqrt : K → K) (state : RollingCorr K) : K := state.buffer.correlation sqrt

end RollingCorr

end Sums

section Extremes

variable {K : Type} [Field K] [LinearOrder K]

/-- `f64::EPSILON`. -/
def f64Epsilon : K := 1 / 2 ^ 52

def withinEpsilon (first second : K) : Prop := |first - second| < f64Epsilon

instance : DecidableRel (withinEpsilon (K := K)) := fun first second =>
  inferInstanceAs (Decidable (|first - second| < f64Epsilon))

def WindowedMin.new (windowSize : ℕ) : ExtremeState K := ExtremeState.withCapacity windowSize

def WindowedMin.update : ExtremeState K → K → ExtremeState K :=
  ExtremeState.update (· < ·) withinEpsilon min

def WindowedMax.new (windowSize : ℕ) : ExtremeState K := ExtremeState.withCapacity windowSize

def WindowedMax.update : ExtremeState K → K → ExtremeState K :=
  ExtremeState.update (· > ·) withinEpsilon max

end Extremes

/-! ## Every operator follows its window -/

section Sums

variable {K : Type} [Field K] {capacity : ℕ}

omit [Field K] in
theorem RingBuffer.push_full_of_eq {ring : RingBuffer K} {oldest : K} {rest : List K} (value : K)
    (same : ring = ⟨oldest :: rest, capacity⟩) (full : (oldest :: rest).length = capacity) :
    ring.push value = (⟨rest ++ [value], capacity⟩, some oldest) := by
  rw [same]
  exact push_of_full value rfl full

omit [Field K] in
theorem RingBuffer.push_room_of_eq {ring : RingBuffer K} {window : List K} (value : K)
    (same : ring = ⟨window, capacity⟩) (room : window.length < capacity) :
    ring.push value = (⟨window ++ [value], capacity⟩, none) := by
  rw [same]
  exact push_of_lt value room

theorem WindowedSum.foldl_eq (positive : 0 < capacity) (values : List K) :
    values.foldl WindowedSum.update (WindowedSum.new capacity) =
      { buffer := ⟨lastWindow capacity values, capacity⟩
        sum := (lastWindow capacity values).sum } := by
  apply foldl_follows_window capacity positive fun (state : WindowedSum K) window =>
    state = { buffer := ⟨window, capacity⟩, sum := window.sum }
  · simp [WindowedSum.new, RingBuffer.new]
  · intro state window value room follows
    rw [follows, WindowedSum.update, RingBuffer.push_room_of_eq value rfl room]
    simp
  · intro state oldest rest value full follows
    rw [follows, WindowedSum.update, RingBuffer.push_full_of_eq value rfl full]
    simp

theorem WindowedAvg.foldl_inner (values : List K) (state : WindowedAvg K) :
    (values.foldl WindowedAvg.update state).inner =
      values.foldl WindowedSum.update state.inner := by
  induction values generalizing state with
  | nil => rfl
  | cons value values induction => exact induction (state.update value)

theorem WindowedAvg.value_foldl (positive : 0 < capacity) (values : List K) :
    (values.foldl WindowedAvg.update (WindowedAvg.new capacity)).value =
      Foundation.mean (lastWindow capacity values) := by
  rw [WindowedAvg.value, WindowedAvg.foldl_inner, WindowedAvg.new, WindowedSum.foldl_eq positive]
  generalize lastWindow capacity values = window
  cases window with
  | nil => exact (if_pos rfl).trans mean_nil.symm
  | cons value window => exact if_neg (Nat.succ_ne_zero window.length)

theorem RollingMean.foldl_eq (positive : 0 < capacity) (values : List K) :
    values.foldl RollingMean.update (RollingMean.new capacity) =
      { buffer :=
          { buffer := ⟨lastWindow capacity values, capacity⟩
            sum := (lastWindow capacity values).sum } } := by
  apply foldl_follows_window capacity positive fun (state : RollingMean K) window =>
    state = { buffer := { buffer := ⟨window, capacity⟩, sum := window.sum } }
  · simp [RollingMean.new, NumericRingBuffer.new, RingBuffer.new]
  · intro state window value room follows
    rw [follows, RollingMean.update, NumericRingBuffer.push,
      RingBuffer.push_room_of_eq value rfl room]
    simp
  · intro state oldest rest value full follows
    rw [follows, RollingMean.update, NumericRingBuffer.push,
      RingBuffer.push_full_of_eq value rfl full]
    simp
    ring

theorem RollingMean.value_foldl (positive : 0 < capacity) (values : List K) :
    (values.foldl RollingMean.update (RollingMean.new capacity)).value =
      Foundation.mean (lastWindow capacity values) := by
  rw [RollingMean.foldl_eq positive, RollingMean.value, NumericRingBuffer.mean]
  generalize lastWindow capacity values = window
  cases window with
  | nil => exact (if_pos rfl).trans mean_nil.symm
  | cons value window => exact if_neg Bool.false_ne_true

theorem RollingStd.foldl_eq (positive : 0 < capacity) (values : List K) :
    values.foldl RollingStd.update (RollingStd.new capacity) =
      { welford :=
          { buffer := ⟨lastWindow capacity values, capacity⟩
            state := WelfordState.fold (lastWindow capacity values) } } := by
  apply foldl_follows_window capacity positive fun (state : RollingStd K) window =>
    state = { welford := { buffer := ⟨window, capacity⟩, state := WelfordState.fold window } }
  · rfl
  · intro state window value room follows
    have notFull : (⟨window, capacity⟩ : RingBuffer K).isFull = false :=
      decide_eq_false (not_le.mpr room)
    rw [follows, RollingStd.update, WindowedWelfordState.update,
      RingBuffer.push_room_of_eq value rfl room]
    dsimp only
    rw [notFull, WelfordState.fold, WelfordState.fold, List.foldl_append]
    rfl
  · intro state oldest rest value full follows
    have isFull : (⟨oldest :: rest, capacity⟩ : RingBuffer K).isFull = true :=
      decide_eq_true full.ge
    rw [follows, RollingStd.update, WindowedWelfordState.update,
      RingBuffer.push_full_of_eq value rfl full]
    dsimp only
    rw [isFull]
    rfl

def RollingStd.Describes (state : RollingStd K) (window : List K) : Prop :=
  state.mean = Foundation.mean window ∧ state.variance = Foundation.variance window ∧
    state.welford.state.m3 = centralSum 3 (Foundation.mean window) window ∧
    state.welford.state.m4 = centralSum 4 (Foundation.mean window) window

theorem RollingStd.moments_foldl [CharZero K] (positive : 0 < capacity) (values : List K) :
    (values.foldl RollingStd.update (RollingStd.new capacity)).Describes
      (lastWindow capacity values) := by
  rw [RollingStd.Describes, RollingStd.foldl_eq positive, WelfordState.fold_eq_momentsOf]
  refine ⟨rfl, ?_, rfl, rfl⟩
  dsimp only [RollingStd.variance, WindowedWelfordState.variance, WelfordState.variance,
    WelfordState.momentsOf]
  split_ifs with short
  · rw [variance_of_short short]
  · rfl

theorem RollingCorr.foldl_buffer (pairs : List (K × K)) (state : RollingCorr K) :
    (pairs.foldl (fun state pair => state.update pair.1 pair.2) state).buffer =
      pairs.foldl (fun ring pair => ring.push pair.1 pair.2) state.buffer := by
  induction pairs generalizing state with
  | nil => rfl
  | cons pair pairs induction => exact induction (state.update pair.1 pair.2)

end Sums

section Ordered

variable {K : Type} [Field K] [LinearOrder K] [IsStrictOrderedRing K] {capacity : ℕ}

theorem withinEpsilon_self (number : K) : withinEpsilon number number := by
  rw [withinEpsilon, sub_self, abs_zero, f64Epsilon]
  positivity

theorem WindowedMin.current_foldl (positive : 0 < capacity) (values : List K) :
    (values.foldl WindowedMin.update (WindowedMin.new capacity)).current =
      (lastWindow capacity values).min? :=
  (ExtremeState.follows_foldl positive withinEpsilon_self values).current_eq

theorem WindowedMax.current_foldl (positive : 0 < capacity) (values : List K) :
    (values.foldl WindowedMax.update (WindowedMax.new capacity)).current =
      (lastWindow capacity values).max? := by
  have opposite := (@ExtremeState.follows_foldl Kᵒᵈ _ (withinEpsilon (K := K))
    (inferInstanceAs (DecidableRel (withinEpsilon (K := K)))) capacity positive
    (withinEpsilon_self (K := K)) values).current_eq
  exact opposite

/-- The covariance, the variances under the roots of the correlation, and the correlation
itself are those of the window. -/
def RollingCorr.Describes (sqrt : K → K) (state : RollingCorr K) (window : List (K × K)) : Prop :=
  state.covariance = Foundation.covariance window ∧
    state.buffer.varX = Foundation.variance (window.map Prod.fst) ∧
    state.buffer.varY = Foundation.variance (window.map Prod.snd) ∧
    state.value sqrt = Foundation.correlation sqrt window

theorem RollingCorr.foldl_eq (positive : 0 < capacity) (sqrt : K → K) (pairs : List (K × K)) :
    (pairs.foldl (fun state pair => RollingCorr.update state pair.1 pair.2)
      (RollingCorr.new capacity)).Describes sqrt (lastWindow capacity pairs) := by
  have follows := PairedRingBuffer.follows_foldl positive pairs
  rw [RollingCorr.Describes, RollingCorr.covariance, RollingCorr.value,
    RollingCorr.foldl_buffer, RollingCorr.new]
  exact ⟨follows.covariance_eq, follows.varX_eq, follows.varY_eq, follows.correlation_eq sqrt⟩

/-- After any updates, each operator is its statistic of the last values. -/
theorem operators_follow_window {windowSize : ℕ} (positive : 0 < windowSize) (sqrt : K → K)
    (values : List K) (pairs : List (K × K)) :
    (values.foldl WindowedSum.update (WindowedSum.new windowSize)).value =
        (lastWindow windowSize values).sum ∧
      (values.foldl WindowedAvg.update (WindowedAvg.new windowSize)).value =
        mean (lastWindow windowSize values) ∧
      (values.foldl WindowedMin.update (WindowedMin.new windowSize)).current =
        (lastWindow windowSize values).min? ∧
      (values.foldl WindowedMax.update (WindowedMax.new windowSize)).current =
        (lastWindow windowSize values).max? ∧
      (values.foldl RollingMean.update (RollingMean.new windowSize)).value =
        mean (lastWindow windowSize values) ∧
      (values.foldl RollingStd.update (RollingStd.new windowSize)).Describes
        (lastWindow windowSize values) ∧
      (pairs.foldl (fun state pair => RollingCorr.update state pair.1 pair.2)
        (RollingCorr.new windowSize)).Describes sqrt (lastWindow windowSize pairs) := by
  refine ⟨?_, WindowedAvg.value_foldl positive values, WindowedMin.current_foldl positive values,
    WindowedMax.current_foldl positive values, RollingMean.value_foldl positive values,
    RollingStd.moments_foldl positive values, RollingCorr.foldl_eq positive sqrt pairs⟩
  rw [WindowedSum.foldl_eq positive, WindowedSum.value]

/-- A window of two that loses its least value, and pairs with variances 1 and 1. -/
theorem operators_follow_window_of_two :
    (([1, 3, 2] : List ℚ).foldl WindowedMin.update (WindowedMin.new 2)).current = some 2 ∧
      (([1, 3, 2] : List ℚ).foldl WindowedAvg.update (WindowedAvg.new 2)).value = 5 / 2 ∧
      (([(7, 7), (0, 0), (2, 2)] : List (ℚ × ℚ)).foldl
        (fun state pair => RollingCorr.update state pair.1 pair.2)
          (RollingCorr.new 2)).value id = 1 := by
  have positive : 0 < 2 := by decide
  have follow := operators_follow_window (K := ℚ) positive id [1, 3, 2] [(7, 7), (0, 0), (2, 2)]
  refine ⟨follow.2.2.1.trans (by decide +kernel), follow.2.1.trans ?_,
    follow.2.2.2.2.2.2.2.2.2.trans ?_⟩
  · norm_num [mean, lastWindow]
  · norm_num [correlation, variance, covariance, centralSum, crossSum, mean, lastWindow]

end Ordered

end QAExchange
