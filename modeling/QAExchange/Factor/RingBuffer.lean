import QAExchange.Foundation.LastWindow
import QAExchange.Foundation.Moments

/-! # Ring buffers

The buffers of the sliding windows: plain values, numbers with their running sum, and pairs
of numbers with the running sums of their products.
-/

namespace QAExchange

open Foundation

/-! ## RingBuffer -/

structure RingBuffer (α : Type) where
  /-- From the oldest to the newest. -/
  buffer : List α
  capacity : ℕ

namespace RingBuffer

def new (capacity : ℕ) : RingBuffer α := { buffer := [], capacity := capacity }

def len (ring : RingBuffer α) : ℕ := ring.buffer.length

def isEmpty (ring : RingBuffer α) : Bool := ring.buffer.isEmpty

def isFull (ring : RingBuffer α) : Bool := decide (ring.capacity ≤ ring.buffer.length)

/-- The buffer afterwards, and the value popped at the front of a full one. -/
def push (ring : RingBuffer α) (value : α) : RingBuffer α × Option α :=
  if ring.capacity ≤ ring.buffer.length then
    ({ ring with buffer := ring.buffer.tail ++ [value] }, ring.buffer.head?)
  else ({ ring with buffer := ring.buffer ++ [value] }, none)

theorem push_of_lt {ring : RingBuffer α} (value : α) (room : ring.buffer.length < ring.capacity) :
    ring.push value = ({ ring with buffer := ring.buffer ++ [value] }, none) :=
  if_neg (not_le.mpr room)

theorem push_of_full {ring : RingBuffer α} (value : α) (buffer : ring.buffer = oldest :: rest)
    (full : (oldest :: rest).length = ring.capacity) :
    ring.push value = ({ ring with buffer := rest ++ [value] }, some oldest) := by
  rw [push, if_pos (by rw [buffer, full]), buffer]
  rfl

/-- A buffer that holds the last values keeps doing so, and what it pops is one of them. -/
theorem push_lastWindow {capacity : ℕ} (positive : 0 < capacity) (values : List α) (value : α) :
    ∃ popped, (⟨lastWindow capacity values, capacity⟩ : RingBuffer α).push value =
        (⟨lastWindow capacity (values ++ [value]), capacity⟩, popped) ∧
      ∀ expired ∈ popped, expired ∈ values := by
  have length := length_lastWindow capacity values
  by_cases room : values.length < capacity
  · refine ⟨none, ?_, nofun⟩
    rw [lastWindow_append_of_lt value room]
    apply push_of_lt
    change (lastWindow capacity values).length < capacity
    omega
  · have full : capacity ≤ values.length := by omega
    rw [lastWindow_append_of_le value positive full]
    cases window : lastWindow capacity values with
    | nil =>
      rw [window, List.length_nil] at length
      omega
    | cons oldest rest =>
      refine ⟨some oldest, push_of_full value rfl ?_, ?_⟩
      · rw [window] at length
        change (oldest :: rest).length = capacity
        omega
      · intro expired isOldest
        have held : oldest ∈ lastWindow capacity values := by
          rw [window]
          exact List.mem_cons_self
        rw [← Option.some.inj isOldest]
        exact mem_of_mem_lastWindow held

end RingBuffer

structure NumericRingBuffer (K : Type) where
  buffer : RingBuffer K
  sum : K

namespace NumericRingBuffer

variable {K : Type} [Field K]

def new (capacity : ℕ) : NumericRingBuffer K := { buffer := RingBuffer.new capacity, sum := 0 }

def push (ring : NumericRingBuffer K) (value : K) : NumericRingBuffer K :=
  let pushed := ring.buffer.push value
  let sum := ring.sum + value
  match pushed.2 with
  | some expired => { buffer := pushed.1, sum := sum - expired }
  | none => { buffer := pushed.1, sum := sum }

def mean (ring : NumericRingBuffer K) : K :=
  if ring.buffer.isEmpty then 0 else ring.sum / ring.buffer.len

end NumericRingBuffer

/-! ## PairedRingBuffer -/

structure PairedRingBuffer (K : Type) where
  xBuffer : RingBuffer K
  yBuffer : RingBuffer K
  sumX : K
  sumY : K
  sumXY : K
  sumX2 : K
  sumY2 : K

namespace PairedRingBuffer

variable {K : Type} [Field K]

def new (capacity : ℕ) : PairedRingBuffer K where
  xBuffer := RingBuffer.new capacity
  yBuffer := RingBuffer.new capacity
  sumX := 0
  sumY := 0
  sumXY := 0
  sumX2 := 0
  sumY2 := 0

def push (ring : PairedRingBuffer K) (x y : K) : PairedRingBuffer K :=
  let pushedX := ring.xBuffer.push x
  let pushedY := ring.yBuffer.push y
  let added : PairedRingBuffer K :=
    { xBuffer := pushedX.1
      yBuffer := pushedY.1
      sumX := ring.sumX + x
      sumY := ring.sumY + y
      sumXY := ring.sumXY + x * y
      sumX2 := ring.sumX2 + x * x
      sumY2 := ring.sumY2 + y * y }
  match pushedX.2, pushedY.2 with
  | some expiredX, some expiredY =>
    { added with
      sumX := added.sumX - expiredX
      sumY := added.sumY - expiredY
      sumXY := added.sumXY - expiredX * expiredY
      sumX2 := added.sumX2 - expiredX * expiredX
      sumY2 := added.sumY2 - expiredY * expiredY }
  | _, _ => added

def len (ring : PairedRingBuffer K) : ℕ := ring.xBuffer.len

/-- The variance of the first values, as `correlation` computes it. -/
def varX (ring : PairedRingBuffer K) : K :=
  let n : K := ring.len
  let meanX := ring.sumX / n
  ring.sumX2 / n - meanX * meanX

def varY (ring : PairedRingBuffer K) : K :=
  let n : K := ring.len
  let meanY := ring.sumY / n
  ring.sumY2 / n - meanY * meanY

def cov (ring : PairedRingBuffer K) : K :=
  let n : K := ring.len
  let meanX := ring.sumX / n
  let meanY := ring.sumY / n
  ring.sumXY / n - meanX * meanY

variable [LinearOrder K]

def covariance (ring : PairedRingBuffer K) : K :=
  if (ring.len : K) < 2 then 0 else ring.cov

def correlation (sqrt : K → K) (ring : PairedRingBuffer K) : K :=
  if (ring.len : K) < 2 then 0
  else if ring.varX ≤ 0 ∨ ring.varY ≤ 0 then 0
  else ring.cov / (sqrt ring.varX * sqrt ring.varY)

/-! ### The sums are those of the window -/

section Sums

omit [LinearOrder K]

structure Follows (capacity : ℕ) (ring : PairedRingBuffer K) (window : List (K × K)) : Prop where
  xCapacity_eq : ring.xBuffer.capacity = capacity
  yCapacity_eq : ring.yBuffer.capacity = capacity
  xBuffer_eq : ring.xBuffer.buffer = window.map Prod.fst
  yBuffer_eq : ring.yBuffer.buffer = window.map Prod.snd
  sumX_eq : ring.sumX = (window.map Prod.fst).sum
  sumY_eq : ring.sumY = (window.map Prod.snd).sum
  sumXY_eq : ring.sumXY = (window.map fun pair => pair.1 * pair.2).sum
  sumX2_eq : ring.sumX2 = ((window.map Prod.fst).map fun x => x * x).sum
  sumY2_eq : ring.sumY2 = ((window.map Prod.snd).map fun y => y * y).sum

variable {ring : PairedRingBuffer K}

variable {window : List (K × K)}

theorem Follows.enter (pair : K × K) (room : window.length < capacity)
    (follows : ring.Follows capacity window) :
    (ring.push pair.1 pair.2).Follows capacity (window ++ [pair]) := by
  have pushedX : ring.xBuffer.push pair.1 =
      ({ ring.xBuffer with buffer := window.map Prod.fst ++ [pair.1] }, none) := by
    rw [← follows.xBuffer_eq]
    apply RingBuffer.push_of_lt
    rw [follows.xBuffer_eq, List.length_map, follows.xCapacity_eq]
    exact room
  have pushedY : ring.yBuffer.push pair.2 =
      ({ ring.yBuffer with buffer := window.map Prod.snd ++ [pair.2] }, none) := by
    rw [← follows.yBuffer_eq]
    apply RingBuffer.push_of_lt
    rw [follows.yBuffer_eq, List.length_map, follows.yCapacity_eq]
    exact room
  rw [push, pushedX, pushedY]
  constructor
  · exact follows.xCapacity_eq
  · exact follows.yCapacity_eq
  · simp
  · simp
  · simp [follows.sumX_eq]
  · simp [follows.sumY_eq]
  · simp [follows.sumXY_eq]
  · simp [follows.sumX2_eq]
  · simp [follows.sumY2_eq]

theorem Follows.replace {oldest : K × K} (pair : K × K) (full : (oldest :: rest).length = capacity)
    (follows : ring.Follows capacity (oldest :: rest)) :
    (ring.push pair.1 pair.2).Follows capacity (rest ++ [pair]) := by
  have pushedX : ring.xBuffer.push pair.1 =
      ({ ring.xBuffer with buffer := rest.map Prod.fst ++ [pair.1] }, some oldest.1) := by
    apply RingBuffer.push_of_full _ follows.xBuffer_eq
    rw [follows.xCapacity_eq, ← full]
    simp
  have pushedY : ring.yBuffer.push pair.2 =
      ({ ring.yBuffer with buffer := rest.map Prod.snd ++ [pair.2] }, some oldest.2) := by
    apply RingBuffer.push_of_full _ follows.yBuffer_eq
    rw [follows.yCapacity_eq, ← full]
    simp
  rw [push, pushedX, pushedY]
  constructor
  · exact follows.xCapacity_eq
  · exact follows.yCapacity_eq
  · simp
  · simp
  · simp [follows.sumX_eq]
    ring
  · simp [follows.sumY_eq]
    ring
  · simp [follows.sumXY_eq]
    ring
  · simp [follows.sumX2_eq]
    ring
  · simp [follows.sumY2_eq]
    ring

theorem follows_foldl (positive : 0 < capacity) (pairs : List (K × K)) :
    (pairs.foldl (fun ring pair => ring.push pair.1 pair.2) (new capacity)).Follows capacity
      (lastWindow capacity pairs) := by
  apply foldl_follows_window capacity positive (Follows capacity)
  · constructor <;> simp [new, RingBuffer.new]
  · exact fun _ _ pair room follows => follows.enter pair room
  · exact fun _ _ _ pair full follows => follows.replace pair full

theorem Follows.len_eq (follows : ring.Follows capacity window) : ring.len = window.length := by
  rw [len, RingBuffer.len, follows.xBuffer_eq, List.length_map]

variable [CharZero K]

theorem Follows.varX_eq (follows : ring.Follows capacity window) :
    ring.varX = variance (window.map Prod.fst) := by
  rw [varX, follows.len_eq, follows.sumX_eq, follows.sumX2_eq, variance_eq, mean,
    List.length_map]

theorem Follows.varY_eq (follows : ring.Follows capacity window) :
    ring.varY = variance (window.map Prod.snd) := by
  rw [varY, follows.len_eq, follows.sumY_eq, follows.sumY2_eq, variance_eq, mean,
    List.length_map]

theorem Follows.cov_eq (follows : ring.Follows capacity window) :
    ring.cov = Foundation.covariance window := by
  rw [cov, follows.len_eq, follows.sumX_eq, follows.sumY_eq, follows.sumXY_eq, covariance_eq,
    mean, mean, List.length_map, List.length_map]

end Sums

variable [IsStrictOrderedRing K] {ring : PairedRingBuffer K}

theorem Follows.covariance_eq (follows : ring.Follows capacity window) :
    ring.covariance = Foundation.covariance window := by
  rw [covariance, follows.len_eq, follows.cov_eq]
  split_ifs with short
  · have fewer : window.length < 2 := by exact_mod_cast short
    rw [covariance_of_short fewer]
  · rfl

theorem Follows.correlation_eq (sqrt : K → K) (follows : ring.Follows capacity window) :
    ring.correlation sqrt = Foundation.correlation sqrt window := by
  rw [correlation, Foundation.correlation, follows.len_eq, follows.varX_eq, follows.varY_eq,
    follows.cov_eq]
  split_ifs with short
  · rfl
  · have fewer : (window.map Prod.fst).length < 2 := by
      rw [List.length_map]
      exact_mod_cast short
    have flat := variance_of_short fewer
    exact absurd (Or.inl flat.le) ‹_›
  · rfl
  · rfl

omit [LinearOrder K] [IsStrictOrderedRing K] in
/-- A buffer without room for a pair holds the last pair only. -/
theorem len_foldl_of_zero (pairs : List (K × K)) :
    (pairs.foldl (fun ring pair => ring.push pair.1 pair.2) (new 0)).len ≤ 1 := by
  have bounded : ∀ ring : PairedRingBuffer K, ring.xBuffer.capacity = 0 → ring.len ≤ 1 →
      ∀ x y, (ring.push x y).xBuffer.capacity = 0 ∧ (ring.push x y).len ≤ 1 := by
    intro ring none short x y
    have pushed : (ring.push x y).xBuffer = (ring.xBuffer.push x).1 := by
      rw [push]
      dsimp only
      split <;> rfl
    rw [len, RingBuffer.len] at short ⊢
    rw [pushed, RingBuffer.push, if_pos (by omega)]
    refine ⟨none, ?_⟩
    rw [List.length_append, List.length_tail, List.length_singleton]
    omega
  suffices both : ∀ ring : PairedRingBuffer K, ring.xBuffer.capacity = 0 → ring.len ≤ 1 →
      (pairs.foldl (fun ring pair => ring.push pair.1 pair.2) ring).len ≤ 1 by
    exact both (new 0) rfl (Nat.zero_le 1)
  induction pairs with
  | nil => exact fun _ _ short => short
  | cons pair pairs induction =>
    intro ring none short
    have next := bounded ring none short pair.1 pair.2
    exact induction _ next.1 next.2

theorem correlation_foldl (sqrt : K → K) (capacity : ℕ) (pairs : List (K × K)) :
    (pairs.foldl (fun ring pair => ring.push pair.1 pair.2) (new capacity)).correlation sqrt =
      Foundation.correlation sqrt (lastWindow capacity pairs) := by
  rcases Nat.eq_zero_or_pos capacity with none | positive
  · rw [none]
    have short := len_foldl_of_zero pairs
    have few : ((pairs.foldl (fun ring pair => ring.push pair.1 pair.2) (new 0)).len : K) < 2 := by
      exact_mod_cast Nat.lt_succ_of_le short
    have empty : lastWindow 0 pairs = [] := by simp [lastWindow]
    have flat : variance ([] : List K) = 0 := variance_of_short (Nat.zero_lt_two)
    rw [correlation, if_pos few, empty, Foundation.correlation, List.map_nil, flat,
      if_pos (Or.inl (le_refl 0))]
  · exact (follows_foldl positive pairs).correlation_eq sqrt

end PairedRingBuffer

end QAExchange
