import QAExchange.Factor.RingBuffer

/-! # Cached extremes

A buffer with its least or greatest value, which is repaired when the value that leaves the
buffer may have been the extreme. Minimum and maximum are the two orders of one definition.
-/

namespace QAExchange

open Foundation

variable {K : Type}

/-- The values combined from the first on; nothing for no values. -/
def reduce (pick : K → K → K) : List K → Option K
  | [] => none
  | value :: values => some (values.foldl pick value)

structure ExtremeState (K : Type) where
  buffer : RingBuffer K
  current : Option K

namespace ExtremeState

def withCapacity (capacity : ℕ) : ExtremeState K where
  buffer := RingBuffer.new capacity
  current := none

def recalculate (pick : K → K → K) (state : ExtremeState K) : ExtremeState K :=
  { state with current := reduce pick state.buffer.buffer }

/-- The new value wins where it beats the extreme; else the extreme is recomputed when the
popped value is taken for it. -/
def update (beats same : K → K → Prop) [DecidableRel beats] [DecidableRel same]
    (pick : K → K → K) (state : ExtremeState K) (value : K) : ExtremeState K :=
  let pushed := state.buffer.push value
  let state := { state with buffer := pushed.1 }
  match state.current, pushed.2 with
  | none, _ => { state with current := some value }
  | some extreme, none =>
    if beats value extreme then { state with current := some value } else state
  | some extreme, some expired =>
    if beats value extreme then { state with current := some value }
    else if same expired extreme then state.recalculate pick
    else state

@[simp] theorem update_buffer (beats same : K → K → Prop) [DecidableRel beats]
    [DecidableRel same] (pick : K → K → K) (state : ExtremeState K) (value : K) :
    (state.update beats same pick value).buffer = (state.buffer.push value).1 := by
  rw [update]
  dsimp only
  split
  · rfl
  · split_ifs <;> rfl
  · split_ifs <;> rfl

end ExtremeState

/-! ## The least value of a changing list -/

section Least

variable [LinearOrder K]

theorem reduce_min (values : List K) : reduce min values = values.min? := by
  cases values with
  | nil => rfl
  | cons value values => rfl

theorem min?_append_singleton (values : List K) (value : K) :
    (values ++ [value]).min? = some ((values.min?).elim value fun least => min least value) := by
  cases values with
  | nil => rfl
  | cons first values =>
    rw [List.cons_append, List.min?_cons', List.min?_cons', List.foldl_append]
    rfl

variable {least value : K}

theorem min?_append_of_lt {values : List K} (smallest : values.min? = some least)
    (below : value < least) : (values ++ [value]).min? = some value := by
  rw [min?_append_singleton, smallest]
  exact congrArg some (min_eq_right below.le)

theorem min?_append_of_le {values : List K} (smallest : values.min? = some least)
    (above : least ≤ value) : (values ++ [value]).min? = some least := by
  rw [min?_append_singleton, smallest]
  exact congrArg some (min_eq_left above)

theorem min?_of_cons {oldest : K} {rest : List K} (smallest : (oldest :: rest).min? = some least)
    (other : oldest ≠ least) : rest.min? = some least := by
  rw [List.min?_cons] at smallest
  cases fromRest : rest.min? with
  | none =>
    rw [fromRest] at smallest
    exact absurd (Option.some.inj smallest) other
  | some smallestRest =>
    rw [fromRest] at smallest
    have either : min oldest smallestRest = least := Option.some.inj smallest
    rcases min_choice oldest smallestRest with isOldest | isRest
    · exact absurd (isOldest.symm.trans either) other
    · rw [← isRest, either]

theorem min?_replace_of_lt {oldest : K} {rest : List K}
    (smallest : (oldest :: rest).min? = some least) (below : value < least) :
    (rest ++ [value]).min? = some value := by
  cases fromRest : rest.min? with
  | none =>
    rw [min?_append_singleton, fromRest]
    rfl
  | some smallestRest =>
    apply min?_append_of_lt fromRest
    rw [List.min?_cons, fromRest] at smallest
    have either : min oldest smallestRest = least := Option.some.inj smallest
    exact below.trans_le (either ▸ min_le_right oldest smallestRest)

end Least

namespace ExtremeState

variable [LinearOrder K] {same : K → K → Prop} [DecidableRel same]

structure Follows (capacity : ℕ) (state : ExtremeState K) (window : List K) : Prop where
  capacity_eq : state.buffer.capacity = capacity
  buffer_eq : state.buffer.buffer = window
  current_eq : state.current = window.min?

variable {capacity : ℕ} {state : ExtremeState K}

theorem Follows.enter {window : List K} (value : K) (room : window.length < capacity)
    (follows : state.Follows capacity window) :
    (state.update (· < ·) same min value).Follows capacity (window ++ [value]) := by
  have pushed : state.buffer.push value =
      ({ state.buffer with buffer := window ++ [value] }, none) := by
    rw [← follows.buffer_eq]
    apply RingBuffer.push_of_lt
    rw [follows.buffer_eq, follows.capacity_eq]
    exact room
  refine ⟨?_, ?_, ?_⟩
  · rw [update_buffer, pushed]
    exact follows.capacity_eq
  · rw [update_buffer, pushed]
  · rw [update, pushed]
    dsimp only
    rw [follows.current_eq]
    cases smallest : window.min? with
    | none =>
      rw [List.min?_eq_none_iff.mp smallest]
      rfl
    | some least =>
      dsimp only
      split_ifs with below
      · exact (min?_append_of_lt smallest below).symm
      · exact (min?_append_of_le smallest (not_lt.mp below)).symm

theorem Follows.replace {oldest : K} {rest : List K} (value : K)
    (reflexive : ∀ number, same number number) (full : (oldest :: rest).length = capacity)
    (follows : state.Follows capacity (oldest :: rest)) :
    (state.update (· < ·) same min value).Follows capacity (rest ++ [value]) := by
  have pushed := RingBuffer.push_of_full value follows.buffer_eq
    (full.trans follows.capacity_eq.symm)
  refine ⟨?_, ?_, ?_⟩
  · rw [update_buffer, pushed]
    exact follows.capacity_eq
  · rw [update_buffer, pushed]
  · rw [update, pushed]
    dsimp only
    rw [follows.current_eq]
    cases smallest : (oldest :: rest).min? with
    | none => exact absurd (List.min?_eq_none_iff.mp smallest) (List.cons_ne_nil oldest rest)
    | some least =>
      dsimp only
      split_ifs with below expires
      · exact (min?_replace_of_lt smallest below).symm
      · exact reduce_min (rest ++ [value])
      · have other : oldest ≠ least := by
          intro equal
          exact expires (equal ▸ reflexive oldest)
        exact (min?_append_of_le (min?_of_cons smallest other) (not_lt.mp below)).symm

theorem Follows.update (positive : 0 < capacity) (reflexive : ∀ number, same number number)
    {values : List K} (follows : state.Follows capacity (lastWindow capacity values)) (value : K) :
    (state.update (· < ·) same min value).Follows capacity
      (lastWindow capacity (values ++ [value])) :=
  follows_window_step capacity positive (Follows capacity)
    (fun _ _ value room follows => follows.enter value room)
    (fun _ _ _ value full follows => follows.replace value reflexive full) follows value

theorem follows_foldl (positive : 0 < capacity) (reflexive : ∀ number, same number number)
    (values : List K) :
    (values.foldl (ExtremeState.update (· < ·) same min) (withCapacity capacity)).Follows capacity
      (lastWindow capacity values) :=
  foldl_follows_window capacity positive (Follows capacity) ⟨rfl, rfl, rfl⟩
    (fun _ _ value room follows => follows.enter value room)
    (fun _ _ _ value full follows => follows.replace value reflexive full) values

end ExtremeState

end QAExchange
