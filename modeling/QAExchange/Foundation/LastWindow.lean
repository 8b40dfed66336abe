import Mathlib.Data.List.DropRight

/-! # Bounded histories

A history that keeps the newest entries. A new entry comes to its end, and the oldest
one goes where there are more than the bound.
-/

namespace QAExchange.Foundation

variable {α : Type}

def pushBounded (bound : ℕ) (history : List α) (entry : α) : List α :=
  if bound < (history ++ [entry]).length then (history ++ [entry]).tail else history ++ [entry]

theorem pushBounded_rtake (bound : ℕ) (entries : List α) (entry : α) :
    pushBounded bound (entries.rtake bound) entry = (entries ++ [entry]).rtake bound := by
  have kept : (entries.rtake bound).length = min bound entries.length := by
    rw [List.rtake, List.length_drop]
    omega
  rw [pushBounded, List.length_append, List.length_singleton, kept, List.rtake, List.rtake,
    List.length_append, List.length_singleton]
  split_ifs with full
  · have enough : bound ≤ entries.length := by omega
    have later : entries.length + 1 - bound = entries.length - bound + 1 := by omega
    rw [later, ← List.drop_one, ← List.drop_append_of_le_length (by omega), List.drop_drop]
  · have none_gone : entries.length - bound = 0 := by omega
    have none_goes : entries.length + 1 - bound = 0 := by omega
    rw [none_gone, none_goes, List.drop_zero, List.drop_zero]

theorem map_pushBounded (transform : α → β) (bound : ℕ) (history : List α) (entry : α) :
    (pushBounded bound history entry).map transform =
      pushBounded bound (history.map transform) (transform entry) := by
  simp only [pushBounded, List.length_append, List.length_map, List.length_singleton]
  split_ifs <;> simp [List.map_tail]

theorem foldl_pushBounded (bound : ℕ) (before entries : List α) :
    entries.foldl (pushBounded bound) (before.rtake bound) = (before ++ entries).rtake bound := by
  induction entries generalizing before with
  | nil => rw [List.append_nil, List.foldl_nil]
  | cons entry entries induction =>
    rw [List.foldl_cons, pushBounded_rtake, induction, List.append_assoc, List.singleton_append]

theorem getLast?_rtake (room : 0 < bound) (entries : List α) :
    (entries.rtake bound).getLast? = entries.getLast? := by
  rw [List.rtake, List.getLast?_drop]
  split_ifs with empty
  · have isNil : entries = [] := List.length_eq_zero_iff.mp (by omega)
    rw [isNil]
    rfl
  · rfl

end QAExchange.Foundation

/-! ## The last values of a sequence

The window of the last values, and the rule for a state that follows it: a new value enters
at the end, and the oldest one leaves when the window is full.
-/

namespace QAExchange.Foundation

/-- The last `size` values, or all of them where there are fewer. -/
def lastWindow (size : ℕ) (values : List α) : List α := values.drop (values.length - size)

@[simp] theorem length_lastWindow (size : ℕ) (values : List α) :
    (lastWindow size values).length = min values.length size := by
  rw [lastWindow, List.length_drop]
  omega

theorem lastWindow_map (transform : α → β) (size : ℕ) (values : List α) :
    lastWindow size (values.map transform) = (lastWindow size values).map transform := by
  rw [lastWindow, lastWindow, List.map_drop, List.length_map]

variable {size : ℕ} {values : List α}

theorem lastWindow_of_short (short : values.length ≤ size) : lastWindow size values = values := by
  have nothing : values.length - size = 0 := by omega
  rw [lastWindow, nothing, List.drop_zero]

theorem lastWindow_append_of_lt (value : α) (room : values.length < size) :
    lastWindow size (values ++ [value]) = lastWindow size values ++ [value] := by
  have longer : (values ++ [value]).length ≤ size := by
    rw [List.length_append, List.length_singleton]
    omega
  rw [lastWindow_of_short longer, lastWindow_of_short (Nat.le_of_lt room)]

theorem lastWindow_append_of_le (value : α) (positive : 0 < size) (full : size ≤ values.length) :
    lastWindow size (values ++ [value]) = (lastWindow size values).tail ++ [value] := by
  have bound : values.length + 1 - size ≤ values.length := by omega
  have next : values.length + 1 - size = values.length - size + 1 := by omega
  rw [lastWindow, List.length_append, List.length_singleton, List.drop_append_of_le_length bound,
    lastWindow, List.tail_drop, next]

theorem mem_of_mem_lastWindow (mem : value ∈ lastWindow size values) :
    value ∈ values := List.mem_of_mem_drop mem

theorem mem_lastWindow_append (positive : 0 < size) (values : List α) (value : α) :
    value ∈ lastWindow size (values ++ [value]) := by
  by_cases room : values.length < size
  · rw [lastWindow_append_of_lt value room]
    simp
  · rw [lastWindow_append_of_le value positive (Nat.le_of_not_lt room)]
    simp

section Follows

variable (size : ℕ) (positive : 0 < size) (Follows : σ → List α → Prop) {step : σ → α → σ}

include positive

/-- One value further, where the state follows a value that enters a window with room and one
that replaces the oldest value of a full window. -/
theorem follows_window_step
    (enter : ∀ state window value, window.length < size → Follows state window →
      Follows (step state value) (window ++ [value]))
    (replace : ∀ state oldest rest value, (oldest :: rest).length = size →
      Follows state (oldest :: rest) → Follows (step state value) (rest ++ [value])) {state : σ}
    (follows : Follows state (lastWindow size values)) (value : α) :
    Follows (step state value) (lastWindow size (values ++ [value])) := by
  by_cases room : values.length < size
  · rw [lastWindow_append_of_lt value room]
    apply enter _ _ _ _ follows
    rw [length_lastWindow]
    omega
  · have full : size ≤ values.length := by omega
    have length := length_lastWindow size values
    rw [lastWindow_append_of_le value positive full]
    cases window : lastWindow size values with
    | nil =>
      rw [window, List.length_nil] at length
      omega
    | cons oldest rest =>
      rw [window] at follows length
      apply replace _ _ _ _ _ follows
      omega

theorem foldl_follows_window (atStart : Follows start [])
    (enter : ∀ state window value, window.length < size → Follows state window →
      Follows (step state value) (window ++ [value]))
    (replace : ∀ state oldest rest value, (oldest :: rest).length = size →
      Follows state (oldest :: rest) → Follows (step state value) (rest ++ [value]))
    (values : List α) : Follows (values.foldl step start) (lastWindow size values) := by
  induction values using List.reverseRecOn with
  | nil => simpa [lastWindow] using atStart
  | append_singleton values value induction =>
    rw [List.foldl_append]
    exact follows_window_step size positive Follows enter replace induction value

end Follows

end QAExchange.Foundation
