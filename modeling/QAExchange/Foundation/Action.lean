import Mathlib.Logic.Function.Basic

/-! # Fallible state-changing computations

A Rust method that returns `Result` keeps the changes it made before the error.
`Action` is that shape, and this file gives the two rules its callers reason
with: what an action leaves alone (`Keeps`) and when it cannot fail (`Safe`).
-/

namespace QAExchange.Foundation

/-- A computation over a state `σ` that returns a value or an error. The state
changes made before an error stay. -/
abbrev Action (ε σ α : Type) := ExceptT ε (StateM σ) α

namespace Action

def exec (action : Action ε σ α) (state : σ) : Except ε α × σ := action state

def read (view : σ → α) : Action ε σ α := fun state => (.ok (view state), state)

def update (change : σ → σ) : Action ε σ Unit := fun state => (.ok (), change state)

def fail (error : ε) : Action ε σ α := fun state => (.error error, state)

/-- Return or fail as a computation without a state does. -/
def result (outcome : Except ε α) : Action ε σ α := fun state => (outcome, state)

/-- Run an action only under a condition. -/
def runIf (condition : Bool) (action : Action ε σ Unit) : Action ε σ Unit :=
  match condition with
  | true => action
  | false => pure ()

def attempt (action : Action ε σ α) : Action ε σ Unit :=
  fun state => (.ok (), (exec action state).2)

def onPart (get : σ → τ) (set : τ → σ → σ) (action : Action ε τ α) : Action ε σ α :=
  fun state =>
    let result := exec action (get state)
    (result.1, set result.2 state)

@[simp] theorem exec_pure (value : α) (state : σ) :
    exec (pure value : Action ε σ α) state = (.ok value, state) := rfl

@[simp] theorem exec_read (view : σ → α) (state : σ) :
    exec (read view : Action ε σ α) state = (.ok (view state), state) := rfl

@[simp] theorem exec_update (change : σ → σ) (state : σ) :
    exec (update change : Action ε σ Unit) state = (.ok (), change state) := rfl

@[simp] theorem exec_fail (error : ε) (state : σ) :
    exec (fail error : Action ε σ α) state = (.error error, state) := rfl

@[simp] theorem exec_result (outcome : Except ε α) (state : σ) :
    exec (result outcome : Action ε σ α) state = (outcome, state) := rfl

@[simp] theorem exec_runIf_true (action : Action ε σ Unit) (state : σ) :
    exec (runIf true action) state = exec action state := rfl

@[simp] theorem exec_runIf_false (action : Action ε σ Unit) (state : σ) :
    exec (runIf false action) state = (.ok (), state) := rfl

@[simp] theorem exec_attempt (action : Action ε σ α) (state : σ) :
    exec (attempt action) state = (.ok (), (exec action state).2) := rfl

@[simp] theorem exec_onPart (get : σ → τ) (set : τ → σ → σ) (action : Action ε τ α) (state : σ) :
    exec (onPart get set action) state =
      ((exec action (get state)).1, set (exec action (get state)).2 state) := rfl

theorem exec_bind (action : Action ε σ α) (next : α → Action ε σ β) (state : σ) :
    exec (action >>= next) state =
      match exec action state with
      | (.ok value, middle) => exec (next value) middle
      | (.error error, middle) => (.error error, middle) := by
  change (ExceptT.bindCont next (exec action state).1) (exec action state).2 = _
  rcases exec action state with ⟨_ | value, middle⟩ <;> rfl

theorem exec_bind_ok {action : Action ε σ α} {next : α → Action ε σ β} {state middle : σ}
    {value : α} (first : exec action state = (.ok value, middle)) :
    exec (action >>= next) state = exec (next value) middle := by
  rw [exec_bind, first]

theorem exec_bind_error {action : Action ε σ α} {next : α → Action ε σ β} {state middle : σ}
    {error : ε} (first : exec action state = (.error error, middle)) :
    exec (action >>= next) state = (.error error, middle) := by
  rw [exec_bind, first]

theorem exec_eq_of_outcome {action : Action ε σ α} {state : σ} {outcome : Except ε α}
    (ended : (exec action state).1 = outcome) :
    exec action state = (outcome, (exec action state).2) := Prod.ext ended rfl

theorem exec_bind_eq_ok {action : Action ε σ α} {next : α → Action ε σ β} {state last : σ}
    {value : β} (ran : exec (action >>= next) state = (.ok value, last)) :
    ∃ first middle, exec action state = (.ok first, middle) ∧
      exec (next first) middle = (.ok value, last) := by
  rw [exec_bind] at ran
  rcases outcome : exec action state with ⟨_ | first, middle⟩ <;> rw [outcome] at ran
  · cases ran
  · exact ⟨first, middle, rfl, ran⟩

theorem mapM_eq_ok {f : α → Except ε β} {g : α → β} {items : List α}
    (succeeds : ∀ item ∈ items, f item = .ok (g item)) : items.mapM f = .ok (items.map g) := by
  induction items with
  | nil => rfl
  | cons item items induction =>
    have rest := induction fun other member => succeeds other (List.mem_cons_of_mem _ member)
    rw [List.mapM_cons, succeeds item (by simp), rest]
    rfl

theorem exists_ok_of_mapM {f : α → Except ε β} {items : List α} {results : List β}
    (found : items.mapM f = .ok results) : ∀ item ∈ items, ∃ result, f item = .ok result := by
  induction items generalizing results with
  | nil => exact fun item member => nomatch member
  | cons item items induction =>
    rw [List.mapM_cons] at found
    cases first : f item with
    | error text =>
      rw [first] at found
      cases found
    | ok result =>
      rw [first] at found
      cases rest : items.mapM f with
      | error text =>
        rw [rest] at found
        cases found
      | ok others =>
        intro other member
        rcases List.mem_cons.mp member with rfl | later
        · exact ⟨result, first⟩
        · exact induction rest other later

/-! ## What an action leaves alone -/

/-- The action never changes what `view` sees, whether it fails or not. -/
def Keeps (view : σ → β) (action : Action ε σ α) : Prop :=
  ∀ state, view (exec action state).2 = view state

namespace Keeps

theorem pure (view : σ → β) (value : α) :
    Keeps view (Pure.pure value : Action ε σ α) := fun _ => rfl

theorem read (view : σ → β) (look : σ → α) :
    Keeps view (Action.read look : Action ε σ α) := fun _ => rfl

theorem fail (view : σ → β) (error : ε) :
    Keeps view (Action.fail error : Action ε σ α) := fun _ => rfl

theorem update {view : σ → β} {change : σ → σ} (same : ∀ state, view (change state) = view state) :
    Keeps view (Action.update change : Action ε σ Unit) := same

theorem bind {view : σ → β} {action : Action ε σ α} {next : α → Action ε σ γ}
    (first : Keeps view action) (rest : ∀ value, Keeps view (next value)) :
    Keeps view (action >>= next) := by
  intro state
  rw [exec_bind]
  have kept := first state
  rcases ran : exec action state with ⟨_ | value, middle⟩ <;> rw [ran] at kept
  · exact kept
  · exact (rest value middle).trans kept

theorem attempt {view : σ → β} {action : Action ε σ α} (kept : Keeps view action) :
    Keeps view (Action.attempt action) := kept

theorem onPart_inside {view : τ → β} {get : σ → τ} {set : τ → σ → σ}
    (getSet : ∀ part state, get (set part state) = part) {action : Action ε τ α}
    (kept : Keeps view action) :
    Keeps (fun state => view (get state)) (Action.onPart get set action) := by
  intro state
  simp only [exec_onPart, getSet]
  exact kept (get state)

/-- What depends only on a kept view is kept. -/
theorem comp {view : σ → β} {action : Action ε σ α} (kept : Keeps view action)
    (further : β → γ) : Keeps (fun state => further (view state)) action :=
  fun state => congrArg further (kept state)

theorem foldlM {view : σ → β} {body : γ → α → Action ε σ γ}
    (kept : ∀ loop item, Keeps view (body loop item)) :
    ∀ (items : List α) (loop : γ), Keeps view (items.foldlM body loop)
  | [], loop => Keeps.pure view loop
  | item :: items, loop => by
    rw [List.foldlM_cons]
    exact Keeps.bind (kept loop item) fun loop => Keeps.foldlM kept items loop

end Keeps

/-! ## Actions that cannot fail -/

/-- From a state with `invariant` the action succeeds and keeps `invariant`. -/
def Safe (invariant : σ → Prop) (action : Action ε σ α) : Prop :=
  ∀ state, invariant state →
    (∃ value, (exec action state).1 = .ok value) ∧ invariant (exec action state).2

namespace Safe

theorem pure (invariant : σ → Prop) (value : α) :
    Safe invariant (Pure.pure value : Action ε σ α) := fun _ holds => ⟨⟨value, rfl⟩, holds⟩

theorem read (invariant : σ → Prop) (look : σ → α) :
    Safe invariant (Action.read look : Action ε σ α) := fun _ holds => ⟨⟨_, rfl⟩, holds⟩

theorem update {invariant : σ → Prop} {change : σ → σ}
    (preserved : ∀ state, invariant state → invariant (change state)) :
    Safe invariant (Action.update change : Action ε σ Unit) :=
  fun state holds => ⟨⟨(), rfl⟩, preserved state holds⟩

theorem bind {invariant : σ → Prop} {action : Action ε σ α} {next : α → Action ε σ β}
    (first : Safe invariant action) (rest : ∀ value, Safe invariant (next value)) :
    Safe invariant (action >>= next) := by
  intro state holds
  rcases first state holds with ⟨⟨value, succeeded⟩, kept⟩
  have ran : exec action state = (.ok value, (exec action state).2) :=
    Prod.ext succeeded rfl
  rw [exec_bind_ok ran]
  exact rest value _ kept

/-- An attempted action succeeds by definition, so only the state matters. -/
theorem attempt {invariant : σ → Prop} {action : Action ε σ α}
    (preserved : ∀ state, invariant state → invariant (exec action state).2) :
    Safe invariant (Action.attempt action) :=
  fun state holds => ⟨⟨(), rfl⟩, preserved state holds⟩

end Safe

/-- From a state with `invariant` the action succeeds, keeps `invariant` and
changes what `view` sees by `change`. -/
def Does (invariant : σ → Prop) (view : σ → β) (change : β → β) (action : Action ε σ α) : Prop :=
  Safe invariant action ∧
    ∀ state, invariant state → view (exec action state).2 = change (view state)

namespace Does

theorem of_keeps {invariant : σ → Prop} {view : σ → β} {action : Action ε σ α}
    (safe : Safe invariant action) (kept : Keeps view action) :
    Does invariant view id action := ⟨safe, fun state _ => kept state⟩

theorem update {invariant : σ → Prop} {view : σ → β} {effect : β → β} {change : σ → σ}
    (preserved : ∀ state, invariant state → invariant (change state))
    (seen : ∀ state, view (change state) = effect (view state)) :
    Does invariant view effect (Action.update change : Action ε σ Unit) :=
  ⟨.update preserved, fun state _ => seen state⟩

theorem bind {invariant : σ → Prop} {view : σ → β} {first second : β → β}
    {action : Action ε σ α} {next : α → Action ε σ γ} (does : Does invariant view first action)
    (rest : ∀ value, Does invariant view second (next value)) :
    Does invariant view (second ∘ first) (action >>= next) := by
  refine ⟨does.1.bind fun value => (rest value).1, fun state holds => ?_⟩
  rcases does.1 state holds with ⟨⟨value, succeeded⟩, kept⟩
  have ran : exec action state = (.ok value, (exec action state).2) := Prod.ext succeeded rfl
  rw [exec_bind_ok ran, (rest value).2 _ kept, does.2 state holds]
  rfl

theorem congr {invariant : σ → Prop} {view : σ → β} {effect change : β → β}
    {action : Action ε σ α} (does : Does invariant view effect action)
    (same : ∀ seen, effect seen = change seen) : Does invariant view change action :=
  ⟨does.1, fun state holds => (does.2 state holds).trans (same _)⟩

end Does

end Action

end QAExchange.Foundation
