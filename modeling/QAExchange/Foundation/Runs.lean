import Mathlib.Data.List.Basic

/-! # Runs of a machine

A machine has one state and takes its inputs one after the other.
-/

namespace QAExchange.Foundation

variable {State Input : Type}

def Along (step : State → Input → State) (allowed : State → Input → Prop) :
    List Input → State → Prop
  | [], _ => True
  | input :: inputs, state => allowed state input ∧ Along step allowed inputs (step state input)

instance decidableAlong (step : State → Input → State) (allowed : State → Input → Prop)
    [∀ state input, Decidable (allowed state input)] :
    ∀ (inputs : List Input) (state : State), Decidable (Along step allowed inputs state)
  | [], _ => .isTrue trivial
  | input :: inputs, state =>
    have := decidableAlong step allowed inputs (step state input)
    inferInstanceAs (Decidable (allowed state input ∧
      Along step allowed inputs (step state input)))

variable {step : State → Input → State} {allowed : State → Input → Prop}

theorem along_append (first second : List Input) (state : State) :
    Along step allowed (first ++ second) state ↔
      Along step allowed first state ∧ Along step allowed second (first.foldl step state) := by
  induction first generalizing state with
  | nil => exact (iff_of_eq (true_and _)).symm
  | cons input first induction =>
    rw [List.cons_append, Along, Along, induction, List.foldl_cons, and_assoc]

variable {inputs : List Input} {state : State}

theorem along_and {first second : State → Input → Prop} (isFirst : Along step first inputs state)
    (isSecond : Along step second inputs state) :
    Along step (fun state input => first state input ∧ second state input) inputs state := by
  induction inputs generalizing state with
  | nil => trivial
  | cons input inputs induction =>
    exact ⟨⟨isFirst.1, isSecond.1⟩, induction isFirst.2 isSecond.2⟩

theorem foldl_along (invariant : State → Prop)
    (preserves : ∀ state input, invariant state → allowed state input →
      invariant (step state input)) :
    ∀ {inputs : List Input} {state : State}, Along step allowed inputs state →
      invariant state → invariant (inputs.foldl step state)
  | [], _, _, holds => holds
  | input :: inputs, state, ⟨isAllowed, along⟩, holds => by
    have next := preserves state input holds isAllowed
    rw [List.foldl_cons]
    exact foldl_along invariant preserves along next

theorem foldl_invariant (invariant : State → Prop)
    (preserves : ∀ state input, invariant state → invariant (step state input))
    (inputs : List Input) (holds : invariant state) : invariant (inputs.foldl step state) := by
  induction inputs generalizing state with
  | nil => exact holds
  | cons input inputs induction => exact induction (preserves state input holds)

theorem along_of_invariant (invariant : State → Prop)
    (implies : ∀ state input, invariant state → allowed state input)
    (preserves : ∀ state input, invariant state → invariant (step state input))
    (inputs : List Input) (holds : invariant state) : Along step allowed inputs state := by
  induction inputs generalizing state with
  | nil => trivial
  | cons input inputs induction =>
    exact ⟨implies state input holds, induction (preserves state input holds)⟩

variable {other : State → Input → Prop}

theorem Along.imp (invariant : State → Prop)
    (implies : ∀ state input, invariant state → allowed state input → other state input)
    (preserves : ∀ state input, invariant state → allowed state input →
      invariant (step state input)) (along : Along step allowed inputs state)
    (holds : invariant state) : Along step other inputs state := by
  induction inputs generalizing state with
  | nil => trivial
  | cons input inputs induction =>
    rcases along with ⟨isAllowed, later⟩
    exact ⟨implies state input holds isAllowed,
      induction later (preserves state input holds isAllowed)⟩

theorem along_congr (invariant : State → Prop)
    (same : ∀ state input, invariant state → (allowed state input ↔ other state input))
    (preserves : ∀ state input, invariant state → allowed state input →
      invariant (step state input)) (inputs : List Input) (holds : invariant state) :
    Along step allowed inputs state ↔ Along step other inputs state := by
  induction inputs generalizing state with
  | nil => exact Iff.rfl
  | cons input inputs induction =>
    rw [Along, Along, ← same state input holds]
    apply and_congr_right
    intro isAllowed
    exact induction (preserves state input holds isAllowed)

theorem along_congr_of_along {premise : State → Input → Prop} (invariant : State → Prop)
    (same : ∀ state input, invariant state → premise state input →
      (allowed state input ↔ other state input))
    (preserves : ∀ state input, invariant state → premise state input → allowed state input →
      invariant (step state input)) (meets : Along step premise inputs state)
    (holds : invariant state) :
    Along step allowed inputs state ↔ Along step other inputs state := by
  induction inputs generalizing state with
  | nil => exact Iff.rfl
  | cons input inputs induction =>
    rcases meets with ⟨isMet, later⟩
    rw [Along, Along, ← same state input holds isMet]
    apply and_congr_right
    intro isAllowed
    exact induction later (preserves state input holds isMet isAllowed)

theorem forall_reached_iff {property : State → Prop} (inputs : List Input)
    (holds : property state) :
    (∀ first, first <+: inputs → property (first.foldl step state)) ↔
      Along step (fun state input => property (step state input)) inputs state := by
  induction inputs generalizing state with
  | nil =>
    refine iff_of_true ?_ trivial
    intro first isFirst
    rw [List.prefix_nil.mp isFirst]
    exact holds
  | cons input inputs induction =>
    constructor
    · intro reached
      have next : property (step state input) := reached [input] ⟨inputs, rfl⟩
      refine ⟨next, (induction next).mp ?_⟩
      intro first isFirst
      exact reached (input :: first) (List.prefix_cons_inj input |>.mpr isFirst)
    · intro along first isFirst
      cases first with
      | nil => exact holds
      | cons other first =>
        rcases List.cons_prefix_cons.mp isFirst with ⟨rfl, rest⟩
        exact (induction along.1).mpr along.2 first rest

theorem foldl_passes {step : State → Input → State} {passes : State → Input → Prop}
    (next : ∀ state input other, input = other ∨ passes state input → passes (step state other) input)
    (inputs : List Input) (state : State) :
    ∀ input, input ∈ inputs ∨ passes state input → passes (inputs.foldl step state) input := by
  induction inputs generalizing state with
  | nil =>
    intro input reason
    exact reason.resolve_left List.not_mem_nil
  | cons first inputs induction =>
    intro input reason
    apply induction
    rw [List.mem_cons, or_assoc] at reason
    rcases reason with isFirst | later | passed
    · exact .inr (next state input first (.inl isFirst))
    · exact .inl later
    · exact .inr (next state input first (.inr passed))

theorem foldl_eq_self {step : State → Input → State}
    (idle : ∀ input ∈ inputs, step state input = state) : inputs.foldl step state = state := by
  induction inputs with
  | nil => rfl
  | cons first inputs induction =>
    rw [List.foldl_cons, idle first List.mem_cons_self]
    exact induction fun input member => idle input (List.mem_cons_of_mem _ member)

section Outputs

variable {Output : Type} {step : State → Input → State}

def outputs (step : State → Input → State) (output : State → Input → List Output) :
    List Input → State → List Output
  | [], _ => []
  | input :: inputs, state => output state input ++ outputs step output inputs (step state input)

/-- Where each step passes on what waits in the order in which it came, so does the run. -/
theorem outputs_conserved (waiting : State → List Output) {allowed : State → Input → Prop}
    (invariant : State → Prop) (preserves : ∀ state input, invariant state → allowed state input →
      invariant (step state input))
    (conserves : ∀ state input, invariant state → allowed state input →
      given state input ++ waiting (step state input) = waiting state ++ taken state input) :
    ∀ {inputs : List Input} {state : State}, Along step allowed inputs state → invariant state →
      outputs step given inputs state ++ waiting (inputs.foldl step state) =
        waiting state ++ outputs step taken inputs state
  | [], state, _, _ => (List.append_nil (waiting state)).symm
  | input :: inputs, state, ⟨isAllowed, along⟩, holds => by
    have rest := outputs_conserved waiting invariant preserves conserves along
      (preserves state input holds isAllowed)
    calc outputs step given (input :: inputs) state ++
          waiting ((input :: inputs).foldl step state)
        = given state input ++ (outputs step given inputs (step state input) ++
            waiting (inputs.foldl step (step state input))) := List.append_assoc _ _ _
      _ = (given state input ++ waiting (step state input)) ++
            outputs step taken inputs (step state input) := by
          rw [rest, List.append_assoc]
      _ = waiting state ++ outputs step taken (input :: inputs) state := by
          rw [conserves state input holds isAllowed, List.append_assoc]
          rfl

theorem outputs_invariant (property : List Output → State → Prop)
    (preserves : ∀ sofar state input, property sofar state →
      property (sofar ++ output state input) (step state input)) :
    ∀ (inputs : List Input) {sofar : List Output} {state : State}, property sofar state →
      property (sofar ++ outputs step output inputs state) (inputs.foldl step state)
  | [], sofar, state, holds => by
    rw [outputs, List.append_nil]
    exact holds
  | input :: inputs, sofar, state, holds => by
    have rest := outputs_invariant property preserves inputs (preserves sofar state input holds)
    rw [List.append_assoc] at rest
    exact rest

theorem outputs_filter (keep : Output → Bool) (inputs : List Input) (state : State) :
    (outputs step output inputs state).filter keep =
      outputs step (fun state input => (output state input).filter keep) inputs state := by
  induction inputs generalizing state with
  | nil => rfl
  | cons input inputs induction =>
    rw [outputs, List.filter_append, induction, outputs]

end Outputs

end QAExchange.Foundation
