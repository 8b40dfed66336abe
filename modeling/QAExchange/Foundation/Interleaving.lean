import Mathlib.Data.List.Basic
import Mathlib.Logic.Relation

/-! # Tasks that share a state

Calls of a service run side by side and share its state. Each call is a task
that is advanced in steps, and the schedule decides whose step comes next. A
`Pool` is the shared state with the tasks, and a schedule is a list of `Turn`s.
-/

namespace QAExchange.Foundation

structure Pool (Shared Task : Type) where
  shared : Shared
  tasks : List Task

inductive Turn (Call Input : Type)
  | call (call : Call)
  | step (input : Input) (index : ℕ)

/-- How calls become tasks and what one step of a task does. -/
structure Service (Shared Task Call Input : Type) where
  start : Call → Task
  advance : Input → Shared → Task → Task × Shared

namespace Service

variable {Shared Task Call Input : Type} (service : Service Shared Task Call Input)

/-- One turn; a turn of a task that is not there does nothing. -/
def next (pool : Pool Shared Task) : Turn Call Input → Pool Shared Task
  | .call call => ⟨pool.shared, pool.tasks ++ [service.start call]⟩
  | .step input index =>
    match pool.tasks[index]? with
    | none => pool
    | some task =>
      let moved := service.advance input pool.shared task
      ⟨moved.2, pool.tasks.set index moved.1⟩

def run (turns : List (Turn Call Input)) (pool : Pool Shared Task) : Pool Shared Task :=
  turns.foldl service.next pool

@[simp] theorem run_nil (pool : Pool Shared Task) : service.run [] pool = pool := rfl

@[simp] theorem run_cons (turn : Turn Call Input) (turns : List (Turn Call Input))
    (pool : Pool Shared Task) :
    service.run (turn :: turns) pool = service.run turns (service.next pool turn) := rfl

theorem run_append (first rest : List (Turn Call Input)) (pool : Pool Shared Task) :
    service.run (first ++ rest) pool = service.run rest (service.run first pool) :=
  List.foldl_append

def Obeys (allowed : Pool Shared Task → Turn Call Input → Prop) :
    List (Turn Call Input) → Pool Shared Task → Prop
  | [], _ => True
  | turn :: turns, pool => allowed pool turn ∧ Obeys allowed turns (service.next pool turn)

variable {allowed : Pool Shared Task → Turn Call Input → Prop} {pool : Pool Shared Task}

theorem obeys_append :
    service.Obeys allowed (first ++ rest) pool ↔
      service.Obeys allowed first pool ∧ service.Obeys allowed rest (service.run first pool) := by
  induction first generalizing pool with
  | nil => simp [Obeys]
  | cons turn first induction => simp [Obeys, induction, and_assoc]

theorem obeys_true (turns : List (Turn Call Input)) (pool : Pool Shared Task) :
    service.Obeys (fun _ _ => True) turns pool := by
  induction turns generalizing pool with
  | nil => trivial
  | cons turn turns induction => exact ⟨trivial, induction _⟩

theorem obeys_congr {other : Pool Shared Task → Turn Call Input → Prop}
    (invariant : Pool Shared Task → Prop)
    (same : ∀ pool turn, invariant pool → (allowed pool turn ↔ other pool turn))
    (preserves : ∀ pool turn, invariant pool → allowed pool turn →
      invariant (service.next pool turn)) (turns : List (Turn Call Input))
    (holds : invariant pool) :
    service.Obeys allowed turns pool ↔ service.Obeys other turns pool := by
  induction turns generalizing pool with
  | nil => exact Iff.rfl
  | cons turn turns induction =>
    rw [Obeys, Obeys, ← same pool turn holds]
    apply and_congr_right
    intro isAllowed
    exact induction (preserves pool turn holds isAllowed)

instance decidableObeys (allowed : Pool Shared Task → Turn Call Input → Prop)
    [∀ pool turn, Decidable (allowed pool turn)] :
    ∀ (turns : List (Turn Call Input)) (pool : Pool Shared Task),
      Decidable (service.Obeys allowed turns pool)
  | [], _ => .isTrue trivial
  | turn :: turns, pool =>
    have := decidableObeys allowed turns (service.next pool turn)
    inferInstanceAs (Decidable (allowed pool turn ∧ service.Obeys allowed turns
      (service.next pool turn)))

theorem next_cases (pool : Pool Shared Task) (turn : Turn Call Input) :
    (∃ call, turn = .call call ∧
      service.next pool turn = ⟨pool.shared, pool.tasks ++ [service.start call]⟩) ∨
    (∃ input index before task after, turn = .step input index ∧ before.length = index ∧
      pool.tasks = before ++ task :: after ∧ service.next pool turn =
        ⟨(service.advance input pool.shared task).2,
          before ++ (service.advance input pool.shared task).1 :: after⟩) ∨
    (∃ input index, turn = .step input index ∧ pool.tasks[index]? = none ∧
      service.next pool turn = pool) := by
  cases turn with
  | call call => exact .inl ⟨call, rfl, rfl⟩
  | step input index =>
    cases found : pool.tasks[index]? with
    | none => exact .inr (.inr ⟨input, index, rfl, found, by simp only [next, found]⟩)
    | some task =>
      rcases List.getElem?_eq_some_iff.mp found with ⟨inside, isTask⟩
      refine .inr (.inl ⟨input, index, pool.tasks.take index, task,
        pool.tasks.drop (index + 1), rfl, by simp; omega, ?_, ?_⟩)
      · rw [← isTask, List.getElem_cons_drop, List.take_append_drop]
      · simp only [next, found, List.set_eq_take_append_cons_drop, inside, if_true]

theorem next_last (shared : Shared) (tasks : List Task) (task : Task) (input : Input) :
    service.next ⟨shared, tasks ++ [task]⟩ (.step input tasks.length : Turn Call Input) =
      ⟨(service.advance input shared task).2,
        tasks ++ [(service.advance input shared task).1]⟩ := by
  simp [next]

/-- What new calls and allowed steps preserve holds after every schedule whose
turns are all allowed. -/
theorem run_preserves (invariant : Pool Shared Task → Prop) (call : ∀ pool call, invariant pool →
      invariant ⟨pool.shared, pool.tasks ++ [service.start call]⟩)
    (step : ∀ shared before task after input, invariant ⟨shared, before ++ task :: after⟩ →
      allowed ⟨shared, before ++ task :: after⟩ (.step input before.length) →
      invariant ⟨(service.advance input shared task).2,
        before ++ (service.advance input shared task).1 :: after⟩) :
    ∀ (turns : List (Turn Call Input)) (pool : Pool Shared Task),
      service.Obeys allowed turns pool → invariant pool → invariant (service.run turns pool)
  | [], _, _, holds => holds
  | turn :: turns, pool, ⟨isAllowed, obeys⟩, holds => by
    refine run_preserves invariant call step turns _ obeys ?_
    rcases service.next_cases pool turn with
      ⟨_, _, same⟩ | ⟨input, index, before, task, after, isStep, place, split, same⟩ | ⟨_, _, _, _, same⟩
    · rw [same]
      exact call pool _ holds
    · rw [same]
      rcases pool with ⟨shared, tasks⟩
      cases split
      subst isStep place
      exact step shared before task after input holds isAllowed
    · rwa [same]

theorem run_invariant (invariant : Pool Shared Task → Prop) (call : ∀ pool call, invariant pool →
      invariant ⟨pool.shared, pool.tasks ++ [service.start call]⟩)
    (step : ∀ shared before task after input, invariant ⟨shared, before ++ task :: after⟩ →
      invariant ⟨(service.advance input shared task).2,
        before ++ (service.advance input shared task).1 :: after⟩) (turns : List (Turn Call Input))
    (holds : invariant pool) : invariant (service.run turns pool) := by
  exact service.run_preserves invariant call (fun _ _ _ _ _ before _ => step _ _ _ _ _ before) turns
    pool (service.obeys_true turns pool) holds

def Solo : Task × Shared → Task × Shared → Prop :=
  Relation.ReflTransGen fun before after => ∃ input, after = service.advance input before.2 before.1

variable {last : Task × Shared}

theorem Solo.head (input : Input) (rest : service.Solo (service.advance input shared task) last) :
    service.Solo (task, shared) last :=
  Relation.ReflTransGen.head ⟨input, rfl⟩ rest

theorem Solo.preserves (invariant : Task × Shared → Prop)
    (step : ∀ input task shared, invariant (task, shared) →
      invariant (service.advance input shared task)) (solo : service.Solo first last)
    (holds : invariant first) : invariant last := by
  induction solo with
  | refl => exact holds
  | tail _ moved induction =>
    rcases moved with ⟨input, same⟩
    rw [same]
    exact step input _ _ induction

theorem Solo.exists_run (solo : service.Solo first last) (before after : List Task) :
    ∃ turns : List (Turn Call Input),
      service.run turns ⟨first.2, before ++ first.1 :: after⟩ =
        ⟨last.2, before ++ last.1 :: after⟩ := by
  induction solo using Relation.ReflTransGen.head_induction_on with
  | refl => exact ⟨[], rfl⟩
  | @head first middle moved _ induction =>
    rcases moved with ⟨input, same⟩
    rcases induction with ⟨turns, ran⟩
    refine ⟨.step input before.length :: turns, ?_⟩
    rw [run_cons, ← ran, same]
    congr 1
    simp [next]

end Service

end QAExchange.Foundation
