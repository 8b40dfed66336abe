import Mathlib.Data.List.Nodup
import Mathlib.Order.Bounds.Basic

/-! # Orders of a dependency graph

Every vertex has a list of the vertices that it depends on. An order of the
vertices is topological when each of them comes after its dependencies, and the
height of a vertex is the length of its longest chain of dependencies.
-/

namespace QAExchange.Foundation

variable {Vertex : Type}

/-- Each vertex comes after its dependencies, which are before it in the list or in `seen`. -/
def Topological (dependencies : Vertex → List Vertex) : List Vertex → List Vertex → Prop
  | _, [] => True
  | seen, vertex :: rest =>
    (∀ dependency ∈ dependencies vertex, dependency ∈ seen) ∧
      Topological dependencies (seen ++ [vertex]) rest

instance decidableTopological [DecidableEq Vertex] (dependencies : Vertex → List Vertex) :
    ∀ seen order : List Vertex, Decidable (Topological dependencies seen order)
  | _, [] => .isTrue trivial
  | seen, vertex :: rest =>
    have := decidableTopological dependencies (seen ++ [vertex]) rest
    inferInstanceAs (Decidable ((∀ dependency ∈ dependencies vertex, dependency ∈ seen) ∧
      Topological dependencies (seen ++ [vertex]) rest))

inductive Descends (dependencies : Vertex → List Vertex) : Vertex → ℕ → Prop
  | here (vertex : Vertex) : Descends dependencies vertex 0
  | down {vertex dependency : Vertex} {length : ℕ}
      (isDependency : dependency ∈ dependencies vertex)
      (rest : Descends dependencies dependency length) :
      Descends dependencies vertex (length + 1)

def LongestChain (dependencies : Vertex → List Vertex) (vertex : Vertex) (length : ℕ) : Prop :=
  IsGreatest {length | Descends dependencies vertex length} length

variable {dependencies : Vertex → List Vertex}

variable {seen : List Vertex}

theorem topological_append :
    Topological dependencies seen (first ++ second) ↔
      Topological dependencies seen first ∧ Topological dependencies (seen ++ first) second := by
  induction first generalizing seen with
  | nil => simp [Topological]
  | cons vertex first induction =>
    rw [List.cons_append, Topological, Topological, induction, and_assoc, List.append_assoc,
      List.singleton_append]

variable {order : List Vertex}

theorem Topological.congr (same : ∀ vertex ∈ order, other vertex = dependencies vertex)
    (holds : Topological dependencies seen order) : Topological other seen order := by
  induction order generalizing seen with
  | nil => trivial
  | cons vertex rest induction =>
    constructor
    · rw [same vertex List.mem_cons_self]
      exact holds.1
    · apply induction
      · intro later member
        exact same later (List.mem_cons_of_mem _ member)
      · exact holds.2

theorem Topological.forall_of_closed (property : Vertex → Prop)
    (holds : Topological dependencies seen order) (start : ∀ vertex ∈ seen, property vertex)
    (step : ∀ vertex ∈ order, (∀ dependency ∈ dependencies vertex, property dependency) →
      property vertex) : ∀ vertex ∈ order, property vertex := by
  induction order generalizing seen with
  | nil =>
    intro vertex member
    exact absurd member List.not_mem_nil
  | cons first rest induction =>
    have ofFirst : property first := by
      apply step first List.mem_cons_self
      intro dependency isDependency
      exact start dependency (holds.1 dependency isDependency)
    have ofRest : ∀ vertex ∈ rest, property vertex := by
      apply induction holds.2
      · intro vertex member
        rcases List.mem_append.mp member with old | new
        · exact start vertex old
        · rw [List.mem_singleton.mp new]
          exact ofFirst
      · intro vertex member
        exact step vertex (List.mem_cons_of_mem _ member)
    intro vertex member
    rcases List.mem_cons.mp member with same | member
    · rw [same]
      exact ofFirst
    · exact ofRest vertex member

theorem Topological.dependency_mem (holds : Topological dependencies seen order)
    (member : vertex ∈ order) (isDependency : dependency ∈ dependencies vertex) :
    dependency ∈ seen ++ order := by
  induction order generalizing seen with
  | nil => exact absurd member List.not_mem_nil
  | cons first rest induction =>
    rcases List.mem_cons.mp member with rfl | member
    · exact List.mem_append_left _ (holds.1 dependency isDependency)
    · have inside := induction holds.2 member
      rwa [List.append_assoc, List.singleton_append] at inside

theorem Descends.le_of_height {height : Vertex → ℕ} (holds : Topological dependencies [] order)
    (above : ∀ vertex ∈ order, ∀ dependency ∈ dependencies vertex,
      height dependency + 1 ≤ height vertex) {vertex : Vertex} {length : ℕ}
    (descends : Descends dependencies vertex length) (member : vertex ∈ order) :
    length ≤ height vertex := by
  induction descends with
  | here => exact Nat.zero_le _
  | @down vertex dependency length isDependency _ induction =>
    have inside : dependency ∈ order := holds.dependency_mem member isDependency
    have shorter := induction inside
    have step := above vertex member dependency isDependency
    omega

/-- A height that is one more than the greatest of the dependencies is the length of
the longest chain. -/
theorem Topological.longestChain {height : Vertex → ℕ} (holds : Topological dependencies [] order)
    (above : ∀ vertex ∈ order, ∀ dependency ∈ dependencies vertex,
      height dependency + 1 ≤ height vertex) (reached : ∀ vertex ∈ order, height vertex = 0 ∨
      ∃ dependency ∈ dependencies vertex, height vertex = height dependency + 1) :
    ∀ vertex ∈ order, LongestChain dependencies vertex (height vertex) := by
  have descends : ∀ vertex ∈ order, Descends dependencies vertex (height vertex) := by
    apply holds.forall_of_closed fun vertex => Descends dependencies vertex (height vertex)
    · intro vertex member
      exact absurd member List.not_mem_nil
    · intro vertex member ofDependencies
      rcases reached vertex member with zero | ⟨dependency, isDependency, next⟩
      · rw [zero]
        exact .here vertex
      · rw [next]
        exact .down isDependency (ofDependencies dependency isDependency)
  intro vertex member
  constructor
  · exact descends vertex member
  · intro length chain
    exact Descends.le_of_height holds above chain member

namespace LongestChain

variable {vertex : Vertex} {length : ℕ}

theorem unique (left : LongestChain dependencies vertex length)
    (right : LongestChain dependencies vertex other) : length = other :=
  IsGreatest.unique left right

theorem zero_iff : LongestChain dependencies vertex 0 ↔ dependencies vertex = [] := by
  constructor
  · intro longest
    rw [List.eq_nil_iff_forall_not_mem]
    intro dependency isDependency
    have tooLong := longest.2 (Descends.down isDependency (.here dependency))
    omega
  · intro none
    constructor
    · exact Descends.here vertex
    · intro length chain
      cases chain with
      | here => exact le_rfl
      | down isDependency _ =>
        rw [none] at isDependency
        exact absurd isDependency List.not_mem_nil

theorem exists_dependency (longest : LongestChain dependencies vertex (length + 1)) :
    ∃ dependency ∈ dependencies vertex, LongestChain dependencies dependency length := by
  cases longest.1 with
  | @down _ dependency _ isDependency rest =>
    refine ⟨dependency, isDependency, rest, ?_⟩
    intro other chain
    have bounded := longest.2 (Descends.down isDependency chain)
    omega

theorem lt_of_dependency (longest : LongestChain dependencies vertex length)
    (shorter : LongestChain dependencies dependency other)
    (isDependency : dependency ∈ dependencies vertex) : other < length :=
  longest.2 (Descends.down isDependency shorter.1)

end LongestChain

end QAExchange.Foundation
