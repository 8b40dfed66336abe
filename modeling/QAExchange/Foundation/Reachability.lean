import Mathlib.Algebra.BigOperators.Group.List.Basic
import Mathlib.Algebra.GroupWithZero.Nat
import Mathlib.Algebra.Order.Group.Nat

/-! # Breadth-first search

A queue of vertices and the vertices that were visited. A vertex that is visited for
the first time puts its successors at the end of the queue.
-/

namespace QAExchange.Foundation

structure Search (Vertex : Type) where
  queue : List Vertex
  visited : List Vertex

namespace Search

variable {Vertex : Type} [DecidableEq Vertex]

def visit (successors : Vertex → List Vertex) (search : Search Vertex) : Search Vertex :=
  match search.queue with
  | [] => search
  | vertex :: queue =>
    if vertex ∈ search.visited then ⟨queue, search.visited⟩
    else ⟨queue ++ successors vertex, search.visited ++ [vertex]⟩

def loop (successors : Vertex → List Vertex) : ℕ → Search Vertex → Search Vertex
  | 0, search => search
  | rounds + 1, search => loop successors rounds (search.visit successors)

def openSuccessors (vertices : List Vertex) (successors : Vertex → List Vertex)
    (visited : List Vertex) : ℕ :=
  ((vertices.filter (· ∉ visited)).map fun vertex => (successors vertex).length).sum

variable {vertices : List Vertex} {successors : Vertex → List Vertex}

theorem openSuccessors_cons (first : Vertex) (visited : List Vertex) :
    openSuccessors (first :: vertices) successors visited =
      (if first ∈ visited then 0 else (successors first).length) +
        openSuccessors vertices successors visited := by
  unfold openSuccessors
  split_ifs with old
  · rw [List.filter_cons_of_neg (by simp [old]), Nat.zero_add]
  · rw [List.filter_cons_of_pos (by simp [old]), List.map_cons, List.sum_cons]

theorem openSuccessors_concat_le (vertices : List Vertex) (successors : Vertex → List Vertex)
    (visited : List Vertex) (vertex : Vertex) :
    openSuccessors vertices successors (visited ++ [vertex]) ≤
      openSuccessors vertices successors visited := by
  induction vertices with
  | nil => exact le_rfl
  | cons first rest induction =>
    rw [openSuccessors_cons, openSuccessors_cons]
    by_cases old : first ∈ visited
    · rw [if_pos old, if_pos (List.mem_append_left _ old)]
      omega
    · rw [if_neg old]
      split_ifs <;> omega

theorem openSuccessors_concat_add_le {visited : List Vertex} {vertex : Vertex}
    (isVertex : vertex ∈ vertices) (isNew : vertex ∉ visited) :
    openSuccessors vertices successors (visited ++ [vertex]) + (successors vertex).length ≤
      openSuccessors vertices successors visited := by
  induction vertices with
  | nil => exact absurd isVertex List.not_mem_nil
  | cons first rest induction =>
    rw [openSuccessors_cons, openSuccessors_cons]
    have fewer := openSuccessors_concat_le rest successors visited vertex
    by_cases same : first = vertex
    · rw [same, if_neg isNew, if_pos (List.mem_append_right _ List.mem_cons_self)]
      omega
    · have inRest := induction ((List.mem_cons.mp isVertex).resolve_left (Ne.symm same))
      by_cases old : first ∈ visited
      · rw [if_pos old, if_pos (List.mem_append_left _ old)]
        omega
      · rw [if_neg old]
        split_ifs <;> omega

/-- What holds before each round of a search from the vertices of `start`. -/
structure Invariant (successors : Vertex → List Vertex) (start : List Vertex)
    (search : Search Vertex) : Prop where
  started : ∀ vertex ∈ start, vertex ∈ search.visited ++ search.queue
  closed : ∀ vertex ∈ search.visited, ∀ next ∈ successors vertex,
    next ∈ search.visited ++ search.queue
  reached : ∀ vertex ∈ search.visited ++ search.queue, ∃ first ∈ start,
    Relation.ReflTransGen (fun vertex next => next ∈ successors vertex) first vertex

variable {start : List Vertex} {search : Search Vertex}

theorem Invariant.visit (invariant : Invariant successors start search) :
    Invariant successors start (search.visit successors) := by
  rcases search with ⟨_ | ⟨first, queue⟩, visited⟩
  · exact invariant
  · rcases invariant with ⟨started, closed, reached⟩
    simp only [List.mem_append, List.mem_cons] at started closed reached
    simp only [Search.visit]
    split_ifs with old
    · constructor <;> simp only [List.mem_append]
      · intro vertex isStart
        rcases started vertex isStart with isVisited | rfl | waits
        · exact .inl isVisited
        · exact .inl old
        · exact .inr waits
      · intro vertex isVisited next isNext
        rcases closed vertex isVisited next isNext with isVisited | rfl | waits
        · exact .inl isVisited
        · exact .inl old
        · exact .inr waits
      · intro vertex known
        exact reached vertex (known.imp_right .inr)
    · constructor <;> simp only [List.mem_append, List.mem_singleton]
      · intro vertex isStart
        rcases started vertex isStart with isVisited | isFirst | waits
        · exact .inl (.inl isVisited)
        · exact .inl (.inr isFirst)
        · exact .inr (.inl waits)
      · intro vertex isVisited next isNext
        rcases isVisited with isVisited | rfl
        · rcases closed vertex isVisited next isNext with isVisited | isFirst | waits
          · exact .inl (.inl isVisited)
          · exact .inl (.inr isFirst)
          · exact .inr (.inl waits)
        · exact .inr (.inr isNext)
      · intro vertex known
        rcases known with (isVisited | isFirst) | waits | isNext
        · exact reached vertex (.inl isVisited)
        · exact reached vertex (.inr (.inl isFirst))
        · exact reached vertex (.inr (.inr waits))
        · rcases reached first (.inr (.inl rfl)) with ⟨origin, isOrigin, chain⟩
          exact ⟨origin, isOrigin, chain.tail isNext⟩

variable {rounds : ℕ}

section

variable (outside : ∀ vertex ∉ vertices, successors vertex = [])
include outside

theorem visit_shrinks
    (enough : search.queue.length + openSuccessors vertices successors search.visited ≤
      rounds + 1) : (search.visit successors).queue.length +
      openSuccessors vertices successors (search.visit successors).visited ≤ rounds ∨
      (search.visit successors).queue = [] := by
  rcases search with ⟨_ | ⟨first, queue⟩, visited⟩
  · exact .inr rfl
  · simp only [Search.visit]
    dsimp only at enough
    rw [List.length_cons] at enough
    left
    split_ifs with old
    · dsimp only
      omega
    · dsimp only
      rw [List.length_append]
      by_cases isVertex : first ∈ vertices
      · have fewer : openSuccessors vertices successors (visited ++ [first]) +
            (successors first).length ≤ openSuccessors vertices successors visited :=
          openSuccessors_concat_add_le isVertex old
        omega
      · have fewer := openSuccessors_concat_le vertices successors visited first
        rw [outside first isVertex, List.length_nil]
        omega

theorem Invariant.loop (invariant : Invariant successors start search)
    (enough : search.queue.length + openSuccessors vertices successors search.visited ≤ rounds ∨
      search.queue = []) :
    Invariant successors start (Search.loop successors rounds search) ∧
      (Search.loop successors rounds search).queue = [] := by
  induction rounds generalizing search with
  | zero =>
    refine ⟨invariant, ?_⟩
    rcases enough with few | empty
    · have none : search.queue.length = 0 := by omega
      exact List.length_eq_zero_iff.mp none
    · exact empty
  | succ rounds induction =>
    apply induction invariant.visit
    rcases enough with few | empty
    · exact visit_shrinks outside few
    · have same : search.visit successors = search := by simp only [Search.visit, empty]
      rw [same]
      exact .inr empty

/-- The search visits exactly the vertices that can be reached from the start. -/
theorem mem_visited_iff
    (enough : start.length + ((vertices.map fun vertex => (successors vertex).length).sum) ≤ rounds)
    (vertex : Vertex) :
    vertex ∈ (loop successors rounds ⟨start, []⟩).visited ↔ ∃ first ∈ start,
      Relation.ReflTransGen (fun vertex next => next ∈ successors vertex) first vertex := by
  have initial : Invariant successors start ⟨start, []⟩ := by
    refine ⟨fun _ member => member, fun _ member => absurd member List.not_mem_nil, ?_⟩
    intro vertex member
    exact ⟨vertex, member, .refl⟩
  have few : start.length + openSuccessors vertices successors [] ≤ rounds := by
    simpa [openSuccessors] using enough
  rcases initial.loop outside (.inl few) with ⟨invariant, empty⟩
  generalize loop successors rounds ⟨start, []⟩ = final at invariant empty
  rcases invariant with ⟨started, closed, reached⟩
  rw [empty, List.append_nil] at started closed reached
  constructor
  · exact reached vertex
  · intro chain
    rcases chain with ⟨first, isStart, chain⟩
    induction chain with
    | refl => exact started first isStart
    | tail _ isNext induction => exact closed _ induction _ isNext

end

end Search

end QAExchange.Foundation
