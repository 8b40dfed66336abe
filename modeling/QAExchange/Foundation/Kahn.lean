import Mathlib.Data.List.Count
import Mathlib.Data.List.Perm.Subperm
import QAExchange.Foundation.DependencyOrder

/-! # Kahn's algorithm

The vertices with no open dependencies wait in a queue. Each one that is taken
from it closes a dependency of its successors and makes them one deeper than itself.
-/

namespace QAExchange.Foundation

structure Kahn (Vertex : Type) where
  queue : List Vertex
  inDegree : Vertex → Option ℕ
  depth : Vertex → Option ℕ
  result : List Vertex

namespace Kahn

variable {Vertex : Type} [DecidableEq Vertex]

def relax (currentDepth : ℕ) (state : Kahn Vertex) (vertex : Vertex) : Kahn Vertex :=
  match state.inDegree vertex with
  | none => state
  | some degree => {
      queue := if degree - 1 = 0 then state.queue ++ [vertex] else state.queue
      inDegree := Function.update state.inDegree vertex (some (degree - 1))
      depth := Function.update state.depth vertex (some (currentDepth + 1))
      result := state.result }

def height (state : Kahn Vertex) (vertex : Vertex) : ℕ := (state.depth vertex).getD 0

def visit (graph : Vertex → Option (List Vertex)) (state : Kahn Vertex) : Kahn Vertex :=
  match state.queue with
  | [] => state
  | vertex :: queue =>
    ((graph vertex).getD []).foldl (relax (state.height vertex))
      { state with queue := queue, result := state.result ++ [vertex] }

def loop (graph : Vertex → Option (List Vertex)) : ℕ → Kahn Vertex → Kahn Vertex
  | 0, state => state
  | rounds + 1, state => loop graph rounds (state.visit graph)

structure Relaxed (currentDepth : ℕ) (successors : List Vertex) (before after : Kahn Vertex)
    (opened : List Vertex) : Prop where
  result : after.result = before.result
  queue : after.queue = before.queue ++ opened
  inDegree : ∀ vertex, after.inDegree vertex =
    (before.inDegree vertex).map (· - successors.count vertex)
  depth : ∀ vertex, after.depth vertex =
    if vertex ∈ successors then some (currentDepth + 1) else before.depth vertex
  distinct : opened.Nodup
  mem_opened : ∀ vertex, vertex ∈ opened ↔
    vertex ∈ successors ∧ before.inDegree vertex = some (successors.count vertex)

theorem foldl_relax (currentDepth : ℕ) (successors : List Vertex) (state : Kahn Vertex)
    (enough : ∀ vertex ∈ successors, ∃ degree, state.inDegree vertex = some degree ∧
      successors.count vertex ≤ degree) :
    ∃ opened, Relaxed currentDepth successors state
      (successors.foldl (relax currentDepth) state) opened := by
  induction successors generalizing state with
  | nil =>
    refine ⟨[], rfl, by simp, ?_, ?_, List.nodup_nil, ?_⟩
    · intro vertex
      simp
    · intro vertex
      simp
    · intro vertex
      simp
  | cons first successors induction =>
    rcases enough first List.mem_cons_self with ⟨degree, isDegree, atLeast⟩
    rw [List.count_cons_self] at atLeast
    have degreeOf : ∀ vertex, (state.relax currentDepth first).inDegree vertex =
        if vertex = first then some (degree - 1) else state.inDegree vertex := by
      intro vertex
      simp only [relax, isDegree, Function.update_apply]
    have enoughLeft : ∀ vertex ∈ successors, ∃ degree,
        (state.relax currentDepth first).inDegree vertex = some degree ∧
          successors.count vertex ≤ degree := by
      intro vertex member
      rw [degreeOf]
      split_ifs with same
      · rw [same]
        exact ⟨degree - 1, rfl, by omega⟩
      · rcases enough vertex (List.mem_cons_of_mem _ member) with ⟨degree, found, most⟩
        rw [List.count_cons_of_ne fun equal => same equal.symm] at most
        exact ⟨degree, found, most⟩
    rcases induction _ enoughLeft with ⟨opened, relaxed⟩
    rw [List.foldl_cons]
    refine ⟨(if degree - 1 = 0 then [first] else []) ++ opened, ?_, ?_, ?_, ?_, ?_, ?_⟩
    · rw [relaxed.result]
      simp only [relax, isDegree]
    · rw [relaxed.queue]
      simp only [relax, isDegree]
      split_ifs <;> simp
    · intro vertex
      rw [relaxed.inDegree, degreeOf]
      split_ifs with same
      · rw [same, isDegree, Option.map_some, Option.map_some, List.count_cons_self]
        congr 1
        omega
      · rw [List.count_cons_of_ne fun equal => same equal.symm]
    · intro vertex
      rw [relaxed.depth]
      simp only [relax, isDegree, Function.update_apply, List.mem_cons]
      split_ifs <;> simp_all
    · rw [List.nodup_append]
      refine ⟨by split_ifs <;> simp, relaxed.distinct, ?_⟩
      intro vertex isFirst other isOpened
      split_ifs at isFirst with last
      · rw [List.mem_singleton] at isFirst
        have inside := ((relaxed.mem_opened other).mp isOpened).1
        intro same
        rw [← same, isFirst] at inside
        have positive := List.count_pos_iff.mpr inside
        omega
      · exact absurd isFirst List.not_mem_nil
    · intro vertex
      rw [List.mem_append, relaxed.mem_opened, degreeOf]
      by_cases same : vertex = first
      · rw [same, if_pos rfl, isDegree, List.count_cons_self, Option.some_inj, Option.some_inj]
        split_ifs with last
        · simp
          omega
        · simp
          by_cases inside : first ∈ successors
          · simp [inside]
            omega
          · have absent := List.count_eq_zero.mpr inside
            simp [inside]
            omega
      · rw [if_neg same, List.count_cons_of_ne fun equal => same equal.symm]
        split_ifs <;> simp [same]

/-! ## The loop -/

def openDependencies (dependencies : Vertex → List Vertex) (taken : List Vertex)
    (vertex : Vertex) : ℕ :=
  (dependencies vertex).countP (· ∉ taken)

variable {dependencies : Vertex → List Vertex}

theorem openDependencies_eq_zero :
    openDependencies dependencies taken vertex = 0 ↔
      ∀ dependency ∈ dependencies vertex, dependency ∈ taken := by
  simp [openDependencies, List.countP_eq_zero]

theorem openDependencies_concat (isNew : next ∉ taken) (vertex : Vertex) :
    openDependencies dependencies taken vertex =
      openDependencies dependencies (taken ++ [next]) vertex +
        (dependencies vertex).count next := by
  unfold openDependencies
  induction dependencies vertex with
  | nil => rfl
  | cons dependency others induction =>
    rw [List.countP_cons, List.countP_cons, List.count_cons, induction]
    by_cases same : dependency = next
    · simp [same, isNew]
      omega
    · simp [same]
      omega

/-- The successors of a vertex are the vertices that depend on it, each as often as it does. -/
def Reverses (vertices : List Vertex) (dependencies : Vertex → List Vertex)
    (graph : Vertex → Option (List Vertex)) : Prop :=
  ∀ vertex successor, ((graph vertex).getD []).count successor =
    if successor ∈ vertices then (dependencies successor).count vertex else 0

/-- What holds before each round. -/
structure Invariant (vertices : List Vertex) (dependencies : Vertex → List Vertex)
    (state : Kahn Vertex) : Prop where
  distinct : (state.result ++ state.queue).Nodup
  isVertex : ∀ vertex ∈ state.result ++ state.queue, vertex ∈ vertices
  inDegree : ∀ vertex, state.inDegree vertex =
    if vertex ∈ vertices then some (openDependencies dependencies state.result vertex) else none
  ready : ∀ vertex ∈ vertices, vertex ∈ state.result ++ state.queue ↔
    openDependencies dependencies state.result vertex = 0
  ordered : Topological dependencies [] state.result
  above : ∀ vertex ∈ vertices, ∀ dependency ∈ dependencies vertex, dependency ∈ state.result →
    state.height dependency + 1 ≤ state.height vertex
  reached : ∀ vertex ∈ vertices, (state.depth vertex = none ∧
      ∀ dependency ∈ dependencies vertex, dependency ∉ state.result) ∨
    ∃ dependency ∈ dependencies vertex, dependency ∈ state.result ∧
      state.depth vertex = some (state.height dependency + 1)
  monotone : (state.result ++ state.queue).Pairwise
    fun earlier later => state.height earlier ≤ state.height later
  near : ∀ head ∈ state.queue.head?, ∀ vertex ∈ state.queue,
    state.height vertex ≤ state.height head + 1

/-- What one round with the vertex `next` changes. -/
structure Visited (vertices : List Vertex) (dependencies : Vertex → List Vertex)
    (before after : Kahn Vertex) (next : Vertex) (queue opened : List Vertex) : Prop where
  wasQueue : before.queue = next :: queue
  result : after.result = before.result ++ [next]
  isQueue : after.queue = queue ++ opened
  inDegree : ∀ vertex, after.inDegree vertex =
    if vertex ∈ vertices then some (openDependencies dependencies after.result vertex) else none
  depth : ∀ vertex ∈ vertices, after.depth vertex =
    if next ∈ dependencies vertex then some (before.height next + 1) else before.depth vertex
  distinct : opened.Nodup
  mem_opened : ∀ vertex, vertex ∈ opened ↔ vertex ∈ vertices ∧ next ∈ dependencies vertex ∧
    openDependencies dependencies after.result vertex = 0

variable {vertices : List Vertex}

variable {state : Kahn Vertex}

theorem Invariant.exists_visited {next : Vertex} {queue : List Vertex}
    (invariant : Invariant vertices dependencies state)
    (reverses : Reverses vertices dependencies graph) (wasQueue : state.queue = next :: queue) :
    ∃ opened, Visited vertices dependencies state (state.visit graph) next queue opened := by
  have isNew : next ∉ state.result := by
    have distinct := invariant.distinct
    rw [wasQueue] at distinct
    intro member
    exact (List.nodup_append.mp distinct).2.2 next member next List.mem_cons_self rfl
  have mem_successors : ∀ vertex, vertex ∈ (graph next).getD [] ↔
      vertex ∈ vertices ∧ next ∈ dependencies vertex := by
    intro vertex
    rw [← List.count_pos_iff, reverses next vertex, ← List.count_pos_iff (a := next)]
    split_ifs with isVertex <;> simp [isVertex]
  have enough : ∀ vertex ∈ (graph next).getD [], ∃ degree, state.inDegree vertex = some degree ∧
      ((graph next).getD []).count vertex ≤ degree := by
    intro vertex member
    have isVertex := ((mem_successors vertex).mp member).1
    refine ⟨_, (invariant.inDegree vertex).trans (if_pos isVertex), ?_⟩
    rw [reverses next vertex, if_pos isVertex, openDependencies_concat isNew]
    omega
  rcases foldl_relax (state.height next) ((graph next).getD [])
    { state with queue := queue, result := state.result ++ [next] } enough with ⟨opened, relaxed⟩
  have visited : state.visit graph = ((graph next).getD []).foldl (relax (state.height next))
      { state with queue := queue, result := state.result ++ [next] } := by
    simp only [visit, wasQueue]
  rw [← visited] at relaxed
  have result : (state.visit graph).result = state.result ++ [next] := relaxed.result
  refine ⟨opened, wasQueue, result, relaxed.queue, ?_, ?_, relaxed.distinct, ?_⟩
  · intro vertex
    rw [relaxed.inDegree, invariant.inDegree, reverses, result]
    split_ifs
    · rw [openDependencies_concat isNew, Option.map_some, Nat.add_sub_cancel]
    · rfl
  · intro vertex isVertex
    rw [relaxed.depth]
    simp only [mem_successors, isVertex, true_and]
  · intro vertex
    rw [relaxed.mem_opened, mem_successors, invariant.inDegree, reverses, result,
      and_assoc]
    apply and_congr_right
    intro isVertex
    apply and_congr_right
    intro _
    rw [if_pos isVertex, if_pos isVertex, openDependencies_concat isNew, Option.some_inj]
    omega

namespace Visited

variable {before after : Kahn Vertex} {next : Vertex} {queue opened : List Vertex}

variable {vertex : Vertex}

section

variable (visited : Visited vertices dependencies before after next queue opened)
include visited

theorem next_not_mem (invariant : Invariant vertices dependencies before)
    (known : vertex ∈ before.result ++ before.queue) : next ∉ dependencies vertex := by
  intro isDependency
  have closed := (invariant.ready vertex (invariant.isVertex vertex known)).mp known
  have taken := openDependencies_eq_zero.mp closed next isDependency
  have distinct := invariant.distinct
  rw [visited.wasQueue] at distinct
  exact (List.nodup_append.mp distinct).2.2 next taken next List.mem_cons_self rfl

theorem height_old (invariant : Invariant vertices dependencies before)
    (known : vertex ∈ before.result ++ before.queue) :
    after.height vertex = before.height vertex := by
  rw [height, height, visited.depth vertex (invariant.isVertex vertex known),
    if_neg (visited.next_not_mem invariant known)]

theorem height_opened (isOpened : vertex ∈ opened) :
    after.height vertex = before.height next + 1 := by
  rcases (visited.mem_opened vertex).mp isOpened with ⟨isVertex, isDependency, _⟩
  rw [height, visited.depth vertex isVertex, if_pos isDependency, Option.getD_some]

theorem all_eq : after.result ++ after.queue = before.result ++ before.queue ++ opened := by
  rw [visited.result, visited.isQueue, visited.wasQueue]
  simp

theorem next_mem : next ∈ before.result ++ before.queue := by
  rw [visited.wasQueue]
  simp

theorem isNew (invariant : Invariant vertices dependencies before) : next ∉ before.result := by
  have distinct := invariant.distinct
  rw [visited.wasQueue] at distinct
  intro member
  exact (List.nodup_append.mp distinct).2.2 next member next List.mem_cons_self rfl

theorem height_le_next (invariant : Invariant vertices dependencies before)
    (taken : vertex ∈ after.result) : before.height vertex ≤ before.height next := by
  have monotone := invariant.monotone
  rw [visited.wasQueue, List.pairwise_append] at monotone
  rw [visited.result] at taken
  rcases List.mem_append.mp taken with old | new
  · exact monotone.2.2 vertex old next List.mem_cons_self
  · rw [List.mem_singleton.mp new]

theorem height_le_opened (invariant : Invariant vertices dependencies before)
    (known : vertex ∈ before.result ++ before.queue) :
    before.height vertex ≤ before.height next + 1 := by
  rcases List.mem_append.mp known with taken | waits
  · have below : vertex ∈ after.result := by
      rw [visited.result]
      exact List.mem_append_left _ taken
    exact (visited.height_le_next invariant below).trans (Nat.le_succ _)
  · apply invariant.near next _ vertex waits
    rw [visited.wasQueue]
    rfl

theorem ready (invariant : Invariant vertices dependencies before) (isVertex : vertex ∈ vertices) :
    vertex ∈ after.result ++ after.queue ↔
      openDependencies dependencies after.result vertex = 0 := by
  have counted : openDependencies dependencies before.result vertex =
      openDependencies dependencies after.result vertex + (dependencies vertex).count next := by
    rw [visited.result]
    exact openDependencies_concat (visited.isNew invariant) vertex
  rw [visited.all_eq, List.mem_append, invariant.ready vertex isVertex, visited.mem_opened,
    ← List.count_pos_iff (a := next)]
  constructor
  · intro known
    rcases known with closed | ⟨_, _, closed⟩
    · omega
    · exact closed
  · intro closed
    by_cases none : (dependencies vertex).count next = 0
    · exact .inl (by omega)
    · exact .inr ⟨isVertex, by omega, closed⟩

theorem above (invariant : Invariant vertices dependencies before) (isVertex : vertex ∈ vertices)
    (isDependency : dependency ∈ dependencies vertex) (taken : dependency ∈ after.result) :
    after.height dependency + 1 ≤ after.height vertex := by
  have known : dependency ∈ before.result ++ before.queue := by
    rw [visited.result] at taken
    rcases List.mem_append.mp taken with old | new
    · exact List.mem_append_left _ old
    · rw [List.mem_singleton.mp new]
      exact visited.next_mem
  rw [visited.height_old invariant known]
  by_cases deeper : next ∈ dependencies vertex
  · have smaller := visited.height_le_next invariant taken
    rw [height.eq_def after vertex, visited.depth vertex isVertex, if_pos deeper,
      Option.getD_some]
    omega
  · have old : dependency ∈ before.result := by
      rw [visited.result] at taken
      rcases List.mem_append.mp taken with old | new
      · exact old
      · rw [List.mem_singleton.mp new] at isDependency
        exact absurd isDependency deeper
    rw [height.eq_def after vertex, visited.depth vertex isVertex, if_neg deeper]
    exact invariant.above vertex isVertex dependency isDependency old

theorem reached (invariant : Invariant vertices dependencies before)
    (isVertex : vertex ∈ vertices) : (after.depth vertex = none ∧
      ∀ dependency ∈ dependencies vertex, dependency ∉ after.result) ∨
    ∃ dependency ∈ dependencies vertex, dependency ∈ after.result ∧
      after.depth vertex = some (after.height dependency + 1) := by
  rw [visited.depth vertex isVertex]
  split_ifs with deeper
  · refine .inr ⟨next, deeper, ?_, ?_⟩
    · rw [visited.result]
      exact List.mem_append_right _ List.mem_cons_self
    · rw [visited.height_old invariant visited.next_mem]
  · rcases invariant.reached vertex isVertex with ⟨none, untaken⟩ | ⟨dependency, isDependency, taken, isDepth⟩
    · refine .inl ⟨none, ?_⟩
      intro dependency isDependency taken
      rw [visited.result] at taken
      rcases List.mem_append.mp taken with old | new
      · exact untaken dependency isDependency old
      · rw [List.mem_singleton.mp new] at isDependency
        exact deeper isDependency
    · refine .inr ⟨dependency, isDependency, ?_, ?_⟩
      · rw [visited.result]
        exact List.mem_append_left _ taken
      · rw [visited.height_old invariant (List.mem_append_left _ taken), isDepth]

theorem monotone (invariant : Invariant vertices dependencies before) :
    (after.result ++ after.queue).Pairwise
      fun earlier later => after.height earlier ≤ after.height later := by
  rw [visited.all_eq, List.pairwise_append]
  refine ⟨?_, ?_, ?_⟩
  · apply invariant.monotone.imp_of_mem
    intro earlier later isEarlier isLater smaller
    rw [visited.height_old invariant isEarlier, visited.height_old invariant isLater]
    exact smaller
  · apply List.Pairwise.imp_of_mem _ visited.distinct
    intro earlier later isEarlier isLater _
    rw [visited.height_opened isEarlier, visited.height_opened isLater]
  · intro earlier known later isOpened
    rw [visited.height_old invariant known, visited.height_opened isOpened]
    exact visited.height_le_opened invariant known

theorem near (invariant : Invariant vertices dependencies before) :
    ∀ head ∈ after.queue.head?, ∀ vertex ∈ after.queue,
      after.height vertex ≤ after.height head + 1 := by
  have atMost : ∀ vertex ∈ after.queue, after.height vertex ≤ before.height next + 1 := by
    intro vertex waits
    rw [visited.isQueue] at waits
    rcases List.mem_append.mp waits with old | isOpened
    · have known : vertex ∈ before.result ++ before.queue := by
        rw [visited.wasQueue]
        exact List.mem_append_right _ (List.mem_cons_of_mem _ old)
      rw [visited.height_old invariant known]
      exact visited.height_le_opened invariant known
    · rw [visited.height_opened isOpened]
  intro head isHead vertex waits
  have headWaits : head ∈ after.queue := List.mem_of_mem_head? isHead
  have atLeast : before.height next ≤ after.height head := by
    rw [visited.isQueue] at headWaits
    rcases List.mem_append.mp headWaits with old | isOpened
    · have monotone := invariant.monotone
      rw [visited.wasQueue, List.pairwise_append, List.pairwise_cons] at monotone
      have known : head ∈ before.result ++ before.queue := by
        rw [visited.wasQueue]
        exact List.mem_append_right _ (List.mem_cons_of_mem _ old)
      rw [visited.height_old invariant known]
      exact monotone.2.1.1 head old
    · rw [visited.height_opened isOpened]
      omega
  have most := atMost vertex waits
  omega

theorem invariant_after (invariant : Invariant vertices dependencies before) :
    Invariant vertices dependencies after where
  distinct := by
    rw [visited.all_eq, List.nodup_append]
    refine ⟨invariant.distinct, visited.distinct, ?_⟩
    intro vertex known other isOpened same
    rw [← same] at isOpened
    exact visited.next_not_mem invariant known ((visited.mem_opened vertex).mp isOpened).2.1
  isVertex := by
    intro vertex member
    rw [visited.all_eq] at member
    rcases List.mem_append.mp member with known | isOpened
    · exact invariant.isVertex vertex known
    · exact ((visited.mem_opened vertex).mp isOpened).1
  inDegree := visited.inDegree
  ready := fun _ isVertex => visited.ready invariant isVertex
  ordered := by
    have closed := (invariant.ready next (invariant.isVertex next visited.next_mem)).mp
      visited.next_mem
    rw [visited.result, topological_append]
    exact ⟨invariant.ordered, openDependencies_eq_zero.mp closed, trivial⟩
  above := fun _ isVertex _ isDependency taken =>
    visited.above invariant isVertex isDependency taken
  reached := fun _ isVertex => visited.reached invariant isVertex
  monotone := visited.monotone invariant
  near := visited.near invariant

end

end Visited

theorem Invariant.visit (reverses : Reverses vertices dependencies graph)
    (invariant : Invariant vertices dependencies state) :
    Invariant vertices dependencies (state.visit graph) := by
  cases wasQueue : state.queue with
  | nil =>
    have same : state.visit graph = state := by simp only [Kahn.visit, wasQueue]
    rw [same]
    exact invariant
  | cons next queue =>
    rcases invariant.exists_visited reverses wasQueue with ⟨opened, visited⟩
    exact visited.invariant_after invariant

theorem Invariant.visit_empty_or_longer (reverses : Reverses vertices dependencies graph)
    (invariant : Invariant vertices dependencies state) : (state.visit graph).queue = [] ∨
      (state.visit graph).result.length = state.result.length + 1 := by
  cases wasQueue : state.queue with
  | nil =>
    have same : state.visit graph = state := by simp only [Kahn.visit, wasQueue]
    rw [same]
    exact .inl wasQueue
  | cons next queue =>
    rcases invariant.exists_visited reverses wasQueue with ⟨opened, visited⟩
    rw [visited.result, List.length_append, List.length_singleton]
    exact .inr rfl

theorem Invariant.length_le (invariant : Invariant vertices dependencies state) :
    (state.result ++ state.queue).length ≤ vertices.length :=
  (List.subperm_of_subset invariant.distinct invariant.isVertex).length_le

theorem Invariant.loop (reverses : Reverses vertices dependencies graph)
    (invariant : Invariant vertices dependencies state)
    (enough : state.queue = [] ∨ vertices.length ≤ state.result.length + rounds) :
    Invariant vertices dependencies (Kahn.loop graph rounds state) ∧
      (Kahn.loop graph rounds state).queue = [] := by
  induction rounds generalizing state with
  | zero =>
    refine ⟨invariant, ?_⟩
    rcases enough with empty | full
    · exact empty
    · have most := invariant.length_le
      rw [List.length_append] at most
      have none : state.queue.length = 0 := by omega
      exact List.length_eq_zero_iff.mp none
  | succ rounds induction =>
    apply induction (invariant.visit reverses)
    rcases invariant.visit_empty_or_longer reverses with empty | longer
    · exact .inl empty
    · rcases enough with empty | full
      · have same : state.visit graph = state := by simp only [Kahn.visit, empty]
        rw [same]
        exact .inl empty
      · exact .inr (by omega)

structure Start (vertices : List Vertex) (dependencies : Vertex → List Vertex)
    (state : Kahn Vertex) : Prop where
  result : state.result = []
  depth : ∀ vertex, state.depth vertex = none
  distinct : state.queue.Nodup
  mem_queue : ∀ vertex, vertex ∈ state.queue ↔ vertex ∈ vertices ∧ dependencies vertex = []
  inDegree : ∀ vertex, state.inDegree vertex =
    if vertex ∈ vertices then some (dependencies vertex).length else none

theorem openDependencies_nil (vertex : Vertex) :
    openDependencies dependencies [] vertex = (dependencies vertex).length := by
  simp [openDependencies]

theorem Start.invariant (start : Start vertices dependencies state) :
    Invariant vertices dependencies state where
  distinct := by
    rw [start.result]
    exact start.distinct
  isVertex := by
    intro vertex member
    rw [start.result] at member
    exact ((start.mem_queue vertex).mp member).1
  inDegree := by
    intro vertex
    rw [start.inDegree, start.result, openDependencies_nil]
  ready := by
    intro vertex isVertex
    rw [start.result, List.nil_append, start.mem_queue, openDependencies_nil,
      List.length_eq_zero_iff]
    exact and_iff_right isVertex
  ordered := by
    rw [start.result]
    trivial
  above := by
    intro vertex _ dependency _ taken
    rw [start.result] at taken
    exact absurd taken List.not_mem_nil
  reached := by
    intro vertex _
    refine .inl ⟨start.depth vertex, ?_⟩
    intro dependency _
    rw [start.result]
    exact List.not_mem_nil
  monotone := by
    apply List.pairwise_of_forall
    intro earlier later
    rw [height, height, start.depth, start.depth]
  near := by
    intro head _ vertex _
    rw [height, start.depth]
    exact Nat.zero_le _

structure Sorted (vertices : List Vertex) (dependencies : Vertex → List Vertex)
    (state : Kahn Vertex) : Prop where
  perm : state.result.Perm vertices
  ordered : Topological dependencies [] state.result
  longest : ∀ vertex ∈ vertices, LongestChain dependencies vertex (state.height vertex)
  depth_eq_none : ∀ vertex ∈ vertices, state.depth vertex = none ↔ dependencies vertex = []

theorem Start.sorted (start : Start vertices dependencies state)
    (reverses : Reverses vertices dependencies graph) (distinct : vertices.Nodup)
    (acyclic : Topological dependencies [] vertices) :
    Sorted vertices dependencies (loop graph vertices.length state) := by
  have enough : state.queue = [] ∨ vertices.length ≤ state.result.length + vertices.length :=
    .inr (Nat.le_add_left _ _)
  rcases start.invariant.loop reverses enough with ⟨invariant, empty⟩
  generalize loop graph vertices.length state = final at invariant empty
  have onlyResult : final.result ++ final.queue = final.result := by
    rw [empty, List.append_nil]
  have all : ∀ vertex ∈ vertices, vertex ∈ final.result := by
    apply acyclic.forall_of_closed (· ∈ final.result)
    · intro vertex member
      exact absurd member List.not_mem_nil
    · intro vertex isVertex closed
      have taken := (invariant.ready vertex isVertex).mpr (openDependencies_eq_zero.mpr closed)
      rwa [onlyResult] at taken
  have isVertex : ∀ vertex ∈ final.result, vertex ∈ vertices := by
    intro vertex member
    exact invariant.isVertex vertex (List.mem_append_left _ member)
  have nodup : final.result.Nodup := by
    have both := invariant.distinct
    rwa [onlyResult] at both
  have dependencyTaken : ∀ vertex ∈ vertices, ∀ dependency ∈ dependencies vertex,
      dependency ∈ final.result := by
    intro vertex member dependency isDependency
    exact invariant.ordered.dependency_mem (all vertex member) isDependency
  refine ⟨?_, invariant.ordered, ?_, ?_⟩
  · rw [List.perm_ext_iff_of_nodup nodup distinct]
    intro vertex
    exact ⟨isVertex vertex, all vertex⟩
  · intro vertex member
    apply invariant.ordered.longestChain _ _ vertex (all vertex member)
    · intro vertex member dependency isDependency
      exact invariant.above vertex (isVertex vertex member) dependency isDependency
        (dependencyTaken vertex (isVertex vertex member) dependency isDependency)
    · intro vertex member
      rcases invariant.reached vertex (isVertex vertex member) with
        ⟨none, _⟩ | ⟨dependency, isDependency, _, isDepth⟩
      · rw [height, none]
        exact .inl rfl
      · refine .inr ⟨dependency, isDependency, ?_⟩
        rw [height.eq_def final vertex, isDepth, Option.getD_some]
  · intro vertex member
    rcases invariant.reached vertex member with
      ⟨none, untaken⟩ | ⟨dependency, isDependency, _, isDepth⟩
    · refine ⟨fun _ => ?_, fun _ => none⟩
      rw [List.eq_nil_iff_forall_not_mem]
      intro dependency isDependency
      exact untaken dependency isDependency (dependencyTaken vertex member dependency isDependency)
    · constructor
      · intro none
        rw [isDepth] at none
        exact absurd none (Option.some_ne_none _)
      · intro none
        rw [none] at isDependency
        exact absurd isDependency List.not_mem_nil

end Kahn

end QAExchange.Foundation
