import QAExchange.Factor.TopologicalSort
import QAExchange.Foundation.Interleaving

/-! # A graph of factors that is shared by threads

A sort tests whether the nodes have changed, reads them, and later clears the mark. A
change of the nodes that is marked in between is lost, and the order that was read
before it is kept as the order of the nodes.
-/

namespace QAExchange

open Foundation

inductive DagCall
  | addNode (node : FactorNode)
  | removeNode (id : FactorId)
  | topologicalSort

inductive DagTask
  /-- `add_node` before it changes the nodes. -/
  | addNode (node : FactorNode)
  /-- `remove_node` before it changes the nodes. -/
  | removeNode (id : FactorId)
  /-- The nodes have changed, `dirty` is still to be set. -/
  | mark
  | failed (error : DagError)
  | changed
  /-- `topological_sort` before its test of `dirty`. -/
  | test
  | readCache
  | read
  | setDepths (result : List FactorId) (depth : FactorId → Option ℕ)
  | write (result : List FactorId)
  | clear (result : List FactorId)
  | sorted (result : List FactorId)

namespace DagTask

def start : DagCall → DagTask
  | .addNode node => .addNode node
  | .removeNode id => .removeNode id
  | .topologicalSort => .test

def advance (orders : HashOrders) (dag : FactorDag) : DagTask → DagTask × FactorDag
  | .addNode node =>
    match dag.nodes.addNode node with
    | .error error => (.failed error, dag)
    | .ok nodes => (.mark, { dag with nodes := nodes })
  | .removeNode id =>
    match dag.nodes.removeNode id with
    | .error error => (.failed error, dag)
    | .ok nodes => (.mark, { dag with nodes := nodes })
  | .mark => (.changed, { dag with dirty := true })
  | .test => (if dag.dirty then .read else .readCache, dag)
  | .readCache => (.sorted dag.topoOrder, dag)
  | .read => (.setDepths (dag.nodes.kahn orders).result (dag.nodes.kahn orders).depth, dag)
  | .setDepths result depth => (.write result, { dag with nodes := dag.nodes.setDepths depth })
  | .write result => (.clear result, { dag with topoOrder := result })
  | .clear result => (.sorted result, { dag with dirty := false })
  | .failed error => (.failed error, dag)
  | .changed => (.changed, dag)
  | .sorted result => (.sorted result, dag)

def isDone : DagTask → Bool
  | .failed _ | .changed | .sorted _ => true
  | .addNode _ | .removeNode _ | .mark | .test | .readCache | .read | .setDepths _ _ | .write _
  | .clear _ => false

def isMark : DagTask → Bool
  | .mark => true
  | _ => false

def isClear : DagTask → Bool
  | .clear _ => true
  | _ => false

end DagTask

def dagService : Service FactorDag DagTask DagCall HashOrders where
  start := DagTask.start
  advance := DagTask.advance

namespace DagService

/-- A sort that clears the mark leaves an order of the nodes as they are now, unless a
change is still to be marked. -/
def ClearsCurrent (pool : Pool FactorDag DagTask) : Turn DagCall HashOrders → Prop
  | .call _ => True
  | .step _ index =>
    (pool.tasks[index]?.any DagTask.isClear) → pool.shared.nodes.IsOrder pool.shared.topoOrder ∨
      pool.tasks.any DagTask.isMark

instance (pool : Pool FactorDag DagTask) : ∀ turn, Decidable (ClearsCurrent pool turn)
  | .call _ => .isTrue trivial
  | .step _ index => inferInstanceAs (Decidable ((pool.tasks[index]?.any DagTask.isClear) → _ ∨ _))

/-- The nodes have no cycles, and when no change is marked, the kept order is right or a
task still has to mark a change or to clear the mark. -/
structure Kept (pool : Pool FactorDag DagTask) : Prop where
  wellFormed : pool.shared.nodes.WellFormed
  current : pool.shared.dirty = false → pool.shared.nodes.IsOrder pool.shared.topoOrder ∨
    ∃ task ∈ pool.tasks, task.isMark ∨ task.isClear

variable {dag : FactorDag} {before later : List DagTask}

/-- A step that leaves the order and the ids of the nodes keeps what other tasks have to do. -/
theorem Kept.of_quiet {after : FactorDag} (kept : Kept ⟨dag, before ++ task :: later⟩)
    (wellFormed : after.nodes.WellFormed) (quiet : task.isMark = false ∧ task.isClear = false)
    (dirty : after.dirty = dag.dirty)
    (order : dag.nodes.IsOrder dag.topoOrder → after.nodes.IsOrder after.topoOrder) :
    Kept ⟨after, before ++ next :: later⟩ := by
  refine ⟨wellFormed, ?_⟩
  intro clean
  dsimp only at clean
  rw [dirty] at clean
  rcases kept.current clean with isOrder | ⟨other, member, waits⟩
  · exact .inl (order isOrder)
  · have isOther : other ≠ task := by
      intro same
      rw [same, quiet.1, quiet.2] at waits
      simp at waits
    have stays : other ∈ before ++ next :: later := by
      rcases List.mem_append.mp member with inBefore | inRest
      · exact List.mem_append_left _ inBefore
      · have inLater := (List.mem_cons.mp inRest).resolve_left isOther
        exact List.mem_append_right _ (List.mem_cons_of_mem _ inLater)
    exact .inr ⟨other, stays, waits⟩

theorem Kept.of_waits {next : DagTask} (wellFormed : dag.nodes.WellFormed)
    (waits : next.isMark ∨ next.isClear) : Kept ⟨dag, before ++ next :: later⟩ :=
  ⟨wellFormed, fun _ => .inr ⟨next, List.mem_append_right _ List.mem_cons_self, waits⟩⟩

theorem Kept.step (kept : Kept ⟨dag, before ++ task :: later⟩)
    (clears : ClearsCurrent ⟨dag, before ++ task :: later⟩ (.step orders before.length)) :
    Kept ⟨(task.advance orders dag).2, before ++ (task.advance orders dag).1 :: later⟩ := by
  have wellFormed := kept.wellFormed
  cases task with
  | addNode node =>
    cases added : dag.nodes.addNode node with
    | error error =>
      simp only [DagTask.advance, added]
      exact kept.of_quiet wellFormed ⟨rfl, rfl⟩ rfl fun isOrder => isOrder
    | ok nodes =>
      simp only [DagTask.advance, added]
      apply Kept.of_waits _ (.inl rfl)
      exact wellFormed.addNode added
  | removeNode id =>
    cases removed : dag.nodes.removeNode id with
    | error error =>
      simp only [DagTask.advance, removed]
      exact kept.of_quiet wellFormed ⟨rfl, rfl⟩ rfl fun isOrder => isOrder
    | ok nodes =>
      simp only [DagTask.advance, removed]
      apply Kept.of_waits _ (.inl rfl)
      exact wellFormed.removeNode removed
  | mark => exact ⟨wellFormed, fun clean => absurd clean (by simp [DagTask.advance])⟩
  | failed error => exact kept.of_quiet wellFormed ⟨rfl, rfl⟩ rfl fun isOrder => isOrder
  | changed => exact kept.of_quiet wellFormed ⟨rfl, rfl⟩ rfl fun isOrder => isOrder
  | test => exact kept.of_quiet wellFormed ⟨rfl, rfl⟩ rfl fun isOrder => isOrder
  | readCache => exact kept.of_quiet wellFormed ⟨rfl, rfl⟩ rfl fun isOrder => isOrder
  | read => exact kept.of_quiet wellFormed ⟨rfl, rfl⟩ rfl fun isOrder => isOrder
  | setDepths result depth =>
    refine kept.of_quiet ?_ ⟨rfl, rfl⟩ rfl ?_
    · exact wellFormed.setDepths depth
    · exact (FactorNodes.isOrder_setDepths_iff depth).mpr
  | write result => exact Kept.of_waits wellFormed (.inr rfl)
  | clear result =>
    refine ⟨wellFormed, fun _ => ?_⟩
    have isTask : (before ++ DagTask.clear result :: later)[before.length]?.any
        DagTask.isClear := by
      simp [DagTask.isClear]
    rcases clears isTask with isOrder | waits
    · exact .inl isOrder
    · rcases List.any_eq_true.mp waits with ⟨other, member, isMark⟩
      refine .inr ⟨other, ?_, .inl isMark⟩
      rcases List.mem_append.mp member with inBefore | inRest
      · exact List.mem_append_left _ inBefore
      · rcases List.mem_cons.mp inRest with same | inLater
        · rw [same] at isMark
          exact absurd isMark Bool.false_ne_true
        · exact List.mem_append_right _ (List.mem_cons_of_mem _ inLater)
  | sorted result => exact kept.of_quiet wellFormed ⟨rfl, rfl⟩ rfl fun isOrder => isOrder

theorem kept_run (turns : List (Turn DagCall HashOrders))
    (clears : dagService.Obeys ClearsCurrent turns ⟨.new, []⟩) :
    Kept (dagService.run turns ⟨.new, []⟩) := by
  apply dagService.run_preserves Kept _ _ turns _ clears
  · exact ⟨.empty, fun clean => absurd clean (by decide)⟩
  · intro pool call kept
    refine ⟨kept.wellFormed, fun clean => ?_⟩
    rcases kept.current clean with isOrder | ⟨task, member, waits⟩
    · exact .inl isOrder
    · exact .inr ⟨task, List.mem_append_left _ member, waits⟩
  · intro shared before task after orders kept isAllowed
    exact kept.step isAllowed

end DagService

namespace FactorDag

variable {dag : FactorDag}

def Depends (nodes : FactorNodes) (source dependent : FactorId) : Prop :=
  Relation.TransGen (fun id dependent => id ∈ nodes.dependenciesOf dependent) source dependent

theorem mem_affected (wellFormed : dag.nodes.WellFormed)
    (depends : Depends dag.nodes source dependent) : dependent ∈ affected dag.nodes source := by
  have outside : ∀ id ∉ dag.nodes.ids, dag.nodes.dependentsOf id = [] :=
    fun id absent => FactorNodes.dependentsOf_eq_nil absent
  rw [affected, Search.mem_visited_iff outside le_rfl]
  induction depends with
  | single isDependency => exact ⟨_, wellFormed.recorded _ _ isDependency, .refl⟩
  | tail _ isDependency induction =>
    rcases induction with ⟨first, isFirst, chain⟩
    exact ⟨first, isFirst, chain.tail (wellFormed.recorded _ _ isDependency)⟩

theorem mem_getAffectedNodes (wellFormed : dag.nodes.WellFormed)
    (isOrder : dag.nodes.IsOrder (dag.topologicalSort orders).1)
    (depends : Depends dag.nodes source dependent) :
    dependent ∈ (dag.getAffectedNodes orders source).1 := by
  have isNode : dependent ∈ dag.nodes.ids := by
    cases depends with
    | single isDependency => exact FactorNodes.mem_ids_of_dependency isDependency
    | tail _ isDependency => exact FactorNodes.mem_ids_of_dependency isDependency
  apply List.mem_filter.mpr
  exact ⟨isOrder.perm.mem_iff.mpr isNode, decide_eq_true (mem_affected wellFormed depends)⟩

end FactorDag

namespace DagService

/-- When no call is in progress, a new sort returns an order of the nodes and no node that
depends on another one is left out. -/
structure SortsCurrent (dag : FactorDag) : Prop where
  isOrder : ∀ orders, dag.nodes.IsOrder (dag.topologicalSort orders).1
  affected : ∀ orders source dependent, FactorDag.Depends dag.nodes source dependent →
    dependent ∈ (dag.getAffectedNodes orders source).1

/-- A node that is added while a sort runs and marked after it has cleared the mark. -/
def addedDuringSort : List (Turn DagCall HashOrders) :=
  [.call .topologicalSort, .call (.addNode (.source "A")), .step .same 0, .step .same 0,
    .step .same 1, .step .same 0, .step .same 0, .step .same 0, .step .same 1]

end DagService

end QAExchange
