import QAExchange.Foundation.Kahn
import QAExchange.Foundation.Levels
import QAExchange.Foundation.Reachability

/-! # Factor DAG

The factors and the factors that they are computed from. The topological order is
kept until the nodes change, and the depth of a node decides in which of the parallel
levels it is computed.
-/

namespace QAExchange

open Foundation

abbrev FactorId := String

/-- A node of the graph; its name, type, function and parameters are left out. -/
structure FactorNode where
  id : FactorId
  dependencies : List FactorId
  dependents : List FactorId
  depth : ℕ

namespace FactorNode

def source (id : FactorId) : FactorNode where
  id := id
  dependencies := []
  dependents := []
  depth := 0

def derived (id : FactorId) (dependencies : List FactorId) : FactorNode where
  id := id
  dependencies := dependencies
  dependents := []
  depth := 0

def addDependent (id : FactorId) (node : FactorNode) : FactorNode :=
  { node with dependents := node.dependents ++ [id] }

def dropDependent (id : FactorId) (node : FactorNode) : FactorNode :=
  { node with dependents := node.dependents.filter (· ≠ id) }

def dropDependency (id : FactorId) (node : FactorNode) : FactorNode :=
  { node with dependencies := node.dependencies.filter (· ≠ id) }

theorem id_addDependent (id : FactorId) (node : FactorNode) :
    (node.addDependent id).id = node.id := rfl

theorem id_dropDependent (id : FactorId) (node : FactorNode) :
    (node.dropDependent id).id = node.id := rfl

theorem id_dropDependency (id : FactorId) (node : FactorNode) :
    (node.dropDependency id).id = node.id := rfl

end FactorNode

inductive DagError
  | NodeExists (id : FactorId)
  | NodeNotFound (id : FactorId)
  | CycleDetected (path : List FactorId)
  | DependencyNotFound (node dependency : FactorId)

/-- The order in which a hash map hands out its entries. -/
structure Arrangement (α : Type) where
  arrange : List α → List α
  perm : ∀ entries, (arrange entries).Perm entries

structure HashOrders where
  nodes : Arrangement FactorNode
  inDegrees : Arrangement (FactorId × ℕ)
  levels : Arrangement (ℕ × List FactorId)

def Arrangement.same (α : Type) : Arrangement α where
  arrange := id
  perm := .refl

def HashOrders.same : HashOrders where
  nodes := .same _
  inDegrees := .same _
  levels := .same _

/-- `DashMap<FactorId, FactorNode>`; the key of a node is its id. -/
structure FactorNodes where
  entries : List FactorNode
  distinct : (entries.map FactorNode.id).Nodup

def findNode (entries : List FactorNode) (id : FactorId) : Option FactorNode :=
  entries.find? fun node => node.id = id

namespace FactorNodes

def empty : FactorNodes where
  entries := []
  distinct := List.nodup_nil

def ids (nodes : FactorNodes) : List FactorId := nodes.entries.map FactorNode.id

def get (nodes : FactorNodes) (id : FactorId) : Option FactorNode := findNode nodes.entries id

/-- `contains_key` -/
def contains (nodes : FactorNodes) (id : FactorId) : Bool := (nodes.get id).isSome

/-- `get_mut` with a change of the node that leaves its id. -/
def modify (change : FactorNode → FactorNode) (keepsId : ∀ node, (change node).id = node.id)
    (nodes : FactorNodes) (id : FactorId) : FactorNodes where
  entries := nodes.entries.map fun node => if node.id = id then change node else node
  distinct := by
    rw [List.map_map]
    have same : FactorNode.id ∘ (fun node => if node.id = id then change node else node) =
        FactorNode.id := by
      funext node
      rw [Function.comp_apply]
      split_ifs
      · exact keepsId node
      · rfl
    rw [same]
    exact nodes.distinct

def insert (nodes : FactorNodes) (node : FactorNode) : FactorNodes where
  entries := (nodes.entries.filter fun other => other.id ≠ node.id) ++ [node]
  distinct := by
    rw [List.map_append, List.nodup_append]
    refine ⟨nodes.distinct.sublist (List.filter_sublist.map _), List.nodup_singleton _, ?_⟩
    intro id old other isNode same
    rcases List.mem_map.mp old with ⟨kept, member, rfl⟩
    have different := of_decide_eq_true (List.mem_filter.mp member).2
    rw [List.mem_singleton.mp isNode] at same
    exact different same

def remove (nodes : FactorNodes) (id : FactorId) : FactorNodes where
  entries := nodes.entries.filter fun node => node.id ≠ id
  distinct := nodes.distinct.sublist (List.filter_sublist.map _)

def pushDependents (nodes : FactorNodes) (node : FactorNode) : FactorNodes :=
  node.dependencies.foldl (modify _ (FactorNode.id_addDependent node.id)) nodes

/-- What `add_node` does with the nodes. -/
def addNode (nodes : FactorNodes) (node : FactorNode) : Except DagError FactorNodes :=
  if nodes.contains node.id then .error (.NodeExists node.id)
  else
    match node.dependencies.find? fun dep => !nodes.contains dep with
    | some dep => .error (.DependencyNotFound node.id dep)
    | none => .ok ((nodes.pushDependents node).insert node)

/-- What `remove_node` does with the nodes. -/
def removeNode (nodes : FactorNodes) (id : FactorId) : Except DagError FactorNodes :=
  match nodes.get id with
  | none => .error (.NodeNotFound id)
  | some node =>
    let undepended :=
      node.dependencies.foldl (modify _ (FactorNode.id_dropDependent id)) (nodes.remove id)
    .ok (node.dependents.foldl (modify _ (FactorNode.id_dropDependency id)) undepended)

def dependenciesOf (nodes : FactorNodes) (id : FactorId) : List FactorId :=
  ((nodes.get id).map FactorNode.dependencies).getD []

def dependentsOf (nodes : FactorNodes) (id : FactorId) : List FactorId :=
  ((nodes.get id).map FactorNode.dependents).getD []

def depthOf (nodes : FactorNodes) (id : FactorId) : ℕ :=
  ((nodes.get id).map FactorNode.depth).getD 0

end FactorNodes

/-! ## The topological sort -/

structure DegreeMaps where
  inDegree : FactorId → Option ℕ
  graph : FactorId → Option (List FactorId)

namespace DegreeMaps

def empty : DegreeMaps where
  inDegree _ := none
  graph _ := none

def addDependency (id : FactorId) (maps : DegreeMaps) (dep : FactorId) : DegreeMaps where
  inDegree := Function.update maps.inDegree id (some ((maps.inDegree id).getD 0 + 1))
  graph := Function.update maps.graph dep (some ((maps.graph dep).getD [] ++ [id]))

def addEntry (maps : DegreeMaps) (node : FactorNode) : DegreeMaps :=
  node.dependencies.foldl (addDependency node.id)
    { inDegree := Function.update maps.inDegree node.id
        (some ((maps.inDegree node.id).getD 0))
      graph := Function.update maps.graph node.id (some ((maps.graph node.id).getD [])) }

def build (entries : List FactorNode) : DegreeMaps := entries.foldl addEntry empty

/-- The entries of `in_degree`, which has a key for every node. -/
def degrees (maps : DegreeMaps) (ids : List FactorId) : List (FactorId × ℕ) :=
  ids.filterMap fun id => (maps.inDegree id).map fun degree => (id, degree)

end DegreeMaps

namespace FactorNodes

def maps (orders : HashOrders) (nodes : FactorNodes) : DegreeMaps :=
  .build (orders.nodes.arrange nodes.entries)

def kahnStart (orders : HashOrders) (nodes : FactorNodes) : Kahn FactorId where
  queue :=
    ((orders.inDegrees.arrange ((nodes.maps orders).degrees nodes.ids)).filter
      fun entry => entry.2 = 0).map Prod.fst
  inDegree := (nodes.maps orders).inDegree
  depth _ := none
  result := []

/-- The loop ends after as many rounds as there are nodes. -/
def kahn (orders : HashOrders) (nodes : FactorNodes) : Kahn FactorId :=
  Kahn.loop (nodes.maps orders).graph nodes.ids.length (nodes.kahnStart orders)

/-- The depth of a node changes only if the sort has one for it. -/
def setDepths (depth : FactorId → Option ℕ) (nodes : FactorNodes) : FactorNodes where
  entries := nodes.entries.map fun node => { node with depth := (depth node.id).getD node.depth }
  distinct := by
    rw [List.map_map]
    exact nodes.distinct

end FactorNodes

structure FactorDag where
  nodes : FactorNodes
  topoOrder : List FactorId
  dirty : Bool

namespace FactorDag

def new : FactorDag where
  nodes := .empty
  topoOrder := []
  dirty := true

def addNode (dag : FactorDag) (node : FactorNode) : Except DagError FactorDag :=
  (dag.nodes.addNode node).map fun nodes => { dag with nodes := nodes, dirty := true }

def removeNode (dag : FactorDag) (id : FactorId) : Except DagError FactorDag :=
  (dag.nodes.removeNode id).map fun nodes => { dag with nodes := nodes, dirty := true }

def topologicalSort (orders : HashOrders) (dag : FactorDag) : List FactorId × FactorDag :=
  if dag.dirty then
    let sorted := dag.nodes.kahn orders
    (sorted.result,
      { nodes := dag.nodes.setDepths sorted.depth, topoOrder := sorted.result, dirty := false })
  else (dag.topoOrder, dag)

def detectCycle (orders : HashOrders) (dag : FactorDag) : Option (List FactorId) × FactorDag :=
  let sorted := dag.topologicalSort orders
  let cycleNodes := ((orders.nodes.arrange sorted.2.nodes.entries).map FactorNode.id).filter
    (· ∉ sorted.1)
  (if sorted.1.length ≠ sorted.2.nodes.entries.length ∧ cycleNodes ≠ [] then some cycleNodes
    else none, sorted.2)

def levelGroups (nodes : FactorNodes) (topo : List FactorId) : List (ℕ × List FactorId) :=
  topo.foldl (fun levels id =>
    match nodes.get id with
    | none => levels
    | some node => pushGroup node.depth id levels) []

def getParallelLevels (orders : HashOrders) (dag : FactorDag) : List (List FactorId) × FactorDag :=
  let sorted := dag.topologicalSort orders
  let levels := orders.levels.arrange (levelGroups sorted.2.nodes sorted.1)
  ((sortByKey Prod.fst levels).map Prod.snd, sorted.2)

def affected (nodes : FactorNodes) (sourceId : FactorId) : List FactorId :=
  let start := nodes.dependentsOf sourceId
  (Search.loop nodes.dependentsOf
    (start.length + (nodes.ids.map fun id => (nodes.dependentsOf id).length).sum)
    ⟨start, []⟩).visited

def getAffectedNodes (orders : HashOrders) (dag : FactorDag) (sourceId : FactorId) :
    List FactorId × FactorDag :=
  let sorted := dag.topologicalSort orders
  (sorted.1.filter (· ∈ affected dag.nodes sourceId), sorted.2)

end FactorDag

end QAExchange
