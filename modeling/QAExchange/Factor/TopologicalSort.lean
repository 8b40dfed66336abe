import Mathlib.Data.List.Induction
import QAExchange.Factor.FactorGraph

/-! # The topological sort of the factors

The maps that the sort builds are the dependencies in both directions, so that the sort
is Kahn's algorithm on the graph of the factors.
-/

namespace QAExchange

open Foundation

namespace DegreeMaps

/-- `after` has the dependencies of one more node. -/
structure Extended (id : FactorId) (dependencies : List FactorId) (before after : DegreeMaps) :
    Prop where
  inDegree : after.inDegree id = some ((before.inDegree id).getD 0 + dependencies.length)
  inDegree_ne : ∀ other ≠ id, after.inDegree other = before.inDegree other
  graph : ∀ dep other, ((after.graph dep).getD []).count other =
    ((before.graph dep).getD []).count other + if other = id then dependencies.count dep else 0

theorem extended_addDependencies {id : FactorId} {start : ℕ} (dependencies : List FactorId)
    {maps : DegreeMaps} (known : maps.inDegree id = some start) :
    Extended id dependencies maps (dependencies.foldl (addDependency id) maps) := by
  induction dependencies generalizing maps start with
  | nil =>
    refine ⟨?_, fun _ _ => rfl, ?_⟩
    · rw [List.foldl_nil, known]
      rfl
    · intro dep other
      simp
  | cons first dependencies induction =>
    have next : (maps.addDependency id first).inDegree id = some (start + 1) := by
      simp [addDependency, known]
    have rest := induction next
    refine ⟨?_, ?_, ?_⟩
    · rw [List.foldl_cons, rest.inDegree, next, known, List.length_cons]
      simp only [Option.getD_some]
      congr 1
      omega
    · intro other different
      rw [List.foldl_cons, rest.inDegree_ne other different]
      simp [addDependency, different]
    · intro dep other
      rw [List.foldl_cons, rest.graph, List.count_cons]
      by_cases same : dep = first
      · simp only [addDependency, same, Function.update_self, Option.getD_some,
          List.count_append, List.count_singleton, beq_iff_eq, eq_comm (a := id), if_true]
        split_ifs <;> omega
      · have keeps : (maps.addDependency id first).graph dep = maps.graph dep := by
          simp [addDependency, same]
        simp [keeps, Ne.symm same]

theorem extended_addEntry (maps : DegreeMaps) (node : FactorNode) :
    Extended node.id node.dependencies maps (maps.addEntry node) := by
  let opened : DegreeMaps :=
    { inDegree := Function.update maps.inDegree node.id (some ((maps.inDegree node.id).getD 0))
      graph := Function.update maps.graph node.id (some ((maps.graph node.id).getD [])) }
  have known : opened.inDegree node.id = some ((maps.inDegree node.id).getD 0) :=
    Function.update_self ..
  have sameGraph : ∀ dep, (opened.graph dep).getD [] = (maps.graph dep).getD [] := by
    intro dep
    by_cases same : dep = node.id
    · simp [opened, same]
    · simp [opened, same]
  have extended := extended_addDependencies node.dependencies known
  refine ⟨?_, ?_, ?_⟩
  · rw [addEntry, extended.inDegree, known]
    rfl
  · intro other different
    rw [addEntry, extended.inDegree_ne other different]
    exact Function.update_of_ne different ..
  · intro dep other
    rw [addEntry, extended.graph, sameGraph]

/-- What the maps hold of the entries, whatever the order in which these come. -/
structure Built (entries : List FactorNode) (maps : DegreeMaps) : Prop where
  inDegree : ∀ id, maps.inDegree id =
    (findNode entries id).map fun node => node.dependencies.length
  graph : ∀ dep id, ((maps.graph dep).getD []).count id =
    ((findNode entries id).map fun node => node.dependencies.count dep).getD 0

theorem findNode_concat {entries : List FactorNode} {node : FactorNode}
    (isNew : node.id ∉ entries.map FactorNode.id) (id : FactorId) :
    findNode (entries ++ [node]) id = if id = node.id then some node else findNode entries id := by
  have notFound : findNode entries node.id = none := findNode_eq_none_iff.mpr isNew
  unfold findNode at notFound ⊢
  rw [List.find?_append]
  split_ifs with same
  · rw [same, notFound, Option.none_or]
    simp
  · have onlyOld : [node].find? (fun other => other.id = id) = none := by
      simp [Ne.symm same]
    rw [onlyOld, Option.or_none]

theorem built (entries : List FactorNode) (distinct : (entries.map FactorNode.id).Nodup) :
    Built entries (build entries) := by
  induction entries using List.reverseRecOn with
  | nil => exact ⟨fun _ => rfl, fun _ _ => rfl⟩
  | append_singleton entries node induction =>
    rw [List.map_append, List.nodup_append] at distinct
    have isNew : node.id ∉ entries.map FactorNode.id :=
      fun member => distinct.2.2 node.id member node.id List.mem_cons_self rfl
    have before := induction distinct.1
    have extended := extended_addEntry (build entries) node
    have isBuild : build (entries ++ [node]) = (build entries).addEntry node := by
      simp [build]
    have notFound : findNode entries node.id = none := findNode_eq_none_iff.mpr isNew
    rw [isBuild]
    constructor
    · intro id
      rw [findNode_concat isNew]
      split_ifs with same
      · rw [same, extended.inDegree, before.inDegree, notFound]
        simp
      · rw [extended.inDegree_ne id same, before.inDegree]
    · intro dep id
      rw [findNode_concat isNew, extended.graph, before.graph]
      split_ifs with same
      · rw [same, notFound]
        simp
      · rw [Nat.add_zero]

end DegreeMaps

namespace FactorNodes

variable {nodes : FactorNodes}

theorem built_maps (orders : HashOrders) (nodes : FactorNodes) :
    DegreeMaps.Built nodes.entries (nodes.maps orders) := by
  have perm := orders.nodes.perm nodes.entries
  have distinct := (perm.map FactorNode.id).nodup_iff.mpr nodes.distinct
  have built := DegreeMaps.built _ distinct
  constructor
  · intro id
    rw [maps, built.inDegree, findNode_perm nodes.distinct perm]
  · intro dep id
    rw [maps, built.graph, findNode_perm nodes.distinct perm]

theorem inDegree_maps (orders : HashOrders) (nodes : FactorNodes) (id : FactorId) :
    (nodes.maps orders).inDegree id =
      if id ∈ nodes.ids then some (nodes.dependenciesOf id).length else none := by
  rw [(built_maps orders nodes).inDegree]
  change (nodes.get id).map _ = _
  split_ifs with member
  · rcases exists_get member with ⟨node, isNode⟩
    rw [dependenciesOf, isNode]
    rfl
  · rw [get_eq_none_iff.mpr member]
    rfl

theorem reverses_maps (orders : HashOrders) (nodes : FactorNodes) :
    Kahn.Reverses nodes.ids nodes.dependenciesOf (nodes.maps orders).graph := by
  intro dep id
  rw [(built_maps orders nodes).graph]
  change ((nodes.get id).map _).getD 0 = _
  split_ifs with member
  · rcases exists_get member with ⟨node, isNode⟩
    rw [dependenciesOf, isNode]
    rfl
  · rw [get_eq_none_iff.mpr member]
    rfl

theorem degrees_maps (orders : HashOrders) (nodes : FactorNodes) :
    (nodes.maps orders).degrees nodes.ids =
      nodes.ids.map fun id => (id, (nodes.dependenciesOf id).length) := by
  unfold DegreeMaps.degrees
  rw [← List.filterMap_eq_map]
  apply List.filterMap_congr
  intro id member
  rw [inDegree_maps, if_pos member]
  rfl

theorem start_kahnStart (orders : HashOrders) (nodes : FactorNodes) :
    Kahn.Start nodes.ids nodes.dependenciesOf (nodes.kahnStart orders) where
  result := rfl
  depth := fun _ => rfl
  distinct := by
    have perm := orders.inDegrees.perm ((nodes.maps orders).degrees nodes.ids)
    rw [degrees_maps] at perm
    have distinct : ((orders.inDegrees.arrange ((nodes.maps orders).degrees nodes.ids)).map
        Prod.fst).Nodup := by
      rw [degrees_maps, (perm.map Prod.fst).nodup_iff, List.map_map]
      have same : Prod.fst ∘ (fun id => (id, (nodes.dependenciesOf id).length)) = id := rfl
      rw [same, List.map_id]
      exact nodes.distinct
    exact distinct.sublist (List.filter_sublist.map _)
  mem_queue := by
    intro id
    have perm := orders.inDegrees.perm ((nodes.maps orders).degrees nodes.ids)
    simp only [kahnStart, List.mem_map, List.mem_filter, perm.mem_iff, decide_eq_true_eq]
    rw [degrees_maps]
    constructor
    · intro found
      rcases found with ⟨entry, ⟨member, isZero⟩, rfl⟩
      rcases List.mem_map.mp member with ⟨id, isId, rfl⟩
      exact ⟨isId, List.length_eq_zero_iff.mp isZero⟩
    · intro found
      refine ⟨(id, (nodes.dependenciesOf id).length), ⟨?_, ?_⟩, rfl⟩
      · exact List.mem_map.mpr ⟨id, found.1, rfl⟩
      · rw [found.2]
        rfl
  inDegree := inDegree_maps orders nodes

theorem WellFormed.sorted_kahn (wellFormed : nodes.WellFormed) (orders : HashOrders) :
    Kahn.Sorted nodes.ids nodes.dependenciesOf (nodes.kahn orders) :=
  (start_kahnStart orders nodes).sorted (reverses_maps orders nodes) nodes.distinct
    wellFormed.ordered

/-! ## The depths of the nodes -/

section SetDepths

variable (depth : FactorId → Option ℕ)

@[simp] theorem ids_setDepths (nodes : FactorNodes) : (nodes.setDepths depth).ids = nodes.ids := by
  unfold ids setDepths
  rw [List.map_map]
  rfl

theorem get_setDepths (nodes : FactorNodes) (id : FactorId) : (nodes.setDepths depth).get id =
      (nodes.get id).map fun node => { node with depth := (depth node.id).getD node.depth } := by
  unfold get findNode setDepths
  rw [List.find?_map]
  rfl

@[simp] theorem dependenciesOf_setDepths (nodes : FactorNodes) :
    (nodes.setDepths depth).dependenciesOf = nodes.dependenciesOf := by
  funext id
  rw [dependenciesOf, get_setDepths, Option.map_map]
  rfl

@[simp] theorem dependentsOf_setDepths (nodes : FactorNodes) :
    (nodes.setDepths depth).dependentsOf = nodes.dependentsOf := by
  funext id
  rw [dependentsOf, get_setDepths, Option.map_map]
  rfl

theorem depthOf_setDepths {id : FactorId} (member : id ∈ nodes.ids) :
    (nodes.setDepths depth).depthOf id = (depth id).getD (nodes.depthOf id) := by
  rcases exists_get member with ⟨node, isNode⟩
  rw [depthOf, get_setDepths, depthOf, isNode]
  simp only [Option.map_some, Option.getD_some]
  rw [(get_eq_some_iff.mp isNode).2]

theorem WellFormed.setDepths (wellFormed : nodes.WellFormed) :
    (nodes.setDepths depth).WellFormed where
  ordered := by
    rw [dependenciesOf_setDepths, ids_setDepths]
    exact wellFormed.ordered
  recorded := by
    rw [dependenciesOf_setDepths, dependentsOf_setDepths]
    exact wellFormed.recorded

end SetDepths

/-- All nodes once, each after its dependencies. -/
structure IsOrder (nodes : FactorNodes) (order : List FactorId) : Prop where
  perm : order.Perm nodes.ids
  ordered : Topological nodes.dependenciesOf [] order

def DepthsKnown (nodes : FactorNodes) : Prop :=
  ∀ id ∈ nodes.ids, nodes.dependenciesOf id ≠ [] →
    LongestChain nodes.dependenciesOf id (nodes.depthOf id)

instance (nodes : FactorNodes) (order : List FactorId) : Decidable (nodes.IsOrder order) :=
  decidable_of_iff (order.Perm nodes.ids ∧ Topological nodes.dependenciesOf [] order)
    ⟨fun both => ⟨both.1, both.2⟩, fun isOrder => ⟨isOrder.perm, isOrder.ordered⟩⟩

theorem isOrder_setDepths_iff (depth : FactorId → Option ℕ) :
    (nodes.setDepths depth).IsOrder order ↔ nodes.IsOrder order := by
  constructor
  · intro isOrder
    have perm := isOrder.perm
    have ordered := isOrder.ordered
    rw [ids_setDepths] at perm
    rw [dependenciesOf_setDepths] at ordered
    exact ⟨perm, ordered⟩
  · intro isOrder
    constructor
    · rw [ids_setDepths]
      exact isOrder.perm
    · rw [dependenciesOf_setDepths]
      exact isOrder.ordered

theorem WellFormed.isOrder_kahn (wellFormed : nodes.WellFormed) (orders : HashOrders) :
    nodes.IsOrder (nodes.kahn orders).result :=
  ⟨(wellFormed.sorted_kahn orders).perm, (wellFormed.sorted_kahn orders).ordered⟩

theorem WellFormed.depthOf_setDepths_kahn (wellFormed : nodes.WellFormed) (orders : HashOrders)
    {id : FactorId} (member : id ∈ nodes.ids) (none : nodes.dependenciesOf id = []) :
    (nodes.setDepths (nodes.kahn orders).depth).depthOf id = nodes.depthOf id := by
  rw [depthOf_setDepths _ member,
    ((wellFormed.sorted_kahn orders).depth_eq_none id member).mpr none, Option.getD_none]

theorem WellFormed.depthsKnown_kahn (wellFormed : nodes.WellFormed) (orders : HashOrders) :
    (nodes.setDepths (nodes.kahn orders).depth).DepthsKnown := by
  intro id member some
  rw [ids_setDepths] at member
  rw [dependenciesOf_setDepths] at some ⊢
  have sorted := wellFormed.sorted_kahn orders
  have longest := sorted.longest id member
  rw [depthOf_setDepths _ member]
  cases isDepth : (nodes.kahn orders).depth id with
  | none => exact absurd ((sorted.depth_eq_none id member).mp isDepth) some
  | some depth =>
    rw [Kahn.height, isDepth] at longest
    exact longest

end FactorNodes

namespace FactorDag

/-- The kept order is an order of the nodes unless these have changed. -/
structure Sound (dag : FactorDag) : Prop where
  wellFormed : dag.nodes.WellFormed
  cached : dag.dirty = false → dag.nodes.IsOrder dag.topoOrder ∧ dag.nodes.DepthsKnown

variable {dag after : FactorDag}

theorem Sound.new : FactorDag.new.Sound where
  wellFormed := .empty
  cached := fun clean => absurd clean (by decide)

theorem addNode_ok_iff :
    dag.addNode node = .ok after ↔
      ∃ nodes, dag.nodes.addNode node = .ok nodes ∧
        { dag with nodes := nodes, dirty := true } = after := by
  unfold addNode
  cases dag.nodes.addNode node with
  | error error => simp [Except.map]
  | ok nodes => simp [Except.map]

theorem removeNode_ok_iff {id : FactorId} :
    dag.removeNode id = .ok after ↔
      ∃ nodes, dag.nodes.removeNode id = .ok nodes ∧
        { dag with nodes := nodes, dirty := true } = after := by
  unfold removeNode
  cases dag.nodes.removeNode id with
  | error error => simp [Except.map]
  | ok nodes => simp [Except.map]

theorem Sound.addNode (sound : dag.Sound) (added : dag.addNode node = .ok after) : after.Sound := by
  rcases addNode_ok_iff.mp added with ⟨nodes, ofNodes, rfl⟩
  exact ⟨sound.wellFormed.addNode ofNodes, fun clean => absurd clean Bool.true_eq_false_eq_False⟩

theorem Sound.removeNode {id : FactorId} (sound : dag.Sound)
    (removed : dag.removeNode id = .ok after) : after.Sound := by
  rcases removeNode_ok_iff.mp removed with ⟨nodes, ofNodes, rfl⟩
  exact ⟨sound.wellFormed.removeNode ofNodes, fun clean => absurd clean Bool.true_eq_false_eq_False⟩

/-- What a sort leaves behind: nodes with at most other depths, and their order. -/
structure Sorted (before after : FactorDag) (order : List FactorId) : Prop where
  sound : after.Sound
  dirty : after.dirty = false
  order : after.topoOrder = order
  ids : after.nodes.ids = before.nodes.ids
  dependenciesOf : after.nodes.dependenciesOf = before.nodes.dependenciesOf
  dependentsOf : after.nodes.dependentsOf = before.nodes.dependentsOf
  depthOf : ∀ id ∈ before.nodes.ids, before.nodes.dependenciesOf id = [] →
    after.nodes.depthOf id = before.nodes.depthOf id

theorem Sound.sorted (sound : dag.Sound) (orders : HashOrders) :
    dag.Sorted (dag.topologicalSort orders).2 (dag.topologicalSort orders).1 := by
  rw [topologicalSort]
  split_ifs with isDirty
  · have wellFormed := sound.wellFormed
    constructor
    · constructor
      · exact wellFormed.setDepths _
      · intro _
        exact ⟨(FactorNodes.isOrder_setDepths_iff _).mpr (wellFormed.isOrder_kahn orders),
          wellFormed.depthsKnown_kahn orders⟩
    · rfl
    · rfl
    · exact FactorNodes.ids_setDepths _ _
    · exact FactorNodes.dependenciesOf_setDepths _ _
    · exact FactorNodes.dependentsOf_setDepths _ _
    · exact fun _ member none => wellFormed.depthOf_setDepths_kahn orders member none
  · exact ⟨sound, Bool.eq_false_iff.mpr isDirty, rfl, rfl, rfl, rfl, fun _ _ _ => rfl⟩

theorem Sorted.isOrder {order : List FactorId} (sorted : dag.Sorted after order) :
    dag.nodes.IsOrder order := by
  have isOrder := (sorted.sound.cached sorted.dirty).1
  rw [sorted.order] at isOrder
  constructor
  · rw [← sorted.ids]
    exact isOrder.perm
  · rw [← sorted.dependenciesOf]
    exact isOrder.ordered

end FactorDag

end QAExchange
