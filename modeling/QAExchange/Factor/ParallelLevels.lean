import QAExchange.Factor.TopologicalSort
import QAExchange.Foundation.Runs

/-! # Parallel levels

After any calls the topological sort lists every node after its dependencies. The
levels are those of the longest chains exactly if the nodes without dependencies carry
the depth 0, which a node that has lost its dependencies after a sort does not.
-/

namespace QAExchange.FactorDag

open Foundation

inductive Call
  | addNode (node : FactorNode)
  | removeNode (id : FactorId)
  | topologicalSort (orders : HashOrders)
  | detectCycle (orders : HashOrders)
  | getParallelLevels (orders : HashOrders)
  | getAffectedNodes (orders : HashOrders) (sourceId : FactorId)

/-- The graph after a call; one that fails leaves it as it is. -/
def step (dag : FactorDag) : Call → FactorDag
  | .addNode node =>
    match dag.addNode node with
    | .ok after => after
    | .error _ => dag
  | .removeNode id =>
    match dag.removeNode id with
    | .ok after => after
    | .error _ => dag
  | .topologicalSort orders => (dag.topologicalSort orders).2
  | .detectCycle orders => (dag.detectCycle orders).2
  | .getParallelLevels orders => (dag.getParallelLevels orders).2
  | .getAffectedNodes orders sourceId => (dag.getAffectedNodes orders sourceId).2

/-- Every node is in one level, whose index is the length of its longest chain of
dependencies, and its dependencies are in earlier levels. -/
structure AreLevels (nodes : FactorNodes) (levels : List (List FactorId)) : Prop where
  perm : levels.flatten.Perm nodes.ids
  longest : ∀ (index : ℕ) (level : List FactorId), levels[index]? = some level →
    ∀ id ∈ level, LongestChain nodes.dependenciesOf id index
  earlier : ∀ (index : ℕ) (level : List FactorId), levels[index]? = some level →
    ∀ id ∈ level, ∀ dependency ∈ nodes.dependenciesOf id,
      ∃ smaller < index, ∃ other, levels[smaller]? = some other ∧ dependency ∈ other

structure InOrder (dag : FactorDag) : Prop where
  sorts : ∀ orders, dag.nodes.IsOrder (dag.topologicalSort orders).1
  noCycle : ∀ orders, (dag.detectCycle orders).1 = none
  converse : dag.nodes.Converse
  levels : ∀ orders, AreLevels dag.nodes (dag.getParallelLevels orders).1

/-- The nodes without dependencies have the depth 0, or there are no others and all have
the same depth. -/
def DepthsGrounded (nodes : FactorNodes) : Prop :=
  Grounded nodes.dependenciesOf nodes.depthOf nodes.ids

/-- A new node brings no dependents, and the depths stay grounded with it; and they do
without a node that is removed, which is then no dependency any more. -/
def KeepsOrder (dag : FactorDag) : Call → Prop
  | .addNode node =>
    dag.nodes.Accepts node → node.dependents = [] ∧
      Grounded (Function.update dag.nodes.dependenciesOf node.id node.dependencies)
        (Function.update dag.nodes.depthOf node.id node.depth) (dag.nodes.ids ++ [node.id])
  | .removeNode id =>
    id ∈ dag.nodes.ids →
      Grounded (fun other => (dag.nodes.dependenciesOf other).filter (· ≠ id))
        dag.nodes.depthOf (dag.nodes.ids.filter (· ≠ id))
  | .topologicalSort _ | .detectCycle _ | .getParallelLevels _ | .getAffectedNodes _ _ => True

instance (dag : FactorDag) : ∀ call, Decidable (KeepsOrder dag call)
  | .addNode node => inferInstanceAs (Decidable (dag.nodes.Accepts node → _ ∧ _))
  | .removeNode id => inferInstanceAs (Decidable (id ∈ dag.nodes.ids → _))
  | .topologicalSort _ => .isTrue trivial
  | .detectCycle _ => .isTrue trivial
  | .getParallelLevels _ => .isTrue trivial
  | .getAffectedNodes _ _ => .isTrue trivial

theorem grouped_levelGroups {nodes : FactorNodes} (known : ∀ id ∈ topo, id ∈ nodes.ids) :
    Grouped nodes.depthOf topo (levelGroups nodes topo) := by
  induction topo using List.reverseRecOn with
  | nil => exact Grouped.empty _
  | append_singleton topo id induction =>
    have before := induction fun other member => known other (List.mem_append_left _ member)
    rcases FactorNodes.exists_get (known id (List.mem_append_right _ List.mem_cons_self)) with
      ⟨node, isNode⟩
    have isDepth : nodes.depthOf id = node.depth := by
      rw [FactorNodes.depthOf, isNode]
      rfl
    have pushed : levelGroups nodes (topo ++ [id]) =
        pushGroup (nodes.depthOf id) id (levelGroups nodes topo) := by
      simp [levelGroups, isNode, isDepth]
    rw [pushed]
    exact before.push id

theorem grounded_congr {nodes other : FactorNodes} (ids : nodes.ids = other.ids)
    (dependenciesOf : nodes.dependenciesOf = other.dependenciesOf)
    (depthOf : ∀ id ∈ other.ids, other.dependenciesOf id = [] →
      nodes.depthOf id = other.depthOf id) : DepthsGrounded nodes ↔ DepthsGrounded other := by
  unfold DepthsGrounded Grounded
  rw [ids, dependenciesOf]
  apply or_congr
  · apply forall₂_congr
    intro id member
    apply imp_congr_right
    intro none
    rw [depthOf id member none]
  · apply and_congr_right
    intro none
    apply forall₂_congr
    intro id member
    apply forall₂_congr
    intro second isSecond
    rw [depthOf id member (none id member), depthOf second isSecond (none second isSecond)]

/-- The groups by depth are the levels exactly if the depths are grounded. -/
theorem areLevels_iff {nodes : FactorNodes} {groups : List (ℕ × List FactorId)}
    (isOrder : nodes.IsOrder order) (known : nodes.DepthsKnown)
    (perm : groups.Perm (levelGroups nodes order)) :
    AreLevels nodes ((sortByKey Prod.fst groups).map Prod.snd) ↔ DepthsGrounded nodes := by
  have grouped : Grouped nodes.depthOf order groups :=
    (grouped_levelGroups fun id member => isOrder.perm.mem_iff.mp member).of_perm perm
  have sortedGroups : Grouped nodes.depthOf order (sortByKey Prod.fst groups) :=
    grouped.of_perm (List.perm_insertionSort _ _)
  have inside : ∀ id ∈ order, ∀ dependency ∈ nodes.dependenciesOf id, dependency ∈ order :=
    fun id member dependency isDependency => isOrder.ordered.dependency_mem member isDependency
  have longest : ∀ id ∈ order, LongestChain nodes.dependenciesOf id
      (if nodes.dependenciesOf id = [] then 0 else nodes.depthOf id) := by
    intro id member
    split_ifs with none
    · exact LongestChain.zero_iff.mpr none
    · exact known id (isOrder.perm.mem_iff.mp member) none
  have iff := sortedGroups.longestChain_iff inside longest
    (fun id _ some => (if_neg some).symm) grouped.sortByKey_lt
  have sameGrounded : Grounded nodes.dependenciesOf nodes.depthOf order ↔ DepthsGrounded nodes := by
    unfold DepthsGrounded Grounded
    simp only [isOrder.perm.mem_iff]
  rw [← sameGrounded, ← iff]
  constructor
  · intro areLevels place group found
    apply areLevels.longest place group.2
    rw [List.getElem?_map, found]
    rfl
  · intro right
    have longestOf : ∀ (index : ℕ) (level : List FactorId),
        ((sortByKey Prod.fst groups).map Prod.snd)[index]? = some level →
        ∀ id ∈ level, LongestChain nodes.dependenciesOf id index := by
      intro index level found
      rw [List.getElem?_map, Option.map_eq_some_iff] at found
      rcases found with ⟨group, isGroup, rfl⟩
      exact right index group isGroup
    refine ⟨sortedGroups.perm.trans isOrder.perm, longestOf, ?_⟩
    intro index level found id member dependency isDependency
    have chain := longestOf index level found id member
    have isNode : dependency ∈ order := by
      apply inside id _ dependency isDependency
      apply sortedGroups.perm.mem_iff.mp
      exact List.mem_flatten.mpr ⟨level, List.mem_of_getElem? found, member⟩
    rcases List.mem_flatten.mp (sortedGroups.perm.mem_iff.mpr isNode) with ⟨other, isOther, within⟩
    rcases List.getElem?_of_mem isOther with ⟨smaller, atSmaller⟩
    have shorter := longestOf smaller other atSmaller dependency within
    exact ⟨smaller, chain.lt_of_dependency shorter isDependency, other, atSmaller, within⟩

/-! ## What the calls answer -/

variable {dag : FactorDag}

theorem Sound.detectCycle_eq_none (sound : dag.Sound) (orders : HashOrders) :
    (dag.detectCycle orders).1 = none := by
  have sorted := sound.sorted orders
  have sameLength : (dag.topologicalSort orders).1.length =
      (dag.topologicalSort orders).2.nodes.entries.length := by
    rw [sorted.isOrder.perm.length_eq, ← sorted.ids]
    exact List.length_map _
  rw [detectCycle]
  dsimp only
  rw [if_neg fun both => both.1 sameLength]

theorem Sound.areLevels_iff (sound : dag.Sound) (orders : HashOrders) :
    AreLevels dag.nodes (dag.getParallelLevels orders).1 ↔ DepthsGrounded dag.nodes := by
  have sorted := sound.sorted orders
  have cached := sorted.sound.cached sorted.dirty
  rw [sorted.order] at cached
  have iff := FactorDag.areLevels_iff cached.1 cached.2 (orders.levels.perm _)
  rw [← grounded_congr sorted.ids sorted.dependenciesOf sorted.depthOf, ← iff]
  constructor
  · intro levels
    rcases levels with ⟨perm, longest, earlier⟩
    rw [← sorted.ids] at perm
    rw [← sorted.dependenciesOf] at longest earlier
    exact ⟨perm, longest, earlier⟩
  · intro levels
    rcases levels with ⟨perm, longest, earlier⟩
    rw [sorted.ids] at perm
    rw [sorted.dependenciesOf] at longest earlier
    exact ⟨perm, longest, earlier⟩

theorem Sound.inOrder_iff (sound : dag.Sound) :
    dag.InOrder ↔ dag.nodes.Converse ∧ DepthsGrounded dag.nodes := by
  constructor
  · intro inOrder
    exact ⟨inOrder.converse, (sound.areLevels_iff .same).mp (inOrder.levels .same)⟩
  · intro both
    constructor
    · exact fun orders => (sound.sorted orders).isOrder
    · exact sound.detectCycle_eq_none
    · exact both.1
    · exact fun orders => (sound.areLevels_iff orders).mpr both.2

theorem Sound.step (sound : dag.Sound) (call : Call) : (dag.step call).Sound := by
  cases call with
  | addNode node =>
    unfold FactorDag.step
    dsimp only
    split
    · rename_i added
      exact sound.addNode added
    · exact sound
  | removeNode id =>
    unfold FactorDag.step
    dsimp only
    split
    · rename_i removed
      exact sound.removeNode removed
    · exact sound
  | topologicalSort orders => exact (sound.sorted orders).sound
  | detectCycle orders => exact (sound.sorted orders).sound
  | getParallelLevels orders => exact (sound.sorted orders).sound
  | getAffectedNodes orders sourceId => exact (sound.sorted orders).sound

theorem Sorted.ordered_iff {after : FactorDag} {order : List FactorId}
    (sorted : dag.Sorted after order) :
    after.nodes.Converse ∧ DepthsGrounded after.nodes ↔
      dag.nodes.Converse ∧ DepthsGrounded dag.nodes := by
  rw [grounded_congr sorted.ids sorted.dependenciesOf sorted.depthOf, FactorNodes.Converse,
    FactorNodes.Converse, sorted.dependenciesOf, sorted.dependentsOf]

theorem grounded_addNode_iff {nodes : FactorNodes} (added : nodes.addNode node = .ok after) :
    DepthsGrounded after ↔ Grounded (Function.update nodes.dependenciesOf node.id node.dependencies)
      (Function.update nodes.depthOf node.id node.depth) (nodes.ids ++ [node.id]) := by
  have dependencies : after.dependenciesOf =
      Function.update nodes.dependenciesOf node.id node.dependencies := by
    funext id
    rw [FactorNodes.dependenciesOf_addNode added, Function.update_apply]
  have depths : after.depthOf = Function.update nodes.depthOf node.id node.depth := by
    funext id
    rw [FactorNodes.depthOf_addNode added, Function.update_apply]
  rw [DepthsGrounded, dependencies, depths, FactorNodes.ids_addNode added]

theorem grounded_removeNode_iff {nodes after : FactorNodes} {id : FactorId}
    (wellFormed : nodes.WellFormed) (removed : nodes.removeNode id = .ok after) :
    DepthsGrounded after ↔ Grounded (fun other => (nodes.dependenciesOf other).filter (· ≠ id))
      nodes.depthOf (nodes.ids.filter (· ≠ id)) := by
  have isOther : ∀ other ∈ nodes.ids.filter (· ≠ id), other ≠ id :=
    fun other member => of_decide_eq_true (List.mem_filter.mp member).2
  unfold DepthsGrounded Grounded
  rw [FactorNodes.ids_removeNode removed]
  apply or_congr
  · apply forall₂_congr
    intro other member
    rw [wellFormed.dependenciesOf_removeNode removed (isOther other member),
      FactorNodes.depthOf_removeNode removed (isOther other member)]
  · apply and_congr
    · apply forall₂_congr
      intro other member
      rw [wellFormed.dependenciesOf_removeNode removed (isOther other member)]
    · apply forall₂_congr
      intro first isFirst
      apply forall₂_congr
      intro second isSecond
      rw [FactorNodes.depthOf_removeNode removed (isOther first isFirst),
        FactorNodes.depthOf_removeNode removed (isOther second isSecond)]

/-- A call keeps the order exactly if it is of the kind that does. -/
theorem Sound.inOrder_step_iff (sound : dag.Sound) (inOrder : dag.InOrder) (call : Call) :
    (dag.step call).InOrder ↔ KeepsOrder dag call := by
  have both := sound.inOrder_iff.mp inOrder
  rw [(sound.step call).inOrder_iff]
  cases call with
  | addNode node =>
    unfold FactorDag.step FactorDag.addNode
    dsimp only
    cases added : dag.nodes.addNode node with
    | error error =>
      refine iff_of_true both ?_
      intro accepts
      rw [FactorNodes.addNode_ok_iff.mpr ⟨accepts, rfl⟩] at added
      exact absurd added (by simp)
    | ok nodes =>
      have accepts := (FactorNodes.addNode_ok_iff.mp added).1
      exact (and_congr (sound.wellFormed.converse_addNode_iff both.1 added)
        (grounded_addNode_iff added)).trans (imp_iff_right accepts).symm
  | removeNode id =>
    unfold FactorDag.step FactorDag.removeNode
    dsimp only
    cases removed : dag.nodes.removeNode id with
    | error error =>
      refine iff_of_true both ?_
      intro member
      rcases FactorNodes.exists_get member with ⟨node, isNode⟩
      rw [FactorNodes.removeNode, isNode] at removed
      exact absurd removed (by simp)
    | ok nodes =>
      have member := FactorNodes.mem_ids_of_removeNode removed
      have converse := sound.wellFormed.converse_removeNode both.1 removed
      exact ((and_iff_right converse).trans
        (grounded_removeNode_iff sound.wellFormed removed)).trans (imp_iff_right member).symm
  | topologicalSort orders => exact iff_of_true ((sound.sorted orders).ordered_iff.mpr both) trivial
  | detectCycle orders => exact iff_of_true ((sound.sorted orders).ordered_iff.mpr both) trivial
  | getParallelLevels orders =>
    exact iff_of_true ((sound.sorted orders).ordered_iff.mpr both) trivial
  | getAffectedNodes orders sourceId =>
    exact iff_of_true ((sound.sorted orders).ordered_iff.mpr both) trivial

theorem new_inOrder : FactorDag.new.InOrder := by
  apply Sound.new.inOrder_iff.mpr
  constructor
  · exact fun id dependent => iff_of_false List.not_mem_nil List.not_mem_nil
  · exact .inl fun id member => absurd member List.not_mem_nil

/-- After every beginning of the calls everything is in order, exactly if all calls keep it. -/
theorem inOrder_iff_keepsOrder (calls : List Call) :
    (∀ first, first <+: calls → (first.foldl FactorDag.step .new).InOrder) ↔
      Along FactorDag.step KeepsOrder calls .new := by
  rw [forall_reached_iff calls new_inOrder]
  apply along_congr fun dag => dag.Sound ∧ dag.InOrder
  · intro dag call both
    exact both.1.inOrder_step_iff both.2 call
  · intro dag call both inOrder
    exact ⟨both.1.step call, inOrder⟩
  · exact ⟨Sound.new, new_inOrder⟩

/-- A diamond and a node that is removed before the first sort keep the order. -/
example : Along FactorDag.step KeepsOrder
    [.addNode (.source "A"), .addNode (.derived "B" ["A"]), .addNode (.derived "C" ["A"]),
      .addNode (.derived "D" ["B", "C"]), .removeNode "A", .getParallelLevels .same] .new := by
  decide +kernel

/-- A node that loses its dependency after a sort keeps the depth of this sort. -/
theorem staleDepth_not_inOrder :
    ¬([.addNode (.source "A"), .addNode (.source "C"), .addNode (.derived "B" ["A"]),
      .topologicalSort .same, .removeNode "A"].foldl FactorDag.step .new).InOrder := by
  intro inOrder
  have levels := inOrder.levels .same
  have isLevel : (getParallelLevels .same ([.addNode (.source "A"), .addNode (.source "C"),
      .addNode (.derived "B" ["A"]), .topologicalSort .same, .removeNode "A"].foldl
        FactorDag.step .new)).1[1]? = some ["B"] := by
    decide +kernel
  have longest := levels.longest 1 ["B"] isLevel "B" List.mem_cons_self
  rcases longest.exists_dependency with ⟨dependency, isDependency, _⟩
  revert isDependency
  change dependency ∉ FactorNodes.dependenciesOf _ "B"
  have none : FactorNodes.dependenciesOf ([.addNode (.source "A"), .addNode (.source "C"),
      .addNode (.derived "B" ["A"]), .topologicalSort .same, .removeNode "A"].foldl
        FactorDag.step .new).nodes "B" = [] := by
    decide +kernel
  rw [none]
  exact List.not_mem_nil

end QAExchange.FactorDag
