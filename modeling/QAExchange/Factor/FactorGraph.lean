import QAExchange.Factor.FactorDag

/-! # The graph of the factors

What adding and removing a node does to the dependencies and the dependents, and that
the graph stays without cycles.
-/

namespace QAExchange

open Foundation

/-! ## Entries with distinct ids -/

variable {entries : List FactorNode}

theorem findNode_eq_some_iff (distinct : (entries.map FactorNode.id).Nodup) {id : FactorId}
    {node : FactorNode} : findNode entries id = some node ↔ node ∈ entries ∧ node.id = id := by
  induction entries with
  | nil => simp [findNode]
  | cons first rest induction =>
    rcases List.nodup_cons.mp distinct with ⟨isNew, restDistinct⟩
    rw [findNode, List.find?_cons]
    by_cases same : first.id = id
    · rw [decide_eq_true same]
      constructor
      · intro isFirst
        rw [← Option.some_inj.mp isFirst]
        exact ⟨List.mem_cons_self, same⟩
      · intro found
        rcases List.mem_cons.mp found.1 with rfl | later
        · rfl
        · exact absurd (same.trans found.2.symm ▸ List.mem_map_of_mem later) isNew
    · rw [decide_eq_false same]
      refine (induction restDistinct).trans ?_
      rw [List.mem_cons]
      constructor
      · intro found
        exact ⟨.inr found.1, found.2⟩
      · intro found
        refine ⟨found.1.resolve_left ?_, found.2⟩
        intro isFirst
        rw [isFirst] at found
        exact same found.2

theorem findNode_eq_none_iff {id : FactorId} :
    findNode entries id = none ↔ id ∉ entries.map FactorNode.id := by
  simp [findNode]

theorem findNode_perm {other : List FactorNode} (distinct : (entries.map FactorNode.id).Nodup)
    (perm : other.Perm entries) (id : FactorId) : findNode other id = findNode entries id := by
  have otherDistinct := (perm.map FactorNode.id).nodup_iff.mpr distinct
  apply Option.ext
  intro node
  rw [findNode_eq_some_iff otherDistinct, findNode_eq_some_iff distinct, perm.mem_iff]

namespace FactorNodes

variable {nodes : FactorNodes} {id : FactorId} {node : FactorNode}

theorem get_eq_some_iff : nodes.get id = some node ↔ node ∈ nodes.entries ∧ node.id = id :=
  findNode_eq_some_iff nodes.distinct

theorem get_eq_none_iff : nodes.get id = none ↔ id ∉ nodes.ids :=
  findNode_eq_none_iff

theorem get_of_mem (member : node ∈ nodes.entries) : nodes.get node.id = some node :=
  get_eq_some_iff.mpr ⟨member, rfl⟩

theorem exists_get (member : id ∈ nodes.ids) : ∃ node, nodes.get id = some node := by
  rcases List.mem_map.mp member with ⟨node, isNode, rfl⟩
  exact ⟨node, get_of_mem isNode⟩

theorem contains_iff : nodes.contains id = true ↔ id ∈ nodes.ids := by
  rw [contains, Option.isSome_iff_ne_none, ne_eq, get_eq_none_iff, not_not]

theorem dependenciesOf_eq_nil (absent : id ∉ nodes.ids) : nodes.dependenciesOf id = [] := by
  rw [dependenciesOf, get_eq_none_iff.mpr absent]
  rfl

theorem dependentsOf_eq_nil (absent : id ∉ nodes.ids) : nodes.dependentsOf id = [] := by
  rw [dependentsOf, get_eq_none_iff.mpr absent]
  rfl

theorem mem_ids_of_dependency (isDependency : dependency ∈ nodes.dependenciesOf id) :
    id ∈ nodes.ids := by
  by_contra absent
  rw [dependenciesOf_eq_nil absent] at isDependency
  exact absurd isDependency List.not_mem_nil

/-! ## One change of the map -/

section Modify

variable {change : FactorNode → FactorNode} {keepsId : ∀ node, (change node).id = node.id}

@[simp] theorem ids_modify (nodes : FactorNodes) (id : FactorId) :
    (nodes.modify change keepsId id).ids = nodes.ids := by
  unfold ids modify
  rw [List.map_map]
  apply List.map_congr_left
  intro node _
  rw [Function.comp_apply]
  split_ifs
  · exact keepsId node
  · rfl

theorem get_modify (nodes : FactorNodes) (id other : FactorId) :
    (nodes.modify change keepsId id).get other =
      if other = id then (nodes.get other).map change else nodes.get other := by
  have keeps : ∀ node : FactorNode, (if node.id = id then change node else node).id = node.id := by
    intro node
    split_ifs
    · exact keepsId node
    · rfl
  have found : (nodes.modify change keepsId id).get other =
      (nodes.get other).map fun node => if node.id = id then change node else node := by
    unfold get findNode modify
    rw [List.find?_map]
    congr 2
    funext node
    rw [Function.comp_apply, keeps]
  rw [found]
  cases isNode : nodes.get other with
  | none => simp
  | some node =>
    rw [Option.map_some, (get_eq_some_iff.mp isNode).2]
    split_ifs <;> rfl

@[simp] theorem ids_modifyAll (changed : List FactorId) (nodes : FactorNodes) :
    (changed.foldl (modify change keepsId) nodes).ids = nodes.ids := by
  induction changed generalizing nodes with
  | nil => rfl
  | cons id changed induction => rw [List.foldl_cons, induction, ids_modify]

theorem get_modifyAll (changed : List FactorId) (nodes : FactorNodes) (other : FactorId) :
    (changed.foldl (modify change keepsId) nodes).get other =
      (nodes.get other).map change^[changed.count other] := by
  induction changed generalizing nodes with
  | nil => simp
  | cons id changed induction =>
    rw [List.foldl_cons, induction, get_modify]
    by_cases same : other = id
    · rw [if_pos same, same, List.count_cons_self, Option.map_map, ← Function.iterate_succ]
    · rw [if_neg same, List.count_cons_of_ne (Ne.symm same)]

end Modify

theorem get_insert (nodes : FactorNodes) (node : FactorNode) (id : FactorId) :
    (nodes.insert node).get id = if id = node.id then some node else nodes.get id := by
  apply Option.ext
  intro other
  rw [get_eq_some_iff]
  simp only [insert, List.mem_append, List.mem_filter, List.mem_singleton, decide_eq_true_eq]
  split_ifs with same
  · rw [Option.some_inj]
    constructor
    · intro found
      rcases found with ⟨⟨_, different⟩ | isNode, isId⟩
      · exact absurd (isId.trans same) different
      · exact isNode.symm
    · intro isNode
      rw [← isNode]
      exact ⟨.inr rfl, same.symm⟩
  · rw [get_eq_some_iff]
    constructor
    · intro found
      rcases found with ⟨⟨member, _⟩ | isNode, isId⟩
      · exact ⟨member, isId⟩
      · rw [isNode] at isId
        exact absurd isId.symm same
    · intro found
      refine ⟨.inl ⟨found.1, ?_⟩, found.2⟩
      rw [found.2]
      exact same

theorem ids_insert (isNew : node.id ∉ nodes.ids) :
    (nodes.insert node).ids = nodes.ids ++ [node.id] := by
  have all : (nodes.entries.filter fun other => other.id ≠ node.id) = nodes.entries := by
    rw [List.filter_eq_self]
    intro other member
    apply decide_eq_true
    intro same
    rw [← same] at isNew
    exact isNew (List.mem_map_of_mem member)
  change ((nodes.entries.filter fun other => other.id ≠ node.id) ++ [node]).map FactorNode.id = _
  rw [all, List.map_append]
  rfl

theorem get_remove (nodes : FactorNodes) (id other : FactorId) :
    (nodes.remove id).get other = if other = id then none else nodes.get other := by
  apply Option.ext
  intro node
  rw [get_eq_some_iff]
  simp only [remove, List.mem_filter, decide_eq_true_eq]
  split_ifs with same
  · constructor
    · intro found
      exact absurd (found.2.trans same) found.1.2
    · intro none
      exact none.elim
  · rw [get_eq_some_iff]
    constructor
    · intro found
      exact ⟨found.1.1, found.2⟩
    · intro found
      refine ⟨⟨found.1, ?_⟩, found.2⟩
      rw [found.2]
      exact same

theorem ids_remove (nodes : FactorNodes) (id : FactorId) :
    (nodes.remove id).ids = nodes.ids.filter (· ≠ id) := by
  unfold ids remove
  rw [List.filter_map]
  rfl

/-! ## Adding a node -/

theorem iterate_addDependent (id : FactorId) (times : ℕ) (node : FactorNode) :
    (FactorNode.addDependent id)^[times] node =
      { node with dependents := node.dependents ++ List.replicate times id } := by
  induction times generalizing node with
  | zero => simp
  | succ times induction =>
    rw [Function.iterate_succ_apply, induction, List.replicate_succ]
    simp [FactorNode.addDependent]

structure Accepts (nodes : FactorNodes) (node : FactorNode) : Prop where
  isNew : node.id ∉ nodes.ids
  found : ∀ dep ∈ node.dependencies, dep ∈ nodes.ids

instance (nodes : FactorNodes) (node : FactorNode) : Decidable (nodes.Accepts node) :=
  decidable_of_iff (node.id ∉ nodes.ids ∧ ∀ dep ∈ node.dependencies, dep ∈ nodes.ids)
    ⟨fun both => ⟨both.1, both.2⟩, fun accepts => ⟨accepts.isNew, accepts.found⟩⟩

theorem addNode_ok_iff :
    nodes.addNode node = .ok after ↔
      nodes.Accepts node ∧ (nodes.pushDependents node).insert node = after := by
  rw [addNode]
  split_ifs with isOld
  · constructor
    · intro failed
      exact absurd failed (by simp)
    · intro accepted
      exact absurd (contains_iff.mp isOld) accepted.1.isNew
  · have isNew : node.id ∉ nodes.ids := fun member => isOld (contains_iff.mpr member)
    cases missing : node.dependencies.find? fun dep => !nodes.contains dep with
    | some dep =>
      have absent := List.find?_some missing
      rw [Bool.not_eq_true', Bool.eq_false_iff, ne_eq, contains_iff] at absent
      constructor
      · intro failed
        exact absurd failed (by simp)
      · intro accepted
        exact absurd (accepted.1.found dep (List.mem_of_find?_eq_some missing)) absent
    | none =>
      rw [Except.ok.injEq]
      apply (and_iff_right _).symm
      refine ⟨isNew, ?_⟩
      intro dep isDependency
      have present := List.find?_eq_none.mp missing dep isDependency
      rw [Bool.not_eq_true', Bool.not_eq_false, contains_iff] at present
      exact present

section Add

variable {nodes after : FactorNodes} {node : FactorNode}

section

variable (added : nodes.addNode node = .ok after)
include added

theorem ids_addNode : after.ids = nodes.ids ++ [node.id] := by
  rcases addNode_ok_iff.mp added with ⟨accepts, rfl⟩
  have isNew : node.id ∉ (nodes.pushDependents node).ids := by
    rw [pushDependents, ids_modifyAll]
    exact accepts.isNew
  rw [ids_insert isNew, pushDependents, ids_modifyAll]

theorem get_addNode (id : FactorId) :
    after.get id = if id = node.id then some node
      else (nodes.get id).map fun old => { old with
        dependents := old.dependents ++ List.replicate (node.dependencies.count id) node.id } := by
  rcases addNode_ok_iff.mp added with ⟨_, rfl⟩
  rw [get_insert, pushDependents, get_modifyAll]
  congr 2
  funext old
  exact iterate_addDependent node.id _ old

theorem dependenciesOf_addNode (id : FactorId) :
    after.dependenciesOf id =
      if id = node.id then node.dependencies else nodes.dependenciesOf id := by
  rw [dependenciesOf, get_addNode added]
  split_ifs
  · rfl
  · rw [Option.map_map]
    rfl

theorem depthOf_addNode (id : FactorId) :
    after.depthOf id = if id = node.id then node.depth else nodes.depthOf id := by
  rw [depthOf, get_addNode added]
  split_ifs
  · rfl
  · rw [Option.map_map]
    rfl

theorem mem_dependentsOf_addNode :
    dependent ∈ after.dependentsOf id ↔
      if id = node.id then dependent ∈ node.dependents
      else dependent ∈ nodes.dependentsOf id ∨ dependent = node.id ∧ id ∈ node.dependencies := by
  rw [dependentsOf, get_addNode added]
  split_ifs with same
  · rfl
  · cases isNode : nodes.get id with
    | none =>
      have absent := get_eq_none_iff.mp isNode
      have noDependency : id ∉ node.dependencies :=
        fun member => absent ((addNode_ok_iff.mp added).1.found id member)
      rw [dependentsOf, isNode]
      simp [noDependency]
    | some old =>
      rw [dependentsOf, isNode]
      simp [List.mem_replicate, List.count_eq_zero, and_comm]

end

end Add

/-! ## Removing a node -/

theorem iterate_dropDependent (id : FactorId) (times : ℕ) (node : FactorNode) :
    (FactorNode.dropDependent id)^[times] node =
      if times = 0 then node else node.dropDependent id := by
  induction times with
  | zero => rfl
  | succ times induction =>
    rw [Function.iterate_succ_apply', induction]
    split_ifs <;> simp_all [FactorNode.dropDependent]

theorem iterate_dropDependency (id : FactorId) (times : ℕ) (node : FactorNode) :
    (FactorNode.dropDependency id)^[times] node =
      if times = 0 then node else node.dropDependency id := by
  induction times with
  | zero => rfl
  | succ times induction =>
    rw [Function.iterate_succ_apply', induction]
    split_ifs <;> simp_all [FactorNode.dropDependency]

section Remove

variable {nodes after : FactorNodes} {id : FactorId}

theorem mem_ids_of_removeNode (removed : nodes.removeNode id = .ok after) : id ∈ nodes.ids := by
  by_contra absent
  rw [removeNode, get_eq_none_iff.mpr absent] at removed
  exact absurd removed (by simp)

theorem ids_removeNode (removed : nodes.removeNode id = .ok after) :
    after.ids = nodes.ids.filter (· ≠ id) := by
  rcases exists_get (mem_ids_of_removeNode removed) with ⟨node, isNode⟩
  rw [removeNode, isNode, Except.ok.injEq] at removed
  rw [← removed, ids_modifyAll, ids_modifyAll, ids_remove]

theorem get_removeNode (removed : nodes.removeNode id = .ok after) (other : FactorId) :
    after.get other = if other = id then none
      else (nodes.get other).map fun node => { node with
        dependencies := if other ∈ nodes.dependentsOf id then
            node.dependencies.filter (· ≠ id) else node.dependencies
        dependents := if other ∈ nodes.dependenciesOf id then
            node.dependents.filter (· ≠ id) else node.dependents } := by
  rcases exists_get (mem_ids_of_removeNode removed) with ⟨gone, isGone⟩
  have dependencies : nodes.dependenciesOf id = gone.dependencies := by
    rw [dependenciesOf, isGone]
    rfl
  have dependents : nodes.dependentsOf id = gone.dependents := by
    rw [dependentsOf, isGone]
    rfl
  rw [removeNode, isGone, Except.ok.injEq] at removed
  rw [← removed, get_modifyAll, get_modifyAll, get_remove, dependencies, dependents]
  by_cases isGone : other = id
  · rw [if_pos isGone, if_pos isGone]
    rfl
  · rw [if_neg isGone, if_neg isGone, Option.map_map]
    congr 1
    funext node
    rw [Function.comp_apply, iterate_dropDependent, iterate_dropDependency]
    simp only [List.count_eq_zero]
    split_ifs <;> simp_all [FactorNode.dropDependent, FactorNode.dropDependency]

variable {other : FactorId}

theorem depthOf_removeNode (removed : nodes.removeNode id = .ok after) (different : other ≠ id) :
    after.depthOf other = nodes.depthOf other := by
  rw [depthOf, get_removeNode removed, if_neg different, Option.map_map]
  rfl

theorem dependenciesOf_removeNode_self (removed : nodes.removeNode id = .ok after) :
    after.dependenciesOf id = [] := by
  rw [dependenciesOf, get_removeNode removed, if_pos rfl]
  rfl

theorem dependenciesOf_removeNode_ne (removed : nodes.removeNode id = .ok after)
    (different : other ≠ id) :
    after.dependenciesOf other =
      if other ∈ nodes.dependentsOf id then (nodes.dependenciesOf other).filter (· ≠ id)
      else nodes.dependenciesOf other := by
  rw [dependenciesOf, get_removeNode removed, if_neg different, Option.map_map]
  have same : nodes.dependenciesOf other = ((nodes.get other).map FactorNode.dependencies).getD [] := rfl
  rw [same]
  cases nodes.get other with
  | none => simp
  | some node => rfl

theorem dependentsOf_removeNode_self (removed : nodes.removeNode id = .ok after) :
    after.dependentsOf id = [] := by
  rw [dependentsOf, get_removeNode removed, if_pos rfl]
  rfl

theorem dependentsOf_removeNode_ne (removed : nodes.removeNode id = .ok after)
    (different : other ≠ id) :
    after.dependentsOf other =
      if other ∈ nodes.dependenciesOf id then (nodes.dependentsOf other).filter (· ≠ id)
      else nodes.dependentsOf other := by
  rw [dependentsOf, get_removeNode removed, if_neg different, Option.map_map]
  have same : nodes.dependentsOf other = ((nodes.get other).map FactorNode.dependents).getD [] := rfl
  rw [same]
  cases nodes.get other with
  | none => simp
  | some node => rfl

end Remove

/-! ## The graph has no cycles -/

/-- Each node comes after its dependencies in the order in which the nodes were added,
and is among the dependents of each of them. -/
structure WellFormed (nodes : FactorNodes) : Prop where
  ordered : Topological nodes.dependenciesOf [] nodes.ids
  recorded : ∀ id dependent, id ∈ nodes.dependenciesOf dependent →
    dependent ∈ nodes.dependentsOf id

def Converse (nodes : FactorNodes) : Prop :=
  ∀ id dependent, dependent ∈ nodes.dependentsOf id ↔ id ∈ nodes.dependenciesOf dependent

namespace WellFormed

variable {nodes after : FactorNodes}

theorem empty : FactorNodes.empty.WellFormed where
  ordered := trivial
  recorded := fun _ _ member => absurd member List.not_mem_nil

variable {id : FactorId}

theorem dependency_mem (wellFormed : nodes.WellFormed)
    (isDependency : dependency ∈ nodes.dependenciesOf id) : dependency ∈ nodes.ids :=
  wellFormed.ordered.dependency_mem (mem_ids_of_dependency isDependency) isDependency

theorem addNode (wellFormed : nodes.WellFormed) (added : nodes.addNode node = .ok after) :
    after.WellFormed where
  ordered := by
    have accepts := (addNode_ok_iff.mp added).1
    rw [ids_addNode added, topological_append]
    refine ⟨?_, ?_, trivial⟩
    · apply wellFormed.ordered.congr
      intro id member
      rw [dependenciesOf_addNode added, if_neg]
      intro same
      rw [same] at member
      exact accepts.isNew member
    · rw [dependenciesOf_addNode added, if_pos rfl]
      exact accepts.found
  recorded := by
    intro id dependent isDependency
    have accepts := (addNode_ok_iff.mp added).1
    rw [dependenciesOf_addNode added] at isDependency
    have isOld : id ≠ node.id := by
      intro same
      rw [same] at isDependency
      split_ifs at isDependency
      · exact accepts.isNew (accepts.found _ isDependency)
      · exact accepts.isNew (wellFormed.dependency_mem isDependency)
    rw [mem_dependentsOf_addNode added, if_neg isOld]
    split_ifs at isDependency with same
    · exact .inr ⟨same, isDependency⟩
    · exact .inl (wellFormed.recorded id dependent isDependency)

theorem dependenciesOf_removeNode (wellFormed : nodes.WellFormed)
    (removed : nodes.removeNode id = .ok after) {other : FactorId} (different : other ≠ id) :
    after.dependenciesOf other = (nodes.dependenciesOf other).filter (· ≠ id) := by
  rw [dependenciesOf_removeNode_ne removed different]
  split_ifs with isDependent
  · rfl
  · symm
    rw [List.filter_eq_self]
    intro dependency isDependency
    apply decide_eq_true
    intro same
    rw [same] at isDependency
    exact isDependent (wellFormed.recorded id other isDependency)

theorem removeNode (wellFormed : nodes.WellFormed) (removed : nodes.removeNode id = .ok after) :
    after.WellFormed where
  ordered := by
    rw [ids_removeNode removed]
    have general : ∀ seen order : List FactorId, Topological nodes.dependenciesOf seen order →
        Topological after.dependenciesOf (seen.filter (· ≠ id)) (order.filter (· ≠ id)) := by
      intro seen order
      induction order generalizing seen with
      | nil => exact fun _ => trivial
      | cons first rest induction =>
        intro holds
        have later := induction _ holds.2
        rw [List.filter_append] at later
        by_cases same : first = id
        · rw [List.filter_cons_of_neg (by simp [same])] at later ⊢
          rwa [List.filter_nil, List.append_nil] at later
        · rw [List.filter_cons_of_pos (by simp [same])] at later ⊢
          rw [List.filter_nil] at later
          refine ⟨?_, later⟩
          intro dependency isDependency
          rw [wellFormed.dependenciesOf_removeNode removed same] at isDependency
          rcases List.mem_filter.mp isDependency with ⟨old, kept⟩
          exact List.mem_filter.mpr ⟨holds.1 dependency old, kept⟩
    exact general [] nodes.ids wellFormed.ordered
  recorded := by
    intro other dependent isDependency
    by_cases isGone : dependent = id
    · rw [isGone, dependenciesOf_removeNode_self removed] at isDependency
      exact absurd isDependency List.not_mem_nil
    · rw [wellFormed.dependenciesOf_removeNode removed isGone] at isDependency
      rcases List.mem_filter.mp isDependency with ⟨old, kept⟩
      have stays : dependent ∈ nodes.dependentsOf other := wellFormed.recorded _ _ old
      rw [dependentsOf_removeNode_ne removed (of_decide_eq_true kept)]
      split_ifs
      · exact List.mem_filter.mpr ⟨stays, decide_eq_true isGone⟩
      · exact stays

theorem converse_removeNode (wellFormed : nodes.WellFormed) (converse : nodes.Converse)
    (removed : nodes.removeNode id = .ok after) : after.Converse := by
  intro other dependent
  refine ⟨?_, (wellFormed.removeNode removed).recorded other dependent⟩
  intro isDependent
  by_cases isGone : other = id
  · rw [isGone, dependentsOf_removeNode_self removed] at isDependent
    exact absurd isDependent List.not_mem_nil
  · rw [dependentsOf_removeNode_ne removed isGone] at isDependent
    have stays : dependent ∈ nodes.dependentsOf other ∧ dependent ≠ id := by
      split_ifs at isDependent with isDependency
      · rcases List.mem_filter.mp isDependent with ⟨old, kept⟩
        exact ⟨old, of_decide_eq_true kept⟩
      · refine ⟨isDependent, ?_⟩
        intro same
        rw [same] at isDependent
        exact isDependency ((converse other id).mp isDependent)
    rw [wellFormed.dependenciesOf_removeNode removed stays.2, List.mem_filter]
    exact ⟨(converse other dependent).mp stays.1, decide_eq_true isGone⟩

/-- After a new node, dependents and dependencies are the same relation exactly if the
node brings no dependents of its own. -/
theorem converse_addNode_iff (wellFormed : nodes.WellFormed) (converse : nodes.Converse)
    (added : nodes.addNode node = .ok after) : after.Converse ↔ node.dependents = [] := by
  have accepts := (addNode_ok_iff.mp added).1
  constructor
  · intro stillConverse
    rw [List.eq_nil_iff_forall_not_mem]
    intro dependent isDependent
    have isDependency := (stillConverse node.id dependent).mp
      ((mem_dependentsOf_addNode added).mpr (by rwa [if_pos rfl]))
    rw [dependenciesOf_addNode added] at isDependency
    split_ifs at isDependency
    · exact accepts.isNew (accepts.found _ isDependency)
    · exact accepts.isNew (wellFormed.dependency_mem isDependency)
  · intro none id dependent
    refine ⟨?_, (wellFormed.addNode added).recorded id dependent⟩
    intro isDependent
    rw [mem_dependentsOf_addNode added, none] at isDependent
    rw [dependenciesOf_addNode added]
    split_ifs at isDependent with isNode
    · exact absurd isDependent List.not_mem_nil
    · rcases isDependent with old | ⟨isNode, isDependency⟩
      · have isDependency := (converse id dependent).mp old
        have known := mem_ids_of_dependency isDependency
        rw [if_neg]
        · exact isDependency
        · intro same
          rw [same] at known
          exact accepts.isNew known
      · rw [if_pos isNode]
        exact isDependency

end WellFormed

end FactorNodes

end QAExchange
