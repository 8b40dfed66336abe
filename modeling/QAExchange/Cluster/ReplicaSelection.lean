import Mathlib.Data.List.Dedup
import QAExchange.Cluster.ConsistentHash

/-! # Replicas on the ring

A key is kept by the first active nodes that are met clockwise from its hash.
-/

namespace QAExchange.ConsistentHashRing

open Foundation

def activeNode (state : ConsistentHashRing) (nodeId : String) : Option PhysicalNode :=
  (state.nodes nodeId).filter PhysicalNode.isActive

/-- The loop of `get_nodes_with_replicas`, with the ids that it has seen and its result so far. -/
def collectNodes (state : ConsistentHashRing) (replicaCount : ℕ) :
    List VirtualNode → List String → List PhysicalNode → List PhysicalNode
  | [], _, result => result
  | vnode :: vnodes, seenNodes, result =>
    if vnode.physicalNode ∈ seenNodes then collectNodes state replicaCount vnodes seenNodes result
    else
      match state.nodes vnode.physicalNode with
      | none => collectNodes state replicaCount vnodes (vnode.physicalNode :: seenNodes) result
      | some node =>
        if node.isActive then
          if replicaCount < (result ++ [node]).length then result ++ [node]
          else collectNodes state replicaCount vnodes (vnode.physicalNode :: seenNodes)
            (result ++ [node])
        else collectNodes state replicaCount vnodes (vnode.physicalNode :: seenNodes) result

def getNodesWithReplicas (hashKey : String → Hash) (state : ConsistentHashRing) (key : String)
    (replicaCount : ℕ) : List PhysicalNode :=
  state.collectNodes replicaCount (state.ring.around (hashKey key)) [] []

def updateNodeStatus (state : ConsistentHashRing) (nodeId : String) (isActive : Bool) :
    ConsistentHashRing :=
  match state.nodes nodeId with
  | none => state
  | some node =>
    { state with
      nodes := Function.update state.nodes nodeId (some { node with isActive := isActive }) }

inductive Change
  | addNode (node : PhysicalNode)
  | removeNode (nodeId : String)
  | updateNodeStatus (nodeId : String) (isActive : Bool)

def change (hashKey : String → Hash) (state : ConsistentHashRing) : Change → ConsistentHashRing
  | .addNode node => state.addNode hashKey node
  | .removeNode nodeId => state.removeNode nodeId
  | .updateNodeStatus nodeId isActive => state.updateNodeStatus nodeId isActive

def activeOwners (state : ConsistentHashRing) : List String :=
  (state.ring.rows.map VirtualNode.physicalNode).dedup.filter fun nodeId =>
    (state.activeNode nodeId).isSome

/-- Clockwise from the place, a virtual node of the first node comes before all of the other
one. -/
def MetBefore (state : ConsistentHashRing) (place : Hash) (nodeId other : String) : Prop :=
  ∃ vnode ∈ state.ring.rows, vnode.physicalNode = nodeId ∧
    ∀ otherVnode ∈ state.ring.rows, otherVnode.physicalNode = other →
      KeyedRows.NotLater VirtualNode.hash place vnode otherVnode

/-- Different active nodes, as many as there are of those asked for, in the order in which they
are met and before all others; the first one is the node of the key if that is active. -/
structure Selected (hashKey : String → Hash) (state : ConsistentHashRing) (key : String)
    (replicaCount : ℕ) (selected : List PhysicalNode) : Prop where
  different : (selected.map PhysicalNode.id).Nodup
  active : ∀ node ∈ selected, node.isActive = true ∧ state.nodes node.id = some node ∧
    node.id ∈ state.activeOwners
  length : selected.length = min (replicaCount + 1) state.activeOwners.length
  inOrder : selected.Pairwise fun node other => state.MetBefore (hashKey key) node.id other.id
  first : ∀ node ∈ selected, ∀ other ∈ state.activeOwners,
    other ∉ selected.map PhysicalNode.id → state.MetBefore (hashKey key) node.id other
  primary : ∀ node, state.getNode hashKey key = some node → node.isActive = true →
    selected.head? = some node

variable {hashKey : String → Hash} {state : ConsistentHashRing}

/-- The active nodes in the order in which they are met. -/
def metNodes (state : ConsistentHashRing) (vnodes : List VirtualNode) : List PhysicalNode :=
  (firsts (vnodes.map VirtualNode.physicalNode)).filterMap state.activeNode

theorem activeNode_of_nodes (found : state.nodes nodeId = some node) :
    state.activeNode nodeId = if node.isActive then some node else none := by
  rw [activeNode, found, Option.filter_some]

theorem mem_activeNode (found : state.activeNode nodeId = some node) :
    state.nodes nodeId = some node ∧ node.isActive = true :=
  Option.filter_eq_some_iff.mp found

theorem collectNodes_eq {replicaCount : ℕ} (vnodes : List VirtualNode) (seenNodes : List String)
    {result : List PhysicalNode} (wanted : result.length ≤ replicaCount) :
    state.collectNodes replicaCount vnodes seenNodes result =
      result ++ (((firsts (vnodes.map VirtualNode.physicalNode)).filter
        (· ∉ seenNodes)).filterMap state.activeNode).take (replicaCount + 1 - result.length) := by
  induction vnodes generalizing seenNodes result with
  | nil => rw [collectNodes, List.map_nil, firsts, List.filter_nil, List.filterMap_nil,
      List.take_nil, List.append_nil]
  | cons vnode vnodes induction =>
    rw [collectNodes, List.map_cons, firsts]
    split_ifs with seen
    · rw [List.filter_cons_of_neg (by simpa using seen), List.filter_filter, induction _ wanted]
      congr 3
      apply List.filter_congr
      intro nodeId _
      by_cases known : nodeId ∈ seenNodes
      · simp [known]
      · have other : nodeId ≠ vnode.physicalNode := fun same => known (same ▸ seen)
        simp [known, other]
    · have behind : ((firsts (vnodes.map VirtualNode.physicalNode)).filter
          (· ≠ vnode.physicalNode)).filter (· ∉ seenNodes) =
          (firsts (vnodes.map VirtualNode.physicalNode)).filter
            (· ∉ vnode.physicalNode :: seenNodes) := by
        rw [List.filter_filter]
        apply List.filter_congr
        intro nodeId _
        rw [← Bool.decide_and]
        apply decide_eq_decide.mpr
        rw [List.mem_cons, not_or, and_comm]
      rw [List.filter_cons_of_pos (by simpa using seen), behind]
      cases found : state.nodes vnode.physicalNode with
      | none =>
        have inactive : state.activeNode vnode.physicalNode = none := by
          rw [activeNode, found, Option.filter_none]
        rw [List.filterMap_cons_none inactive]
        exact induction _ wanted
      | some node =>
        have isNode := activeNode_of_nodes found
        dsimp only
        split_ifs at isNode ⊢ with isActive enough
        · rw [List.length_append, List.length_singleton] at enough
          have last : replicaCount + 1 - result.length = 1 := by omega
          rw [List.filterMap_cons_some isNode, last, List.take_succ_cons, List.take_zero]
        · rw [List.length_append, List.length_singleton] at enough
          have more : (result ++ [node]).length ≤ replicaCount := by
            rw [List.length_append, List.length_singleton]
            omega
          have left : replicaCount + 1 - result.length =
              replicaCount + 1 - (result ++ [node]).length + 1 := by
            rw [List.length_append, List.length_singleton]
            omega
          rw [List.filterMap_cons_some isNode, induction _ more, left, List.take_succ_cons,
            List.append_assoc, List.singleton_append]
        · rw [List.filterMap_cons_none isNode]
          exact induction _ wanted

theorem getNodesWithReplicas_eq (key : String) (replicaCount : ℕ) :
    state.getNodesWithReplicas hashKey key replicaCount =
      (state.metNodes (state.ring.around (hashKey key))).take (replicaCount + 1) := by
  have collected := state.collectNodes_eq (state.ring.around (hashKey key)) []
    (List.length_nil.trans_le (Nat.zero_le replicaCount))
  rw [getNodesWithReplicas, collected, List.nil_append, List.length_nil, Nat.sub_zero, metNodes]
  congr 2
  apply List.filter_eq_self.mpr
  intro nodeId _
  exact decide_eq_true List.not_mem_nil

theorem metNodes_map_id (tabled : Tabled state) (vnodes : List VirtualNode) :
    (state.metNodes vnodes).map PhysicalNode.id =
      (firsts (vnodes.map VirtualNode.physicalNode)).filter fun nodeId =>
        (state.activeNode nodeId).isSome := by
  rw [metNodes, List.map_filterMap]
  induction firsts (vnodes.map VirtualNode.physicalNode) with
  | nil => rfl
  | cons nodeId rest induction =>
    cases found : state.activeNode nodeId with
    | none =>
      rw [List.filterMap_cons, found, Option.map_none]
      dsimp only
      rw [induction, List.filter_cons_of_neg (by simp [found])]
    | some node =>
      rw [List.filterMap_cons, found, Option.map_some,
        tabled.named nodeId node (mem_activeNode found).1]
      dsimp only
      rw [induction, List.filter_cons_of_pos (by simp [found])]

theorem metBefore_of_occursBefore
    (before : OccursBefore ((state.ring.around place).map VirtualNode.physicalNode) nodeId other) :
    state.MetBefore place nodeId other := by
  obtain ⟨earlier, later, split, absent⟩ := before
  obtain ⟨first, rest, isAround, isEarlier, isRest⟩ := List.map_eq_append_iff.mp split
  obtain ⟨vnode, behind, rfl, rfl, isLater⟩ := List.map_eq_cons_iff.mp isRest
  have inOrder := state.ring.around_inOrder place
  rw [isAround] at inOrder
  obtain ⟨_, laterInOrder, _⟩ := List.pairwise_append.mp inOrder
  refine ⟨vnode, ?_, rfl, ?_⟩
  · apply KeyedRows.mem_around.mp
    rw [isAround]
    exact List.mem_append_right _ List.mem_cons_self
  · intro otherVnode isRow isOther
    have isMet : otherVnode ∈ state.ring.around place := KeyedRows.mem_around.mpr isRow
    rw [isAround] at isMet
    obtain inFirst | inBehind := List.mem_append.mp isMet
    · apply absurd _ absent
      rw [← isEarlier, ← isOther]
      exact List.mem_map_of_mem inFirst
    · cases inBehind with
      | head => exact KeyedRows.NotLater.refl place _
      | tail _ isBehind => exact (List.pairwise_cons.mp laterInOrder).1 otherVnode isBehind

theorem perm_activeOwners (tabled : Tabled state) (place : Hash) :
    ((state.metNodes (state.ring.around place)).map PhysicalNode.id).Perm state.activeOwners := by
  rw [metNodes_map_id tabled, activeOwners]
  apply List.Perm.filter
  apply (List.perm_ext_iff_of_nodup (nodup_firsts _) (List.nodup_dedup _)).mpr
  intro nodeId
  rw [mem_firsts, List.mem_dedup, List.mem_map, List.mem_map]
  simp only [KeyedRows.mem_around]

theorem Tabled.selected (tabled : Tabled state) (key : String) (replicaCount : ℕ) :
    Selected hashKey state key replicaCount
      (state.getNodesWithReplicas hashKey key replicaCount) := by
  rw [getNodesWithReplicas_eq]
  have ids := metNodes_map_id tabled (state.ring.around (hashKey key))
  have perm := perm_activeOwners tabled (hashKey key)
  have inOrder : (state.metNodes (state.ring.around (hashKey key))).Pairwise
      fun node other => state.MetBefore (hashKey key) node.id other.id := by
    have idsInOrder := (firsts_inOrder ((state.ring.around (hashKey key)).map
      VirtualNode.physicalNode)).filter fun nodeId => (state.activeNode nodeId).isSome
    rw [← ids, List.pairwise_map] at idsInOrder
    exact idsInOrder.imp metBefore_of_occursBefore
  constructor
  · rw [List.map_take]
    exact (perm.nodup_iff.mpr ((List.nodup_dedup _).filter _)).sublist (List.take_sublist _ _)
  · intro node member
    have isMet := List.mem_of_mem_take member
    obtain ⟨nodeId, _, found⟩ := List.mem_filterMap.mp isMet
    obtain ⟨inTable, isActive⟩ := mem_activeNode found
    rw [tabled.named nodeId node inTable]
    refine ⟨isActive, inTable, ?_⟩
    rw [← tabled.named nodeId node inTable]
    exact perm.mem_iff.mp (List.mem_map_of_mem isMet)
  · rw [List.length_take, ← perm.length_eq, List.length_map]
  · exact inOrder.sublist (List.take_sublist _ _)
  · intro node member other isOwner notSelected
    obtain ⟨otherNode, isMet, rfl⟩ := List.mem_map.mp (perm.mem_iff.mpr isOwner)
    rw [← List.take_append_drop (replicaCount + 1)
      (state.metNodes (state.ring.around (hashKey key)))] at isMet inOrder
    obtain inTake | inDrop := List.mem_append.mp isMet
    · exact absurd (List.mem_map_of_mem inTake) notSelected
    · exact (List.pairwise_append.mp inOrder).2.2 node member otherNode inDrop
  · intro node isNode isActive
    obtain ⟨vnode, isNext, inTable⟩ := Option.bind_eq_some_iff.mp isNode
    rw [← KeyedRows.head?_around] at isNext
    have isFound : state.activeNode vnode.physicalNode = some node :=
      Option.filter_eq_some_iff.mpr ⟨inTable, isActive⟩
    cases walk : state.ring.around (hashKey key) with
    | nil =>
      rw [walk] at isNext
      cases isNext
    | cons first rest =>
      rw [walk] at isNext
      cases isNext
      rw [metNodes, List.map_cons, firsts, List.filterMap_cons_some isFound, List.take_succ_cons,
        List.head?_cons]

theorem Tabled.updateNodeStatus (tabled : Tabled state) (nodeId : String) (isActive : Bool) :
    Tabled (state.updateNodeStatus nodeId isActive) := by
  unfold ConsistentHashRing.updateNodeStatus
  cases found : state.nodes nodeId with
  | none => exact tabled
  | some node =>
    constructor
    · intro vnode member
      obtain ⟨owner, isOwner⟩ := tabled.owned vnode member
      dsimp only
      by_cases same : vnode.physicalNode = nodeId
      · rw [same, Function.update_self]
        exact ⟨_, rfl⟩
      · rw [Function.update_of_ne same]
        exact ⟨owner, isOwner⟩
    · intro other otherNode isNode
      dsimp only at isNode
      by_cases same : other = nodeId
      · rw [same, Function.update_self] at isNode
        rw [same, ← Option.some.inj isNode]
        exact tabled.named nodeId node found
      · rw [Function.update_of_ne same] at isNode
        exact tabled.named other otherNode isNode

theorem Tabled.change (tabled : Tabled state) (call : Change) :
    Tabled (state.change hashKey call) := by
  cases call with
  | addNode node => exact @Tabled.step hashKey state tabled (.addNode node)
  | removeNode nodeId => exact @Tabled.step hashKey state tabled (.removeNode nodeId)
  | updateNodeStatus nodeId isActive => exact tabled.updateNodeStatus nodeId isActive

/-- Whatever nodes have been added, removed, switched on and off, and whatever the hashes are:
a key gets its node and the next active ones clockwise. -/
theorem selected_of_changes (hashKey : String → Hash) (virtualNodeCount : ℕ)
    (changes : List Change) (key : String) (replicaCount : ℕ) :
    Selected hashKey (changes.foldl (change hashKey) (new virtualNodeCount)) key replicaCount
      ((changes.foldl (change hashKey) (new virtualNodeCount)).getNodesWithReplicas hashKey key
        replicaCount) := by
  apply Tabled.selected
  apply foldl_invariant Tabled _ changes (tabled_new virtualNodeCount)
  intro state call tabled
  exact tabled.change call

end QAExchange.ConsistentHashRing
