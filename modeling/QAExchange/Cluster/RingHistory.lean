import Mathlib.Data.List.Induction
import Mathlib.Order.MinMax
import QAExchange.Cluster.ConsistentHash

/-! # The ring and the history of its nodes

When the ring holds exactly the virtual nodes that the current nodes are due. Calls
that overflow, or that give a node fewer virtual nodes than it has, leave others.
-/

namespace QAExchange.ConsistentHashRing

open Foundation

/-- The virtual nodes that a weight stands for, without overflow. -/
def dueCount (virtualNodeCount weight : ℕ) : ℕ := virtualNodeCount * weight / 100

/-- The ring holds the virtual nodes of the current nodes with their current
weights, and no others. -/
def Exact (hashKey : String → Hash) (state : ConsistentHashRing) : Prop :=
  ∀ vnode, vnode ∈ state.ring.rows ↔ ∃ node, state.nodes vnode.physicalNode = some node ∧
    vnode.index < dueCount state.virtualNodeCount node.weight ∧
    vnode.hash = hashKey (vnodeKey vnode.physicalNode vnode.index)

def heldCount (state : ConsistentHashRing) (nodeId : String) : ℕ :=
  match state.nodes nodeId with
  | some node => dueCount state.virtualNodeCount node.weight
  | none => 0

def Kept (state : ConsistentHashRing) : Call → Prop
  | .addNode node =>
    max (state.heldCount node.id) (vnodeCount state.virtualNodeCount node.weight) =
      dueCount state.virtualNodeCount node.weight
  | .removeNode _ => True

instance (state : ConsistentHashRing) (call : Call) : Decidable (Kept state call) :=
  match call with
  | .addNode node =>
    inferInstanceAs (Decidable (max (state.heldCount node.id)
      (vnodeCount state.virtualNodeCount node.weight) =
      dueCount state.virtualNodeCount node.weight))
  | .removeNode _ => inferInstanceAs (Decidable True)

variable {hashKey : String → Hash} {keys : Set String}

theorem exact_new (virtualNodeCount : ℕ) : Exact hashKey (new virtualNodeCount) := by
  intro vnode
  constructor
  · intro member
    cases member
  · rintro ⟨node, found, _⟩
    cases found

variable {state : ConsistentHashRing}

theorem Exact.mem_iff (exact' : Exact hashKey state) (nodeId : String) (index : ℕ) :
    virtualNode hashKey nodeId index ∈ state.ring.rows ↔ index < state.heldCount nodeId := by
  rw [exact', heldCount]
  change (∃ node, state.nodes nodeId = some node ∧
    index < dueCount state.virtualNodeCount node.weight ∧ _) ↔ _
  cases found : state.nodes nodeId with
  | none => simp
  | some node => simp [virtualNode]

theorem Sound.exact_iff (sound : Sound hashKey keys state) :
    Exact hashKey state ↔ ∀ nodeId index,
      virtualNode hashKey nodeId index ∈ state.ring.rows ↔ index < state.heldCount nodeId := by
  constructor
  · intro exact'
    exact exact'.mem_iff
  · intro counts vnode
    constructor
    · intro member
      have known := (sound.ofKey vnode member).1
      rcases sound.owned vnode member with ⟨node, found⟩
      rw [known, counts, heldCount, found] at member
      exact ⟨node, found, member, congrArg VirtualNode.hash known⟩
    · rintro ⟨node, found, less, hash⟩
      have known : vnode = virtualNode hashKey vnode.physicalNode vnode.index := by
        rcases vnode with ⟨nodeId, index, place⟩
        dsimp only at hash
        rw [hash]
        rfl
      rw [known, counts, heldCount, found]
      exact less

theorem virtualNode_inj
    (equal : virtualNode hashKey nodeId index = virtualNode hashKey other position) :
    nodeId = other ∧ index = position :=
  ⟨congrArg VirtualNode.physicalNode equal, congrArg VirtualNode.index equal⟩

theorem heldCount_addNode (state : ConsistentHashRing) (node : PhysicalNode) (nodeId : String) :
    (state.addNode hashKey node).heldCount nodeId =
      if nodeId = node.id then dueCount state.virtualNodeCount node.weight
      else state.heldCount nodeId := by
  rw [heldCount]
  change (match Function.update state.nodes node.id (some node) nodeId with
    | some node => dueCount state.virtualNodeCount node.weight
    | none => 0) = _
  split_ifs with same
  · rw [same, Function.update_self]
  · rw [Function.update_of_ne same, heldCount]

theorem exact_step_iff (injective : Set.InjOn hashKey keys) (sound : Sound hashKey keys state)
    (occur : callKeys state.virtualNodeCount call ⊆ keys) (exact' : Exact hashKey state) :
    Exact hashKey (step hashKey state call) ↔ Kept state call := by
  have next := sound.step injective call occur
  cases call with
  | addNode node =>
    have members := mem_addNode injective sound occur
    have written : ∀ nodeId index,
        virtualNode hashKey nodeId index ∈ (state.addNode hashKey node).ring.rows ↔
          index < state.heldCount nodeId ∨
            nodeId = node.id ∧ index < vnodeCount state.virtualNodeCount node.weight := by
      intro nodeId index
      rw [members, exact'.mem_iff]
      apply or_congr_right
      constructor
      · rintro ⟨position, less, equal⟩
        rcases virtualNode_inj equal with ⟨sameNode, rfl⟩
        exact ⟨sameNode, less⟩
      · rintro ⟨rfl, less⟩
        exact ⟨index, less, rfl⟩
    rw [next.exact_iff]
    change (∀ nodeId index, virtualNode hashKey nodeId index ∈
      (state.addNode hashKey node).ring.rows ↔
        index < (state.addNode hashKey node).heldCount nodeId) ↔ _
    constructor
    · intro counts
      apply eq_of_forall_lt_iff
      intro index
      have count := (written node.id index).symm.trans (counts node.id index)
      rw [heldCount_addNode, if_pos rfl] at count
      rw [lt_max_iff, ← count]
      simp
    · intro kept nodeId index
      rw [written, heldCount_addNode]
      split_ifs with same
      · subst same
        have due : max (state.heldCount node.id) _ = _ := kept
        rw [← due, lt_max_iff]
        simp
      · simp [same]
  | removeNode removed =>
    refine iff_of_true ?_ trivial
    apply next.exact_iff.mpr
    intro nodeId index
    change virtualNode hashKey nodeId index ∈ (state.removeNode removed).ring.rows ↔ _
    rw [mem_removeNode, exact'.mem_iff, heldCount, heldCount]
    change _ ↔ index < match Function.update state.nodes removed none nodeId with
      | some node => dueCount state.virtualNodeCount node.weight
      | none => 0
    by_cases same : nodeId = removed
    · rw [same, Function.update_self]
      simp [virtualNode]
    · rw [Function.update_of_ne same]
      simp [virtualNode, same]

theorem Exact.getNode_eq (exact' : Exact hashKey state) (otherExact : Exact hashKey other)
    (sameNodes : other.nodes = state.nodes)
    (sameCount : other.virtualNodeCount = state.virtualNodeCount) (key : String) :
    other.getNode hashKey key = state.getNode hashKey key := by
  have sameRing : other.ring = state.ring := by
    apply KeyedRows.eq_of_mem_iff
    intro vnode
    rw [exact', otherExact, sameNodes, sameCount]
  rw [getNode, getNode, sameRing, sameNodes]

variable {calls : List Call}

theorem exact_along (injective : Set.InjOn hashKey keys) (sound : Sound hashKey keys state)
    (occur : ∀ call ∈ calls, callKeys state.virtualNodeCount call ⊆ keys)
    (exact' : Exact hashKey state) :
    Along (step hashKey) (fun state call => Exact hashKey (step hashKey state call)) calls state ↔
      Along (step hashKey) Kept calls state := by
  induction calls generalizing state with
  | nil => exact Iff.rfl
  | cons call calls induction =>
    have occurs := occur call List.mem_cons_self
    have next := sound.step injective call occurs
    rw [Along, Along, exact_step_iff injective sound occurs exact']
    apply and_congr_right
    intro kept
    apply induction next
    · intro other member
      rw [virtualNodeCount_step]
      exact occur other (List.mem_cons_of_mem call member)
    · exact (exact_step_iff injective sound occurs exact').mpr kept

theorem virtualNodeCount_run (virtualNodeCount : ℕ) (calls : List Call) :
    (run hashKey virtualNodeCount calls).virtualNodeCount = virtualNodeCount := by
  induction calls using List.reverseRecOn with
  | nil => rfl
  | append_singleton calls call induction =>
    rw [run, List.foldl_append]
    exact (virtualNodeCount_step _ call).trans induction

theorem sound_run {virtualNodeCount : ℕ} (injective : Set.InjOn hashKey keys)
    (occur : ∀ call ∈ calls, callKeys virtualNodeCount call ⊆ keys) :
    Sound hashKey keys (run hashKey virtualNodeCount calls) := by
  induction calls using List.reverseRecOn with
  | nil => exact sound_new virtualNodeCount
  | append_singleton calls call induction =>
    rw [run, List.foldl_append]
    have before := induction fun other member => occur other (List.mem_append_left _ member)
    apply before.step injective call
    rw [virtualNodeCount_run]
    exact occur call (List.mem_append_right calls List.mem_cons_self)

/-- What consistent hashing promises about a run: the ring is that of the current
nodes, only the current nodes decide where a key goes, and a node that comes or
goes moves no other keys than its own. -/
structure HashesConsistently (hashKey : String → Hash) (virtualNodeCount : ℕ)
    (calls : List Call) : Prop where
  exact : ∀ first, first <+: calls → Exact hashKey (run hashKey virtualNodeCount first)
  onlyNodes : ∀ first, first <+: calls → ∀ other : ConsistentHashRing, Exact hashKey other →
    other.virtualNodeCount = virtualNodeCount →
    other.nodes = (run hashKey virtualNodeCount first).nodes → ∀ key,
      other.getNode hashKey key = (run hashKey virtualNodeCount first).getNode hashKey key
  added : ∀ first node, first ++ [.addNode node] <+: calls →
    (run hashKey virtualNodeCount first).nodes node.id = none → ∀ key,
      (run hashKey virtualNodeCount (first ++ [.addNode node])).getNode hashKey key =
          (run hashKey virtualNodeCount first).getNode hashKey key ∨
        (run hashKey virtualNodeCount (first ++ [.addNode node])).getNode hashKey key = some node
  removed : ∀ first nodeId, first ++ [.removeNode nodeId] <+: calls → ∀ key,
    (∀ node, (run hashKey virtualNodeCount first).getNode hashKey key = some node →
      node.id ≠ nodeId) →
    (run hashKey virtualNodeCount (first ++ [.removeNode nodeId])).getNode hashKey key =
      (run hashKey virtualNodeCount first).getNode hashKey key

theorem run_append_singleton (virtualNodeCount : ℕ) (first : List Call) (call : Call) :
    run hashKey virtualNodeCount (first ++ [call]) =
      step hashKey (run hashKey virtualNodeCount first) call := by
  rw [run, List.foldl_append]
  rfl

theorem hashesConsistently_iff (hashKey : String → Hash) (virtualNodeCount : ℕ) (calls : List Call)
    (injective : Set.InjOn hashKey (occurringKeys virtualNodeCount calls)) :
    HashesConsistently hashKey virtualNodeCount calls ↔
      Along (step hashKey) Kept calls (new virtualNodeCount) := by
  have occur : ∀ call ∈ calls,
      callKeys virtualNodeCount call ⊆ occurringKeys virtualNodeCount calls :=
    fun call member _ isKey => ⟨call, member, isKey⟩
  have prefixes : ∀ {first}, first <+: calls → ∀ call ∈ first,
      callKeys virtualNodeCount call ⊆ occurringKeys virtualNodeCount calls :=
    fun isFirst call member => occur call (isFirst.subset member)
  have everywhere : (∀ first, first <+: calls → Exact hashKey (run hashKey virtualNodeCount first)) ↔
      Along (step hashKey) Kept calls (new virtualNodeCount) :=
    (forall_reached_iff calls (exact_new virtualNodeCount)).trans
      (exact_along injective (sound_new virtualNodeCount) occur (exact_new virtualNodeCount))
  constructor
  · intro consistent
    exact everywhere.mp consistent.exact
  · intro kept
    have always := everywhere.mpr kept
    constructor
    · exact always
    · intro first isFirst other otherExact sameCount sameNodes key
      apply (always first isFirst).getNode_eq otherExact sameNodes
      rw [sameCount, virtualNodeCount_run]
    · intro first node isFirst isNew key
      rw [run_append_singleton]
      have before := (List.prefix_append first [.addNode node]).trans isFirst
      apply getNode_addNode injective (sound_run injective (prefixes before)) _ isNew
      rw [virtualNodeCount_run]
      exact prefixes isFirst _ (List.mem_append_right first List.mem_cons_self)
    · intro first nodeId isFirst key notOwned
      rw [run_append_singleton]
      have before := (List.prefix_append first [.removeNode nodeId]).trans isFirst
      exact getNode_removeNode (sound_run injective (prefixes before)).toTabled key notOwned

/-! ## Two runs -/

def sampleHash (key : String) : Hash :=
  if key = "a#0" then 10 else if key = "b#0" then 20 else if key = "a#1" then 30 else 0

def nodeA : PhysicalNode := ⟨"a", "127.0.0.1:9001", 200, true⟩

def nodeB : PhysicalNode := ⟨"b", "127.0.0.1:9002", 100, true⟩

theorem sampleHash_injOn (known : ∀ call ∈ calls, callKeys 1 call ⊆ {"a#0", "b#0", "a#1"}) :
    Set.InjOn sampleHash (occurringKeys 1 calls) := by
  have injective : Set.InjOn sampleHash {"a#0", "b#0", "a#1"} := by
    rintro left (rfl | rfl | rfl) right (rfl | rfl | rfl) <;> decide
  apply injective.mono
  rintro key ⟨call, member, isKey⟩
  exact known call member isKey

theorem callKeys_nodeA : callKeys 1 (.addNode nodeA) ⊆ {"a#0", "b#0", "a#1"} := by
  rintro key ⟨index, less, rfl⟩
  have small : index < 2 := less
  rcases (by omega : index = 0 ∨ index = 1) with rfl | rfl
  · exact Or.inl (by decide)
  · exact Or.inr (Or.inr (by decide))

theorem callKeys_nodeB : callKeys 1 (.addNode nodeB) ⊆ {"a#0", "b#0", "a#1"} := by
  rintro key ⟨index, less, rfl⟩
  have small : index < 1 := less
  rcases (by omega : index = 0) with rfl
  exact Or.inr (Or.inl (by decide))

/-- Two nodes come and one goes. -/
theorem twoNodes_hashConsistently :
    HashesConsistently sampleHash 1 [.addNode nodeA, .addNode nodeB, .removeNode "a"] := by
  apply (hashesConsistently_iff sampleHash 1 _ _).mpr
  · decide
  · apply sampleHash_injOn
    intro call member
    simp only [List.mem_cons, List.not_mem_nil, or_false] at member
    rcases member with rfl | rfl | rfl
    · exact callKeys_nodeA
    · exact callKeys_nodeB
    · exact Set.empty_subset _

/-- A node that comes again with half its weight keeps all its virtual nodes. -/
theorem lighterNode_not_hashConsistently :
    Set.InjOn sampleHash (occurringKeys 1 [.addNode nodeA,
      .addNode { nodeA with weight := 100 }]) ∧
    ¬ HashesConsistently sampleHash 1 [.addNode nodeA, .addNode { nodeA with weight := 100 }] := by
  constructor
  · apply sampleHash_injOn
    intro call member
    simp only [List.mem_cons, List.not_mem_nil, or_false] at member
    rcases member with rfl | rfl
    · exact callKeys_nodeA
    · rintro key ⟨index, less, rfl⟩
      have small : index < 1 := less
      rcases (by omega : index = 0) with rfl
      exact Or.inl (by decide)
  · intro consistent
    have isExact := consistent.exact _ List.prefix_rfl (virtualNode sampleHash "a" 1)
    rcases isExact.mp (by decide) with ⟨node, found, less, _⟩
    cases found
    revert less
    decide

end QAExchange.ConsistentHashRing
