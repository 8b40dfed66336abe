import Mathlib.Algebra.GroupWithZero.Nat
import QAExchange.Foundation.Clockwise
import QAExchange.Foundation.Runs
import QAExchange.Foundation.Text

/-! # Consistent hashing

`ConsistentHashRing` of `cluster/consistent_hash.rs`: virtual nodes on a circle of
64-bit hashes and the table of the physical nodes.
-/

namespace QAExchange

open Foundation

/-- A `u64`. -/
abbrev Hash := Fin (2 ^ 64)

instance hashes_neZero : NeZero (2 ^ 64 : ℕ) := ⟨by decide⟩

structure VirtualNode where
  physicalNode : String
  index : ℕ
  hash : Hash
  deriving DecidableEq

/-- A physical node, without the load that only load balancing looks at. -/
structure PhysicalNode where
  id : String
  addr : String
  weight : ℕ
  isActive : Bool
  deriving DecidableEq

structure ConsistentHashRing where
  ring : KeyedRows VirtualNode.hash
  nodes : String → Option PhysicalNode
  virtualNodeCount : ℕ

/-- `format!("{}#{}", node_id, i)` -/
def vnodeKey (nodeId : String) (index : ℕ) : String := nodeId ++ "#" ++ toString index

namespace ConsistentHashRing

def new (virtualNodeCount : ℕ) : ConsistentHashRing where
  ring := .empty
  nodes _ := none
  virtualNodeCount := virtualNodeCount

/-- `(self.virtual_node_count as u32 * weight / 100) as usize`, where the product
wraps around. -/
def vnodeCount (virtualNodeCount weight : ℕ) : ℕ :=
  virtualNodeCount % 2 ^ 32 * weight % 2 ^ 32 / 100

section Operations

variable (hashKey : String → Hash)

def virtualNode (nodeId : String) (index : ℕ) : VirtualNode where
  physicalNode := nodeId
  index := index
  hash := hashKey (vnodeKey nodeId index)

def addNode (state : ConsistentHashRing) (node : PhysicalNode) : ConsistentHashRing :=
  { state with
    nodes := Function.update state.nodes node.id (some node)
    ring := (List.range (vnodeCount state.virtualNodeCount node.weight)).foldl
      (fun ring index => ring.insert (virtualNode hashKey node.id index)) state.ring }

def removeNode (state : ConsistentHashRing) (nodeId : String) : ConsistentHashRing :=
  { state with
    nodes := Function.update state.nodes nodeId none
    ring := state.ring.retain fun vnode => vnode.physicalNode ≠ nodeId }

def getNode (state : ConsistentHashRing) (key : String) : Option PhysicalNode :=
  (state.ring.clockwise (hashKey key)).bind fun vnode => state.nodes vnode.physicalNode

end Operations

inductive Call
  | addNode (node : PhysicalNode)
  | removeNode (nodeId : String)
  deriving DecidableEq

def step (hashKey : String → Hash) (state : ConsistentHashRing) : Call → ConsistentHashRing
  | .addNode node => state.addNode hashKey node
  | .removeNode nodeId => state.removeNode nodeId

def run (hashKey : String → Hash) (virtualNodeCount : ℕ) (calls : List Call) : ConsistentHashRing :=
  calls.foldl (step hashKey) (new virtualNodeCount)

theorem vnodeKey_inj (equal : vnodeKey left first = vnodeKey right second) :
    left = right ∧ first = second := by
  have lists := congrArg String.toList equal
  simp only [vnodeKey, String.toList_append, Nat.toString_eq_repr, Nat.toList_repr,
    List.append_assoc] at lists
  exact numbered_inj rfl lists

def callKeys (virtualNodeCount : ℕ) : Call → Set String
  | .addNode node =>
    { key | ∃ index < vnodeCount virtualNodeCount node.weight, key = vnodeKey node.id index }
  | .removeNode _ => ∅

def occurringKeys (virtualNodeCount : ℕ) (calls : List Call) : Set String :=
  { key | ∃ call ∈ calls, key ∈ callKeys virtualNodeCount call }

/-! ## Every run -/

variable {hashKey : String → Hash} {keys : Set String}

structure Tabled (state : ConsistentHashRing) : Prop where
  owned : ∀ vnode ∈ state.ring.rows, ∃ node, state.nodes vnode.physicalNode = some node
  named : ∀ nodeId node, state.nodes nodeId = some node → node.id = nodeId

/-- Where the hash does not confuse keys, the virtual nodes are at the hashes of
theirs. -/
structure Sound (hashKey : String → Hash) (keys : Set String) (state : ConsistentHashRing) :
    Prop extends Tabled state where
  ofKey : ∀ vnode ∈ state.ring.rows,
    vnode = virtualNode hashKey vnode.physicalNode vnode.index ∧
      vnodeKey vnode.physicalNode vnode.index ∈ keys

theorem tabled_new (virtualNodeCount : ℕ) : Tabled (new virtualNodeCount) where
  owned _ member := nomatch member
  named _ _ found := nomatch found

theorem sound_new (virtualNodeCount : ℕ) : Sound hashKey keys (new virtualNodeCount) where
  toTabled := tabled_new virtualNodeCount
  ofKey _ member := nomatch member

variable {nodeId : String}

theorem mem_insertAll_imp {rows : KeyedRows VirtualNode.hash} {count : ℕ} {vnode : VirtualNode}
    (member : vnode ∈ ((List.range count).foldl
      (fun ring index => ring.insert (virtualNode hashKey nodeId index)) rows).rows) :
    vnode ∈ rows.rows ∨ ∃ index < count, vnode = virtualNode hashKey nodeId index := by
  induction count with
  | zero => exact Or.inl member
  | succ count induction =>
    rw [List.range_succ, List.foldl_append, List.foldl_cons, List.foldl_nil,
      KeyedRows.mem_insert] at member
    rcases member with rfl | ⟨earlier, _⟩
    · exact Or.inr ⟨count, Nat.lt_succ_self count, rfl⟩
    · apply (induction earlier).imp_right
      rintro ⟨index, less, isNew⟩
      exact ⟨index, Nat.lt_succ_of_lt less, isNew⟩

theorem mem_insertAll {rows : KeyedRows VirtualNode.hash} (injective : Set.InjOn hashKey keys)
    (ofKey : ∀ vnode ∈ rows.rows, vnode = virtualNode hashKey vnode.physicalNode vnode.index ∧
      vnodeKey vnode.physicalNode vnode.index ∈ keys)
    (occur : ∀ index < count, vnodeKey nodeId index ∈ keys) (vnode : VirtualNode) :
    vnode ∈ ((List.range count).foldl
        (fun ring index => ring.insert (virtualNode hashKey nodeId index)) rows).rows ↔
      vnode ∈ rows.rows ∨ ∃ index < count, vnode = virtualNode hashKey nodeId index := by
  induction count with
  | zero => simp
  | succ count induction =>
    have earlier := induction fun index less => occur index (Nat.lt_succ_of_lt less)
    rw [List.range_succ, List.foldl_append, List.foldl_cons, List.foldl_nil,
      KeyedRows.mem_insert, earlier]
    constructor
    · rintro (rfl | ⟨old | ⟨index, less, rfl⟩, _⟩)
      · exact Or.inr ⟨count, Nat.lt_succ_self count, rfl⟩
      · exact Or.inl old
      · exact Or.inr ⟨index, Nat.lt_succ_of_lt less, rfl⟩
    · intro member
      by_cases isNew : vnode = virtualNode hashKey nodeId count
      · exact Or.inl isNew
      · right
        have among : vnode ∈ rows.rows ∨ ∃ index < count, vnode = virtualNode hashKey nodeId index := by
          rcases member with old | ⟨index, less, rfl⟩
          · exact Or.inl old
          · refine Or.inr ⟨index, ?_, rfl⟩
            apply Nat.lt_of_le_of_ne (Nat.le_of_lt_succ less)
            rintro rfl
            exact isNew rfl
        refine ⟨among, ?_⟩
        intro sameHash
        apply isNew
        have known : vnode = virtualNode hashKey vnode.physicalNode vnode.index ∧
            vnodeKey vnode.physicalNode vnode.index ∈ keys := by
          rcases among with old | ⟨index, less, rfl⟩
          · exact ofKey vnode old
          · exact ⟨rfl, occur index (Nat.lt_succ_of_lt less)⟩
        rw [known.1] at sameHash
        have sameKey := injective known.2 (occur count (Nat.lt_succ_self count)) sameHash
        rcases vnodeKey_inj sameKey with ⟨sameNode, sameIndex⟩
        rw [known.1, sameNode, sameIndex]

variable {state : ConsistentHashRing} {node : PhysicalNode}

theorem mem_addNode (injective : Set.InjOn hashKey keys) (sound : Sound hashKey keys state)
    (occur : callKeys state.virtualNodeCount (.addNode node) ⊆ keys) (vnode : VirtualNode) :
    vnode ∈ (state.addNode hashKey node).ring.rows ↔ vnode ∈ state.ring.rows ∨
      ∃ index < vnodeCount state.virtualNodeCount node.weight,
        vnode = virtualNode hashKey node.id index :=
  mem_insertAll injective sound.ofKey (fun index less => occur ⟨index, less, rfl⟩) vnode

theorem mem_removeNode (vnode : VirtualNode) :
    vnode ∈ (state.removeNode nodeId).ring.rows ↔
      vnode ∈ state.ring.rows ∧ vnode.physicalNode ≠ nodeId := by
  rw [removeNode, KeyedRows.mem_retain, decide_eq_true_eq]

theorem virtualNodeCount_step (state : ConsistentHashRing) (call : Call) :
    (step hashKey state call).virtualNodeCount = state.virtualNodeCount := by
  cases call with
  | addNode node => rfl
  | removeNode nodeId => rfl

theorem Tabled.step (tabled : Tabled state) (call : Call) : Tabled (step hashKey state call) := by
  cases call with
  | addNode node =>
    constructor
    · intro vnode member
      change ∃ found, Function.update state.nodes node.id (some node) vnode.physicalNode = some found
      by_cases same : vnode.physicalNode = node.id
      · exact ⟨node, by rw [same, Function.update_self]⟩
      · rw [Function.update_of_ne same]
        rcases mem_insertAll_imp member with old | ⟨index, less, rfl⟩
        · exact tabled.owned vnode old
        · exact absurd rfl same
    · intro nodeId found isFound
      change Function.update state.nodes node.id (some node) nodeId = some found at isFound
      by_cases same : nodeId = node.id
      · rw [same, Function.update_self] at isFound
        rw [same, Option.some.inj isFound]
      · rw [Function.update_of_ne same] at isFound
        exact tabled.named nodeId found isFound
  | removeNode nodeId =>
    constructor
    · intro vnode member
      rcases (mem_removeNode vnode).mp member with ⟨old, other⟩
      rcases tabled.owned vnode old with ⟨node, found⟩
      refine ⟨node, ?_⟩
      change Function.update state.nodes nodeId none vnode.physicalNode = some node
      rw [Function.update_of_ne other, found]
    · intro other found isFound
      change Function.update state.nodes nodeId none other = some found at isFound
      by_cases same : other = nodeId
      · rw [same, Function.update_self] at isFound
        cases isFound
      · rw [Function.update_of_ne same] at isFound
        exact tabled.named other found isFound

theorem Sound.step (injective : Set.InjOn hashKey keys) (sound : Sound hashKey keys state)
    (call : Call) (occur : callKeys state.virtualNodeCount call ⊆ keys) :
    Sound hashKey keys (step hashKey state call) := by
  refine ⟨sound.toTabled.step call, ?_⟩
  intro vnode member
  cases call with
  | addNode node =>
    rcases (mem_addNode injective sound occur vnode).mp member with old | ⟨index, less, rfl⟩
    · exact sound.ofKey vnode old
    · exact ⟨rfl, occur ⟨index, less, rfl⟩⟩
  | removeNode nodeId => exact sound.ofKey vnode ((mem_removeNode vnode).mp member).1

/-- The ring only answers with nodes of the table. -/
theorem Tabled.nodes_of_getNode (tabled : Tabled state)
    (asked : state.getNode hashKey key = some node) : state.nodes node.id = some node := by
  rcases Option.bind_eq_some_iff.mp asked with ⟨vnode, _, found⟩
  rw [tabled.named _ _ found]
  exact found

theorem getNode_addNode (injective : Set.InjOn hashKey keys) (sound : Sound hashKey keys state)
    (occur : callKeys state.virtualNodeCount (.addNode node) ⊆ keys)
    (isNew : state.nodes node.id = none) (key : String) :
    (state.addNode hashKey node).getNode hashKey key = state.getNode hashKey key ∨
      (state.addNode hashKey node).getNode hashKey key = some node := by
  have members := mem_addNode injective sound occur
  have subset : ∀ vnode ∈ state.ring.rows, vnode ∈ (state.addNode hashKey node).ring.rows :=
    fun vnode old => (members vnode).mpr (Or.inl old)
  cases found : (state.addNode hashKey node).ring.clockwise (hashKey key) with
  | none =>
    left
    have nothing : state.ring.rows = [] := by
      apply List.eq_nil_iff_forall_not_mem.mpr
      intro vnode old
      have member := subset vnode old
      rw [KeyedRows.clockwise_eq_none.mp found] at member
      cases member
    rw [getNode, found, getNode, KeyedRows.clockwise_eq_none.mpr nothing]
    rfl
  | some vnode =>
    rw [getNode, found, Option.bind_some]
    change Function.update state.nodes node.id (some node) vnode.physicalNode = _ ∨
      Function.update state.nodes node.id (some node) vnode.physicalNode = _
    rcases (members vnode).mp (KeyedRows.clockwise_spec found).1 with old | ⟨index, _, rfl⟩
    · left
      have other : vnode.physicalNode ≠ node.id := by
        intro same
        rcases sound.owned vnode old with ⟨owner, isOwner⟩
        rw [same, isNew] at isOwner
        cases isOwner
      rw [Function.update_of_ne other, getNode,
        KeyedRows.clockwise_of_subset subset found old, Option.bind_some]
    · right
      exact Function.update_self ..

/-- Removing a node moves only the keys that it had. -/
theorem getNode_removeNode (tabled : Tabled state) (key : String)
    (notOwned : ∀ node, state.getNode hashKey key = some node → node.id ≠ nodeId) :
    (state.removeNode nodeId).getNode hashKey key = state.getNode hashKey key := by
  have subset : ∀ vnode ∈ (state.removeNode nodeId).ring.rows, vnode ∈ state.ring.rows :=
    fun vnode member => ((mem_removeNode vnode).mp member).1
  cases found : state.ring.clockwise (hashKey key) with
  | none =>
    have nothing : (state.removeNode nodeId).ring.rows = [] := by
      apply List.eq_nil_iff_forall_not_mem.mpr
      intro vnode member
      have old := subset vnode member
      rw [KeyedRows.clockwise_eq_none.mp found] at old
      cases old
    rw [getNode, getNode, found, KeyedRows.clockwise_eq_none.mpr nothing]
    rfl
  | some vnode =>
    have member := (KeyedRows.clockwise_spec found).1
    rcases tabled.owned vnode member with ⟨owner, isOwner⟩
    have asked : state.getNode hashKey key = some owner := by
      rw [getNode, found, Option.bind_some, isOwner]
    have other : vnode.physicalNode ≠ nodeId := by
      rw [← tabled.named _ _ isOwner]
      exact notOwned owner asked
    have stays : vnode ∈ (state.removeNode nodeId).ring.rows :=
      (mem_removeNode vnode).mpr ⟨member, other⟩
    rw [asked, getNode, KeyedRows.clockwise_of_subset subset found stays, Option.bind_some]
    exact (Function.update_of_ne other none state.nodes).trans isOwner

end ConsistentHashRing

end QAExchange
