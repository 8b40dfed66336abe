import QAExchange.Cluster.ConsistentHash
import QAExchange.Foundation.Interleaving

/-! # Routing to shards

`ShardRouter` of `cluster/consistent_hash.rs` without load balancing. Calls run side
by side; looking up the cache, asking the ring, inserting into the cache, changing
the ring and clearing the cache are steps of their own.
-/

namespace QAExchange

open Foundation

inductive ShardKeyType
  | accountId
  | instrumentId
  | orderId
  | custom

/-- For instruments the exchange, which is the part before the first dot. -/
def extractShardKey (keyType : ShardKeyType) (key : String) : String :=
  match keyType with
  | .accountId | .orderId | .custom => key
  | .instrumentId => String.ofList (key.toList.takeWhile (· ≠ '.'))

structure ShardRouter where
  ring : ConsistentHashRing
  cache : String → Option String

inductive RouterCall
  | route (key : String)
  | addNode (node : PhysicalNode)
  | removeNode (nodeId : String)

/-- Where a call is: the step that it makes next, or its end. -/
inductive RouterTask
  | lookUp (shardKey : String)
  | ask (shardKey : String)
  | remember (shardKey : String) (node : PhysicalNode)
  /-- `cache.remove` while the entry is still borrowed from the cache. It waits for
  its own reference. -/
  | waits (shardKey : String)
  | changeRing (call : ConsistentHashRing.Call)
  | clearCache
  | dropNode (nodeId : String)
  | routed (node : Option PhysicalNode)
  | changed
  deriving DecidableEq

namespace ShardRouter

def new (virtualNodeCount : ℕ) : ShardRouter where
  ring := .new virtualNodeCount
  cache _ := none

section Operations

variable (hashKey : String → Hash) (keyType : ShardKeyType)

def start : RouterCall → RouterTask
  | .route key => .lookUp (extractShardKey keyType key)
  | .addNode node => .changeRing (.addNode node)
  | .removeNode nodeId => .changeRing (.removeNode nodeId)

def advance (router : ShardRouter) : RouterTask → RouterTask × ShardRouter
  | .lookUp shardKey =>
    match router.cache shardKey with
    | some nodeId =>
      match router.ring.nodes nodeId with
      | some node =>
        if node.isActive then (.routed (some node), router) else (.waits shardKey, router)
      | none => (.waits shardKey, router)
    | none => (.ask shardKey, router)
  | .ask shardKey =>
    match router.ring.getNode hashKey shardKey with
    | some node => (.remember shardKey node, router)
    | none => (.routed none, router)
  | .remember shardKey node =>
    (.routed (some node),
      { router with cache := Function.update router.cache shardKey (some node.id) })
  | .waits shardKey => (.waits shardKey, router)
  | .changeRing call =>
    match call with
    | .addNode node => (.clearCache, { router with ring := router.ring.addNode hashKey node })
    | .removeNode nodeId =>
      (.dropNode nodeId, { router with ring := router.ring.removeNode nodeId })
  | .clearCache => (.changed, { router with cache := fun _ => none })
  | .dropNode nodeId =>
    (.changed, { router with cache := fun key => (router.cache key).filter (· ≠ nodeId) })
  | .routed node => (.routed node, router)
  | .changed => (.changed, router)

def service : Service ShardRouter RouterTask RouterCall Unit where
  start := start keyType
  advance _ router task := router.advance hashKey task

/-- `route` while no other call is in progress: what it returns, if it returns. -/
def routeAlone (router : ShardRouter) (key : String) : Option (Option PhysicalNode) :=
  let looked := router.advance hashKey (.lookUp (extractShardKey keyType key))
  let asked := looked.2.advance hashKey looked.1
  let remembered := asked.2.advance hashKey asked.1
  match remembered.1 with
  | .routed node => some node
  | _ => none

end Operations

def Finished : RouterTask → Prop
  | .routed _ | .changed => True
  | _ => False

instance : DecidablePred Finished := fun task => by
  cases task <;> first | exact .isTrue trivial | exact .isFalse id

def Assigned (hashKey : String → Hash) (ring : ConsistentHashRing) (shardKey nodeId : String) :
    Prop :=
  ∃ node, ring.getNode hashKey shardKey = some node ∧ node.id = nodeId ∧ node.isActive = true

instance (hashKey : String → Hash) (ring : ConsistentHashRing) (shardKey nodeId : String) :
    Decidable (Assigned hashKey ring shardKey nodeId) :=
  match asked : ring.getNode hashKey shardKey with
  | some node =>
    decidable_of_iff (node.id = nodeId ∧ node.isActive = true)
      ⟨fun holds => ⟨node, asked, holds⟩,
        fun ⟨_, isNode, holds⟩ => Option.some.inj (asked.symm.trans isNode) ▸ holds⟩
  | none => .isFalse fun ⟨_, isNode, _⟩ => nomatch asked.symm.trans isNode

def CleanUpPending (tasks : List RouterTask) (nodeId : String) : Prop :=
  .clearCache ∈ tasks ∨ .dropNode nodeId ∈ tasks

instance (tasks : List RouterTask) (nodeId : String) : Decidable (CleanUpPending tasks nodeId) :=
  inferInstanceAs (Decidable (_ ∈ tasks ∨ _ ∈ tasks))

/-- A computed route is put into the cache while the ring still assigns the key to
that node, or while a clean-up is pending that takes it out again. -/
def FreshInserts (hashKey : String → Hash) (pool : Pool ShardRouter RouterTask) :
    Turn RouterCall Unit → Prop
  | .call _ => True
  | .step _ index => ∀ shardKey node, pool.tasks[index]? = some (.remember shardKey node) →
      Assigned hashKey pool.shared.ring shardKey node.id ∨ CleanUpPending pool.tasks node.id

instance (hashKey : String → Hash) (pool : Pool ShardRouter RouterTask) :
    ∀ turn, Decidable (FreshInserts hashKey pool turn)
  | .call _ => .isTrue trivial
  | .step _ index =>
    match isTask : pool.tasks[index]? with
    | some (.remember shardKey node) =>
      decidable_of_iff (Assigned hashKey pool.shared.ring shardKey node.id ∨
          CleanUpPending pool.tasks node.id) (by
        constructor
        · intro holds key other found
          cases isTask.symm.trans found
          exact holds
        · intro fresh
          exact fresh shardKey node isTask)
    | none => .isTrue fun _ _ found => nomatch isTask.symm.trans found
    | some (.lookUp _) | some (.ask _) | some (.waits _) | some (.changeRing _)
    | some .clearCache | some (.dropNode _) | some (.routed _) | some .changed =>
      .isTrue fun _ _ found => nomatch isTask.symm.trans found

/-- With no call in progress, `route` returns what the ring assigns, which is a node
that is in the table. -/
def Coherent (hashKey : String → Hash) (keyType : ShardKeyType)
    (pool : Pool ShardRouter RouterTask) : Prop :=
  (∀ task ∈ pool.tasks, Finished task) → ∀ key,
    pool.shared.routeAlone hashKey keyType key =
        some (pool.shared.ring.getNode hashKey (extractShardKey keyType key)) ∧
      ∀ node, pool.shared.routeAlone hashKey keyType key = some (some node) →
        pool.shared.ring.nodes node.id = some node

end ShardRouter

/-! ## The routing cache

A route that was computed before a change of the ring and is put into the cache after
the clean-up stays there. Without such late insertions the cache agrees with the ring
whenever no call is in progress.
-/

namespace ShardRouter

variable {hashKey : String → Hash} {keyType : ShardKeyType}

structure CacheInvariant (hashKey : String → Hash) (pool : Pool ShardRouter RouterTask) : Prop where
  tabled : pool.shared.ring.Tabled
  cached : ∀ shardKey nodeId, pool.shared.cache shardKey = some nodeId →
    Assigned hashKey pool.shared.ring shardKey nodeId ∨ CleanUpPending pool.tasks nodeId

theorem cacheInvariant_new (virtualNodeCount : ℕ) :
    CacheInvariant hashKey ⟨new virtualNodeCount, []⟩ where
  tabled := ConsistentHashRing.tabled_new virtualNodeCount
  cached _ _ isCached := nomatch isCached

variable {nodeId : String}

theorem CleanUpPending.mono (pending : CleanUpPending tasks nodeId)
    (clear : .clearCache ∈ tasks → .clearCache ∈ others)
    (drop : .dropNode nodeId ∈ tasks → .dropNode nodeId ∈ others) : CleanUpPending others nodeId :=
  pending.imp clear drop

variable {before after : List RouterTask} {task : RouterTask}

theorem mem_replaced (member : other ∈ before ++ task :: after) (different : other ≠ task) :
    other ∈ before ++ next :: after := by
  rcases List.mem_append.mp member with isBefore | member
  · exact List.mem_append_left _ isBefore
  · rcases List.mem_cons.mp member with same | isAfter
    · exact absurd same different
    · exact List.mem_append_right before (List.mem_cons_of_mem next isAfter)

theorem CleanUpPending.replaced (pending : CleanUpPending (before ++ task :: after) nodeId)
    (noClear : task ≠ .clearCache) (noDrop : task ≠ .dropNode nodeId) :
    CleanUpPending (before ++ next :: after) nodeId :=
  pending.mono (fun member => mem_replaced member noClear.symm)
    fun member => mem_replaced member noDrop.symm

theorem CacheInvariant.same (invariant : CacheInvariant hashKey ⟨router, before ++ task :: after⟩)
    (noClear : task ≠ .clearCache) (noDrop : ∀ nodeId, task ≠ .dropNode nodeId) (next : RouterTask)
    : CacheInvariant hashKey ⟨router, before ++ next :: after⟩ := by
  refine ⟨invariant.tabled, ?_⟩
  intro shardKey nodeId isCached
  apply (invariant.cached shardKey nodeId isCached).imp_right
  intro pending
  exact pending.replaced noClear (noDrop nodeId)

theorem Assigned.removeNode {ring : ConsistentHashRing} (tabled : ring.Tabled)
    (assigned : Assigned hashKey ring shardKey nodeId) (other : nodeId ≠ removed) :
    Assigned hashKey (ring.removeNode removed) shardKey nodeId := by
  rcases assigned with ⟨node, asked, isNode, isActive⟩
  refine ⟨node, ?_, isNode, isActive⟩
  rw [ConsistentHashRing.getNode_removeNode tabled shardKey, asked]
  intro found isFound
  rw [asked] at isFound
  cases isFound
  rw [isNode]
  exact other

theorem CacheInvariant.step (invariant : CacheInvariant hashKey ⟨router, before ++ task :: after⟩)
    (fresh : FreshInserts hashKey ⟨router, before ++ task :: after⟩ (.step () before.length)) :
    CacheInvariant hashKey ⟨(router.advance hashKey task).2,
      before ++ (router.advance hashKey task).1 :: after⟩ := by
  cases task with
  | lookUp shardKey =>
    have kept : (router.advance hashKey (.lookUp shardKey)).2 = router := by
      dsimp only [advance]
      split
      · split
        · split
          · rfl
          · rfl
        · rfl
      · rfl
    rw [kept]
    apply invariant.same
    · exact nofun
    · exact fun _ => nofun
  | ask shardKey =>
    have kept : (router.advance hashKey (.ask shardKey)).2 = router := by
      dsimp only [advance]
      split
      · rfl
      · rfl
    rw [kept]
    apply invariant.same
    · exact nofun
    · exact fun _ => nofun
  | remember shardKey node =>
    refine ⟨invariant.tabled, ?_⟩
    intro key nodeId isCached
    change Function.update router.cache shardKey (some node.id) key = some nodeId at isCached
    have still : CleanUpPending (before ++ .remember shardKey node :: after) nodeId →
        CleanUpPending (before ++ .routed (some node) :: after) nodeId :=
      fun pending => pending.replaced nofun nofun
    by_cases sameKey : key = shardKey
    · rw [sameKey, Function.update_self] at isCached
      cases isCached
      rw [sameKey]
      have isTask : (before ++ .remember shardKey node :: after)[before.length]? =
          some (.remember shardKey node) := by
        rw [List.getElem?_append_right le_rfl, Nat.sub_self, List.getElem?_cons_zero]
      exact (fresh shardKey node isTask).imp_right still
    · rw [Function.update_of_ne sameKey] at isCached
      exact (invariant.cached key nodeId isCached).imp_right still
  | waits shardKey => exact invariant.same nofun (fun _ => nofun) _
  | changeRing call =>
    cases call with
    | addNode node =>
      refine ⟨invariant.tabled.step (.addNode node), ?_⟩
      intro shardKey nodeId _
      right
      left
      exact List.mem_append_right before List.mem_cons_self
    | removeNode removed =>
      have next : (ConsistentHashRing.step hashKey router.ring (.removeNode removed)).Tabled :=
        invariant.tabled.step (.removeNode removed)
      refine ⟨next, ?_⟩
      intro shardKey nodeId isCached
      by_cases isRemoved : nodeId = removed
      · right
        right
        rw [isRemoved]
        exact List.mem_append_right before List.mem_cons_self
      · rcases invariant.cached shardKey nodeId isCached with assigned | pending
        · exact Or.inl (assigned.removeNode invariant.tabled isRemoved)
        · exact Or.inr (pending.replaced nofun nofun)
  | clearCache =>
    refine ⟨invariant.tabled, ?_⟩
    intro shardKey nodeId isCached
    cases isCached
  | dropNode dropped =>
    refine ⟨invariant.tabled, ?_⟩
    intro shardKey nodeId isCached
    change (router.cache shardKey).filter (· ≠ dropped) = some nodeId at isCached
    rcases Option.filter_eq_some_iff.mp isCached with ⟨wasCached, other⟩
    rw [decide_eq_true_eq] at other
    apply (invariant.cached shardKey nodeId wasCached).imp_right
    intro pending
    apply pending.replaced nofun
    intro same
    cases same
    exact other rfl
  | routed node => exact invariant.same nofun (fun _ => nofun) _
  | changed => exact invariant.same nofun (fun _ => nofun) _

theorem CacheInvariant.coherent (invariant : CacheInvariant hashKey pool) :
    Coherent hashKey keyType pool := by
  intro finished key
  have noPending : ∀ nodeId, ¬ CleanUpPending pool.tasks nodeId := by
    rintro nodeId (isClear | isDrop)
    · exact finished _ isClear
    · exact finished _ isDrop
  have returned : pool.shared.routeAlone hashKey keyType key =
      some (pool.shared.ring.getNode hashKey (extractShardKey keyType key)) := by
    cases isCached : pool.shared.cache (extractShardKey keyType key) with
    | some nodeId =>
      rcases (invariant.cached _ nodeId isCached).resolve_right (noPending nodeId) with
        ⟨node, asked, isNode, isActive⟩
      have found := invariant.tabled.nodes_of_getNode asked
      rw [isNode] at found
      simp only [routeAlone, advance, isCached, found, isActive, if_true, asked]
    | none =>
      cases asked : pool.shared.ring.getNode hashKey (extractShardKey keyType key) with
      | some node => simp only [routeAlone, advance, isCached, asked]
      | none => simp only [routeAlone, advance, isCached, asked]
  refine ⟨returned, ?_⟩
  intro node isNode
  rw [returned, Option.some.injEq] at isNode
  exact invariant.tabled.nodes_of_getNode isNode

theorem coherent_of_obeys (hashKey : String → Hash) (keyType : ShardKeyType)
    (virtualNodeCount : ℕ) (turns : List (Turn RouterCall Unit))
    (fresh : (service hashKey keyType).Obeys (FreshInserts hashKey) turns
      ⟨new virtualNodeCount, []⟩) :
    Coherent hashKey keyType ((service hashKey keyType).run turns ⟨new virtualNodeCount, []⟩) := by
  apply CacheInvariant.coherent
  apply (service hashKey keyType).run_preserves (CacheInvariant hashKey) _ _ turns _ fresh
    (cacheInvariant_new virtualNodeCount)
  · intro pool call invariant
    refine ⟨invariant.tabled, ?_⟩
    intro shardKey nodeId isCached
    apply (invariant.cached shardKey nodeId isCached).imp_right
    intro pending
    exact pending.mono (List.mem_append_left _) (List.mem_append_left _)
  · intro router before task after _ invariant allowed
    exact invariant.step allowed

def placeHash (key : String) : Hash :=
  if key = "a#0" then 10 else if key = "b#0" then 5 else 0

def firstNode : PhysicalNode := ⟨"a", "127.0.0.1:9001", 100, true⟩

def secondNode : PhysicalNode := ⟨"b", "127.0.0.1:9002", 100, true⟩

def lateInsert : List (Turn RouterCall Unit) :=
  [.call (.addNode firstNode), .step () 0, .step () 0,
    .call (.route "k"), .step () 1, .step () 1,
    .call (.addNode secondNode), .step () 2, .step () 2, .step () 1]

/-- The same calls one after the other. -/
def oneAfterOther : List (Turn RouterCall Unit) :=
  [.call (.addNode firstNode), .step () 0, .step () 0,
    .call (.route "k"), .step () 1, .step () 1, .step () 1,
    .call (.addNode secondNode), .step () 2, .step () 2]

theorem oneAfterOther_coherent :
    Coherent placeHash .accountId
      ((service placeHash .accountId).run oneAfterOther ⟨new 1, []⟩) :=
  coherent_of_obeys placeHash .accountId 1 oneAfterOther (by decide)

/-- The route that was computed first stays in the cache. -/
theorem lateInsert_not_coherent :
    ¬ Coherent placeHash .accountId ((service placeHash .accountId).run lateInsert ⟨new 1, []⟩) := by
  intro coherent
  have finished : ∀ task ∈ ((service placeHash .accountId).run lateInsert ⟨new 1, []⟩).tasks,
      Finished task := by decide
  have returned := (coherent finished "k").1
  revert returned
  decide

end ShardRouter

end QAExchange
