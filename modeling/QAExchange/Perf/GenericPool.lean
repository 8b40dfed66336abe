import Mathlib.Algebra.Group.Nat.Defs
import QAExchange.Foundation.Runs

/-! # The object pool

`GenericPool` of `perf/memory_pool.rs` with the objects that are out. When the counters agree
with where the objects are.
-/

namespace QAExchange

open Foundation

structure PoolConfig where
  initialCapacity : ℕ
  maxCapacity : ℕ
  prewarm : Bool

namespace PoolConfig

def default : PoolConfig where
  initialCapacity := 10000
  maxCapacity := 100000
  prewarm := true

def small : PoolConfig where
  initialCapacity := 1000
  maxCapacity := 10000
  prewarm := true

def large : PoolConfig where
  initialCapacity := 100000
  maxCapacity := 1000000
  prewarm := false

def capacity (config : PoolConfig) : ℕ := max config.maxCapacity config.initialCapacity

def overflowCapacity (config : PoolConfig) : ℕ := config.maxCapacity / 10

end PoolConfig

class Poolable (T : Type) where
  default : T
  reset : T → T

structure PoolStats where
  allocated : ℕ
  inUse : ℕ
  acquires : ℕ
  releases : ℕ
  allocations : ℕ
  drops : ℕ

namespace PoolStats

def default : PoolStats where
  allocated := 0
  inUse := 0
  acquires := 0
  releases := 0
  allocations := 0
  drops := 0

/-- `fetch_sub(1)` wraps around below zero. -/
def fetchSub (counter : ℕ) : ℕ := if counter = 0 then 2 ^ 64 - 1 else counter - 1

theorem fetchSub_succ (counter : ℕ) : fetchSub (counter + 1) = counter := by
  rw [fetchSub, if_neg (Nat.succ_ne_zero counter), Nat.add_sub_cancel]

end PoolStats

open PoolStats

structure GenericPool (T : Type) where
  freeList : List T
  stats : PoolStats
  config : PoolConfig
  /-- The last one is taken first. -/
  overflow : List T

namespace GenericPool

variable {T : Type} [Poolable T]

/-- `ArrayQueue::push` into the free list, unless it is full. -/
def pushFree (obj : T) (pool : GenericPool T) : Option (List T) :=
  if pool.freeList.length < pool.config.capacity then some (pool.freeList ++ [obj]) else none

def prewarm : ℕ → GenericPool T → GenericPool T
  | 0, pool => pool
  | count + 1, pool =>
    match pool.pushFree Poolable.default with
    | none => pool
    | some freeList =>
      prewarm count { pool with
        freeList := freeList
        stats := { pool.stats with allocated := pool.stats.allocated + 1 } }

/-- `ArrayQueue::new` panics for the capacity 0. -/
def new (config : PoolConfig) : Option (GenericPool T) :=
  if config.capacity = 0 then none
  else
    let pool : GenericPool T := ⟨[], .default, config, []⟩
    some (if config.prewarm then pool.prewarm config.initialCapacity else pool)

/-- What is counted whenever an object is acquired. -/
def taken (pool : GenericPool T) : GenericPool T :=
  { pool with
    stats := { pool.stats with
      acquires := pool.stats.acquires + 1
      inUse := pool.stats.inUse + 1 } }

def acquire (pool : GenericPool T) : T × GenericPool T :=
  match pool.freeList with
  | obj :: freeList => (Poolable.reset obj, { pool.taken with freeList := freeList })
  | [] =>
    match pool.overflow.getLast? with
    | some obj => (Poolable.reset obj, { pool.taken with overflow := pool.overflow.dropLast })
    | none =>
      (Poolable.default, { pool.taken with
        stats := { pool.taken.stats with
          allocations := pool.stats.allocations + 1
          allocated := pool.stats.allocated + 1 } })

theorem acquire_cases (pool : GenericPool T) :
    (∃ obj freeList, pool.freeList = obj :: freeList ∧
      pool.acquire = (Poolable.reset obj, { pool.taken with freeList := freeList })) ∨
    (∃ obj overflow, pool.overflow = overflow ++ [obj] ∧
      pool.acquire = (Poolable.reset obj, { pool.taken with overflow := overflow })) ∨
    pool.acquire = (Poolable.default, { pool.taken with
      stats := { pool.taken.stats with
        allocations := pool.stats.allocations + 1
        allocated := pool.stats.allocated + 1 } }) := by
  unfold acquire
  cases isFree : pool.freeList with
  | cons obj freeList => exact .inl ⟨obj, freeList, rfl, rfl⟩
  | nil =>
    right
    cases isLast : pool.overflow.getLast? with
    | some obj =>
      obtain ⟨overflow, split⟩ := List.getLast?_eq_some_iff.mp isLast
      left
      refine ⟨obj, overflow, split, ?_⟩
      dsimp only
      rw [split, List.dropLast_concat]
    | none => exact .inr rfl

def Full (pool : GenericPool T) : Prop :=
  pool.config.capacity ≤ pool.freeList.length ∧
    pool.config.overflowCapacity ≤ pool.overflow.length

instance (pool : GenericPool T) : Decidable pool.Full := inferInstanceAs (Decidable (_ ∧ _))

/-- What is counted whenever an object comes back. -/
def returned (pool : GenericPool T) : GenericPool T :=
  { pool with
    stats := { pool.stats with
      releases := pool.stats.releases + 1
      inUse := fetchSub pool.stats.inUse } }

def release (obj : T) (pool : GenericPool T) : GenericPool T :=
  match pool.pushFree obj with
  | some freeList => { pool.returned with freeList := freeList }
  | none =>
    if pool.overflow.length < pool.config.overflowCapacity then
      { pool.returned with overflow := pool.overflow ++ [obj] }
    else
      { pool.returned with
        stats := { pool.returned.stats with
          drops := pool.stats.drops + 1
          allocated := fetchSub pool.stats.allocated } }

omit [Poolable T] in
/-- An object that comes back goes to one of the lists or is discarded. -/
theorem release_cases (obj : T) (pool : GenericPool T) :
    (pool.freeList.length < pool.config.capacity ∧
      pool.release obj = { pool.returned with freeList := pool.freeList ++ [obj] }) ∨
    (pool.overflow.length < pool.config.overflowCapacity ∧
      pool.release obj = { pool.returned with overflow := pool.overflow ++ [obj] }) ∨
    (pool.Full ∧ pool.release obj =
      { pool.returned with
        stats := { pool.returned.stats with
          drops := pool.stats.drops + 1
          allocated := fetchSub pool.stats.allocated } }) := by
  unfold release pushFree
  by_cases freeRoom : pool.freeList.length < pool.config.capacity
  · left
    rw [if_pos freeRoom]
    exact ⟨freeRoom, rfl⟩
  · right
    rw [if_neg freeRoom]
    dsimp only
    split_ifs with overflowRoom
    · exact .inl ⟨overflowRoom, rfl⟩
    · exact .inr ⟨⟨Nat.le_of_not_lt freeRoom, Nat.le_of_not_lt overflowRoom⟩, rfl⟩

def available (pool : GenericPool T) : ℕ := pool.freeList.length + pool.overflow.length

def clear (pool : GenericPool T) : GenericPool T :=
  { pool with
    freeList := []
    overflow := []
    stats := { pool.stats with allocated := 0 } }

end GenericPool

structure PoolInUse (T : Type) where
  pool : GenericPool T
  outstanding : List T

namespace PoolInUse

variable {T : Type} [Poolable T]

inductive Call (T : Type)
  | acquire
  | drop (index : ℕ) (obj : T)
  | clear

def step (state : PoolInUse T) : Call T → PoolInUse T
  | .acquire =>
    let acquired := state.pool.acquire
    ⟨acquired.2, state.outstanding ++ [acquired.1]⟩
  | .drop index obj =>
    if index < state.outstanding.length then
      ⟨state.pool.release obj, state.outstanding.eraseIdx index⟩
    else state
  | .clear => { state with pool := state.pool.clear }

structure Balanced (state : PoolInUse T) : Prop where
  allocated : state.pool.stats.allocated = state.pool.available + state.outstanding.length
  inUse : state.pool.stats.inUse = state.outstanding.length
  bounded : state.pool.available ≤
    state.pool.config.capacity + state.pool.config.overflowCapacity

instance (state : PoolInUse T) : Decidable state.Balanced :=
  decidable_of_iff
    (state.pool.stats.allocated = state.pool.available + state.outstanding.length ∧
      state.pool.stats.inUse = state.outstanding.length ∧
      state.pool.available ≤ state.pool.config.capacity + state.pool.config.overflowCapacity)
    ⟨fun all => ⟨all.1, all.2.1, all.2.2⟩, fun all => ⟨all.allocated, all.inUse, all.bounded⟩⟩

def NoneBelowZero (state : PoolInUse T) : Call T → Prop
  | .drop index _ => index < state.outstanding.length →
      0 < state.pool.stats.inUse ∧ (state.pool.Full → 0 < state.pool.stats.allocated)
  | _ => True

instance (state : PoolInUse T) : ∀ call, Decidable (NoneBelowZero state call)
  | .drop index _ => inferInstanceAs (Decidable (index < state.outstanding.length → _ ∧ (_ → _)))
  | .acquire => .isTrue trivial
  | .clear => .isTrue trivial

/-- No counter wraps around in the call, and afterwards they are right. -/
def Accounted (state : PoolInUse T) (call : Call T) : Prop :=
  NoneBelowZero state call ∧ (state.step call).Balanced

instance (state : PoolInUse T) (call : Call T) : Decidable (Accounted state call) :=
  inferInstanceAs (Decidable (_ ∧ _))

/-- The pool is cleared only while no object is out. -/
def ClearsUnused (state : PoolInUse T) : Call T → Prop
  | .clear => state.outstanding = []
  | _ => True

/-- The lists keep to their capacities, whatever the counters are. -/
structure Bounded (pool : GenericPool T) : Prop where
  freeList : pool.freeList.length ≤ pool.config.capacity
  overflow : pool.overflow.length ≤ pool.config.overflowCapacity

variable {pool : GenericPool T}

theorem Bounded.acquire (bounded : Bounded pool) : Bounded pool.acquire.2 := by
  obtain ⟨freeFits, overflowFits⟩ := bounded
  obtain ⟨obj, freeList, isFree, acquires⟩ | ⟨obj, overflow, isLast, acquires⟩ | acquires :=
    pool.acquire_cases
  · rw [isFree, List.length_cons] at freeFits
    rw [acquires]
    exact ⟨Nat.le_of_succ_le freeFits, overflowFits⟩
  · rw [isLast, List.length_append, List.length_singleton] at overflowFits
    rw [acquires]
    exact ⟨freeFits, Nat.le_of_succ_le overflowFits⟩
  · rw [acquires]
    exact ⟨freeFits, overflowFits⟩

omit [Poolable T] in
theorem Bounded.release (bounded : Bounded pool) (obj : T) : Bounded (pool.release obj) := by
  obtain ⟨freeFits, overflowFits⟩ := bounded
  obtain ⟨room, returns⟩ | ⟨room, returns⟩ | ⟨_, returns⟩ := pool.release_cases obj
  · rw [returns]
    constructor
    · dsimp only
      rw [List.length_append, List.length_singleton]
      exact room
    · exact overflowFits
  · rw [returns]
    constructor
    · exact freeFits
    · dsimp only
      rw [List.length_append, List.length_singleton]
      exact room
  · rw [returns]
    exact ⟨freeFits, overflowFits⟩

variable {state : PoolInUse T}

theorem Bounded.step (bounded : Bounded state.pool) (call : Call T) :
    Bounded (state.step call).pool := by
  cases call with
  | acquire => exact bounded.acquire
  | drop index obj =>
    rw [PoolInUse.step]
    split_ifs
    · exact bounded.release obj
    · exact bounded
  | clear => exact ⟨Nat.zero_le _, Nat.zero_le _⟩

theorem Balanced.acquire (balanced : state.Balanced) (bounded : Bounded state.pool) :
    (state.step .acquire).Balanced := by
  obtain ⟨allocated, inUse, _⟩ := balanced
  have after := bounded.step .acquire
  have available : (state.step .acquire).pool.available ≤
      (state.step .acquire).pool.config.capacity +
        (state.step .acquire).pool.config.overflowCapacity :=
    Nat.add_le_add after.freeList after.overflow
  have counted : (state.step .acquire).pool.stats.inUse = state.pool.stats.inUse + 1 ∧
      (state.step .acquire).pool.stats.allocated + state.pool.available =
        state.pool.stats.allocated + (state.step .acquire).pool.available + 1 := by
    rw [PoolInUse.step]
    dsimp only
    unfold GenericPool.available
    obtain ⟨obj, freeList, isFree, acquires⟩ | ⟨obj, overflow, isLast, acquires⟩ | acquires :=
      state.pool.acquire_cases
    · rw [acquires, isFree, List.length_cons]
      dsimp only [GenericPool.taken]
      omega
    · rw [acquires, isLast, List.length_append, List.length_singleton]
      dsimp only [GenericPool.taken]
      omega
    · rw [acquires]
      dsimp only [GenericPool.taken]
      omega
  have oneMore : (state.step .acquire).outstanding.length = state.outstanding.length + 1 :=
    List.length_append
  constructor
  · omega
  · omega
  · exact available

theorem Balanced.drop (balanced : state.Balanced) (bounded : Bounded state.pool) (index : ℕ)
    (obj : T) : Accounted state (.drop index obj) := by
  obtain ⟨allocated, inUse, inPool⟩ := balanced
  unfold Accounted NoneBelowZero
  by_cases isOut : index < state.outstanding.length
  · have someInUse : state.pool.stats.inUse = state.outstanding.length - 1 + 1 := by omega
    have someAllocated : state.pool.stats.allocated =
        state.pool.available + (state.outstanding.length - 1) + 1 := by omega
    have after := bounded.step (.drop index obj)
    have oneLess : (state.step (.drop index obj)).outstanding.length =
        state.outstanding.length - 1 := by
      rw [PoolInUse.step, if_pos isOut]
      exact List.length_eraseIdx_of_lt isOut
    have counted : (state.step (.drop index obj)).pool.stats.inUse =
          state.outstanding.length - 1 ∧
        (state.step (.drop index obj)).pool.stats.allocated =
          (state.step (.drop index obj)).pool.available + (state.outstanding.length - 1) := by
      rw [PoolInUse.step, if_pos isOut]
      unfold GenericPool.available at someAllocated ⊢
      obtain ⟨_, returns⟩ | ⟨_, returns⟩ | ⟨_, returns⟩ := state.pool.release_cases obj
      · rw [returns]
        dsimp only [GenericPool.returned]
        rw [someInUse, fetchSub_succ, List.length_append, List.length_singleton]
        omega
      · rw [returns]
        dsimp only [GenericPool.returned]
        rw [someInUse, fetchSub_succ, List.length_append, List.length_singleton]
        omega
      · rw [returns]
        dsimp only [GenericPool.returned]
        rw [someInUse, someAllocated, fetchSub_succ, fetchSub_succ]
        omega
    constructor
    · intro _
      omega
    · constructor
      · omega
      · omega
      · exact Nat.add_le_add after.freeList after.overflow
  · constructor
    · intro isIn
      exact absurd isIn isOut
    · rw [PoolInUse.step, if_neg isOut]
      exact ⟨allocated, inUse, inPool⟩

/-- A clear is the only call after which the counters can be wrong. -/
theorem Balanced.accounted_iff (balanced : state.Balanced) (bounded : Bounded state.pool)
    (call : Call T) : Accounted state call ↔ ClearsUnused state call := by
  cases call with
  | acquire => exact iff_of_true ⟨trivial, balanced.acquire bounded⟩ trivial
  | drop index obj => exact iff_of_true (balanced.drop bounded index obj) trivial
  | clear =>
    constructor
    · intro accounted
      have empty : 0 = 0 + state.outstanding.length := accounted.2.allocated
      apply List.eq_nil_of_length_eq_zero
      omega
    · intro unused
      have noneOut : state.outstanding.length = 0 := by
        rw [unused]
        rfl
      constructor
      · trivial
      · constructor
        · change 0 = 0 + state.outstanding.length
          omega
        · exact balanced.inUse
        · exact Nat.zero_le _

/-! ## Runs -/

theorem prewarm_spec (count : ℕ) (pool : GenericPool T)
    (fits : pool.freeList.length + count ≤ pool.config.capacity) :
    (pool.prewarm count).freeList.length = pool.freeList.length + count ∧
      (pool.prewarm count).stats =
        { pool.stats with allocated := pool.stats.allocated + count } ∧
      (pool.prewarm count).overflow = pool.overflow ∧
      (pool.prewarm count).config = pool.config := by
  induction count generalizing pool with
  | zero => exact ⟨rfl, rfl, rfl, rfl⟩
  | succ count induction =>
    have room : pool.freeList.length < pool.config.capacity := by omega
    have pushed : pool.pushFree Poolable.default =
        some (pool.freeList ++ [Poolable.default]) := if_pos room
    simp only [GenericPool.prewarm, pushed]
    have later := induction
      { pool with
        freeList := pool.freeList ++ [Poolable.default]
        stats := { pool.stats with allocated := pool.stats.allocated + 1 } }
      (by
        dsimp only
        rw [List.length_append, List.length_singleton]
        omega)
    rw [List.length_append, List.length_singleton] at later
    obtain ⟨length, stats, overflow, config⟩ := later
    rw [length, stats, overflow, config]
    refine ⟨by omega, ?_, rfl, rfl⟩
    dsimp only
    rw [Nat.add_assoc, Nat.add_comm 1 count]

theorem balanced_new {config : PoolConfig} (created : GenericPool.new config = some pool) :
    Balanced ⟨pool, []⟩ ∧ Bounded pool := by
  unfold GenericPool.new at created
  split_ifs at created with none_fits prewarmed
  · have fits : 0 + config.initialCapacity ≤ config.capacity := by
      rw [Nat.zero_add]
      exact Nat.le_max_right _ _
    have warm := prewarm_spec (T := T) config.initialCapacity ⟨[], .default, config, []⟩ fits
    cases created
    obtain ⟨length, stats, overflow, isConfig⟩ := warm
    have isLength : ((GenericPool.mk [] .default config []).prewarm
        config.initialCapacity : GenericPool T).freeList.length = 0 + config.initialCapacity :=
      length
    constructor
    · constructor
      · dsimp only
        rw [GenericPool.available, isLength, stats, overflow]
        rfl
      · dsimp only
        rw [stats]
        rfl
      · dsimp only
        rw [GenericPool.available, isLength, overflow, isConfig]
        exact Nat.le_trans fits (Nat.le_add_right _ _)
    · constructor
      · rw [isLength, isConfig]
        exact fits
      · rw [overflow]
        exact Nat.zero_le _
  · cases created
    exact ⟨⟨rfl, rfl, Nat.zero_le _⟩, Nat.zero_le _, Nat.zero_le _⟩

/-- The counters are right in every state of a run, and none wraps around, exactly if the pool
is never cleared while objects are out. -/
theorem accounted_along_iff {config : PoolConfig} {pool : GenericPool T}
    (created : GenericPool.new config = some pool) (calls : List (Call T)) :
    (Balanced ⟨pool, []⟩ ∧ Along step Accounted calls ⟨pool, []⟩) ↔
      Along step ClearsUnused calls ⟨pool, []⟩ := by
  obtain ⟨balanced, bounded⟩ := balanced_new created
  rw [and_iff_right balanced]
  apply along_congr fun state : PoolInUse T => state.Balanced ∧ Bounded state.pool
  · intro state call holds
    exact holds.1.accounted_iff holds.2 call
  · intro state call holds accounted
    exact ⟨accounted.2, holds.2.step call⟩
  · exact ⟨balanced, bounded⟩

/-- Objects without content. -/
instance : Poolable Unit where
  default := ()
  reset := id

/-- Room for one object, which is there from the beginning. -/
def oneObject : GenericPool Unit :=
  ⟨[()], { PoolStats.default with allocated := 1 }, ⟨1, 1, true⟩, []⟩

theorem new_oneObject : GenericPool.new ⟨1, 1, true⟩ = some oneObject := rfl

/-- Two objects are out when the pool is cleared; the second one that comes back is discarded,
which takes one off a counter at zero. -/
theorem clearedInUse_not_accounted :
    ¬(Balanced ⟨oneObject, []⟩ ∧ Along step Accounted
      [.acquire, .acquire, .clear, .drop 0 (), .drop 0 ()] ⟨oneObject, []⟩) := by
  decide

theorem clearedUnused_accounted :
    Balanced ⟨oneObject, []⟩ ∧ Along step Accounted
      [.acquire, .acquire, .drop 1 (), .drop 0 (), .clear, .acquire] ⟨oneObject, []⟩ := by
  apply (accounted_along_iff new_oneObject _).mpr
  exact ⟨trivial, trivial, trivial, trivial, rfl, trivial, trivial⟩

end PoolInUse

end QAExchange
