import QAExchange.Foundation.Runs
import QAExchange.Notification.NotificationBroker

/-! # The cache of message ids

What the broker refuses is to be accepted later, and what it has accepted of late is not to be
accepted again.
-/

namespace QAExchange

open Foundation NotificationBroker

namespace NotificationBroker

def pop (level : Fin 4) (broker : NotificationBroker) : NotificationBroker :=
  { broker with priorityQueues :=
      Function.update broker.priorityQueues level (broker.priorityQueues level).tail }

def evicted (order : IterationOrder) (messageId : String) (broker : NotificationBroker) :
    List String :=
  if 10000 < broker.dedupCache.length + 1 then
    (order.arrange (messageId :: broker.dedupCache)).take 5000
  else []

theorem mem_remember {broker : NotificationBroker} {id : String} :
    id ∈ (broker.remember order messageId).dedupCache ↔
      (id = messageId ∨ id ∈ broker.dedupCache) ∧ id ∉ broker.evicted order messageId := by
  rw [remember, List.mem_filter, List.mem_cons, decide_eq_true_eq]
  rfl

end NotificationBroker

inductive BrokerCall
  | publish (notification : NotificationMessage) (order : IterationOrder)
  | pop (level : Fin 4)

/-- A broker with the ids that it has accepted, the last one first, and those that it has
refused and not accepted since. -/
structure BrokerRun where
  broker : NotificationBroker
  accepted : List String
  refused : List String

namespace BrokerRun

def start (gatewayIds : List String) : BrokerRun := ⟨.new gatewayIds, [], []⟩

def step (run : BrokerRun) : BrokerCall → BrokerRun
  | .pop level => { run with broker := run.broker.pop level }
  | .publish notification order =>
    let published := run.broker.publish order notification
    match published.1 with
    | .ok .Deduplicated => { run with broker := published.2 }
    | .ok .Sent =>
      { broker := published.2
        accepted := notification.messageId :: run.accepted
        refused := run.refused.filter fun id => id ≠ notification.messageId }
    | .error _ =>
      { run with broker := published.2, refused := notification.messageId :: run.refused }

/-- What was refused is accepted, whatever the queues hold then, if there is room. What was
accepted of late is not accepted again. -/
structure Deduplicates (run : BrokerRun) : Prop where
  acceptsAgain : ∀ notification order queues, notification.messageId ∈ run.refused →
    (queues notification.level).length < queueCapacity notification.level →
      ({ run.broker with priorityQueues := queues }.publish order notification).1 = .ok .Sent
  dropsRecent : ∀ notification order, notification.messageId ∈ run.accepted.take 5000 →
    (run.broker.publish order notification).1 = .ok .Deduplicated

/-- A new id finds room in its queue, or is removed from the cache at once, and none of the
ids that were accepted of late is removed. -/
def Keeps (run : BrokerRun) : BrokerCall → Prop
  | .pop _ => True
  | .publish notification order =>
    notification.messageId ∉ run.broker.dedupCache →
      if queueCapacity notification.level ≤
          (run.broker.priorityQueues notification.level).length then
        notification.messageId ∈ run.broker.evicted order notification.messageId ∧
          ∀ id ∈ run.accepted.take 5000, id ∉ run.broker.evicted order notification.messageId
      else ∀ id ∈ (notification.messageId :: run.accepted).take 5000,
        id ∉ run.broker.evicted order notification.messageId

theorem deduplicates_iff_cache {run : BrokerRun} : run.Deduplicates ↔
    (∀ id ∈ run.refused, id ∉ run.broker.dedupCache) ∧
      ∀ id ∈ run.accepted.take 5000, id ∈ run.broker.dedupCache := by
  constructor
  · intro deduplicates
    constructor
    · intro id isRefused cached
      have room : 0 < queueCapacity 0 := by decide
      have again := deduplicates.acceptsAgain ⟨id, .RiskAlert, "", 0⟩ .asIs (fun _ => [])
        isRefused room
      rw [publish, if_pos cached] at again
      cases again
    · intro id isAccepted
      have drops := deduplicates.dropsRecent ⟨id, .RiskAlert, "", 0⟩ .asIs isAccepted
      by_contra absent
      rw [publish, if_neg absent] at drops
      dsimp only at drops
      split_ifs at drops
      cases drops
  · rintro ⟨forgotten, remembered⟩
    constructor
    · intro notification order queues isRefused room
      rw [publish, if_neg (forgotten _ isRefused)]
      dsimp only
      rw [if_neg (not_le.mpr room)]
    · intro notification order isAccepted
      rw [publish, if_pos (remembered _ isAccepted)]

/-- One call keeps the cache right exactly if it is one that keeps. -/
theorem deduplicates_step_iff {run : BrokerRun} (deduplicates : run.Deduplicates)
    (call : BrokerCall) : (run.step call).Deduplicates ↔ run.Keeps call := by
  rw [deduplicates_iff_cache] at deduplicates ⊢
  rcases deduplicates with ⟨forgotten, remembered⟩
  cases call with
  | pop level => exact iff_of_true ⟨forgotten, remembered⟩ trivial
  | publish notification order =>
    rw [Keeps]
    by_cases cached : notification.messageId ∈ run.broker.dedupCache
    · have same : run.step (.publish notification order) = run := by
        simp only [step, publish, if_pos cached]
      rw [same]
      exact iff_of_true ⟨forgotten, remembered⟩ fun isNew => absurd cached isNew
    · rw [imp_iff_right cached]
      split_ifs with full
      · simp only [step, publish, if_neg cached, if_pos full,
          mem_remember, List.forall_mem_cons]
        constructor
        · rintro ⟨⟨gone, _⟩, kept⟩
          exact ⟨not_not.mp fun stays => gone ⟨Or.inl trivial, stays⟩,
            fun id recent => (kept id recent).2⟩
        · rintro ⟨gone, kept⟩
          refine ⟨⟨fun stays => stays.2 gone, ?_⟩, ?_⟩
          · rintro id isRefused ⟨rfl | stays, notGone⟩
            · exact notGone gone
            · exact forgotten id isRefused stays
          · exact fun id recent => ⟨Or.inr (remembered id recent), kept id recent⟩
      · simp only [step, publish, if_neg cached, if_neg full,
          mem_remember]
        constructor
        · exact fun right id recent => (right.2 id recent).2
        · intro kept
          constructor
          · rintro id isRefused ⟨stays, _⟩
            rcases List.mem_filter.mp isRefused with ⟨wasRefused, other⟩
            rcases stays with rfl | stays
            · exact of_decide_eq_true other rfl
            · exact forgotten id wasRefused stays
          · intro id recent
            refine ⟨?_, kept id recent⟩
            rw [List.take_succ_cons] at recent
            apply (List.mem_cons.mp recent).imp_right
            intro earlier
            exact remembered id (List.take_subset_take_left _ (by decide) earlier)

/-- Exactly if every call of a run keeps, nothing that is refused is lost and nothing of late
is accepted twice, at any time of the run. -/
theorem deduplicates_iff (gatewayIds : List String) (calls : List BrokerCall) :
    (∀ first, first <+: calls → (first.foldl step (start gatewayIds)).Deduplicates) ↔
      Along step Keeps calls (start gatewayIds) := by
  have new : (start gatewayIds).Deduplicates := by
    rw [deduplicates_iff_cache]
    exact ⟨List.forall_mem_nil _, List.forall_mem_nil _⟩
  rw [forall_reached_iff calls new]
  apply along_congr Deduplicates _ _ calls new
  · exact fun run call deduplicates => deduplicates_step_iff deduplicates call
  · exact fun run call _ next => next

def newestLast : IterationOrder := ⟨List.reverse, List.reverse_perm⟩

theorem urgent_lt : 0 < 256 := Nat.succ_pos 255

def numbered (number : ℕ) : NotificationMessage :=
  ⟨String.ofList (List.replicate number 'a'), .RiskAlert, "user_01", ⟨0, urgent_lt⟩⟩

def burst (count : ℕ) : List BrokerCall :=
  (List.range count).map fun number => .publish (numbered number) newestLast

theorem numbered_not_mem (count : ℕ) : (numbered count).messageId ∉
    ((List.range count).map fun number => (numbered number).messageId).reverse := by
  rw [List.mem_reverse, List.mem_map]
  rintro ⟨number, member, same⟩
  have lengths := congrArg String.length same
  simp only [numbered, String.length_ofList, List.length_replicate] at lengths
  have below := List.mem_range.mp member
  omega

theorem foldl_burst {count : ℕ} (le : count ≤ 10000) :
    ((burst count).foldl step (start [])).broker.dedupCache =
        ((List.range count).map fun number => (numbered number).messageId).reverse ∧
      (((burst count).foldl step (start [])).broker.priorityQueues 0).length = count := by
  induction count with
  | zero => exact ⟨rfl, rfl⟩
  | succ count induction =>
    have split : burst (count + 1) = burst count ++ [.publish (numbered count) newestLast] := by
      rw [burst, List.range_succ, List.map_append]
      rfl
    rw [split, List.foldl_append]
    generalize (burst count).foldl step (start []) = run at induction ⊢
    rcases induction (Nat.le_of_succ_le le) with ⟨cache, queue⟩
    have isNew := numbered_not_mem count
    rw [← cache] at isNew
    have room : ¬ queueCapacity (numbered count).level ≤
        (run.broker.priorityQueues (numbered count).level).length := by
      change ¬ 10000 ≤ (run.broker.priorityQueues 0).length
      omega
    have size : run.broker.dedupCache.length = count := by
      rw [cache, List.length_reverse, List.length_map, List.length_range]
    have keepsAll : ¬ 10000 < run.broker.dedupCache.length + 1 := by omega
    simp only [List.foldl_cons, List.foldl_nil, step, publish, if_neg isNew,
      if_neg room]
    constructor
    · simp only [remember, List.length_cons, if_neg keepsAll,
        List.not_mem_nil, not_false_eq_true, decide_true, List.filter_true]
      rw [cache, List.range_succ, List.map_append, List.reverse_append]
      rfl
    · change (Function.update run.broker.priorityQueues 0 _ 0).length = _
      rw [Function.update_self, List.length_append, List.length_singleton]
      exact congrArg (· + 1) queue

theorem burst_not_deduplicated :
    ¬ ∀ (gatewayIds : List String) (calls : List BrokerCall),
      (calls.foldl step (start gatewayIds)).Deduplicates := by
  intro claim
  have ⟨count, isCount⟩ : ∃ count : ℕ, count = 10000 := ⟨_, rfl⟩
  rcases foldl_burst isCount.le with ⟨cache, queue⟩
  have before := claim [] (burst count)
  have after := claim [] (burst count ++ [.publish (numbered count) newestLast])
  rw [List.foldl_append] at after
  have isNew := numbered_not_mem count
  rw [← cache] at isNew
  generalize (burst count).foldl step (start []) = run at cache queue before after isNew
  rw [List.foldl_cons, List.foldl_nil] at after
  have keeps := (deduplicates_step_iff before _).mp after isNew
  have full : queueCapacity (numbered count).level ≤
      (run.broker.priorityQueues (numbered count).level).length := by
    change 10000 ≤ (run.broker.priorityQueues 0).length
    omega
  have size : run.broker.dedupCache.length = 10000 := by
    rw [cache, List.length_reverse, List.length_map, List.length_range, isCount]
  have oldest : run.broker.evicted newestLast (numbered count).messageId ⊆
      run.broker.dedupCache := by
    rw [evicted, if_pos (by omega)]
    change ((numbered count).messageId :: run.broker.dedupCache).reverse.take 5000 ⊆ _
    rw [List.reverse_cons, List.take_append_of_le_length]
    · exact fun id member => List.mem_reverse.mp (List.mem_of_mem_take member)
    · rw [List.length_reverse]
      omega
  rw [if_pos full] at keeps
  exact isNew (oldest keeps.1)

end BrokerRun

end QAExchange
