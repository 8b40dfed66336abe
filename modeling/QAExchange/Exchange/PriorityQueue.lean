import QAExchange.Exchange.OrderRouter
import QAExchange.Foundation.Runs

/-! # The queue of orders by priority

Three queues of orders wait for the router. Orders leave them one at a time or in batches, the
urgent ones first.
-/

namespace QAExchange

open Foundation

inductive OrderPriority
  | Low
  | Normal
  | Critical
  deriving DecidableEq

def OrderPriority.value : OrderPriority → ℕ
  | .Low => 0
  | .Normal => 1
  | .Critical => 2

structure PriorityOrderRequest where
  order : SubmitOrderRequest
  priority : OrderPriority
  submitTime : ℤ

structure PriorityOrderQueue where
  criticalQueue : List PriorityOrderRequest
  normalQueue : List PriorityOrderRequest
  lowQueue : List PriorityOrderRequest
  lowQueueLimit : ℕ
  vipUsers : List String
  criticalAmountThreshold : ℚ
  lowAmountThreshold : ℚ

namespace PriorityOrderQueue

def new (lowQueueLimit : ℕ) (criticalAmountThreshold : ℚ) : PriorityOrderQueue where
  criticalQueue := []
  normalQueue := []
  lowQueue := []
  lowQueueLimit
  vipUsers := []
  criticalAmountThreshold
  lowAmountThreshold := 500

def addVipUsers (users : List String) (queue : PriorityOrderQueue) : PriorityOrderQueue :=
  { queue with vipUsers := queue.vipUsers ++ users }

def calculatePriority (req : SubmitOrderRequest) (queue : PriorityOrderQueue) : OrderPriority :=
  if req.accountId ∈ queue.vipUsers then .Critical
  else if queue.criticalAmountThreshold ≤ req.price * req.volume then .Critical
  else if req.price * req.volume < queue.lowAmountThreshold then .Low
  else .Normal

def newRequest (now : ℤ) (order : SubmitOrderRequest) (queue : PriorityOrderQueue) :
    PriorityOrderRequest :=
  ⟨order, queue.calculatePriority order, now⟩

def enqueue (now : ℤ) (order : SubmitOrderRequest) (queue : PriorityOrderQueue) :
    Bool × PriorityOrderQueue :=
  let req := queue.newRequest now order
  match req.priority with
  | .Critical => (true, { queue with criticalQueue := queue.criticalQueue ++ [req] })
  | .Normal => (true, { queue with normalQueue := queue.normalQueue ++ [req] })
  | .Low =>
    if queue.lowQueueLimit ≤ queue.lowQueue.length then (false, queue)
    else (true, { queue with lowQueue := queue.lowQueue ++ [req] })

def dequeue (queue : PriorityOrderQueue) : Option PriorityOrderRequest × PriorityOrderQueue :=
  match queue.criticalQueue, queue.normalQueue, queue.lowQueue with
  | req :: rest, _, _ => (some req, { queue with criticalQueue := rest })
  | [], req :: rest, _ => (some req, { queue with normalQueue := rest })
  | [], [], [] => (none, queue)
  | [], [], req :: rest =>
    if rest.length + 1 < queue.lowQueueLimit then (some req, { queue with lowQueue := rest })
    else (none, queue)

def dequeueBatch (batchSize : ℕ) (queue : PriorityOrderQueue) :
    List PriorityOrderRequest × PriorityOrderQueue :=
  let critical := queue.criticalQueue.take batchSize
  let normalRoom := batchSize - critical.length
  let normal := queue.normalQueue.take normalRoom
  let lowLimit := max (batchSize / 10) 1
  let lowRoom := min (batchSize - (critical ++ normal).length) lowLimit
  (critical ++ normal ++ queue.lowQueue.take lowRoom,
    { queue with
      criticalQueue := queue.criticalQueue.drop batchSize
      normalQueue := queue.normalQueue.drop normalRoom
      lowQueue := queue.lowQueue.drop lowRoom })

def waiting (priority : OrderPriority) (queue : PriorityOrderQueue) : List PriorityOrderRequest :=
  match priority with
  | .Critical => queue.criticalQueue
  | .Normal => queue.normalQueue
  | .Low => queue.lowQueue

def Sorted (queue : PriorityOrderQueue) : Prop :=
  ∀ priority, ∀ request ∈ queue.waiting priority, request.priority = priority

end PriorityOrderQueue

inductive QueueCall
  | enqueue (order : SubmitOrderRequest) (now : ℤ)
  | dequeue
  | dequeueBatch (batchSize : ℕ)

namespace PriorityOrderQueue

def step (queue : PriorityOrderQueue) : QueueCall → PriorityOrderQueue
  | .enqueue order now => (queue.enqueue now order).2
  | .dequeue => queue.dequeue.2
  | .dequeueBatch batchSize => (queue.dequeueBatch batchSize).2

def accepted (queue : PriorityOrderQueue) : QueueCall → List PriorityOrderRequest
  | .enqueue order now =>
    if (queue.enqueue now order).1 then [queue.newRequest now order] else []
  | _ => []

def returned (queue : PriorityOrderQueue) : QueueCall → List PriorityOrderRequest
  | .enqueue _ _ => []
  | .dequeue => queue.dequeue.1.toList
  | .dequeueBatch batchSize => (queue.dequeueBatch batchSize).1

def ofPriority (priority : OrderPriority) (requests : List PriorityOrderRequest) :
    List PriorityOrderRequest :=
  requests.filter fun request => request.priority = priority

/-- The front of each queue leaves it, and that of a queue only with all that is more urgent. -/
structure Takes (count : OrderPriority → ℕ) (queue : PriorityOrderQueue)
    (taken : List PriorityOrderRequest × PriorityOrderQueue) : Prop where
  requests : taken.1 = queue.criticalQueue.take (count .Critical) ++
    queue.normalQueue.take (count .Normal) ++ queue.lowQueue.take (count .Low)
  remaining : ∀ priority,
    taken.2.waiting priority = (queue.waiting priority).drop (count priority)
  urgentFirst : ∀ priority higher, 0 < count priority → priority.value < higher.value →
    (queue.waiting higher).length ≤ count higher

variable {queue : PriorityOrderQueue}

theorem takes_dequeue (queue : PriorityOrderQueue) :
    ∃ count, Takes count queue (queue.dequeue.1.toList, queue.dequeue.2) := by
  have none : Takes (fun _ => 0) queue ([], queue) :=
    ⟨by simp, fun _ => rfl, fun _ _ some => absurd some (lt_irrefl 0)⟩
  unfold dequeue
  split
  next critical =>
    refine ⟨fun priority => if priority = .Critical then 1 else 0, by simp [critical], ?_, ?_⟩
    · intro priority
      cases priority <;> simp [waiting, critical]
    · intro priority higher
      cases priority <;> cases higher <;> simp [OrderPriority.value]
  next critical normal =>
    refine ⟨fun priority => if priority = .Normal then 1 else 0, by simp [critical, normal], ?_, ?_⟩
    · intro priority
      cases priority <;> simp [waiting, critical, normal]
    · intro priority higher
      cases priority <;> cases higher <;> simp [OrderPriority.value, waiting, critical]
  next => exact ⟨_, none⟩
  next critical normal low =>
    split_ifs
    · refine ⟨fun priority => if priority = .Low then 1 else 0, by simp [critical, normal, low],
        ?_, ?_⟩
      · intro priority
        cases priority <;> simp [waiting, critical, normal, low]
      · intro priority higher
        cases priority <;> cases higher <;> simp [OrderPriority.value, waiting, critical, normal]
    · exact ⟨_, none⟩

theorem takes_dequeueBatch (batchSize : ℕ) (queue : PriorityOrderQueue) :
    ∃ count, Takes count queue (queue.dequeueBatch batchSize) := by
  let critical := queue.criticalQueue.take batchSize
  let normalRoom := batchSize - critical.length
  let normal := queue.normalQueue.take normalRoom
  refine ⟨fun
    | .Critical => batchSize
    | .Normal => normalRoom
    | .Low => min (batchSize - (critical ++ normal).length) (max (batchSize / 10) 1), rfl, ?_, ?_⟩
  · intro priority
    cases priority <;> rfl
  · have criticalLength : critical.length = min batchSize queue.criticalQueue.length :=
      List.length_take
    have normalLength : normal.length = min normalRoom queue.normalQueue.length :=
      List.length_take
    intro priority higher
    cases priority <;> cases higher <;>
      simp only [OrderPriority.value, waiting, List.length_append] <;> omega

theorem ofPriority_of_sorted (sorted : queue.Sorted) (within : requests ⊆ queue.waiting own) :
    ofPriority priority requests = if own = priority then requests else [] := by
  rw [ofPriority]
  split_ifs with same
  · apply List.filter_eq_self.mpr
    intro request member
    rw [sorted own request (within member), same, decide_eq_true_eq]
  · apply List.filter_eq_nil_iff.mpr
    intro request member
    rw [sorted own request (within member), decide_eq_true_eq]
    exact same

namespace Takes

theorem ofPriority_eq (takes : Takes count queue taken) (sorted : queue.Sorted) :
    ofPriority priority taken.1 = (queue.waiting priority).take (count priority) := by
  have part : ∀ own, ofPriority priority ((queue.waiting own).take (count own)) = _ :=
    fun own => ofPriority_of_sorted sorted (List.take_subset (count own) (queue.waiting own))
  have critical := part .Critical
  have normal := part .Normal
  have low := part .Low
  rw [takes.requests, ofPriority, List.filter_append, List.filter_append]
  cases priority <;> simp_all [ofPriority, waiting]

theorem conserves (takes : Takes count queue taken) (sorted : queue.Sorted) :
    ofPriority priority taken.1 ++ taken.2.waiting priority = queue.waiting priority ++ [] := by
  rw [takes.ofPriority_eq sorted, takes.remaining, List.take_append_drop, List.append_nil]

end Takes

/-! ## What every call keeps -/

structure UrgentFirst (queue : PriorityOrderQueue) (call : QueueCall) : Prop where
  falling : (queue.returned call).Pairwise fun earlier later =>
    later.priority.value ≤ earlier.priority.value
  emptied : ∀ request ∈ queue.returned call, ∀ priority,
    request.priority.value < priority.value →
      ofPriority priority (queue.returned call) = queue.waiting priority

theorem Takes.urgent (takes : Takes count queue (queue.returned call, after))
    (sorted : queue.Sorted) : queue.UrgentFirst call where
  falling := by
    have own : ∀ priority, ∀ request ∈ (queue.waiting priority).take (count priority),
        request.priority = priority :=
      fun priority request member => sorted priority request (List.mem_of_mem_take member)
    have ordered : ∀ first second : OrderPriority, second.value ≤ first.value →
        ∀ earlier ∈ (queue.waiting first).take (count first),
        ∀ later ∈ (queue.waiting second).take (count second),
          later.priority.value ≤ earlier.priority.value := by
      intro first second less earlier isEarlier later isLater
      rw [own first earlier isEarlier, own second later isLater]
      exact less
    have critical := ordered .Critical
    have normal := ordered .Normal
    rw [show queue.returned call = _ from takes.requests, List.pairwise_append,
      List.pairwise_append]
    refine ⟨⟨List.pairwise_of_forall_mem_list (critical .Critical le_rfl),
      List.pairwise_of_forall_mem_list (normal .Normal le_rfl), critical .Normal (by decide)⟩,
      List.pairwise_of_forall_mem_list (ordered .Low .Low le_rfl), ?_⟩
    intro earlier isEarlier later isLater
    rcases List.mem_append.mp isEarlier with isCritical | isNormal
    · exact critical .Low (by decide) earlier isCritical later isLater
    · exact normal .Low (by decide) earlier isNormal later isLater
  emptied request member priority less := by
    rw [takes.ofPriority_eq sorted]
    apply List.take_of_length_le
    apply takes.urgentFirst request.priority priority _ less
    by_contra zero
    have own : request ∈ ofPriority request.priority (queue.returned call) :=
      List.mem_filter.mpr ⟨member, decide_eq_true rfl⟩
    rw [takes.ofPriority_eq sorted, Nat.eq_zero_of_not_pos zero] at own
    exact absurd own List.not_mem_nil

theorem waiting_enqueue : (queue.step (.enqueue order now)).waiting priority =
      queue.waiting priority ++ ofPriority priority (queue.accepted (.enqueue order now)) := by
  rw [step, accepted, enqueue]
  cases own : (queue.newRequest now order).priority with
  | Critical => cases priority <;> simp [waiting, ofPriority, own]
  | Normal => cases priority <;> simp [waiting, ofPriority, own]
  | Low =>
    by_cases full : queue.lowQueueLimit ≤ queue.lowQueue.length
    · simp [ofPriority, full]
    · cases priority <;> simp [waiting, ofPriority, own, full]

theorem conserves_step (sorted : queue.Sorted) (call : QueueCall) (priority : OrderPriority) :
    ofPriority priority (queue.returned call) ++ (queue.step call).waiting priority =
      queue.waiting priority ++ ofPriority priority (queue.accepted call) := by
  cases call with
  | enqueue order now => exact waiting_enqueue
  | dequeue =>
    rcases takes_dequeue queue with ⟨count, takes⟩
    exact takes.conserves sorted
  | dequeueBatch batchSize =>
    rcases takes_dequeueBatch batchSize queue with ⟨count, takes⟩
    exact takes.conserves sorted

theorem sorted_step (queue : PriorityOrderQueue) (call : QueueCall) (sorted : queue.Sorted) :
    (queue.step call).Sorted := by
  intro priority request member
  have isOld : request ∈ queue.waiting priority ++ ofPriority priority (queue.accepted call) := by
    rw [← conserves_step sorted]
    exact List.mem_append_right _ member
  rcases List.mem_append.mp isOld with isWaiting | isNew
  · exact sorted priority request isWaiting
  · exact of_decide_eq_true (List.mem_filter.mp isNew).2

theorem urgentFirst (queue : PriorityOrderQueue) (call : QueueCall) (sorted : queue.Sorted) :
    queue.UrgentFirst call := by
  cases call with
  | enqueue order now =>
    exact ⟨.nil, fun request member => absurd member List.not_mem_nil⟩
  | dequeue =>
    rcases takes_dequeue queue with ⟨count, takes⟩
    exact takes.urgent sorted
  | dequeueBatch batchSize =>
    rcases takes_dequeueBatch batchSize queue with ⟨count, takes⟩
    exact takes.urgent sorted

/-- The orders are all served: each once, in the order of their priority, and a caller who gets
none knows that none waits. -/
structure Serves (calls : List QueueCall) (queue : PriorityOrderQueue) : Prop where
  conserves : ∀ priority,
    ofPriority priority (outputs step returned calls queue) ++
        (calls.foldl step queue).waiting priority =
      queue.waiting priority ++ ofPriority priority (outputs step accepted calls queue)
  urgentFirst : Along step UrgentFirst calls queue
  noneWaits : Along step (fun queue call => call = .dequeue → queue.returned call = [] →
    ∀ priority, queue.waiting priority = []) calls queue

/-- Whatever the limit is, no order is lost or returned twice, and the urgent ones come first. -/
theorem conserves_urgentFirst (lowQueueLimit : ℕ) (criticalAmountThreshold lowAmountThreshold : ℚ)
    (vipUsers : List String) (calls : List QueueCall) :
    let queue := { new lowQueueLimit criticalAmountThreshold with lowAmountThreshold, vipUsers }
    (∀ priority, ofPriority priority (outputs step returned calls queue) ++
        (calls.foldl step queue).waiting priority =
      ofPriority priority (outputs step accepted calls queue)) ∧
      Along step UrgentFirst calls queue := by
  intro queue
  have sorted : queue.Sorted := by rintro (_ | _ | _) request member <;> cases member
  have urgent : Along step UrgentFirst calls queue :=
    along_of_invariant Sorted urgentFirst sorted_step calls sorted
  refine ⟨fun priority => ?_, urgent⟩
  rw [ofPriority, ofPriority, outputs_filter, outputs_filter]
  have kept := outputs_conserved (waiting priority) Sorted
    (fun queue call sorted _ => sorted_step queue call sorted)
    (fun queue call sorted _ => conserves_step sorted call priority) urgent sorted
  cases priority <;> exact kept

theorem noneWaits_iff :
    (call = .dequeue → queue.returned call = [] → ∀ priority, queue.waiting priority = []) ↔
      (call = .dequeue → queue.criticalQueue = [] → queue.normalQueue = [] →
        queue.lowQueue.length < queue.lowQueueLimit ∨ queue.lowQueue = []) := by
  apply imp_congr_right
  rintro rfl
  have none : (∀ priority, queue.waiting priority = []) ↔
      queue.criticalQueue = [] ∧ queue.normalQueue = [] ∧ queue.lowQueue = [] := by
    constructor
    · intro empty
      exact ⟨empty .Critical, empty .Normal, empty .Low⟩
    · rintro ⟨critical, normal, low⟩ (_ | _ | _)
      · exact low
      · exact normal
      · exact critical
  rw [none, returned, dequeue]
  split
  next critical => simp [critical]
  next critical normal => simp [critical, normal]
  next critical normal low => simp [critical, normal, low]
  next critical normal low =>
    split_ifs with room
    · simp [critical, normal, low, room]
    · simp [critical, normal, low, room]

/-- All holds but for the orders of low priority that have reached their limit: they stay until
a batch takes them. -/
theorem serves_iff (lowQueueLimit : ℕ) (criticalAmountThreshold lowAmountThreshold : ℚ)
    (vipUsers : List String) (calls : List QueueCall) :
    Serves calls { new lowQueueLimit criticalAmountThreshold with lowAmountThreshold, vipUsers } ↔
      Along step (fun queue call => call = .dequeue → queue.criticalQueue = [] →
        queue.normalQueue = [] → queue.lowQueue.length < queue.lowQueueLimit ∨ queue.lowQueue = [])
        calls { new lowQueueLimit criticalAmountThreshold with lowAmountThreshold, vipUsers } := by
  generalize isStart :
    { new lowQueueLimit criticalAmountThreshold with lowAmountThreshold, vipUsers } = start
  have sorted : start.Sorted := by
    rw [← isStart]
    rintro (_ | _ | _) request member <;> cases member
  refine Iff.trans ?_ (along_congr (fun _ => True) (fun _ _ _ => noneWaits_iff)
    (fun _ _ _ _ => trivial) calls trivial)
  refine ⟨Serves.noneWaits, fun noneWaits => ⟨?_, ?_, noneWaits⟩⟩
  · intro priority
    rw [ofPriority, ofPriority, outputs_filter, outputs_filter]
    exact outputs_conserved (waiting priority) Sorted
      (fun queue call sorted _ => sorted_step queue call sorted)
      (fun queue call sorted _ => conserves_step sorted call priority) noneWaits sorted
  · exact noneWaits.imp Sorted (fun queue call sorted _ => urgentFirst queue call sorted)
      (fun queue call sorted _ => sorted_step queue call sorted) sorted

def smallOrder : SubmitOrderRequest :=
  ⟨"user1", "SHFE.cu2501", "BUY", "OPEN", 10, 10, "LIMIT", none, none⟩

/-- With room for one order of low priority, it is never dequeued. -/
theorem dequeue_none_of_waiting :
    ¬ ∀ (lowQueueLimit : ℕ) (criticalAmountThreshold lowAmountThreshold : ℚ)
      (vipUsers : List String) (calls : List QueueCall), 1 ≤ lowQueueLimit →
        Serves calls
          { new lowQueueLimit criticalAmountThreshold with lowAmountThreshold, vipUsers } := by
  intro claim
  have serves := claim 1 1000000 500 [] [.enqueue smallOrder 0, .dequeue] le_rfl
  have empty := serves.noneWaits.2.1 rfl (by decide +kernel) .Low
  exact absurd (congrArg List.length empty) (by decide +kernel)

end PriorityOrderQueue

end QAExchange
