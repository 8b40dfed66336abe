import Mathlib.Data.List.Induction
import QAExchange.Exchange.OrderRouter

/-! # Conditional orders

The engine keeps orders that wait for a price. When the price comes, the order goes to the
router.
-/

namespace QAExchange

inductive ConditionType
  | StopLoss
  | TakeProfit
  | PriceTouch

inductive TriggerCondition
  | GreaterOrEqual
  | LessOrEqual

inductive ConditionalOrderStatus
  | Pending
  | Triggered
  | Cancelled
  | Expired
  | Failed
  deriving DecidableEq

def ConditionalOrderStatus.text : ConditionalOrderStatus → String
  | .Pending => "Pending"
  | .Triggered => "Triggered"
  | .Cancelled => "Cancelled"
  | .Expired => "Expired"
  | .Failed => "Failed"

structure CreateConditionalOrderRequest where
  accountId : String
  instrumentId : String
  direction : String
  offset : String
  volume : ℚ
  orderType : String
  limitPrice : Option ℚ
  conditionType : ConditionType
  triggerPrice : ℚ
  triggerCondition : TriggerCondition
  validUntil : Option ℤ

structure ConditionalOrder extends CreateConditionalOrderRequest where
  id : String
  status : ConditionalOrderStatus
  createdAt : ℤ
  triggeredAt : Option ℤ
  resultOrderId : Option String

namespace ConditionalOrder

def checkTrigger (lastPrice : ℚ) (order : ConditionalOrder) : Bool :=
  match order.triggerCondition with
  | .GreaterOrEqual => order.triggerPrice ≤ lastPrice
  | .LessOrEqual => lastPrice ≤ order.triggerPrice

def isExpired (now : ℤ) (order : ConditionalOrder) : Bool :=
  match order.validUntil with
  | some validUntil => validUntil < now
  | none => false

def toSubmitRequest (order : ConditionalOrder) : SubmitOrderRequest where
  accountId := order.accountId
  instrumentId := order.instrumentId
  direction := order.direction
  offset := order.offset
  volume := order.volume
  price := order.limitPrice.getD 0
  orderType := order.orderType
  timeCondition := none
  volumeCondition := none

end ConditionalOrder

structure Submission where
  order : ConditionalOrder
  instrumentId : String
  lastPrice : ℚ
  time : ℤ

structure Submission.Allowed (submission : Submission) : Prop where
  pending : submission.order.status = .Pending
  ownInstrument : submission.order.instrumentId = submission.instrumentId
  triggers : submission.order.checkTrigger submission.lastPrice = true
  inTime : ∀ validUntil, submission.order.validUntil = some validUntil →
    submission.time ≤ validUntil

structure ConditionalOrderEngine where
  orders : String → Option ConditionalOrder
  byAccount : String → List String
  byInstrument : String → List String
  hasOrderRouter : Bool
  submissions : List Submission

structure Answers where
  now : ℤ
  response : SubmitOrderResponse
  triggeredAt : ℤ

namespace ConditionalOrderEngine

def new (hasOrderRouter : Bool) : ConditionalOrderEngine :=
  ⟨fun _ => none, fun _ => [], fun _ => [], hasOrderRouter, []⟩

/-- The first twelve digits of the uuid, as capitals. -/
def newOrderId (uuid : String) : String :=
  "COND_" ++ String.ofList (((uuid.toList.filter (· ≠ '-')).take 12).map Char.toUpper)

def createOrder (uuid : String) (now : ℤ) (req : CreateConditionalOrderRequest)
    (engine : ConditionalOrderEngine) : ConditionalOrder × ConditionalOrderEngine :=
  let orderId := newOrderId uuid
  let order : ConditionalOrder :=
    { req with
      id := orderId
      status := .Pending
      createdAt := now
      triggeredAt := none
      resultOrderId := none }
  (order,
    { engine with
      byAccount := Function.update engine.byAccount req.accountId
        (engine.byAccount req.accountId ++ [orderId])
      byInstrument := Function.update engine.byInstrument req.instrumentId
        (engine.byInstrument req.instrumentId ++ [orderId])
      orders := Function.update engine.orders orderId (some order) })

def setOrder (orderId : String) (order : ConditionalOrder) (engine : ConditionalOrderEngine) :
    ConditionalOrderEngine :=
  { engine with orders := Function.update engine.orders orderId (some order) }

def cancelOrder (orderId : String) (engine : ConditionalOrderEngine) :
    Except String Unit × ConditionalOrderEngine :=
  match engine.orders orderId with
  | none => (.error ("条件单不存在: " ++ orderId), engine)
  | some order =>
    if order.status ≠ .Pending then
      (.error ("条件单状态不允许取消: " ++ order.status.text), engine)
    else (.ok (), engine.setOrder orderId { order with status := .Cancelled })

/-- The order after it has been executed. Without a router it counts as triggered. -/
def executed (answers : Answers) (order : ConditionalOrder) (engine : ConditionalOrderEngine) :
    ConditionalOrder :=
  let order := { order with triggeredAt := some answers.triggeredAt }
  if ¬ engine.hasOrderRouter then { order with status := .Triggered }
  else if answers.response.success then
    { order with status := .Triggered, resultOrderId := answers.response.orderId }
  else { order with status := .Failed }

/-- One turn of the loop of `check_triggers`. -/
def checkOrder (instrumentId : String) (lastPrice : ℚ) (answers : Answers) (orderId : String)
    (engine : ConditionalOrderEngine) : Option ConditionalOrder × ConditionalOrderEngine :=
  match engine.orders orderId with
  | none => (none, engine)
  | some order =>
    if order.status ≠ .Pending then (none, engine)
    else if order.isExpired answers.now then
      (none, engine.setOrder orderId { order with status := .Expired })
    else if order.checkTrigger lastPrice then
      let executed := engine.executed answers order
      let submission := ⟨order, instrumentId, lastPrice, answers.now⟩
      (some executed,
        { engine.setOrder orderId executed with
          submissions := engine.submissions ++ if engine.hasOrderRouter then [submission] else [] })
    else (none, engine)

def checkOrders (instrumentId : String) (lastPrice : ℚ) (answers : ℕ → Answers) :
    List String → ConditionalOrderEngine → List ConditionalOrder × ConditionalOrderEngine
  | [], engine => ([], engine)
  | orderId :: orderIds, engine =>
    let (triggered, engine) :=
      engine.checkOrder instrumentId lastPrice (answers orderIds.length) orderId
    let (later, engine) := checkOrders instrumentId lastPrice answers orderIds engine
    (triggered.toList ++ later, engine)

def checkTriggers (instrumentId : String) (lastPrice : ℚ) (answers : ℕ → Answers)
    (engine : ConditionalOrderEngine) : List ConditionalOrder × ConditionalOrderEngine :=
  checkOrders instrumentId lastPrice answers (engine.byInstrument instrumentId) engine

end ConditionalOrderEngine

inductive EngineCall
  | createOrder (req : CreateConditionalOrderRequest) (uuid : String) (now : ℤ)
  | cancelOrder (orderId : String)
  | checkTriggers (instrumentId : String) (lastPrice : ℚ) (answers : ℕ → Answers)

def EngineCall.createdId : EngineCall → Option String
  | .createOrder _ uuid _ => some (ConditionalOrderEngine.newOrderId uuid)
  | _ => none

namespace ConditionalOrderEngine

def step (engine : ConditionalOrderEngine) : EngineCall → ConditionalOrderEngine
  | .createOrder req uuid now => (engine.createOrder uuid now req).2
  | .cancelOrder orderId => (engine.cancelOrder orderId).2
  | .checkTriggers instrumentId lastPrice answers =>
    (engine.checkTriggers instrumentId lastPrice answers).2

inductive Acts (engine : ConditionalOrderEngine) : ConditionalOrderEngine → Prop
  | stays : Acts engine engine
  | closes (found : engine.orders orderId = some order) (pending : order.status = .Pending)
      (sameId : changed.id = order.id) (sameInstrument : changed.instrumentId = order.instrumentId)
      (closed : changed.status ≠ .Pending) : Acts engine (engine.setOrder orderId changed)
  | submits (submission : Submission) (found : engine.orders orderId = some submission.order)
      (pending : submission.order.status = .Pending) (sameId : changed.id = submission.order.id)
      (sameInstrument : changed.instrumentId = submission.order.instrumentId)
      (closed : changed.status ≠ .Pending)
      (listed : orderId ∈ engine.byInstrument submission.instrumentId)
      (triggers : submission.order.checkTrigger submission.lastPrice = true)
      (inTime : submission.order.isExpired submission.time = false) :
      Acts engine { engine.setOrder orderId changed with
        submissions := engine.submissions ++ [submission] }

variable {engine after : ConditionalOrderEngine}

theorem acts_cancelOrder : Acts engine (engine.cancelOrder orderId).2 := by
  unfold cancelOrder
  split
  next => exact .stays
  next order found =>
    split_ifs with settled
    · exact .stays
    · exact .closes found (not_not.mp settled) rfl rfl (by simp)

theorem executed_closed (engine : ConditionalOrderEngine) (answers : Answers)
    (order : ConditionalOrder) : (engine.executed answers order).id = order.id ∧
    (engine.executed answers order).instrumentId = order.instrumentId ∧
      (engine.executed answers order).status ≠ .Pending := by
  unfold executed
  dsimp only
  split_ifs <;> simp

theorem acts_checkOrder (listed : orderId ∈ engine.byInstrument instrumentId) :
    Acts engine (engine.checkOrder instrumentId lastPrice answers orderId).2 := by
  unfold checkOrder
  split
  next => exact .stays
  next order found =>
    rcases executed_closed engine answers order with ⟨sameId, sameInstrument, closed⟩
    split_ifs with settled expired triggers
    · exact .stays
    · exact .closes found (not_not.mp settled) rfl rfl (by simp)
    · exact .submits ⟨order, instrumentId, lastPrice, answers.now⟩ found
        (not_not.mp settled) sameId sameInstrument closed listed triggers
        (Bool.eq_false_iff.mpr expired)
    · rw [List.append_nil]
      exact .closes found (not_not.mp settled) sameId sameInstrument closed
    · exact .stays

/-! ## What is kept -/

structure Sound (engine : ConditionalOrderEngine) : Prop where
  keyed : ∀ {id order}, engine.orders id = some order → order.id = id
  listed : ∀ {instrumentId id}, id ∈ engine.byInstrument instrumentId →
    ∃ order, engine.orders id = some order ∧ order.instrumentId = instrumentId
  submittedOnce : (engine.submissions.map fun submission => submission.order.id).Nodup
  allowed : ∀ submission ∈ engine.submissions, submission.Allowed
  closed : ∀ submission ∈ engine.submissions,
    ∃ order, engine.orders submission.order.id = some order ∧ order.status ≠ .Pending

theorem Acts.keeps (acts : Acts engine after) (found : engine.orders orderId = kept)
    (settled : ∀ order, kept = some order → order.status ≠ .Pending) :
    after.orders orderId = kept := by
  have differs : ∀ {other waiting}, engine.orders other = some waiting →
      waiting.status = .Pending → orderId ≠ other := by
    rintro other waiting isWaiting pending rfl
    exact settled waiting (found.symm.trans isWaiting) pending
  cases acts with
  | stays => exact found
  | closes isWaiting pending =>
    exact (Function.update_of_ne (differs isWaiting pending) _ _).trans found
  | submits _ isWaiting pending =>
    exact (Function.update_of_ne (differs isWaiting pending) _ _).trans found

theorem Sound.setOrder (sound : engine.Sound) (found : engine.orders orderId = some order)
    (pending : order.status = .Pending) (sameId : changed.id = order.id)
    (sameInstrument : changed.instrumentId = order.instrumentId)
    (closed : changed.status ≠ .Pending) : (engine.setOrder orderId changed).Sound where
  keyed {id other} isOther := by
    by_cases same : id = orderId
    · subst same
      change Function.update engine.orders id (some changed) id = some other at isOther
      rw [Function.update_self] at isOther
      cases isOther
      exact sameId.trans (sound.keyed found)
    · exact sound.keyed ((Function.update_of_ne same _ _).symm.trans isOther)
  listed {instrumentId id} isListed := by
    rcases sound.listed isListed with ⟨other, isOther, own⟩
    by_cases same : id = orderId
    · subst same
      rw [found] at isOther
      cases isOther
      exact ⟨changed, Function.update_self _ _ _, sameInstrument.trans own⟩
    · exact ⟨other, (Function.update_of_ne same _ _).trans isOther, own⟩
  submittedOnce := sound.submittedOnce
  allowed := sound.allowed
  closed submission member := by
    rcases sound.closed submission member with ⟨other, isOther, isClosed⟩
    refine ⟨other, (Acts.closes found pending sameId sameInstrument closed).keeps isOther ?_,
      isClosed⟩
    rintro _ ⟨⟩
    exact isClosed

theorem Sound.acts (sound : engine.Sound) (acts : Acts engine after) : after.Sound := by
  cases acts with
  | stays => exact sound
  | closes found pending sameId sameInstrument closed =>
    exact sound.setOrder found pending sameId sameInstrument closed
  | @submits orderId changed submission found pending sameId sameInstrument closed listed triggers
      inTime =>
      have set := sound.setOrder found pending sameId sameInstrument closed
      have own : submission.order.id = orderId := sound.keyed found
      have isChanged : (engine.setOrder orderId changed).orders submission.order.id =
          some changed := by
        rw [own]
        exact Function.update_self _ _ _
      refine ⟨set.keyed, set.listed, ?_, ?_, ?_⟩
      · have isNew : ∀ earlier ∈ engine.submissions, earlier.order.id ≠ submission.order.id := by
          intro earlier member same
          rcases sound.closed earlier member with ⟨other, isOther, isClosed⟩
          rw [same, own, found] at isOther
          cases isOther
          exact isClosed pending
        rw [List.map_append, List.nodup_append]
        refine ⟨sound.submittedOnce, List.nodup_singleton _, ?_⟩
        intro id member last isLast
        rcases List.mem_map.mp member with ⟨earlier, isEarlier, rfl⟩
        rw [List.mem_singleton.mp isLast]
        exact isNew earlier isEarlier
      · intro other member
        rcases List.mem_append.mp member with isEarlier | isLast
        · exact sound.allowed other isEarlier
        · rw [List.mem_singleton.mp isLast]
          rcases sound.listed listed with ⟨order, isOrder, ownInstrument⟩
          rw [found] at isOrder
          cases isOrder
          refine ⟨pending, ownInstrument, triggers, ?_⟩
          intro validUntil valid
          simpa [ConditionalOrder.isExpired, valid] using inTime
      · intro other member
        rcases List.mem_append.mp member with isEarlier | isLast
        · exact set.closed other isEarlier
        · rw [List.mem_singleton.mp isLast]
          exact ⟨changed, isChanged, closed⟩

theorem Acts.byInstrument_eq (acts : Acts engine after) :
    after.byInstrument = engine.byInstrument := by
  cases acts <;> rfl

section Calls

variable {property : ConditionalOrderEngine → Prop}

theorem checkOrders_invariant
    (preserves : ∀ {engine after}, Acts engine after → property engine → property after) :
    ∀ {orderIds : List String} {engine : ConditionalOrderEngine},
      orderIds ⊆ engine.byInstrument instrumentId → property engine →
        property (checkOrders instrumentId lastPrice answers orderIds engine).2
  | [], _, _, holds => holds
  | orderId :: orderIds, engine, listed, holds => by
    have acts : Acts engine (engine.checkOrder instrumentId lastPrice
        (answers orderIds.length) orderId).2 := acts_checkOrder (listed List.mem_cons_self)
    apply checkOrders_invariant preserves _ (preserves acts holds)
    rw [acts.byInstrument_eq]
    exact List.subset_of_cons_subset listed

theorem step_invariant (property : ConditionalOrderEngine → Prop)
    (preserves : ∀ {engine after}, Acts engine after → property engine → property after)
    (noneCreated : call.createdId = none) (holds : property engine) :
    property (engine.step call) := by
  cases call with
  | createOrder req uuid now => cases noneCreated
  | cancelOrder orderId => exact preserves acts_cancelOrder holds
  | checkTriggers instrumentId lastPrice answers =>
    exact checkOrders_invariant preserves (List.Subset.refl _) holds

end Calls

theorem Sound.createOrder (sound : engine.Sound) (fresh : engine.orders (newOrderId uuid) = none) :
    (engine.createOrder uuid now req).2.Sound where
  keyed {orderId order} found := by
    by_cases same : orderId = newOrderId uuid
    · subst same
      cases (Function.update_self _ _ _).symm.trans found
      rfl
    · exact sound.keyed ((Function.update_of_ne same _ _).symm.trans found)
  listed {instrumentId orderId} isListed := by
    have isOld : orderId ∈ engine.byInstrument instrumentId →
        ∃ order, (engine.createOrder uuid now req).2.orders orderId = some order ∧
          order.instrumentId = instrumentId := by
      intro wasListed
      rcases sound.listed wasListed with ⟨order, found, own⟩
      refine ⟨order, (Function.update_of_ne ?_ _ _).trans found, own⟩
      rintro rfl
      rw [fresh] at found
      cases found
    by_cases same : instrumentId = req.instrumentId
    · subst same
      change orderId ∈ Function.update engine.byInstrument req.instrumentId _ _ at isListed
      rw [Function.update_self] at isListed
      rcases List.mem_append.mp isListed with wasListed | isNew
      · exact isOld wasListed
      · rw [List.mem_singleton.mp isNew]
        exact ⟨_, Function.update_self _ _ _, rfl⟩
    · change orderId ∈ Function.update engine.byInstrument req.instrumentId _ instrumentId at isListed
      rw [Function.update_of_ne same] at isListed
      exact isOld isListed
  submittedOnce := sound.submittedOnce
  allowed := sound.allowed
  closed submission member := by
    rcases sound.closed submission member with ⟨order, found, closed⟩
    refine ⟨order, (Function.update_of_ne ?_ _ _).trans found, closed⟩
    intro same
    rw [same, fresh] at found
    cases found

/-- A closed order stays as it is, and only a call that draws its id makes a new one. -/
theorem step_keeps (notCreated : call.createdId ≠ some orderId)
    (settled : ∀ order, kept = some order → order.status ≠ .Pending)
    (found : engine.orders orderId = kept) : (engine.step call).orders orderId = kept := by
  cases call with
  | createOrder req uuid now =>
    refine (Function.update_of_ne ?_ _ _).trans found
    rintro rfl
    exact notCreated rfl
  | _ =>
    exact step_invariant (fun engine => engine.orders orderId = kept)
      (fun acts found => acts.keeps found settled) rfl found

def createdIds (calls : List EngineCall) : List String := calls.filterMap EngineCall.createdId

theorem nodup_createdIds_concat : (createdIds (calls ++ [call])).Nodup ↔ (createdIds calls).Nodup ∧
      ∀ orderId, call.createdId = some orderId → orderId ∉ createdIds calls := by
  rw [createdIds, List.filterMap_append]
  cases created : call.createdId with
  | none => simp [created, createdIds]
  | some orderId =>
    rw [List.filterMap_cons_some created, List.filterMap_nil, ← List.concat_eq_append,
      List.nodup_concat, and_comm]
    simp [createdIds]

theorem sound_foldl (routed : Bool) {calls : List EngineCall} (fresh : (createdIds calls).Nodup) :
    (calls.foldl step (new routed)).Sound ∧ ∀ orderId ∉ createdIds calls,
      (calls.foldl step (new routed)).orders orderId = none := by
  induction calls using List.reverseRecOn with
  | nil =>
    refine ⟨⟨?_, ?_, List.nodup_nil, ?_, ?_⟩, fun _ _ => rfl⟩
    · intro orderId order found
      cases found
    · intro instrumentId orderId listed
      cases listed
    · intro submission member
      cases member
    · intro submission member
      cases member
  | append_singleton calls call induction =>
    rcases nodup_createdIds_concat.mp fresh with ⟨earlier, isNew⟩
    rcases induction earlier with ⟨sound, absent⟩
    rw [List.foldl_append, List.foldl_cons, List.foldl_nil]
    constructor
    · cases call with
      | createOrder req uuid now => exact sound.createOrder (absent _ (isNew _ rfl))
      | _ => exact step_invariant Sound (fun acts sound => sound.acts acts) rfl sound
    · intro orderId notCreated
      rw [createdIds, List.filterMap_append, List.mem_append, not_or] at notCreated
      apply step_keeps _ (by simp) (absent orderId notCreated.1)
      intro created
      simp [created] at notCreated

theorem foldl_keeps {first rest : List EngineCall} (fresh : (createdIds (first ++ rest)).Nodup)
    (found : (first.foldl step (new routed)).orders orderId = some order)
    (closed : order.status ≠ .Pending) :
    ((first ++ rest).foldl step (new routed)).orders orderId = some order := by
  induction rest using List.reverseRecOn with
  | nil =>
    rw [List.append_nil]
    exact found
  | append_singleton rest call induction =>
    rw [← List.append_assoc] at fresh ⊢
    rcases nodup_createdIds_concat.mp fresh with ⟨earlier, isNew⟩
    have kept := induction earlier
    rw [List.foldl_append]
    apply step_keeps _ _ kept
    · intro created
      have absent := (sound_foldl routed earlier).2 orderId (isNew orderId created)
      rw [kept] at absent
      cases absent
    · rintro _ ⟨⟩
      exact closed

/-- Provided that the uuids differ in the digits that the ids take, an order is submitted at
most once, while it waits for such a price, and what has closed stays as it is. -/
theorem submits_once (routed : Bool) (calls : List EngineCall) (fresh : (createdIds calls).Nodup) :
    ((calls.foldl step (new routed)).submissions.map
        fun submission => submission.order.id).Nodup ∧
      (∀ submission ∈ (calls.foldl step (new routed)).submissions, submission.Allowed) ∧
      ∀ first rest, calls = first ++ rest → ∀ orderId order,
        (first.foldl step (new routed)).orders orderId = some order →
          order.status ≠ .Pending →
            (calls.foldl step (new routed)).orders orderId = some order := by
  have sound : (calls.foldl step (new routed)).Sound := (sound_foldl routed fresh).1
  refine ⟨sound.submittedOnce, sound.allowed, ?_⟩
  rintro first rest rfl orderId order found closed
  exact foldl_keeps fresh found closed

def stopOrder : CreateConditionalOrderRequest :=
  ⟨"user1", "SHFE.cu2501", "SELL", "CLOSE", 1, "LIMIT", some 70000, .StopLoss, 70000, .LessOrEqual,
    some 1000⟩

def stopCalls : List EngineCall :=
  [.createOrder stopOrder "3d5b7a90-1c2e" 0,
    .checkTriggers "SHFE.cu2501" 69990 fun _ =>
      ⟨500, ⟨true, some "O1", some "submitted", none, none⟩, 501⟩,
    .checkTriggers "SHFE.cu2501" 69980 fun _ =>
      ⟨600, ⟨true, some "O2", some "submitted", none, none⟩, 601⟩]

theorem stopCalls_submits_once :
    ((stopCalls.foldl step (new true)).submissions.map fun submission => submission.lastPrice) =
        [69990] ∧
      ((stopCalls.foldl step (new true)).submissions.map
        fun submission => submission.order.id).Nodup := by
  constructor
  · decide +kernel
  · exact (submits_once true stopCalls (List.nodup_singleton _)).1

end ConditionalOrderEngine

end QAExchange
