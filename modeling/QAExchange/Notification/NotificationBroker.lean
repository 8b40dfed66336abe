import Mathlib.Data.Finset.Basic
import Mathlib.Data.String.Basic
import QAExchange.Foundation.KeyedRows

/-! # The gateway of notifications

Sessions by their ids, and the ids of the sessions of a user. A notification is sent to the
sessions of its user, apart from those that have subscribed to other channels only.
-/

namespace QAExchange

open Foundation

inductive NotificationType
  | OrderAccepted
  | OrderRejected
  | OrderPartiallyFilled
  | OrderFilled
  | OrderCanceled
  | OrderExpired
  | TradeExecuted
  | TradeCanceled
  | AccountOpen
  | AccountUpdate
  | PositionUpdate
  | PositionProfit
  | RiskAlert
  | MarginCall
  | PositionLimit
  | SystemNotice
  | TradingSessionStart
  | TradingSessionEnd
  | MarketHalt
  deriving DecidableEq

/-- The channel to which a client subscribes. -/
def NotificationType.channel : NotificationType → String
  | .OrderAccepted | .OrderRejected | .OrderPartiallyFilled | .OrderFilled | .OrderCanceled
  | .OrderExpired | .TradeExecuted | .TradeCanceled => "trade"
  | .AccountOpen | .AccountUpdate => "account"
  | .PositionUpdate | .PositionProfit => "position"
  | .RiskAlert | .MarginCall | .PositionLimit => "risk"
  | .SystemNotice | .TradingSessionStart | .TradingSessionEnd | .MarketHalt => "system"

/-- A notification without the texts that are sent with it. -/
structure NotificationMessage where
  messageId : String
  messageType : NotificationType
  userId : String
  /-- `u8` -/
  priority : Fin 256
  deriving DecidableEq

/-! ## Sessions -/

structure SessionInfo where
  sessionId : String
  userId : String
  subscriptions : Finset String
  deriving DecidableEq

def SessionInfo.admits (notification : NotificationMessage) (session : SessionInfo) : Bool :=
  session.subscriptions = ∅ ∨ notification.messageType.channel ∈ session.subscriptions

structure NotificationGateway where
  sessions : KeyedRows SessionInfo.sessionId
  userSessions : String → List String
  /-- `AtomicUsize` -/
  activeSessions : BitVec 64

structure Push where
  session : SessionInfo
  notification : NotificationMessage
  deriving DecidableEq

namespace NotificationGateway

def new : NotificationGateway where
  sessions := .empty
  userSessions := fun _ => []
  activeSessions := 0

def registerSession (sessionId userId : String) (gateway : NotificationGateway) :
    NotificationGateway where
  sessions := gateway.sessions.insert ⟨sessionId, userId, ∅⟩
  userSessions := Function.update gateway.userSessions userId
    (gateway.userSessions userId ++ [sessionId])
  activeSessions := gateway.activeSessions + 1

def unregisterSession (sessionId : String) (gateway : NotificationGateway) : NotificationGateway :=
  match gateway.sessions.get sessionId with
  | none => gateway
  | some session =>
    { sessions := gateway.sessions.remove sessionId
      userSessions := Function.update gateway.userSessions session.userId
        ((gateway.userSessions session.userId).filter fun id => id ≠ sessionId)
      activeSessions := gateway.activeSessions - 1 }

def changeSubscriptions (change : Finset String → Finset String) (sessionId : String)
    (gateway : NotificationGateway) : NotificationGateway :=
  match gateway.sessions.get sessionId with
  | none => gateway
  | some session => { gateway with
      sessions := gateway.sessions.insert
        { session with subscriptions := change session.subscriptions } }

def subscribeChannel (sessionId channel : String) (gateway : NotificationGateway) :
    NotificationGateway :=
  gateway.changeSubscriptions (fun subscriptions => insert channel subscriptions) sessionId

def unsubscribeChannel (sessionId channel : String) (gateway : NotificationGateway) :
    NotificationGateway :=
  gateway.changeSubscriptions (fun subscriptions => subscriptions.erase channel) sessionId

def pushTo (notification : NotificationMessage) (sessionId : String) (gateway : NotificationGateway) :
    Option Push :=
  (gateway.sessions.get sessionId).bind fun session =>
    if session.admits notification then some ⟨session, notification⟩ else none

def pushNotification (notification : NotificationMessage) (gateway : NotificationGateway) : List Push :=
  (gateway.userSessions notification.userId).filterMap fun sessionId =>
    gateway.pushTo notification sessionId

end NotificationGateway

/-! ## The broker of notifications

A notification that is new waits in the queue of its priority, until the processor sends it
to the gateways of its user. The pusher of a gateway sends what is urgent at once and the
rest in batches.
-/

/-! ## The broker -/

/-- What has become of a notification that was published without an error. -/
inductive Published
  | Sent
  | Deduplicated
  deriving DecidableEq

structure NotificationBroker where
  userGateways : String → List String
  /-- The gateways that have a sender. -/
  gatewaySenders : List String
  dedupCache : List String
  priorityQueues : Fin 4 → List NotificationMessage

/-- `priority.min(3)` -/
def NotificationMessage.level (notification : NotificationMessage) : Fin 4 :=
  ⟨min notification.priority 3, by omega⟩

namespace NotificationBroker

/-- A broker at which these gateways have been registered. -/
def new (gatewayIds : List String) : NotificationBroker where
  userGateways := fun _ => []
  gatewaySenders := gatewayIds
  dedupCache := []
  priorityQueues := fun _ => []

def queueCapacity : Fin 4 → ℕ
  | 0 => 10000
  | 1 => 50000
  | 2 => 100000
  | 3 => 50000

def subscribe (userId gatewayId : String) (broker : NotificationBroker) : NotificationBroker :=
  let gateways := broker.userGateways userId ++ [gatewayId]
  { broker with userGateways := Function.update broker.userGateways userId gateways }

def unsubscribe (userId gatewayId : String) (broker : NotificationBroker) : NotificationBroker :=
  let gateways := (broker.userGateways userId).filter fun id => id ≠ gatewayId
  { broker with userGateways := Function.update broker.userGateways userId gateways }

def remember (order : IterationOrder) (messageId : String) (broker : NotificationBroker) :
    NotificationBroker :=
  let cache := messageId :: broker.dedupCache
  let removed := if 10000 < cache.length then (order.arrange cache).take 5000 else []
  { broker with dedupCache := cache.filter fun id => id ∉ removed }

def publish (order : IterationOrder) (notification : NotificationMessage) (broker : NotificationBroker) :
    Except String Published × NotificationBroker :=
  if notification.messageId ∈ broker.dedupCache then (.ok .Deduplicated, broker)
  else
    let remembered := broker.remember order notification.messageId
    let level := notification.level
    let queue := broker.priorityQueues level
    if queueCapacity level ≤ queue.length then
      (.error ("Priority queue " ++ toString level ++ " is full"), remembered)
    else
      (.ok .Sent, { remembered with
        priorityQueues := Function.update broker.priorityQueues level (queue ++ [notification]) })

end NotificationBroker

/-! ## Pushers -/

structure NotificationPusher where
  gateway : NotificationGateway
  /-- What the broker has sent to it. -/
  channel : List NotificationMessage
  batch : List NotificationMessage
  /-- What is to be pushed before anything else is received. -/
  sending : List NotificationMessage
  running : Bool

namespace NotificationPusher

def new : NotificationPusher where
  gateway := .new
  channel := []
  batch := []
  sending := []
  running := true

def batchSize : ℕ := 100

/-- `push_batch` groups the notifications by their users. -/
def grouped (order : IterationOrder) (batch : List NotificationMessage) : List NotificationMessage :=
  (order.arrange (batch.map NotificationMessage.userId).dedup).flatMap fun userId =>
    batch.filter fun notification => notification.userId = userId

def flush (order : IterationOrder) (pusher : NotificationPusher) : NotificationPusher :=
  { pusher with batch := [], sending := grouped order pusher.batch }

def receive (order : IterationOrder) (notification : NotificationMessage) (pusher : NotificationPusher) :
    NotificationPusher :=
  if notification.priority = 0 then { pusher with sending := [notification] }
  else
    let longer := { pusher with batch := pusher.batch ++ [notification] }
    if batchSize ≤ longer.batch.length then longer.flush order else longer

/-- The branch of `select!` that receives. Without a sender, an empty channel ends the task,
whatever the batch has. -/
def receiveNext (order : IterationOrder) (hasSender : Bool) (pusher : NotificationPusher) :
    NotificationPusher :=
  match pusher.channel with
  | notification :: rest => { pusher with channel := rest }.receive order notification
  | [] => if hasSender then pusher else { pusher with running := false }

def pushNext (pusher : NotificationPusher) : NotificationPusher :=
  { pusher with sending := pusher.sending.tail }

end NotificationPusher

/-! ## The system -/

/-- Where the processor is in its round: in which queue, and how much it has taken of it. -/
structure ProcessorPosition where
  level : Fin 4
  taken : ℕ

structure NotificationSystem where
  broker : NotificationBroker
  processor : ProcessorPosition
  pushers : String → NotificationPusher

inductive NotificationStep
  | registerSession (gatewayId sessionId userId : String)
  | unregisterSession (gatewayId sessionId : String)
  | subscribeChannel (gatewayId sessionId channel : String)
  | unsubscribeChannel (gatewayId sessionId channel : String)
  | subscribe (userId gatewayId : String)
  | unsubscribe (userId gatewayId : String)
  | publish (notification : NotificationMessage) (order : IterationOrder)
  | process
  | receive (gatewayId : String) (order : IterationOrder)
  | tick (gatewayId : String) (order : IterationOrder)
  | push (gatewayId : String)
  | dropSenders

namespace NotificationSystem

def new (gatewayIds : List String) : NotificationSystem where
  broker := .new gatewayIds
  processor := ⟨0, 0⟩
  pushers := fun _ => .new

def onPusher (gatewayId : String) (change : NotificationPusher → NotificationPusher)
    (system : NotificationSystem) : NotificationSystem :=
  { system with
    pushers := Function.update system.pushers gatewayId (change (system.pushers gatewayId)) }

def onGateway (gatewayId : String) (change : NotificationGateway → NotificationGateway) :
    NotificationSystem → NotificationSystem :=
  onPusher gatewayId fun pusher => { pusher with gateway := change pusher.gateway }

def quota : Fin 4 → Option ℕ
  | 0 => none
  | 1 => none
  | 2 => some 100
  | 3 => some 50

def nextRouted (system : NotificationSystem) : Option NotificationMessage :=
  if some system.processor.taken = quota system.processor.level then none
  else (system.broker.priorityQueues system.processor.level).head?

def routeNotification (notification : NotificationMessage) (system : NotificationSystem) :
    NotificationSystem :=
  { system with pushers := fun gatewayId =>
      let pusher := system.pushers gatewayId
      let mentions := (system.broker.userGateways notification.userId).count gatewayId
      let copies := List.replicate mentions notification
      if gatewayId ∈ system.broker.gatewaySenders then
        { pusher with channel := pusher.channel ++ copies }
      else pusher }

def process (system : NotificationSystem) : NotificationSystem :=
  match system.nextRouted with
  | none => { system with processor := ⟨system.processor.level + 1, 0⟩ }
  | some notification =>
    let level := system.processor.level
    let rest := (system.broker.priorityQueues level).tail
    { system.routeNotification notification with
      processor := ⟨level, system.processor.taken + 1⟩
      broker := { system.broker with
        priorityQueues := Function.update system.broker.priorityQueues level rest } }

def whenIdle (gatewayId : String) (change : NotificationPusher → NotificationPusher) :
    NotificationSystem → NotificationSystem :=
  onPusher gatewayId fun pusher =>
    if pusher.running ∧ pusher.sending = [] then change pusher else pusher

def step (system : NotificationSystem) : NotificationStep → NotificationSystem
  | .registerSession gatewayId sessionId userId =>
    system.onGateway gatewayId fun gateway => gateway.registerSession sessionId userId
  | .unregisterSession gatewayId sessionId =>
    system.onGateway gatewayId fun gateway => gateway.unregisterSession sessionId
  | .subscribeChannel gatewayId sessionId channel =>
    system.onGateway gatewayId fun gateway => gateway.subscribeChannel sessionId channel
  | .unsubscribeChannel gatewayId sessionId channel =>
    system.onGateway gatewayId fun gateway => gateway.unsubscribeChannel sessionId channel
  | .subscribe userId gatewayId =>
    { system with broker := system.broker.subscribe userId gatewayId }
  | .unsubscribe userId gatewayId =>
    { system with broker := system.broker.unsubscribe userId gatewayId }
  | .publish notification order =>
    { system with broker := (system.broker.publish order notification).2 }
  | .process => system.process
  | .receive gatewayId order => system.whenIdle gatewayId fun pusher =>
    pusher.receiveNext order (gatewayId ∈ system.broker.gatewaySenders)
  | .tick gatewayId order => system.whenIdle gatewayId fun pusher => pusher.flush order
  | .push gatewayId => system.onPusher gatewayId NotificationPusher.pushNext
  | .dropSenders => { system with broker := { system.broker with gatewaySenders := [] } }

def pushes (gatewayId : String) (system : NotificationSystem) : NotificationStep → List Push
  | .push pushing =>
    if pushing = gatewayId then
      let pusher := system.pushers gatewayId
      pusher.sending.head?.toList.flatMap fun notification =>
        pusher.gateway.pushNotification notification
    else []
  | _ => []

def accepted (system : NotificationSystem) : NotificationStep → List NotificationMessage
  | .publish notification order =>
    if (system.broker.publish order notification).1 = .ok .Sent then [notification] else []
  | _ => []

end NotificationSystem

end QAExchange
