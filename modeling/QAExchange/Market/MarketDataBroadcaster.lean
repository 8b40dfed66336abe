import Mathlib.Data.List.Dedup
import QAExchange.Market.KLine

/-! # The market data broadcaster

Every subscriber has a bounded channel. A send that finds it full is counted, and a
subscriber with too many of them in a row is marked for the clean-up.
-/

namespace QAExchange

structure PriceLevel where
  price : ℚ
  volume : ℤ
  deriving DecidableEq

inductive MarketDataEvent
  | OrderBookSnapshot (instrumentId : String) (bids asks : List PriceLevel) (timestamp : ℤ)
  | OrderBookUpdate (instrumentId side : String) (price volume : ℚ) (timestamp : ℤ)
  | Tick (instrumentId : String) (price volume : ℚ) (direction : String) (timestamp : ℤ)
  | LastPrice (instrumentId : String) (price : ℚ) (timestamp : ℤ)
  | KLineFinished (instrumentId : String) (period : ℤ) (kline : KLine) (timestamp : ℤ)
  | FactorUpdate (instrumentId : String) (factors : List (String × ℚ)) (period timestamp : ℤ)
  deriving DecidableEq

namespace MarketDataEvent

def instrumentId : MarketDataEvent → String
  | OrderBookSnapshot instrumentId _ _ _ => instrumentId
  | OrderBookUpdate instrumentId _ _ _ _ => instrumentId
  | Tick instrumentId _ _ _ _ => instrumentId
  | LastPrice instrumentId _ _ => instrumentId
  | KLineFinished instrumentId _ _ _ => instrumentId
  | FactorUpdate instrumentId _ _ _ => instrumentId

def channel : MarketDataEvent → String
  | OrderBookSnapshot .. | OrderBookUpdate .. => "orderbook"
  | Tick .. => "tick"
  | LastPrice .. => "last_price"
  | KLineFinished .. => "kline_finished"
  | FactorUpdate .. => "factor"

end MarketDataEvent

/-- What follows the first dot. -/
def extractBaseInstrumentId (instrumentId : String) : String :=
  match instrumentId.toList.dropWhile (· ≠ '.') with
  | [] => instrumentId
  | _ :: base => String.ofList base

def instrumentMatches (subscribed broadcast : String) : Bool :=
  decide (subscribed = broadcast ∨
    extractBaseInstrumentId subscribed = extractBaseInstrumentId broadcast)

structure BroadcasterConfig where
  channelCapacity : ℕ
  disconnectThreshold : ℕ

structure Subscription where
  instruments : List String
  channels : List String

namespace Subscription

def takesInstrument (subscription : Subscription) (instrumentId : String) : Bool :=
  subscription.instruments.isEmpty ||
    subscription.instruments.any fun id => instrumentMatches id instrumentId

def takes (subscription : Subscription) (event : MarketDataEvent) : Bool :=
  subscription.takesInstrument event.instrumentId &&
    (subscription.channels.isEmpty || subscription.channels.contains event.channel)

end Subscription

structure SubscriberStats where
  sentCount : ℕ
  droppedCount : ℕ
  consecutiveFailures : ℕ

namespace SubscriberStats

def new : SubscriberStats where
  sentCount := 0
  droppedCount := 0
  consecutiveFailures := 0

def recordSuccess (stats : SubscriberStats) : SubscriberStats :=
  { stats with
    sentCount := stats.sentCount + 1
    consecutiveFailures := 0 }

def recordFailure (stats : SubscriberStats) : SubscriberStats :=
  { stats with
    droppedCount := stats.droppedCount + 1
    consecutiveFailures := stats.consecutiveFailures + 1 }

def isSlow (threshold : ℕ) (stats : SubscriberStats) : Bool :=
  decide (threshold ≤ stats.consecutiveFailures)

end SubscriberStats

inductive SendResult
  | sent
  | full
  | disconnected
  deriving DecidableEq

/-- A subscriber with its channel. `connected` is whether the receiver is still there, and
`sends` is a history variable: how the sends to it have ended, the last one first. -/
structure SubscriberInfo where
  receiver : ℕ
  queue : List MarketDataEvent
  connected : Bool
  subscription : Subscription
  stats : SubscriberStats
  sends : List SendResult

namespace SubscriberInfo

/-- `try_send` of an event and what is noted of it, with whether the subscriber is marked. -/
def send (config : BroadcasterConfig) (info : SubscriberInfo) (event : MarketDataEvent) :
    SubscriberInfo × Bool :=
  if info.connected = false then ({ info with sends := .disconnected :: info.sends }, true)
  else if info.queue.length < config.channelCapacity then
    ({ info with
      queue := info.queue ++ [event]
      stats := info.stats.recordSuccess
      sends := .sent :: info.sends }, false)
  else
    ({ info with
      stats := info.stats.recordFailure
      sends := .full :: info.sends },
      info.stats.recordFailure.isSlow config.disconnectThreshold)

/-- The events that the subscription takes, one after the other. -/
def sendAll (config : BroadcasterConfig) :
    SubscriberInfo → List MarketDataEvent → SubscriberInfo × Bool
  | info, [] => (info, false)
  | info, event :: events =>
    if info.subscription.takes event then
      let first := info.send config event
      let others := sendAll config first.1 events
      (others.1, first.2 || others.2)
    else sendAll config info events

end SubscriberInfo

structure MarketDataBroadcaster where
  config : BroadcasterConfig
  subscribers : String → Option SubscriberInfo
  pendingCleanup : String → Bool
  /-- How many receivers there have been. -/
  receivers : ℕ

namespace MarketDataBroadcaster

def withConfig (config : BroadcasterConfig) : MarketDataBroadcaster where
  config := config
  subscribers _ := none
  pendingCleanup _ := false
  receivers := 0

def subscribe (subscriberId : String) (instruments channels : List String)
    (broadcaster : MarketDataBroadcaster) : MarketDataBroadcaster :=
  { broadcaster with
    subscribers := Function.update broadcaster.subscribers subscriberId (some
      { receiver := broadcaster.receivers
        queue := []
        connected := true
        subscription := ⟨instruments, channels⟩
        stats := .new
        sends := [] })
    receivers := broadcaster.receivers + 1 }

def unsubscribe (subscriberId : String) (broadcaster : MarketDataBroadcaster) :
    MarketDataBroadcaster :=
  { broadcaster with
    subscribers := Function.update broadcaster.subscribers subscriberId none
    pendingCleanup := Function.update broadcaster.pendingCleanup subscriberId false }

/-- Without such a subscriber it is an `InternalError` with this text. -/
def updateSubscription (subscriberId : String) (instruments channels : List String)
    (broadcaster : MarketDataBroadcaster) : Except String MarketDataBroadcaster :=
  match broadcaster.subscribers subscriberId with
  | none => .error ("Subscriber not found: " ++ subscriberId)
  | some info => .ok
      { broadcaster with
        subscribers := Function.update broadcaster.subscribers subscriberId (some
          { info with
            subscription := ⟨instruments, channels⟩
            stats := { info.stats with consecutiveFailures := 0 } }) }

def cleanupSlowSubscribers (broadcaster : MarketDataBroadcaster) :
    (String → Bool) × MarketDataBroadcaster :=
  (broadcaster.pendingCleanup,
    { broadcaster with
      subscribers := fun id =>
        if broadcaster.pendingCleanup id = true then none else broadcaster.subscribers id
      pendingCleanup := fun _ => false })

def sendToAll (events : List MarketDataEvent) (broadcaster : MarketDataBroadcaster) :
    MarketDataBroadcaster :=
  { broadcaster with
    subscribers := fun id =>
      (broadcaster.subscribers id).map fun info => (info.sendAll broadcaster.config events).1
    pendingCleanup := fun id => broadcaster.pendingCleanup id ||
      match broadcaster.subscribers id with
      | none => false
      | some info => (info.sendAll broadcaster.config events).2 }

def broadcast (event : MarketDataEvent) : MarketDataBroadcaster → MarketDataBroadcaster :=
  sendToAll [event]

/-- The events by their instruments, in the order in which the hash map has these: `dedup` keeps
the last occurrence of each, the one in `order`. -/
def groupByInstrument (order : List String) (events : List MarketDataEvent) :
    List MarketDataEvent :=
  (events.map MarketDataEvent.instrumentId ++ order).dedup.flatMap fun instrumentId =>
    events.filter fun event => event.instrumentId = instrumentId

def broadcastBatch (order : List String) (events : List MarketDataEvent) :
    MarketDataBroadcaster → MarketDataBroadcaster :=
  sendToAll (groupByInstrument order events)

def read (receiver : ℕ) (broadcaster : MarketDataBroadcaster) : MarketDataBroadcaster :=
  { broadcaster with
    subscribers := fun id => (broadcaster.subscribers id).map fun info =>
      if info.receiver = receiver then { info with queue := info.queue.tail } else info }

def dropReceiver (receiver : ℕ) (broadcaster : MarketDataBroadcaster) : MarketDataBroadcaster :=
  { broadcaster with
    subscribers := fun id => (broadcaster.subscribers id).map fun info =>
      if info.receiver = receiver then { info with connected := false } else info }

end MarketDataBroadcaster

end QAExchange
