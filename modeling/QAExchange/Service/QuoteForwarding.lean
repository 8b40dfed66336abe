import QAExchange.Market.MarketDataBroadcaster
import QAExchange.Protocol.MergePatch

/-! # Quotes over the DIFF protocol

`subscribe_quote` makes a subscription at the broadcaster under the id of the user and
starts a task that turns its events into patches. A subscription that is replaced leaves
its task with what is still in its channel.
-/

namespace QAExchange

/-- The characters that `trim` cuts off. -/
def isWhiteSpace (letter : Char) : Bool :=
  letter.toNat ∈ [0x20, 0x85, 0xA0, 0x1680, 0x2028, 0x2029, 0x202F, 0x205F, 0x3000] ||
    (0x9 ≤ letter.toNat && letter.toNat ≤ 0xD) || (0x2000 ≤ letter.toNat && letter.toNat ≤ 0x200A)

def trimText (letters : List Char) : List Char :=
  ((letters.dropWhile isWhiteSpace).reverse.dropWhile isWhiteSpace).reverse

/-- The instruments between the commas, without the empty ones. -/
def parseInsList (insList : String) : List String :=
  ((insList.toList.splitOn ',').map trimText).filterMap fun letters =>
    if letters = [] then none else some (.ofList letters)

/-- `json!` of an object. -/
def jsonObject (fields : List (String × Value)) : Value :=
  .object (fields.foldl (fun sorted field => insertField field.1 field.2 sorted) [])

def jsonInteger (number : ℤ) : Value := .number (toString number)

def KLinePeriod.toDurationNs (period : KLinePeriod) : ℤ := period.seconds * 1000000000

section Convert

-- the text of a float in JSON
variable (showF64 : ℚ → String)

def jsonFloat (number : ℚ) : Value := .number (showF64 number)

/-- A side of the book, five levels; a level that is not there is `null`. -/
def jsonLevels (side : String) (levels : List PriceLevel) : List (String × Value) :=
  (List.range 5).flatMap fun index =>
    let level := levels[index]?
    [(side ++ "_price" ++ toString (index + 1),
        (level.map fun level => jsonFloat showF64 level.price).getD .null),
      (side ++ "_volume" ++ toString (index + 1),
        (level.map fun level => jsonInteger level.volume).getD .null)]

def jsonQuote (instrumentId : String) (fields : List (String × Value)) : Value :=
  jsonObject [("quotes", jsonObject [(instrumentId,
    jsonObject (("instrument_id", .string instrumentId) :: fields))])]

def jsonKLine (kline : KLine) (datetimeNs : ℤ) : Value :=
  jsonObject [
    ("datetime", .string (toString datetimeNs)),
    ("open", jsonFloat showF64 kline.openPrice),
    ("high", jsonFloat showF64 kline.high),
    ("low", jsonFloat showF64 kline.low),
    ("close", jsonFloat showF64 kline.close),
    ("volume", jsonInteger kline.volume),
    ("open_oi", jsonInteger kline.openOi),
    ("close_oi", jsonInteger kline.closeOi)]

def convertMarketEventToDiff : MarketDataEvent → Except String (Option Value)
  | .OrderBookSnapshot instrumentId bids asks timestamp =>
    .ok (some (jsonQuote instrumentId (("datetime", jsonInteger timestamp) ::
      (jsonLevels showF64 "bid" bids ++ jsonLevels showF64 "ask" asks))))
  | .LastPrice instrumentId price timestamp =>
    .ok (some (jsonQuote instrumentId
      [("last_price", jsonFloat showF64 price), ("datetime", jsonInteger timestamp)]))
  | .Tick instrumentId price volume _ timestamp =>
    .ok (some (jsonQuote instrumentId
      [("last_price", jsonFloat showF64 price), ("volume", jsonFloat showF64 volume),
        ("datetime", jsonInteger timestamp)]))
  | .OrderBookUpdate .. => .ok none
  | .KLineFinished instrumentId period kline _ =>
    let durationNs := ((KLinePeriod.fromInt period).map KLinePeriod.toDurationNs).getD 0
    if durationNs = 0 then .error "attempt to divide by zero"
    else
      let klineId := (kline.timestamp * 1000000).tdiv durationNs
      .ok (some (jsonObject [("klines", jsonObject [(instrumentId,
        jsonObject [(toString durationNs, jsonObject [("data",
          jsonObject [(toString klineId,
            jsonKLine showF64 kline (kline.timestamp * 1000000))])])])])]))
  | .FactorUpdate instrumentId factors period timestamp =>
    .ok (some (jsonObject [("factors", jsonObject [(instrumentId, jsonObject [
      ("period", jsonInteger period), ("timestamp", jsonInteger timestamp),
      ("values", jsonObject (factors.map fun factor =>
        (factor.1, jsonFloat showF64 factor.2)))])])]))

end Convert

/-- A patch in the order in which the snapshot of the user has got it. -/
inductive PushedPatch
  | subscription (patch : Value)
  | market (patch : Value)

namespace PushedPatch

def patch : PushedPatch → Value
  | subscription patch | market patch => patch

def market? : PushedPatch → Option Value
  | subscription _ => none
  | market patch => some patch

end PushedPatch

structure Forwarder where
  handling : Option MarketDataEvent
  running : Bool

structure FormerForwarder extends Forwarder where
  remaining : List MarketDataEvent

/-- The subscriptions of a user. `wanted` and `expected` are history variables: the list of
the last `subscribe_quote`, and the events that it asks for, in the order of the broadcasts. -/
structure QuoteForwarding where
  broadcaster : MarketDataBroadcaster
  former : List FormerForwarder
  current : Forwarder
  pushed : List PushedPatch
  sent : List Value
  wanted : List String
  expected : List MarketDataEvent

namespace QuoteForwarding

inductive Input
  | subscribeQuote (insList : String)
  | broadcast (event : MarketDataEvent)
  /-- A task takes an event out of its channel: that of a former subscription or the
  current one. -/
  | receive (former : Option ℕ)
  | push (former : Option ℕ)

def new (config : BroadcasterConfig) : QuoteForwarding where
  broadcaster := .withConfig config
  former := []
  current := ⟨none, true⟩
  pushed := []
  sent := []
  wanted := []
  expected := []

/-- `channels` of a subscription to quotes -/
def quoteChannels : List String := ["orderbook", "tick", "last_price", "kline"]

def unsubscribed : Value :=
  jsonObject [
    ("notify", jsonObject [("unsubscribe", jsonObject [("type", .string "MESSAGE"),
      ("level", .string "INFO"), ("code", .number "0"),
      ("content", .string "Unsubscribed from all quotes")])]),
    ("ins_list", .string "")]

def subscribed (insList : String) (count : ℕ) : Value :=
  jsonObject [
    ("notify", jsonObject [("subscribe_success", jsonObject [("type", .string "MESSAGE"),
      ("level", .string "INFO"), ("code", .number "0"),
      ("content", .string ("Subscribed to " ++ toString count ++ " instruments"))])]),
    ("ins_list", .string insList), ("quotes", .emptyObject)]

def detach (userId : String) (state : QuoteForwarding) : List FormerForwarder :=
  match state.broadcaster.subscribers userId with
  | none => []
  | some info => [{ toForwarder := state.current, remaining := info.queue }]

/-- An empty list only answers. -/
def handleSubscribeQuote (userId insList : String) (state : QuoteForwarding) : QuoteForwarding :=
  let instruments := parseInsList insList
  if instruments = [] then { state with sent := state.sent ++ [unsubscribed], wanted := [] }
  else
    { state with
      pushed := state.pushed ++
        [.subscription (jsonObject [("ins_list", .string insList)]),
          .subscription (subscribed insList instruments.length)]
      former := state.former ++ detach userId state
      current := ⟨none, true⟩
      broadcaster := state.broadcaster.subscribe userId instruments quoteChannels
      wanted := instruments }

def isQuote : MarketDataEvent → Bool
  | .OrderBookSnapshot .. | .Tick .. | .LastPrice .. | .KLineFinished .. => true
  | .OrderBookUpdate .. | .FactorUpdate .. => false

def wants (state : QuoteForwarding) (event : MarketDataEvent) : Bool :=
  isQuote event && state.wanted.any fun id => instrumentMatches id event.instrumentId

def broadcastEvent (event : MarketDataEvent) (state : QuoteForwarding) : QuoteForwarding :=
  { state with
    broadcaster := state.broadcaster.broadcast event
    expected := if state.wants event then state.expected ++ [event] else state.expected }

def receiveFormer (forwarder : FormerForwarder) : FormerForwarder :=
  if forwarder.running = false ∨ forwarder.handling.isSome then forwarder
  else
    match forwarder.remaining with
    | event :: remaining => { forwarder with handling := some event, remaining }
    | [] => { forwarder with running := false }

def receiveFormerAt (index : ℕ) (state : QuoteForwarding) : QuoteForwarding :=
  match state.former[index]? with
  | none => state
  | some forwarder => { state with former := state.former.set index (receiveFormer forwarder) }

def receiveCurrent (userId : String) (state : QuoteForwarding) : QuoteForwarding :=
  if state.current.running = false ∨ state.current.handling.isSome then state
  else
    match state.broadcaster.subscribers userId with
    | none => state
    | some info =>
      match info.queue with
      | event :: _ =>
        { state with
          broadcaster := state.broadcaster.read info.receiver
          current := { state.current with handling := some event } }
      | [] => state

section Push

variable (showF64 : ℚ → String)

/-- The patch that a task pushes, and the task after it. A panic ends the task. -/
def pushEvent (forwarder : Forwarder) : List PushedPatch × Forwarder :=
  match forwarder.handling with
  | none => ([], forwarder)
  | some event =>
    match convertMarketEventToDiff showF64 event with
    | .ok (some patch) => ([.market patch], { forwarder with handling := none })
    | .ok none => ([], { forwarder with handling := none })
    | .error _ => ([], ⟨none, false⟩)

def pushFormer (index : ℕ) (state : QuoteForwarding) : QuoteForwarding :=
  match state.former[index]? with
  | none => state
  | some forwarder =>
    let result := pushEvent showF64 forwarder.toForwarder
    { state with
      pushed := state.pushed ++ result.1
      former := state.former.set index { forwarder with toForwarder := result.2 } }

def broadcasterAfter (userId : String) (running : Bool) (state : QuoteForwarding) :
    MarketDataBroadcaster :=
  match state.broadcaster.subscribers userId with
  | none => state.broadcaster
  | some info =>
    if running then state.broadcaster else state.broadcaster.dropReceiver info.receiver

def pushCurrent (userId : String) (state : QuoteForwarding) : QuoteForwarding :=
  let result := pushEvent showF64 state.current
  { state with
    pushed := state.pushed ++ result.1
    current := result.2
    broadcaster := broadcasterAfter userId result.2.running state }

def step (userId : String) (state : QuoteForwarding) : Input → QuoteForwarding
  | .subscribeQuote insList => handleSubscribeQuote userId insList state
  | .broadcast event => broadcastEvent event state
  | .receive none => receiveCurrent userId state
  | .receive (some index) => receiveFormerAt index state
  | .push none => pushCurrent showF64 userId state
  | .push (some index) => pushFormer showF64 index state

end Push

def snapshot (state : QuoteForwarding) : Value :=
  applyPatches .emptyObject (state.pushed.map PushedPatch.patch)

end QuoteForwarding

end QAExchange
