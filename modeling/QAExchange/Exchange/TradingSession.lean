import QAExchange.Common

/-! # Trading sessions

The trading calendar and the checks that the trading state machine makes before
an order or a cancel.
-/

namespace QAExchange

inductive TradingState
  | ContinuousTrading
  | AuctionOrder
  | PreAuctionPeriod
  | AuctionCancel
  | AuctionMatch
  | Closed
  deriving DecidableEq

/-- `{:?}` of a state. -/
def TradingState.debug : TradingState → String
  | ContinuousTrading => "ContinuousTrading"
  | AuctionOrder => "AuctionOrder"
  | PreAuctionPeriod => "PreAuctionPeriod"
  | AuctionCancel => "AuctionCancel"
  | AuctionMatch => "AuctionMatch"
  | Closed => "Closed"

/-- Times are in seconds after midnight. -/
structure TradingSession where
  name : String
  startTime : ℕ
  endTime : ℕ
  state : TradingState
  allowOrder : Bool
  allowCancel : Bool
  allowMatch : Bool

/-- A session that ends before it starts runs over midnight. -/
def TradingSession.contains (session : TradingSession) (time : ℕ) : Bool :=
  if session.startTime ≤ session.endTime then
    decide (session.startTime ≤ time) && decide (time < session.endTime)
  else
    decide (session.startTime ≤ time) || decide (time < session.endTime)

inductive ExchangeType
  | CFFEX
  | SHFE
  | DCE
  | CZCE
  | INE
  | SIM
  deriving DecidableEq

namespace ExchangeType

def fromStr (s : String) : Option ExchangeType :=
  match s.toUpper with
  | "CFFEX" => some CFFEX
  | "SHFE" => some SHFE
  | "DCE" => some DCE
  | "CZCE" => some CZCE
  | "INE" => some INE
  | "SIM" | "SIMULATED" => some SIM
  | _ => none

def fromInstrumentId (instrumentId : String) : Option ExchangeType :=
  match instrumentId.toList.splitOn '.' with
  | exchange :: _ :: _ => fromStr (String.ofList exchange)
  | _ =>
    let code := instrumentId.toUpper
    if ["IF", "IC", "IH", "IM", "T", "TF", "TL", "TS"].any (code.startsWith ·) then
      some CFFEX
    else if ["SC", "LU", "BC"].any (code.startsWith ·) then some INE
    else some SIM

end ExchangeType

structure TradingCalendar where
  sessions : ExchangeType → Option (List TradingSession)

namespace TradingCalendar

/-- `%H:%M:%S` -/
def clock (hour minute second : ℕ) : ℕ := 3600 * hour + 60 * minute + second

def cffexSessions : List TradingSession :=
  [⟨"开盘集合竞价申报", clock 9 25 0, clock 9 29 0, .AuctionOrder, true, false, false⟩,
   ⟨"开盘集合竞价撮合", clock 9 29 0, clock 9 30 0, .AuctionMatch, false, false, true⟩,
   ⟨"上午连续交易", clock 9 30 0, clock 11 30 0, .ContinuousTrading, true, true, true⟩,
   ⟨"午休", clock 11 30 0, clock 13 0 0, .Closed, false, false, false⟩,
   ⟨"下午连续交易", clock 13 0 0, clock 15 0 0, .ContinuousTrading, true, true, true⟩,
   ⟨"收盘集合竞价", clock 15 0 0, clock 15 15 0, .AuctionOrder, true, false, false⟩]

def commoditySessions : List TradingSession :=
  [⟨"开盘集合竞价", clock 8 55 0, clock 9 0 0, .AuctionOrder, true, false, false⟩,
   ⟨"上午第一节", clock 9 0 0, clock 10 15 0, .ContinuousTrading, true, true, true⟩,
   ⟨"上午休息", clock 10 15 0, clock 10 30 0, .Closed, false, false, false⟩,
   ⟨"上午第二节", clock 10 30 0, clock 11 30 0, .ContinuousTrading, true, true, true⟩,
   ⟨"午休", clock 11 30 0, clock 13 30 0, .Closed, false, false, false⟩,
   ⟨"下午交易", clock 13 30 0, clock 15 0 0, .ContinuousTrading, true, true, true⟩,
   ⟨"夜盘交易", clock 21 0 0, clock 23 0 0, .ContinuousTrading, true, true, true⟩]

/-- `TradingCalendar::new` -/
def new : TradingCalendar where
  sessions
    | .CFFEX => some cffexSessions
    | .SHFE | .DCE | .CZCE | .INE => some commoditySessions
    | .SIM => some [⟨"全天交易", clock 0 0 0, clock 23 59 59, .ContinuousTrading, true, true, true⟩]

def getCurrentSession (calendar : TradingCalendar) (exchange : ExchangeType) (time : ℕ) :
    Option TradingSession := do
  let sessions ← calendar.sessions exchange
  sessions.find? (·.contains time)

def getCurrentState (calendar : TradingCalendar) (exchange : ExchangeType) (time : ℕ) :
    TradingState :=
  match calendar.getCurrentSession exchange time with
  | some session => session.state
  | none => .Closed

end TradingCalendar

inductive OrderValidation
  | Allowed
  | Rejected (reason : String)
  deriving DecidableEq

structure TradingStateMachine where
  calendar : TradingCalendar
  globalState : TradingState
  instrumentStates : String → Option TradingState

namespace TradingStateMachine

/-- `TradingStateMachine::new` -/
def new : TradingStateMachine where
  calendar := .new
  globalState := .Closed
  instrumentStates := fun _ => none

def setInstrumentState (instrumentId : String) (state : TradingState)
    (machine : TradingStateMachine) : TradingStateMachine :=
  { machine with
    instrumentStates := Function.update machine.instrumentStates instrumentId (some state) }

def getInstrumentState (machine : TradingStateMachine) (now : Now) (instrumentId : String) :
    TradingState :=
  match machine.instrumentStates instrumentId with
  | some state => state
  | none =>
    match ExchangeType.fromInstrumentId instrumentId with
    | some exchange => machine.calendar.getCurrentState exchange now.timeOfDay
    | none => machine.globalState

def currentSession (machine : TradingStateMachine) (now : Now) (instrumentId : String) :
    Option TradingSession := do
  let exchange ← ExchangeType.fromInstrumentId instrumentId
  machine.calendar.getCurrentSession exchange now.timeOfDay

/-- The frame of `validate_order` and `validate_cancel`: first the session's
permission, then the state. -/
def validate (allows : TradingSession → Bool) (verb : String)
    (byState : TradingState → OrderValidation) (machine : TradingStateMachine) (now : Now)
    (instrumentId : String) : OrderValidation :=
  let state := machine.getInstrumentState now instrumentId
  match machine.currentSession now instrumentId with
  | some session =>
    if allows session then byState state
    else .Rejected ("当前时段(" ++ session.name ++ ")不允许" ++ verb ++ "，交易状态: " ++ state.debug)
  | none => byState state

def validateOrder : TradingStateMachine → Now → String → OrderValidation :=
  validate TradingSession.allowOrder "下单" fun
    | .ContinuousTrading | .AuctionOrder | .PreAuctionPeriod => .Allowed
    | .AuctionCancel => .Rejected "集合竞价撤单期不允许下单"
    | .AuctionMatch => .Rejected "集合竞价撮合期不允许下单"
    | .Closed => .Rejected "市场已闭市"

def validateCancel : TradingStateMachine → Now → String → OrderValidation :=
  validate TradingSession.allowCancel "撤单" fun
    | .ContinuousTrading | .PreAuctionPeriod | .AuctionCancel => .Allowed
    | .AuctionOrder => .Rejected "集合竞价申报期不允许撤单"
    | .AuctionMatch => .Rejected "集合竞价撮合期不允许撤单"
    | .Closed => .Rejected "市场已闭市"

end TradingStateMachine

end QAExchange
