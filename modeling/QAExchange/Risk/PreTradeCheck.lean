import QAExchange.Exchange.AccountManager

/-! # Pre-trade risk checks

The checks before an order goes to the matching engine, and the list of active
orders that the check against self-trading reads.
-/

namespace QAExchange

open Foundation Action

variable {Q : Qars}

inductive RiskCheckCode
  | InsufficientFunds
  | ExceedPositionLimit
  | ExceedOrderLimit
  | HighRiskRatio
  | SelfTradingRisk
  | AccountNotFound
  | InstrumentNotFound
  | InvalidOrderParams
  deriving DecidableEq

/-- `code as u32` -/
def RiskCheckCode.toNat : RiskCheckCode → ℕ
  | InsufficientFunds => 1001
  | ExceedPositionLimit => 1002
  | ExceedOrderLimit => 1003
  | HighRiskRatio => 1004
  | SelfTradingRisk => 1005
  | AccountNotFound => 1006
  | InstrumentNotFound => 1007
  | InvalidOrderParams => 1008

inductive RiskCheckResult
  | Pass
  | Reject (reason : Message) (code : RiskCheckCode)
  deriving DecidableEq

structure RiskConfig where
  maxPositionRatio : ℚ := 1 / 2
  maxOrderAmount : ℚ := 10000000
  riskRatioWarning : ℚ := 4 / 5
  riskRatioReject : ℚ := 19 / 20
  enableSelfTradePrevention : Bool := true
  minOrderVolume : ℚ := 1
  maxOrderVolume : ℚ := 10000

structure OrderCheckRequest where
  accountId : String
  instrumentId : String
  direction : String
  offset : String
  volume : ℚ
  price : ℚ
  limitPrice : ℚ
  priceType : String

structure ActiveOrderInfo where
  orderId : String
  instrumentId : String
  direction : String
  limitPrice : ℚ
  priceType : String

structure PreTradeCheck where
  config : RiskConfig
  activeOrders : String → List ActiveOrderInfo

namespace PreTradeCheck

def estimatedCommission (price volume : ℚ) : ℚ := price * volume * (3 / 10000)

/-- Funds that an order needs: full price to buy open, a fifth to sell open, else
the commission. -/
def requiredFunds (direction offset : String) (price volume : ℚ) : ℚ :=
  if direction = "BUY" ∧ offset = "OPEN" then
    price * volume + estimatedCommission price volume
  else if direction = "SELL" ∧ offset = "OPEN" then
    price * volume * (1 / 5) + estimatedCommission price volume
  else estimatedCommission price volume

def insufficientFunds (available required : ℚ) : Message :=
  [.text "Insufficient funds: available=", .fixed 2 available, .text ", required=",
    .fixed 2 required]

def checkOrderParams (config : RiskConfig) (req : OrderCheckRequest) : Except ExchangeError Unit :=
  if req.volume < config.minOrderVolume then
    .error (.RiskCheckFailed [.text "Order volume ", .decimal req.volume,
      .text " below minimum ", .decimal config.minOrderVolume])
  else if req.volume > config.maxOrderVolume then
    .error (.RiskCheckFailed [.text "Order volume ", .decimal req.volume,
      .text " exceeds maximum ", .decimal config.maxOrderVolume])
  else if req.priceType ≠ "MARKET" ∧ req.price ≤ 0 then
    .error (.RiskCheckFailed (.ofString "Invalid order price for LIMIT order"))
  else if req.priceType = "MARKET" then .ok ()
  else if req.price * req.volume > config.maxOrderAmount then
    .error (.RiskCheckFailed [.text "Order amount ", .decimal (req.price * req.volume),
      .text " exceeds limit ", .decimal config.maxOrderAmount])
  else .ok ()

def checkFunds (account : Account Q) (req : OrderCheckRequest) : Option RiskCheckResult :=
  let required := requiredFunds req.direction req.offset req.price req.volume
  if account.money < required then
    some (.Reject (insufficientFunds account.money required) .InsufficientFunds)
  else none

def totalValue (account : Account Q) : Option ℚ :=
  if account.balance > 0 then some account.balance
  else if account.money > 0 then some account.money
  else none

def checkPositionLimit (config : RiskConfig) (account : Account Q) (req : OrderCheckRequest) :
    Option RiskCheckResult :=
  if req.offset = "OPEN" then
    let currentPosition := match account.hold.lookup req.instrumentId with
      | some pos =>
        pos.volumeLongToday + pos.volumeLongHis + pos.volumeShortToday + pos.volumeShortHis
      | none => 0
    match totalValue account with
    | none =>
      some (.Reject (.ofString
        "Insufficient funds: account balance is zero, please deposit first")
        .InsufficientFunds)
    | some value =>
      let positionRatio := (currentPosition + req.volume) * req.price / value
      if positionRatio > config.maxPositionRatio then
        some (.Reject [.text "Position ratio ", .fixed 2 (positionRatio * 100),
          .text "% exceeds limit ", .fixed 2 (config.maxPositionRatio * 100), .text "%"]
          .ExceedPositionLimit)
      else none
  else none

def checkRiskRatio (config : RiskConfig) (account : Account Q) : Option RiskCheckResult :=
  if account.riskRatio ≥ config.riskRatioReject then
    some (.Reject [.text "Risk ratio ", .fixed 2 (account.riskRatio * 100),
      .text "% exceeds reject threshold ", .fixed 2 (config.riskRatioReject * 100), .text "%"]
      .HighRiskRatio)
  else none

def wouldMatch (req : OrderCheckRequest) (limitPrice : ℚ) : Bool :=
  match req.direction, req.priceType with
  | "BUY", "MARKET" => true
  | "BUY", _ => decide (req.limitPrice ≥ limitPrice)
  | "SELL", "MARKET" => true
  | "SELL", _ => decide (req.limitPrice ≤ limitPrice)
  | _, _ => false

/-- An active order that the new order would trade with. Every direction but
`BUY` looks for `BUY` orders. -/
def selfTrades (req : OrderCheckRequest) (active : ActiveOrderInfo) : Bool :=
  let oppositeDirection := if req.direction = "BUY" then "SELL" else "BUY"
  decide (active.instrumentId = req.instrumentId) &&
    decide (active.direction = oppositeDirection) && wouldMatch req active.limitPrice

def checkSelfTrading (checker : PreTradeCheck) (req : OrderCheckRequest) : Option RiskCheckResult :=
  if req.offset = "CLOSE" ∨ req.offset = "CLOSETODAY" ∨ req.offset = "CLOSEYESTERDAY" then none
  else
    match (checker.activeOrders req.accountId).find? (selfTrades req) with
    | some active =>
      some (.Reject [.text "Self-trading prevented: existing ", .text active.direction,
        .text " order ", .text active.orderId, .text " @ ", .decimal active.limitPrice,
        .text " would match new ", .text req.direction, .text " @ ",
        .decimal req.limitPrice] .SelfTradingRisk)
    | none => none

/-- `check` on the account that `get_account` found. -/
def checkAccount (checker : PreTradeCheck) (account : Account Q) (req : OrderCheckRequest) :
    RiskCheckResult :=
  let selfTrading :=
    if checker.config.enableSelfTradePrevention then checker.checkSelfTrading req else none
  ((checkFunds account req).or <| (checkPositionLimit checker.config account req).or <|
    (checkRiskRatio checker.config account).or selfTrading).getD .Pass

def check (checker : PreTradeCheck) (manager : AccountManager Q) (req : OrderCheckRequest) :
    Except ExchangeError RiskCheckResult := do
  checkOrderParams checker.config req
  match manager.accounts.lookup req.accountId with
  | none => .error (AccountManager.notFound req.accountId)
  | some account => .ok (checkAccount checker account req)

def registerActiveOrder (accountId : String) (info : ActiveOrderInfo) (checker : PreTradeCheck) :
    PreTradeCheck :=
  { checker with
    activeOrders := Function.update checker.activeOrders accountId
      (checker.activeOrders accountId ++ [info]) }

def removeActiveOrder (accountId orderId : String) (checker : PreTradeCheck) : PreTradeCheck :=
  { checker with
    activeOrders := Function.update checker.activeOrders accountId
      ((checker.activeOrders accountId).filter (·.orderId ≠ orderId)) }

def IsActive (accountId orderId : String) (checker : PreTradeCheck) : Prop :=
  ∃ info ∈ checker.activeOrders accountId, info.orderId = orderId

end PreTradeCheck

end QAExchange
