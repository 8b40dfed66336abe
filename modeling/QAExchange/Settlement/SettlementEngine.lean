import Mathlib.Algebra.Order.Field.Rat

/-! # The settlement of one account

What the daily settlement computes from an account before it settles it, and the record it
makes of that. Prices, volumes and amounts are rationals.
-/

namespace QAExchange

structure HeldPosition where
  volumeLongToday : ℚ
  volumeLongHis : ℚ
  volumeShortToday : ℚ
  volumeShortHis : ℚ
  openPriceLong : ℚ
  openPriceShort : ℚ

def HeldPosition.longVolume (position : HeldPosition) : ℚ :=
  position.volumeLongToday + position.volumeLongHis

def HeldPosition.shortVolume (position : HeldPosition) : ℚ :=
  position.volumeShortToday + position.volumeShortHis

/-- What the settlement reads or writes of a `QA_Account`. -/
structure SettledAccount where
  balance : ℚ
  available : ℚ
  margin : ℚ
  closeProfit : ℚ
  commission : ℚ
  positionProfit : ℚ
  riskRatio : ℚ
  hold : List (String × HeldPosition)

structure PreCalculatedSettlement where
  accountId : String
  positionProfit : ℚ
  closeProfit : ℚ
  commission : ℚ
  preBalance : ℚ
  newBalance : ℚ
  newMargin : ℚ
  riskRatio : ℚ
  needForceClose : Bool

structure AccountSettlement where
  userId : String
  date : String
  closeProfit : ℚ
  positionProfit : ℚ
  commission : ℚ
  preBalance : ℚ
  balance : ℚ
  riskRatio : ℚ
  forceClose : Bool
  margin : ℚ
  available : ℚ

/-- `QA_Account::settle`, with what it does to the two amounts that it resets. -/
structure SettleRule where
  settle : SettledAccount → SettledAccount
  commission_settle : ∀ account, (settle account).commission = 0
  closeProfit_settle : ∀ account, (settle account).closeProfit = 0

structure SettlementEngine where
  /-- The accounts of the account manager, by their cookies. -/
  accountIds : List String
  settlementPrices : String → Option ℚ
  forceCloseThreshold : ℚ
  rule : SettleRule

namespace SettlementEngine

def profitOf (price : ℚ) (position : HeldPosition) : ℚ :=
  (if 0 < position.longVolume then (price - position.openPriceLong) * position.longVolume
    else 0) +
  (if 0 < position.shortVolume then (position.openPriceShort - price) * position.shortVolume
    else 0)

def positionProfit (engine : SettlementEngine) (account : SettledAccount) : ℚ :=
  (account.hold.map fun held =>
    match engine.settlementPrices held.1 with
    | some price => profitOf price held.2
    | none => 0).sum

def newBalance (engine : SettlementEngine) (account : SettledAccount) : ℚ :=
  account.balance + engine.positionProfit account + account.closeProfit - account.commission

def riskRatio (engine : SettlementEngine) (account : SettledAccount) : ℚ :=
  if 0 < engine.newBalance account then account.margin / engine.newBalance account else 999

def preCalculateAccount (engine : SettlementEngine) (accountId : String)
    (account : SettledAccount) : PreCalculatedSettlement where
  accountId := accountId
  positionProfit := engine.positionProfit account
  closeProfit := account.closeProfit
  commission := account.commission
  preBalance := account.balance
  newBalance := engine.newBalance account
  newMargin := account.margin
  riskRatio := engine.riskRatio account
  needForceClose := decide (engine.forceCloseThreshold ≤ engine.riskRatio account)

/-- The part of `apply_settlement` under the write lock. -/
def applySettlement (engine : SettlementEngine) (preCalc : PreCalculatedSettlement)
    (account : SettledAccount) : SettledAccount :=
  { engine.rule.settle account with
    positionProfit := preCalc.positionProfit
    riskRatio := preCalc.riskRatio }

/-- The record of `apply_settlement`, from the figures and from the account as it is read
again at the end. -/
def recordOf (preCalc : PreCalculatedSettlement) (date : String) (final : SettledAccount) :
    AccountSettlement where
  userId := preCalc.accountId
  date := date
  closeProfit := preCalc.closeProfit
  positionProfit := preCalc.positionProfit
  commission := preCalc.commission
  preBalance := preCalc.preBalance
  balance := final.balance
  riskRatio := preCalc.riskRatio
  forceClose := preCalc.needForceClose
  margin := final.margin
  available := final.available

end SettlementEngine

end QAExchange
