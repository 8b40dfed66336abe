import QAExchange.Exchange.Interleavings
import QAExchange.ReferenceQars

/-! # An exchange on the reference qars

A fresh router over reference books, with accounts that hold some money. Its
logs never fail.
-/

namespace QAExchange.ReferenceExchange

open Foundation

def clock : Now where
  nanos := 1700000000000000000
  millis := 1700000000000
  date := "2023-11-14"
  dateTime := "2023-11-14 10:00:00"
  timeOfDay := 36000
  millis_range := by decide

def account (accountCookie : String) (money : ℚ) : Account referenceQars where
  accountCookie := accountCookie
  money := money
  balance := money
  riskRatio := 0
  positionProfit := 0
  frozen := ∅
  dailyorders := ∅
  hold := ∅
  rest := ()

def accountMgr (accounts : List (Account referenceQars)) : AccountManager referenceQars :=
  accounts.foldl (fun manager account => manager.putAccount account.accountCookie account) ⟨∅⟩

def tradeRecorder : TradeRecorder where
  trades := ∅
  byInstrument _ := []
  byUser _ := []
  sequence := 1
  trades_below := by simp

def gateway (accounts : List (Account referenceQars)) : TradeGateway referenceQars where
  accountMgr := accountMgr accounts
  sent := []
  tradeSeq := 1
  idGenerator _ := 0
  wal := ⟨fun _ => [], fun _ => [], 0, fun _ => none⟩
  tradeRecorder := some tradeRecorder
  marketDataService := some []
  deals := []

def router (accounts : List (Account referenceQars)) (instruments : List String)
    (machine : Option TradingStateMachine) : OrderRouter referenceQars :=
  .new (gateway accounts) ⟨{}, fun _ => []⟩
    (fun instrumentId => if instrumentId ∈ instruments then some (ReferenceBook.new 100) else none)
    machine

theorem router_fresh (accounts : List (Account referenceQars)) (instruments : List String)
    (machine : Option TradingStateMachine) : (router accounts instruments machine).Fresh :=
  ⟨rfl, fun _ => rfl, fun _ => rfl, rfl⟩

/-- A fresh router for the instrument `X` and two traders, `a` and `b`. -/
def twoTraders : OrderRouter referenceQars :=
  router [account "a" 1000000, account "b" 1000000] ["X"] none

def steps (index count : ℕ) : List (Turn OrderRouter.Call Now) :=
  List.replicate count (.step clock index)

def openOrder (accountId instrumentId direction : String) (volume price : ℚ) :
    SubmitOrderRequest where
  accountId := accountId
  instrumentId := instrumentId
  direction := direction
  offset := "OPEN"
  volume := volume
  price := price
  orderType := "LIMIT"
  timeCondition := none
  volumeCondition := none

end QAExchange.ReferenceExchange
