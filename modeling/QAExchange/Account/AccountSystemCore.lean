import QAExchange.Exchange.AccountManager
import QAExchange.Protocol.IpcMessages

/-! # The account system

The loop of the account system receives trade reports into a queue. The queue is
handed on account by account when it is as long as a batch, or when the loop is
idle. Every account keeps the list of what was done to it.
-/

namespace QAExchange

open Foundation Ipc

variable {Q : Qars}

structure AccountUpdateNotify where
  userId : String
  balance : ℚ
  available : ℚ
  margin : ℚ
  timestamp : ℤ

/-- A change of an account: a confirmed order, or a trade at a time. -/
inductive AccountUpdate
  | confirmed (accepted : OrderAccepted)
  | applied (trade : TradeReport) (dateTime : String)

namespace AccountUpdate

def trade? : AccountUpdate → Option TradeReport
  | .applied trade _ => some trade
  | .confirmed _ => none

/-- `on_order_confirm`; an order that is not there is only logged. -/
def onOrderConfirm (orderId exchangeOrderId : String) (account : Account Q) : Account Q :=
  match account.dailyorders.lookup orderId with
  | some order =>
    let order := { order with status := "ALIVE", exchangeOrderId := exchangeOrderId }
    { account with dailyorders := account.dailyorders.insert orderId order }
  | none => account

def towardsOfTrade (trade : TradeReport) : ℤ :=
  match trade.direction.toNat, trade.offset.toNat with
  | 0, 0 => 1
  | 1, 0 => -2
  | 0, 1 => 3
  | 1, 1 => -3
  | _, _ => 1

def applyTrade (trade : TradeReport) (dateTime : String) (account : Account Q) : Account Q :=
  let orderId := text trade.orderId
  let account := match account.dailyorders.lookup orderId with
    | some order =>
      let order := { order with exchangeOrderId := text trade.exchangeOrderId }
      { account with dailyorders := account.dailyorders.insert orderId order }
    | none => account
  Q.receiveDealSim account (text trade.instrumentId) trade.volume trade.price dateTime orderId
    (text trade.tradeId) orderId (towardsOfTrade trade)

def perform (account : Account Q) : AccountUpdate → Account Q
  | .confirmed accepted =>
    onOrderConfirm (text accepted.orderId) (text accepted.exchangeOrderId) account
  | .applied trade dateTime => applyTrade trade dateTime account

end AccountUpdate

structure AccountEntry (Q : Qars) where
  account : Account Q
  updates : List AccountUpdate

namespace AccountEntry

def update (entry : AccountEntry Q) (update : AccountUpdate) : AccountEntry Q where
  account := update.perform entry.account
  updates := entry.updates ++ [update]

def applyTrades (dateTime : String) (trades : List TradeReport) (entry : AccountEntry Q) :
    AccountEntry Q :=
  trades.foldl (fun entry trade => entry.update (.applied trade dateTime)) entry

def applied (entry : AccountEntry Q) : List TradeReport :=
  entry.updates.filterMap AccountUpdate.trade?

end AccountEntry

/-- `updateSender` holds what was sent, where there is a sender. -/
structure AccountSystemCore (Q : Qars) where
  accounts : AList fun _ : String => AccountEntry Q
  updateSender : Option (List AccountUpdateNotify)
  batchSize : ℕ

/-- The accounts of one batch, and an order in which they get their trades. -/
structure GroupOrder where
  arrange : List (String × List TradeReport) → List (String × List TradeReport)
  perm : ∀ groups, (arrange groups).Perm groups

/-- What `select!` comes back with. A closed channel is ready all the time. -/
inductive Received
  | accepted (accepted : OrderAccepted)
  | trade (trade : TradeReport)
  | closed
  | timeout

/-- One pass of the loop: the clock, the order of the accounts in case that a batch
is handed on, and what was received. -/
structure Pass where
  now : Now
  groups : GroupOrder
  received : Received

namespace AccountSystemCore

def new (updateSender : Bool) (batchSize : ℕ) : AccountSystemCore Q where
  accounts := ∅
  updateSender := if updateSender then some [] else none
  batchSize := batchSize

def registerAccount (core : AccountSystemCore Q) (account : String × Account Q) :
    AccountSystemCore Q :=
  { core with accounts := core.accounts.insert account.1 ⟨account.2, []⟩ }

def handleOrderAccepted (accepted : OrderAccepted) (core : AccountSystemCore Q) :
    AccountSystemCore Q :=
  let userId := text accepted.userId
  match core.accounts.lookup userId with
  | some entry =>
    { core with accounts := core.accounts.insert userId (entry.update (.confirmed accepted)) }
  | none => core

def groupTrades (trades : List TradeReport) : AList fun _ : String => List TradeReport :=
  trades.foldl (fun grouped trade =>
    let userId := text trade.userId
    grouped.insert userId ((grouped.lookup userId).getD [] ++ [trade])) ∅

def updateAccount (now : Now) (core : AccountSystemCore Q) (group : String × List TradeReport) :
    AccountSystemCore Q :=
  match core.accounts.lookup group.1 with
  | some entry =>
    let entry := entry.applyTrades now.dateTime group.2
    let notify : AccountUpdateNotify := {
      userId := group.1
      balance := entry.account.money
      available := entry.account.money
      margin := Q.getMargin entry.account + entry.account.getFrozenMargin
      timestamp := now.nanos }
    { core with
      accounts := core.accounts.insert group.1 entry
      updateSender := core.updateSender.map fun sent => sent ++ [notify] }
  | none => core

def batchUpdateAccounts (now : Now) (groups : GroupOrder) (trades : List TradeReport)
    (core : AccountSystemCore Q) : AccountSystemCore Q :=
  let grouped := (groupTrades trades).entries.map fun group => (group.1, group.2)
  (groups.arrange grouped).foldl (updateAccount now) core

def select (state : AccountSystemCore Q × List TradeReport) (pass : Pass) :
    AccountSystemCore Q × List TradeReport :=
  match pass.received with
  | .accepted accepted => (state.1.handleOrderAccepted accepted, state.2)
  | .trade trade =>
    let updateQueue := state.2 ++ [trade]
    if state.1.batchSize ≤ updateQueue.length then
      (state.1.batchUpdateAccounts pass.now pass.groups updateQueue, [])
    else (state.1, updateQueue)
  | .closed => state
  | .timeout =>
    if state.2 ≠ [] then (state.1.batchUpdateAccounts pass.now pass.groups state.2, [])
    else state

def run (passes : List Pass) (core : AccountSystemCore Q) : AccountSystemCore Q :=
  (passes.foldl select (core, [])).1

end AccountSystemCore

end QAExchange
