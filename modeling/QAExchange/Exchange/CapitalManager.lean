import QAExchange.Exchange.AccountManager
import QAExchange.Foundation.Interleaving

/-! # Capital manager

Deposits and withdrawals with a record. A call reads the account, changes it and
reads it again, and the lock of the account is free in between.
-/

namespace QAExchange

open Foundation Action

variable {Q : Qars}

/-- What the capital manager reads of `qifi.accounts`. -/
structure QifiFunds where
  balance : ℚ
  available : ℚ
  deriving DecidableEq

/-- The functions of qars that the capital manager needs of an account, and the
two sums that it adds to. -/
structure AccountFunds (Q : Qars) where
  /-- `get_qifi_slice`, which may bring the account up to date. -/
  getQifiSlice : Account Q → QifiFunds × Account Q
  /-- `accounts.deposit += amount` -/
  addDeposit : ℚ → Q.Rest → Q.Rest
  /-- `accounts.withdraw += amount` -/
  addWithdraw : ℚ → Q.Rest → Q.Rest

inductive TransactionType
  | Deposit
  | Withdrawal
  | Commission
  | PnL
  | Settlement

inductive TransactionStatus
  | Pending
  | Completed
  | Failed
  | Cancelled

structure FundTransaction where
  transactionId : String
  userId : String
  transactionType : TransactionType
  amount : ℚ
  balanceBefore : ℚ
  balanceAfter : ℚ
  status : TransactionStatus
  method : Option String
  remark : Option String
  createdAt : String
  updatedAt : String

structure CapitalManager (Q : Qars) where
  accountMgr : AccountManager Q
  transactions : AList fun _ : String => List FundTransaction
  transactionSeq : ℕ

structure FundRequest where
  amount : ℚ
  method : Option String
  remark : Option String

/-- `deposit_with_record` or `withdraw_with_record`. -/
inductive FundCall
  | deposit (request : FundRequest)
  | withdraw (request : FundRequest)

namespace FundCall

def request : FundCall → FundRequest
  | .deposit request | .withdraw request => request

def transactionType : FundCall → TransactionType
  | .deposit _ => .Deposit
  | .withdraw _ => .Withdrawal

end FundCall

inductive FundTask
  | starting (call : FundCall)
  | changing (call : FundCall) (balanceBefore : ℚ)
  | measuring (call : FundCall) (balanceBefore : ℚ)
  | numbering (call : FundCall) (balanceBefore balanceAfter : ℚ)
  | recording (transaction : FundTransaction)
  | returned (transaction : FundTransaction)
  | failed (error : ExchangeError)

/-- The local time as `%Y%m%d` and as `%Y-%m-%d %H:%M:%S`. -/
structure LocalTime where
  day : String
  dateTime : String

namespace CapitalManager

def new (accountMgr : AccountManager Q) : CapitalManager Q where
  accountMgr := accountMgr
  transactions := ∅
  transactionSeq := 1

variable (funds : AccountFunds Q) (accountId : String)

/-- `AccountQars2Ext::deposit` -/
def deposit (amount : ℚ) (account : Account Q) : Account Q :=
  { account with money := account.money + amount, rest := funds.addDeposit amount account.rest }

/-- `AccountQars2Ext::withdraw` -/
def withdraw (amount : ℚ) (account : Account Q) : Account Q :=
  { account with money := account.money - amount, rest := funds.addWithdraw amount account.rest }

def withAccount (work : Account Q → α × Account Q) :
    Action ExchangeError (CapitalManager Q) α := fun manager =>
  match manager.accountMgr.accounts.lookup accountId with
  | some account => (.ok (work account).1,
      { manager with accountMgr := manager.accountMgr.putAccount accountId (work account).2 })
  | none => (.error (AccountManager.notFound accountId), manager)

def getQifiSlice : Action ExchangeError (CapitalManager Q) QifiFunds :=
  withAccount accountId funds.getQifiSlice

def generateTransactionId (now : LocalTime) : Action ExchangeError (CapitalManager Q) String := do
  let seq ← read transactionSeq
  update fun manager => { manager with transactionSeq := manager.transactionSeq + 1 }
  pure ("TXN" ++ now.day ++ padded 8 seq)

def transactionsOf (manager : CapitalManager Q) : List FundTransaction :=
  (manager.transactions.lookup accountId).getD []

def saveTransaction (transaction : FundTransaction) :
    Action ExchangeError (CapitalManager Q) Unit :=
  update fun manager => { manager with
    transactions := manager.transactions.insert accountId
      (transactionsOf accountId manager ++ [transaction]) }

/-! ## The steps of a call -/

/-- The first reading of a deposit. -/
def beginDeposit (request : FundRequest) : Action ExchangeError (CapitalManager Q) ℚ := do
  if request.amount ≤ 0 then
    fail (.InvalidParameter (.ofString "存款金额必须大于0"))
  else
    let qifi ← getQifiSlice funds accountId
    pure qifi.balance

/-- The first reading of a withdrawal, and the check of the available funds. -/
def beginWithdraw (request : FundRequest) : Action ExchangeError (CapitalManager Q) ℚ := do
  if request.amount ≤ 0 then
    fail (.InvalidParameter (.ofString "取款金额必须大于0"))
  else
    let qifi ← getQifiSlice funds accountId
    if qifi.available < request.amount then
      fail (.InsufficientBalance [.text "可用资金不足: 需要=", .decimal request.amount,
        .text ", 可用=", .decimal qifi.available])
    else pure qifi.balance

def firstReading : FundCall → Action ExchangeError (CapitalManager Q) ℚ
  | .deposit request => beginDeposit funds accountId request
  | .withdraw request => beginWithdraw funds accountId request

def change : FundCall → Action ExchangeError (CapitalManager Q) Unit
  | .deposit request =>
    withAccount accountId fun account => ((), deposit funds request.amount account)
  | .withdraw request =>
    withAccount accountId fun account => ((), withdraw funds request.amount account)

def secondReading : Action ExchangeError (CapitalManager Q) ℚ := do
  let qifi ← getQifiSlice funds accountId
  pure qifi.balance

def makeTransaction (call : FundCall) (balanceBefore balanceAfter : ℚ) (now : LocalTime) :
    Action ExchangeError (CapitalManager Q) FundTransaction := do
  let transactionId ← generateTransactionId now
  pure {
    transactionId := transactionId
    userId := accountId
    transactionType := call.transactionType
    amount := call.request.amount
    balanceBefore := balanceBefore
    balanceAfter := balanceAfter
    status := .Completed
    method := call.request.method
    remark := call.request.remark
    createdAt := now.dateTime
    updatedAt := now.dateTime }

/-- The two functions differ in their first reading and in the change only. -/
def withRecord (call : FundCall) (now : LocalTime) :
    Action ExchangeError (CapitalManager Q) FundTransaction := do
  let balanceBefore ← firstReading funds accountId call
  change funds accountId call
  let balanceAfter ← secondReading funds accountId
  let transaction ← makeTransaction accountId call balanceBefore balanceAfter now
  saveTransaction accountId transaction
  pure transaction

def depositWithRecord (request : FundRequest) (now : LocalTime) :
    Action ExchangeError (CapitalManager Q) FundTransaction :=
  withRecord funds accountId (.deposit request) now

def withdrawWithRecord (request : FundRequest) (now : LocalTime) :
    Action ExchangeError (CapitalManager Q) FundTransaction :=
  withRecord funds accountId (.withdraw request) now

/-- The task goes on after a success and ends with an error. -/
def proceed (next : α → FundTask) (result : Except ExchangeError α × CapitalManager Q) :
    FundTask × CapitalManager Q :=
  match result with
  | (.ok value, manager) => (next value, manager)
  | (.error error, manager) => (.failed error, manager)

def advance (now : LocalTime) (manager : CapitalManager Q) :
    FundTask → FundTask × CapitalManager Q
  | .starting call => proceed (.changing call) (exec (firstReading funds accountId call) manager)
  | .changing call balanceBefore =>
    proceed (fun _ => .measuring call balanceBefore)
      (exec (change funds accountId call) manager)
  | .measuring call balanceBefore =>
    proceed (.numbering call balanceBefore) (exec (secondReading funds accountId) manager)
  | .numbering call balanceBefore balanceAfter =>
    proceed .recording
      (exec (makeTransaction accountId call balanceBefore balanceAfter now) manager)
  | .recording transaction =>
    proceed (fun _ => .returned transaction) (exec (saveTransaction accountId transaction) manager)
  | .returned transaction => (.returned transaction, manager)
  | .failed error => (.failed error, manager)

def service : Service (CapitalManager Q) FundTask FundCall LocalTime where
  start := .starting
  advance := advance funds accountId

theorem solo_withRecord (call : FundCall) (now : LocalTime) (manager : CapitalManager Q) :
    (service funds accountId).Solo (.starting call, manager)
      (proceed .returned (exec (withRecord funds accountId call now) manager)) := by
  refine Service.Solo.head _ now ?_
  rw [withRecord, exec_bind]
  change Service.Solo _ (proceed _ (exec (firstReading funds accountId call) manager)) _
  rcases exec (firstReading funds accountId call) manager with ⟨_ | balanceBefore, begun⟩
  · exact .refl
  · refine Service.Solo.head _ now ?_
    dsimp only
    rw [exec_bind]
    change Service.Solo _ (proceed _ (exec (change funds accountId call) begun)) _
    rcases exec (change funds accountId call) begun with ⟨_ | _, changed⟩
    · exact .refl
    · refine Service.Solo.head _ now ?_
      dsimp only
      rw [exec_bind]
      change Service.Solo _ (proceed _ (exec (secondReading funds accountId) changed)) _
      rcases exec (secondReading funds accountId) changed with ⟨_ | balanceAfter, measured⟩
      · exact .refl
      · exact Service.Solo.head _ now (Service.Solo.head _ now .refl)

end CapitalManager

end QAExchange
