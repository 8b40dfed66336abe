import Mathlib.Algebra.BigOperators.Group.List.Basic
import QAExchange.Common
import QAExchange.Qars

/-! # Accounts

The account table, and the functions that the exchange adds to a qars account.
-/

namespace QAExchange

open Foundation Action

variable {Q : Qars}

namespace QAAccount

/-- `get_frozen_margin` -/
def getFrozenMargin (account : QAAccount Rest) : ℚ :=
  (account.frozen.entries.map fun entry => entry.2.money).sum

/-- `cancel_order`: release the frozen funds, then close the order. The funds
are released even where the order is not found. -/
def cancelOrder (orderId : String) (account : Account Q) : Except Message Order × Account Q :=
  let account := match account.frozen.lookup orderId with
    | some frozen =>
      { account with
        money := account.money + frozen.money, frozen := account.frozen.erase orderId }
    | none => account
  match account.dailyorders.lookup orderId with
  | some order =>
    let order := { Q.cancelOrder order with volumeLeft := 0 }
    (.ok order, { account with dailyorders := account.dailyorders.insert orderId order })
  | none => (.error [.text "order ", .text orderId, .text " not found"], account)

end QAAccount

/-- `qaorder_to_qifi` -/
def qaorderToQifi (o : QAOrder) : Order where
  seqno := 0
  userId := o.userId
  orderId := o.orderId
  exchangeId := o.exchangeId
  instrumentId := o.instrumentId
  direction := o.direction
  offset := o.offset
  volumeOrign := o.volume
  priceType := o.priceType
  limitPrice := o.limitPrice
  timeCondition := o.timeCondition
  volumeCondition := o.volumeCondition
  insertDateTime := 0
  exchangeOrderId := o.exchangeOrderId
  status := "ALIVE"
  volumeLeft := o.volumeLeft
  lastMsg := o.lastMsg

/-- `calculate_towards` without its default, as `update_account` spells it out. -/
def towardsOf (direction offset : String) : Option ℤ :=
  match direction, offset with
  | "BUY", "OPEN" => some 2
  | "SELL", "OPEN" => some (-2)
  | "BUY", "CLOSE" => some 3
  | "SELL", "CLOSE" => some (-3)
  | "BUY", "CLOSETODAY" => some 4
  | "SELL", "CLOSETODAY" => some (-4)
  | _, _ => none

structure AccountManager (Q : Qars) where
  accounts : AList fun _ : String => Account Q

namespace AccountManager

/-- The error of `get_account` for an account id that is not in the table. -/
def notFound (accountId : String) : ExchangeError :=
  .AccountError [.text "Account not found: ", .text accountId]

def getAccount (accountId : String) : Action ExchangeError (AccountManager Q) (Account Q) := do
  match ← read fun manager => manager.accounts.lookup accountId with
  | some account => pure account
  | none => fail (notFound accountId)

def getAllAccounts (manager : AccountManager Q) : List (Account Q) :=
  manager.accounts.entries.map Sigma.snd

/-- Store an account back after work under its write lock. -/
def putAccount (accountId : String) (account : Account Q) (manager : AccountManager Q) :
    AccountManager Q :=
  { manager with accounts := manager.accounts.insert accountId account }

def Has (accountId : String) (manager : AccountManager Q) : Prop :=
  accountId ∈ manager.accounts

variable {accountId : String} {manager : AccountManager Q}

theorem exec_getAccount {account : Account Q}
    (found : manager.accounts.lookup accountId = some account) :
    exec (getAccount accountId) manager = (.ok account, manager) := by
  simp only [getAccount, exec_bind, exec_read, found, exec_pure]

theorem getAccount_keeps (accountId : String) : Keeps id (getAccount (Q := Q) accountId) := by
  refine .bind (.read _ _) fun found => ?_
  cases found with
  | some account => exact .pure _ _
  | none => exact .fail _ _

theorem has_putAccount {other : String} {account : Account Q} (has : Has other manager) :
    Has other (putAccount accountId account manager) := by
  simp only [Has, putAccount, AList.mem_insert]
  exact .inr has

theorem has_iff :
    Has accountId manager ↔ ∃ account, manager.accounts.lookup accountId = some account := by
  rw [Has, ← AList.lookup_isSome, Option.isSome_iff_exists]

end AccountManager

end QAExchange

/-! ## Opening, closing and restoring accounts

Besides the accounts the account manager keeps their metadata and, for each
user, the list of the user's account ids.
-/

namespace QAExchange

open Foundation Action

variable {Q : Qars}

/-- `QIFI`: what the exchange reads of a snapshot, and the rest, which only qars sees. -/
structure QIFI (Content : Type) where
  accountCookie : String
  portfolio : String
  investorName : String
  content : Content

structure AccountMaker (Q : Qars) where
  Content : Type
  /-- `QA_Account::new(account_cookie, portfolio_cookie, user_cookie, init_cash, auto_reload,
  environment)` -/
  newAccount (accountCookie portfolioCookie userCookie : String) (initCash : ℚ)
    (autoReload : Bool) (environment : String) : Account Q
  /-- `QA_Account::new_from_qifi` -/
  newFromQifi : QIFI Content → Account Q
  /-- Write the field `environment`. -/
  setEnvironment : String → Account Q → Account Q
  /-- `init_h` -/
  initH : String → Account Q → Account Q
  /-- `preset.calc_coeff()` of the position in an instrument -/
  calcCoeff : Account Q → String → ℚ
  /-- `preset.calc_sellopencoeff()` of the position in an instrument -/
  calcSellopencoeff : Account Q → String → ℚ

inductive AccountType
  | Individual
  | Institutional
  | MarketMaker

structure AccountMetadata where
  userId : String
  accountName : String
  accountType : AccountType
  createdAt : ℤ

structure OpenAccountRequest where
  userId : String
  accountId : Option String
  accountName : String
  initCash : ℚ
  accountType : AccountType

/-! ## Users -/

structure User where
  accountIds : List String

namespace User

def addAccount (accountId : String) (user : User) : User :=
  if accountId ∈ user.accountIds then user
  else { user with accountIds := user.accountIds ++ [accountId] }

def removeAccount (accountId : String) (user : User) : User :=
  { user with accountIds := user.accountIds.filter fun id => id ≠ accountId }

end User

structure UserManager where
  users : AList fun _ : String => User

namespace UserManager

def getUser (userId : String) (manager : UserManager) : Except ExchangeError User :=
  match manager.users.lookup userId with
  | some user => .ok user
  | none => .error (.UserError [.text "User not found: ", .text userId])

def getUserAccounts (userId : String) (manager : UserManager) :
    Except ExchangeError (List String) := do
  let user ← manager.getUser userId
  pure user.accountIds

def bindAccount (userId accountId : String) (manager : UserManager) :
    Except ExchangeError UserManager := do
  let user ← manager.getUser userId
  pure { manager with users := manager.users.insert userId (user.addAccount accountId) }

def unbindAccount (userId accountId : String) (manager : UserManager) :
    Except ExchangeError UserManager := do
  let user ← manager.getUser userId
  pure { manager with users := manager.users.insert userId (user.removeAccount accountId) }

end UserManager

/-! ## The tables -/

structure AccountDirectory (Q : Qars) extends AccountManager Q where
  metadata : AList fun _ : String => AccountMetadata
  userAccounts : AList fun _ : String => List String
  userManager : Option UserManager

namespace AccountDirectory

/-- `AccountManager::new`, with a user manager or without. -/
def new (userManager : Option UserManager) : AccountDirectory Q where
  accounts := ∅
  metadata := ∅
  userAccounts := ∅
  userManager := userManager

/-- Change the users, where there is a user manager. Its error is only logged. -/
def tellUsers (change : UserManager → Except ExchangeError UserManager)
    (directory : AccountDirectory Q) : AccountDirectory Q :=
  match directory.userManager with
  | none => directory
  | some users =>
    match change users with
    | .ok users => { directory with userManager := some users }
    | .error _ => directory

def store (accountId : String) (account : Account Q) (metadata : AccountMetadata)
    (directory : AccountDirectory Q) : AccountDirectory Q :=
  { directory with
    accounts := directory.accounts.insert accountId account
    metadata := directory.metadata.insert accountId metadata
    userAccounts := directory.userAccounts.insert metadata.userId
      ((directory.userAccounts.lookup metadata.userId).getD [] ++ [accountId]) }

def unlist (userId accountId : String) (directory : AccountDirectory Q) : AccountDirectory Q :=
  match directory.userAccounts.lookup userId with
  | some accounts =>
    let kept := accounts.filter fun id => id ≠ accountId
    { directory with userAccounts := directory.userAccounts.insert userId kept }
  | none => directory

section Calls

variable (maker : AccountMaker Q)

/-- `uuid` is a new UUID without its hyphens, `seconds` the clock. -/
def openAccount (req : OpenAccountRequest) (uuid : String) (seconds : ℤ) :
    Action ExchangeError (AccountDirectory Q) String := do
  match ← read userManager with
  | some users => do let _ ← result (users.getUser req.userId)
  | none => pure ()
  let accountId := req.accountId.getD ("ACC_" ++ uuid)
  if ← read fun directory => decide (accountId ∈ directory.accounts) then
    fail (.AccountError [.text "Account already exists: ", .text accountId])
  else
    let account := maker.newAccount accountId req.userId req.accountName req.initCash false "sim"
    let metadata : AccountMetadata := {
      userId := req.userId
      accountName := req.accountName
      accountType := req.accountType
      createdAt := seconds }
    update (store accountId account metadata)
    update (tellUsers (UserManager.bindAccount req.userId accountId))
    pure accountId

/-- The account is removed before it is looked at. -/
def closeAccount (accountId : String) : Action ExchangeError (AccountDirectory Q) Unit := do
  let metadata ← read fun directory => directory.metadata.lookup accountId
  match ← read fun directory => directory.accounts.lookup accountId with
  | none => fail (AccountManager.notFound accountId)
  | some account =>
    update fun directory => { directory with accounts := directory.accounts.erase accountId }
    if account.hold.keys ≠ [] then
      fail (.AccountError (.ofString "Cannot close account with open positions"))
    else if 0 < account.money then
      fail (.AccountError (.ofString "Cannot close account with remaining balance"))
    else
      match metadata with
      | some metadata =>
        update (unlist metadata.userId accountId)
        update (tellUsers (UserManager.unbindAccount metadata.userId accountId))
      | none => pure ()
      update fun directory => { directory with metadata := directory.metadata.erase accountId }

/-- One pending order in `rebuild_frozen_from_pending_orders`. -/
def rebuildFrozenOf (account : Account Q) (order : String × Order) : Account Q :=
  if order.2.offset ≠ "OPEN" then account
  else
    let account :=
      if order.2.instrumentId ∈ account.hold then account
      else maker.initH order.2.instrumentId account
    match account.hold.lookup order.2.instrumentId with
    | some _ =>
      let coeff :=
        if order.2.direction = "BUY" then
          maker.calcCoeff account order.2.instrumentId * order.2.limitPrice
        else maker.calcSellopencoeff account order.2.instrumentId * order.2.limitPrice
      { account with frozen := account.frozen.insert order.1 ⟨coeff * order.2.volumeLeft⟩ }
    | none => account

def rebuildFrozenFromPendingOrders (account : Account Q) : Account Q :=
  let pending := (account.dailyorders.entries.map fun entry => (entry.1, entry.2)).filter
    fun order => order.2.status = "SUBMITTED" ∨ order.2.status = "ALIVE"
  pending.foldl (rebuildFrozenOf maker) account

def restoreAccountFromQifi (qifi : QIFI maker.Content) (seconds : ℤ) :
    Action ExchangeError (AccountDirectory Q) Unit := do
  let accountId := qifi.accountCookie
  if ← read fun directory => decide (accountId ∈ directory.accounts) then
    pure ()
  else
    let account := maker.setEnvironment "sim" (maker.newFromQifi qifi)
    let account := rebuildFrozenFromPendingOrders maker account
    let metadata : AccountMetadata := {
      userId := qifi.portfolio
      accountName := if qifi.investorName = "" then accountId else qifi.investorName
      accountType := .Individual
      createdAt := seconds }
    update (store accountId account metadata)
    update (tellUsers (UserManager.bindAccount qifi.portfolio accountId))

end Calls

def verifyAccountOwnership (accountId userId : String) (directory : AccountDirectory Q) :
    Except ExchangeError Unit :=
  if accountId ∉ directory.accounts then .error (AccountManager.notFound accountId)
  else if userId = "" ∨ userId = accountId then .ok ()
  else
    match directory.metadata.lookup accountId with
    | some metadata =>
      if metadata.userId ≠ userId then
        .error (.PermissionDenied [.text "Account ", .text accountId,
          .text " does not belong to user ", .text userId, .text " (owner: ",
          .text metadata.userId, .text ")"])
      else .ok ()
    | none =>
      .error (.AccountError [.text "Account metadata missing for ", .text accountId,
        .text " (server may need restart with full recovery)"])

end AccountDirectory

end QAExchange
