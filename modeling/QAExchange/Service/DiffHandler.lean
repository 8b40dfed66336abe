import QAExchange.Exchange.AccountTables
import QAExchange.Exchange.ReferenceExchange

/-! # Orders over the DIFF protocol

`DiffHandler` turns the messages `insert_order` and `cancel_order` of a session into
requests to the order router. Its other parts are in modules of their own.
-/

namespace QAExchange

open Foundation

variable {Q : Qars}

/-- `DiffClientMessage::InsertOrder` -/
structure InsertOrder where
  userId : String
  accountId : Option String
  orderId : Option String
  exchangeId : String
  instrumentId : String
  direction : String
  offset : String
  volume : ℤ
  priceType : String
  limitPrice : Option ℚ
  volumeCondition : Option String
  timeCondition : Option String

/-- `DiffClientMessage::CancelOrder` -/
structure CancelOrder where
  userId : String
  accountId : Option String
  orderId : String

/-- The patch in an `rtn_data` message. -/
inductive OrderPatch
  /-- `{"notify": {key: {"type": "MESSAGE", "level": "ERROR", "code", "content"}}}` -/
  | notify (key : String) (code : ℕ) (content : Message)
  /-- The order under `trade.user_id.orders.order_id`, with its message and its status. -/
  | order (orderId : String) (message : InsertOrder) (limitPrice : ℚ) (status : String)
  /-- The status `CANCELLED` under `trade.user_id.orders.order_id`. -/
  | cancelled (userId orderId : String)

inductive RouterRequest
  | submitOrder (req : SubmitOrderRequest)
  | cancelOrder (req : CancelOrderRequest)

def RouterRequest.accountId : RouterRequest → String
  | .submitOrder req => req.accountId
  | .cancelOrder req => req.accountId

/-- The characters whose upper case is an ASCII letter. `to_uppercase` sends the others
elsewhere, which the words below do not contain. -/
def upperLetter (letter : Char) : Char :=
  if letter = 'ı' then 'I' else if letter = 'ſ' then 'S' else letter.toUpper

def upperWord (word : String) : String := .ofList (word.toList.map upperLetter)

def TimeCondition.fromStr (word : String) : TimeCondition :=
  match upperWord word with
  | "IOC" => .IOC
  | "GFS" => .GFS
  | "GFD" => .GFD
  | "GTD" => .GTD
  | "GTC" => .GTC
  | "GFA" => .GFA
  | _ => .GFD

def VolumeCondition.fromStr (word : String) : VolumeCondition :=
  match upperWord word with
  | "ANY" => .ANY
  | "MIN" => .MIN
  | "ALL" => .ALL
  | _ => .ANY

structure DiffHandler (Q : Qars) where
  userManager : Option UserManager
  accountMgr : AccountDirectory Q
  orderRouter : Option (OrderRouter Q)

/-- The handler after a message, the patches that the session is sent and the requests that
the router was passed. -/
structure Handling (Q : Qars) where
  handler : DiffHandler Q
  sent : List OrderPatch
  passed : List RouterRequest

namespace DiffHandler

def checkInsertUser (sessionUserId : String) (message : InsertOrder) :
    Except (List OrderPatch) Unit :=
  match message.accountId with
  | none =>
    if sessionUserId ≠ message.userId then
      .error [.notify "order_error" 2001
        (.ofString "User ID mismatch (legacy mode: provide account_id to bypass)")]
    else .ok ()
  | some _ => .ok ()

/-- The account that the message names, once its owner is verified, or the first account of
the user. -/
def findAccount (errorKey userId : String) (accountId : Option String)
    (handler : DiffHandler Q) : Except (List OrderPatch) String :=
  match accountId with
  | some accountId =>
    match handler.accountMgr.verifyAccountOwnership accountId userId with
    | .error error =>
      .error [.notify errorKey 4003 (.text "Account verification failed: " :: error.display)]
    | .ok () => .ok accountId
  | none =>
    match handler.userManager with
    | none => .error []
    | some users =>
      match users.getUserAccounts userId with
      | .ok (accountId :: _) => .ok accountId
      | .ok [] => .error []
      | .error _ => .error []

def orderTypeOf (priceType : String) : String :=
  match priceType with
  | "LIMIT" => "LIMIT"
  | "MARKET" | "ANY" => "MARKET"
  | _ => "LIMIT"

def submitRequest (accountId : String) (message : InsertOrder) : SubmitOrderRequest where
  accountId := accountId
  instrumentId := message.instrumentId
  direction := message.direction
  offset := message.offset
  volume := message.volume
  price := message.limitPrice.getD 0
  orderType := orderTypeOf message.priceType
  timeCondition := message.timeCondition.map TimeCondition.fromStr
  volumeCondition := message.volumeCondition.map VolumeCondition.fromStr

/-- The patch that tells the answer of `submit_order`. -/
def insertAnswer (orderId : String) (message : InsertOrder) (response : SubmitOrderResponse) :
    OrderPatch :=
  if response.success then
    .order orderId message (message.limitPrice.getD 0) (response.status.getD "SUBMITTED")
  else
    .notify "order_rejected" (response.errorCode.getD 2002)
      (response.errorMessage.getD (.ofString "Order rejected"))

/-- `uuid` is a new UUID. -/
def handleInsertOrder (now : Now) (uuid sessionUserId : String) (message : InsertOrder)
    (handler : DiffHandler Q) : Handling Q :=
  let orderId := message.orderId.getD uuid
  match checkInsertUser sessionUserId message with
  | .error sent => ⟨handler, sent, []⟩
  | .ok () =>
    match handler.orderRouter with
    | none =>
      ⟨handler, [.notify "service_error" 2003
        (.ofString "Order routing service is not available")], []⟩
    | some router =>
      match handler.findAccount "order_error" message.userId message.accountId with
      | .error sent => ⟨handler, sent, []⟩
      | .ok accountId =>
        let req := submitRequest accountId message
        let (response, router) := router.submitOrder now req
        ⟨{ handler with orderRouter := some router },
          [insertAnswer orderId message response], [.submitOrder req]⟩

def handleCancelOrder (now : Now) (sessionUserId : String) (message : CancelOrder)
    (handler : DiffHandler Q) : Handling Q :=
  if sessionUserId ≠ message.userId then
    ⟨handler, [.notify "cancel_error" 3001 (.ofString "User ID mismatch")], []⟩
  else
    match handler.orderRouter with
    | none =>
      ⟨handler, [.notify "service_error" 3003
        (.ofString "Order routing service is not available")], []⟩
    | some router =>
      match handler.findAccount "cancel_error" message.userId message.accountId with
      | .error sent => ⟨handler, sent, []⟩
      | .ok accountId =>
        let req : CancelOrderRequest := ⟨accountId, message.orderId⟩
        let (answer, router) := Action.exec (OrderRouter.cancelOrder now req) router
        let patch := match answer with
          | .ok () => OrderPatch.cancelled message.userId message.orderId
          | .error error =>
            .notify "cancel_failed" 3002 (.text "Cancel order failed: " :: error.display)
        ⟨{ handler with orderRouter := some router }, [patch], [.cancelOrder req]⟩

end DiffHandler

end QAExchange

/-! ## Whose account a DIFF session trades on

The account of a request is compared with the user of the message. That is the user of the
session where the message names no account and for every cancel, and any user otherwise.
-/

namespace QAExchange

open Foundation

variable {Q : Qars}

namespace AccountDirectory

def Passes (accountId userId : String) (directory : AccountDirectory Q) : Prop :=
  accountId ∈ directory.accounts ∧
    (userId = "" ∨ userId = accountId ∨ directory.ownerOf accountId = some userId)

theorem verifyAccountOwnership_eq_ok_iff {accountId userId : String}
    {directory : AccountDirectory Q} :
    directory.verifyAccountOwnership accountId userId = .ok () ↔
      directory.Passes accountId userId := by
  rw [verifyAccountOwnership, Passes, ownerOf]
  by_cases known : accountId ∈ directory.accounts
  · rw [if_neg (not_not.mpr known)]
    by_cases bypass : userId = "" ∨ userId = accountId
    · rw [if_pos bypass]
      exact iff_of_true rfl ⟨known, or_assoc.mp (.inl bypass)⟩
    · rw [if_neg bypass]
      rcases not_or.mp bypass with ⟨notEmpty, notSelf⟩
      cases directory.metadata.lookup accountId with
      | none => simp [notEmpty, notSelf]
      | some metadata =>
        by_cases other : metadata.userId = userId
        · simp [known, other]
        · simp [other, notEmpty, notSelf]
  · rw [if_pos known]
    apply iff_of_false
    · intro isOk
      cases isOk
    · intro passes
      exact known passes.1

end AccountDirectory

namespace DiffHandler

inductive OrderMessage
  | insertOrder (message : InsertOrder)
  | cancelOrder (message : CancelOrder)

def handle (now : Now) (uuid sessionUserId : String) (handler : DiffHandler Q) :
    OrderMessage → Handling Q
  | .insertOrder message => handleInsertOrder now uuid sessionUserId message handler
  | .cancelOrder message => handleCancelOrder now sessionUserId message handler

def PassesOwnAccounts (userId : String) (handler : DiffHandler Q)
    (passed : List RouterRequest) : Prop :=
  ∀ request ∈ passed, handler.accountMgr.ownerOf request.accountId = some userId

/-- The first account that the user manager has for the user. -/
def firstAccount (userId : String) (handler : DiffHandler Q) : Option String :=
  match handler.userManager with
  | none => none
  | some users => (users.users.lookup userId).bind fun user => user.accountIds.head?

/-- The account of another user passes `verify_account_ownership`, or the first account of
the user is not the user's. -/
def Exposes (sessionUserId userId : String) (accountId : Option String)
    (handler : DiffHandler Q) : Prop :=
  ∃ account, handler.accountMgr.ownerOf account ≠ some sessionUserId ∧
    match accountId with
    | some given => account = given ∧ handler.accountMgr.Passes given userId
    | none => handler.firstAccount userId = some account

def Unchecked : OrderMessage → Prop
  | .insertOrder message => message.accountId.isSome
  | .cancelOrder _ => False

def OrderMessage.userId : OrderMessage → String
  | .insertOrder message => message.userId
  | .cancelOrder message => message.userId

def OrderMessage.accountId : OrderMessage → Option String
  | .insertOrder message => message.accountId
  | .cancelOrder message => message.accountId

def Trespasses (sessionUserId : String) (message : OrderMessage) (handler : DiffHandler Q) : Prop :=
  handler.orderRouter.isSome ∧ (Unchecked message ∨ message.userId = sessionUserId) ∧
    handler.Exposes sessionUserId message.userId message.accountId

/-! ## The account of a request -/

theorem findAccount_eq_ok_iff (errorKey userId account : String) (accountId : Option String)
    (handler : DiffHandler Q) :
    handler.findAccount errorKey userId accountId = .ok account ↔
      match accountId with
      | some given => account = given ∧ handler.accountMgr.Passes given userId
      | none => handler.firstAccount userId = some account := by
  cases accountId with
  | some given =>
    rw [findAccount]
    dsimp only
    rw [← AccountDirectory.verifyAccountOwnership_eq_ok_iff]
    cases verified : handler.accountMgr.verifyAccountOwnership given userId with
    | error error => simp
    | ok done => simp [eq_comm]
  | none =>
    rw [findAccount, firstAccount]
    dsimp only
    cases handler.userManager with
    | none => simp
    | some users =>
      simp only [UserManager.getUserAccounts, UserManager.getUser]
      cases users.users.lookup userId with
      | none => simp [bind, Except.bind]
      | some user =>
        cases accounts : user.accountIds with
        | nil => simp [bind, Except.bind, pure, Except.pure, accounts]
        | cons first rest => simp [bind, Except.bind, pure, Except.pure, accounts]

theorem handleInsertOrder_passed (now : Now) (uuid sessionUserId : String)
    (message : InsertOrder) (handler : DiffHandler Q) :
    (handleInsertOrder now uuid sessionUserId message handler).passed =
      if handler.orderRouter.isSome ∧
          (message.accountId.isSome ∨ message.userId = sessionUserId) then
        match handler.findAccount "order_error" message.userId message.accountId with
        | .ok account => [.submitOrder (submitRequest account message)]
        | .error _ => []
      else [] := by
  have checked : checkInsertUser sessionUserId message = .ok () ↔
      message.accountId.isSome ∨ message.userId = sessionUserId := by
    rw [checkInsertUser]
    cases message.accountId with
    | none => simp [eq_comm]
    | some account => simp
  rw [handleInsertOrder]
  cases check : checkInsertUser sessionUserId message with
  | error sent =>
    rw [check] at checked
    rw [if_neg]
    intro both
    cases checked.mpr both.2
  | ok done =>
    cases routed : handler.orderRouter with
    | none => rfl
    | some router =>
      rw [if_pos ⟨rfl, checked.mp check⟩]
      dsimp only
      cases handler.findAccount "order_error" message.userId message.accountId <;> rfl

theorem handleCancelOrder_passed (now : Now) (sessionUserId : String)
    (message : CancelOrder) (handler : DiffHandler Q) :
    (handleCancelOrder now sessionUserId message handler).passed =
      if handler.orderRouter.isSome ∧ message.userId = sessionUserId then
        match handler.findAccount "cancel_error" message.userId message.accountId with
        | .ok account => [.cancelOrder ⟨account, message.orderId⟩]
        | .error _ => []
      else [] := by
  rw [handleCancelOrder]
  by_cases same : sessionUserId = message.userId
  · rw [if_neg (not_not.mpr same)]
    cases handler.orderRouter with
    | none => rfl
    | some router =>
      rw [if_pos ⟨rfl, same.symm⟩]
      dsimp only
      cases handler.findAccount "cancel_error" message.userId message.accountId <;> rfl
  · rw [if_pos same, if_neg]
    intro both
    exact same both.2.symm

theorem passed_accounts (now : Now) (uuid sessionUserId account : String)
    (message : OrderMessage) (handler : DiffHandler Q) :
    (∃ request ∈ (handler.handle now uuid sessionUserId message).passed,
        request.accountId = account) ↔
      handler.orderRouter.isSome ∧ (Unchecked message ∨ message.userId = sessionUserId) ∧
        match message.accountId with
        | some given => account = given ∧ handler.accountMgr.Passes given message.userId
        | none => handler.firstAccount message.userId = some account := by
  cases message with
  | insertOrder message =>
    have found := findAccount_eq_ok_iff "order_error" message.userId account
      message.accountId handler
    rw [handle, handleInsertOrder_passed]
    simp only [OrderMessage.accountId, OrderMessage.userId, Unchecked]
    rw [← found, ← and_assoc]
    split_ifs with routed
    · cases handler.findAccount "order_error" message.userId message.accountId with
      | error sent => simp
      | ok given => simp [routed, RouterRequest.accountId, submitRequest]
    · simp [routed]
  | cancelOrder message =>
    have found := findAccount_eq_ok_iff "cancel_error" message.userId account
      message.accountId handler
    rw [handle, handleCancelOrder_passed]
    simp only [OrderMessage.accountId, OrderMessage.userId, Unchecked, false_or]
    rw [← found, ← and_assoc]
    split_ifs with routed
    · cases handler.findAccount "cancel_error" message.userId message.accountId with
      | error sent => simp
      | ok given => simp [routed, RouterRequest.accountId]
    · simp [routed]

/-- A session of a user passes only requests for the user's accounts exactly when the message
does not trespass. -/
theorem passesOwnAccounts_iff (now : Now) (uuid sessionUserId : String)
    (message : OrderMessage) (handler : DiffHandler Q) :
    handler.PassesOwnAccounts sessionUserId (handler.handle now uuid sessionUserId message).passed ↔
      ¬ handler.Trespasses sessionUserId message := by
  have accounts := fun account =>
    passed_accounts now uuid sessionUserId account message handler
  constructor
  · rintro owns ⟨routed, accepted, account, notOwn, names⟩
    rcases (accounts account).mpr ⟨routed, accepted, names⟩ with ⟨request, passed, rfl⟩
    exact notOwn (owns request passed)
  · intro keeps request passed
    rcases (accounts request.accountId).mp ⟨request, passed, rfl⟩ with
      ⟨routed, accepted, names⟩
    by_contra notOwn
    exact keeps ⟨routed, accepted, request.accountId, notOwn, names⟩

def twoUsers : DiffHandler referenceQars where
  userManager := none
  accountMgr := {
    accounts := ((∅ : AList fun _ : String => Account referenceQars).insert "ACC_1"
      (ReferenceExchange.account "ACC_1" 1000)).insert "ACC_2"
      (ReferenceExchange.account "ACC_2" 1000)
    metadata := ((∅ : AList fun _ : String => AccountMetadata).insert "ACC_1"
      ⟨"u1", "ACC_1", .Individual, 0⟩).insert "ACC_2" ⟨"u2", "ACC_2", .Individual, 0⟩
    userAccounts := ((∅ : AList fun _ : String => List String).insert "u1" ["ACC_1"]).insert
      "u2" ["ACC_2"]
    userManager := none }
  orderRouter := some (ReferenceExchange.router [] [] none)

def borrowedName : InsertOrder where
  userId := "u2"
  accountId := some "ACC_2"
  orderId := some "o1"
  exchangeId := "SHFE"
  instrumentId := "cu2501"
  direction := "BUY"
  offset := "OPEN"
  volume := 1
  priceType := "LIMIT"
  limitPrice := some 100
  volumeCondition := none
  timeCondition := none

theorem borrowedName_passes :
    let passed := (twoUsers.handle ReferenceExchange.clock "" "u1"
      (.insertOrder borrowedName)).passed
    passed = [.submitOrder (submitRequest "ACC_2" borrowedName)] ∧
      twoUsers.accountMgr.ownerOf "ACC_2" = some "u2" ∧
      ¬ twoUsers.PassesOwnAccounts "u1" passed := by
  have passed : (twoUsers.handle ReferenceExchange.clock "" "u1"
      (.insertOrder borrowedName)).passed = [.submitOrder (submitRequest "ACC_2" borrowedName)] := by
    rw [handle, handleInsertOrder_passed]
    rfl
  refine ⟨passed, by decide +kernel, ?_⟩
  rw [passed]
  intro owns
  have own := owns _ List.mem_cons_self
  revert own
  decide +kernel

end DiffHandler

end QAExchange
