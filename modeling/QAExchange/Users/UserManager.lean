import Mathlib.Data.String.Basic
import QAExchange.Storage.QueryFilter

/-! # Users and what is logged of them

The user manager keeps the users and three indexes. Some of its calls also write a record
to its storage; whether the record is written changes nothing in the manager.
-/

namespace QAExchange.Users

open Foundation

/-! ## Roles -/

inductive UserRole
  | Admin
  | Trader
  | Analyst
  | ReadOnly
  | RiskManager
  | Settlement
  deriving DecidableEq

namespace UserRole

def toBitmask : UserRole → UInt8
  | Trader => 1
  | Analyst => 2
  | ReadOnly => 4
  | RiskManager => 8
  | Settlement => 16
  | Admin => 128

/-- The roles in the order in which `from_bitmask` looks for them. -/
def all : List UserRole := [Admin, Settlement, RiskManager, ReadOnly, Analyst, Trader]

/-- A mask without roles stands for a trader. -/
def fromBitmask (bitmask : UInt8) : List UserRole :=
  let roles := all.filter fun role => bitmask &&& role.toBitmask ≠ 0
  if roles.isEmpty then [Trader] else roles

def rolesToBitmask (roles : List UserRole) : UInt8 :=
  roles.foldl (fun mask role => mask ||| role.toBitmask) 0

theorem mem_all (role : UserRole) : role ∈ all := by
  cases role <;> decide

theorem bit_of_foldl (wanted : UserRole) (roles : List UserRole) (mask : UInt8) :
    roles.foldl (fun mask role => mask ||| role.toBitmask) mask &&& wanted.toBitmask ≠ 0 ↔
      mask &&& wanted.toBitmask ≠ 0 ∨ wanted ∈ roles := by
  induction roles generalizing mask with
  | nil => simp
  | cons role roles induction =>
    have ownBit : role.toBitmask &&& wanted.toBitmask ≠ 0 ↔ wanted = role := by
      cases role <;> cases wanted <;> decide
    have split : (mask ||| role.toBitmask) &&& wanted.toBitmask ≠ 0 ↔
        mask &&& wanted.toBitmask ≠ 0 ∨ wanted = role := by
      have distributed : (mask ||| role.toBitmask) &&& wanted.toBitmask =
          mask &&& wanted.toBitmask ||| role.toBitmask &&& wanted.toBitmask := by
        apply UInt8.toBitVec_inj.mp
        exact BitVec.and_or_distrib_right
      rw [← ownBit, distributed, ne_eq, UInt8.or_eq_zero_iff, not_and_or]
    rw [List.foldl_cons, induction, split, List.mem_cons, or_assoc]

theorem fromBitmask_ne_nil (bitmask : UInt8) : fromBitmask bitmask ≠ [] := by
  rw [fromBitmask]
  split_ifs with none
  · exact List.cons_ne_nil _ _
  · intro empty
    rw [empty] at none
    exact none rfl

theorem mem_fromBitmask_rolesToBitmask (some : roles ≠ []) (role : UserRole) :
    role ∈ fromBitmask (rolesToBitmask roles) ↔ role ∈ roles := by
  have members : ∀ other, other ∈ all.filter (fun role =>
      rolesToBitmask roles &&& role.toBitmask ≠ 0) ↔ other ∈ roles := by
    intro other
    have bit := bit_of_foldl other roles 0
    rw [UInt8.zero_and, ne_self_iff_false, false_or] at bit
    rw [List.mem_filter, decide_eq_true_iff, rolesToBitmask, bit]
    exact and_iff_right (mem_all other)
  rw [fromBitmask]
  split_ifs with none
  · rcases List.exists_mem_of_ne_nil roles some with ⟨first, isFirst⟩
    rw [List.isEmpty_iff] at none
    have found := (members first).mpr isFirst
    rw [none] at found
    cases found
  · exact members role

end UserRole

/-! ## Users -/

inductive UserStatus
  | Active
  | Frozen
  | Deleted
  deriving DecidableEq

/-- `Utc::now()`: the time since 1970, which is before the year 2262. -/
structure ClockReading where
  nanos : ℕ
  small : nanos < 2 ^ 63

namespace ClockReading

/-- `timestamp()`, in seconds. -/
def timestamp (reading : ClockReading) : Timestamp :=
  ⟨(reading.nanos / 10 ^ 9 : ℕ), by
    have small := reading.small
    omega⟩

def timestampNanos (reading : ClockReading) : Timestamp :=
  ⟨reading.nanos, by
    have small := reading.small
    omega⟩

end ClockReading

structure User where
  userId : String
  username : String
  passwordHash : String
  phone : Option String
  email : Option String
  realName : Option String
  idCard : Option String
  accountIds : List String
  roles : List UserRole
  createdAt : Timestamp
  updatedAt : Timestamp
  status : UserStatus
  deriving DecidableEq

namespace User

/-- `uuid` is the new id. -/
def new (uuid username passwordHash : String) (now : Timestamp) : User where
  userId := uuid
  username := username
  passwordHash := passwordHash
  phone := none
  email := none
  realName := none
  idCard := none
  accountIds := []
  roles := [.Trader]
  createdAt := now
  updatedAt := now
  status := .Active

def newAdmin (uuid username passwordHash : String) (now : Timestamp) : User :=
  { new uuid username passwordHash now with roles := [.Admin] }

def addAccount (accountId : String) (now : Timestamp) (user : User) : User :=
  if accountId ∈ user.accountIds then user
  else { user with accountIds := user.accountIds ++ [accountId], updatedAt := now }

def removeAccount (accountId : String) (now : Timestamp) (user : User) : User :=
  { user with accountIds := user.accountIds.filter fun id => id ≠ accountId, updatedAt := now }

def freeze (now : Timestamp) (user : User) : User :=
  { user with status := .Frozen, updatedAt := now }

def unfreeze (now : Timestamp) (user : User) : User :=
  { user with status := .Active, updatedAt := now }

def addRole (role : UserRole) (now : Timestamp) (user : User) : User :=
  if role ∈ user.roles then user
  else { user with roles := user.roles ++ [role], updatedAt := now }

def removeRole (role : UserRole) (now : Timestamp) (user : User) : User :=
  { user with roles := user.roles.filter fun other => other ≠ role, updatedAt := now }

def setRoles (roles : List UserRole) (now : Timestamp) (user : User) : User :=
  { user with roles := roles, updatedAt := now }

end User

structure UserRegisterRequest where
  username : String
  password : String
  phone : Option String
  email : Option String
  realName : Option String
  idCard : Option String

theorem length_zeros (length : ℕ) : (List.replicate length (0 : UInt8)).length = length :=
  List.length_replicate

/-- `[0u8; n]` -/
def zeros (length : ℕ) : FixedArray length where
  bytes := List.replicate length 0
  bytes_length := length_zeros length

inductive UserRecord
  | UserRegister (userId : FixedArray 40) (username : FixedArray 32)
      (passwordHash : FixedArray 64) (phone : FixedArray 16) (email : FixedArray 32)
      (createdAt : Timestamp) (rolesBitmask : UInt8)
  | AccountBind (userId accountId : FixedArray 40) (timestamp : Timestamp)
  | UserRoleUpdate (userId : FixedArray 40) (rolesBitmask : UInt8) (timestamp : Timestamp)
  deriving DecidableEq

namespace UserRecord

def timestamp : UserRecord → Timestamp
  | UserRegister _ _ _ _ _ createdAt _ => createdAt
  | AccountBind _ _ timestamp => timestamp
  | UserRoleUpdate _ _ timestamp => timestamp

/-- `MemTableValue::timestamp`: in seconds for users and roles, and in nanoseconds for
accounts. -/
def clock : RecordClock UserRecord where
  timestamp := fun record => record.timestamp.val
  inRange := fun record => record.timestamp.property

def ofUser (user : User) : UserRecord :=
  .UserRegister (WalRecord.toFixedArray 40 user.userId) (WalRecord.toFixedArray 32 user.username)
    (WalRecord.toFixedArray 64 user.passwordHash)
    ((user.phone.map (WalRecord.toFixedArray 16)).getD (zeros 16))
    ((user.email.map (WalRecord.toFixedArray 32)).getD (zeros 32))
    user.createdAt (UserRole.rolesToBitmask user.roles)

end UserRecord

/-! ## The manager -/

structure UserManager where
  users : KeyedRows User.userId
  usernameIndex : String → Option String
  phoneIndex : String → Option String
  emailIndex : String → Option String

namespace UserManager

def new : UserManager where
  users := .empty
  usernameIndex := fun _ => none
  phoneIndex := fun _ => none
  emailIndex := fun _ => none

def withIndex (index : String → Option String) (value : Option String) (userId : String) :
    String → Option String :=
  match value with
  | some value => Function.update index value (some userId)
  | none => index

def insertUser (user : User) (manager : UserManager) : UserManager where
  users := manager.users.insert user
  usernameIndex := withIndex manager.usernameIndex (some user.username) user.userId
  phoneIndex := withIndex manager.phoneIndex user.phone user.userId
  emailIndex := withIndex manager.emailIndex user.email user.userId

def requestedUser (request : UserRegisterRequest) (uuid passwordHash : String) (isFirstUser : Bool)
    (now : Timestamp) : User :=
  let user := if isFirstUser then User.newAdmin uuid request.username passwordHash now
    else User.new uuid request.username passwordHash now
  { user with
    phone := request.phone
    email := request.email
    realName := request.realName
    idCard := request.idCard }

section RequestedUser

variable (request : UserRegisterRequest) (uuid passwordHash : String) (isFirstUser : Bool)
  (now : Timestamp)

@[simp] theorem requestedUser_userId :
    (requestedUser request uuid passwordHash isFirstUser now).userId = uuid := by
  cases isFirstUser <;> rfl

@[simp] theorem requestedUser_username :
    (requestedUser request uuid passwordHash isFirstUser now).username = request.username := by
  cases isFirstUser <;> rfl

@[simp] theorem requestedUser_passwordHash :
    (requestedUser request uuid passwordHash isFirstUser now).passwordHash = passwordHash := by
  cases isFirstUser <;> rfl

@[simp] theorem requestedUser_accountIds :
    (requestedUser request uuid passwordHash isFirstUser now).accountIds = [] := by
  cases isFirstUser <;> rfl

@[simp] theorem requestedUser_roles :
    (requestedUser request uuid passwordHash isFirstUser now).roles =
      if isFirstUser then [.Admin] else [.Trader] := by
  cases isFirstUser <;> rfl

@[simp] theorem requestedUser_createdAt :
    (requestedUser request uuid passwordHash isFirstUser now).createdAt = now := by
  cases isFirstUser <;> rfl

@[simp] theorem requestedUser_status :
    (requestedUser request uuid passwordHash isFirstUser now).status = .Active := by
  cases isFirstUser <;> rfl

end RequestedUser

/-- The value is not in its index; `refusal` is the text for one that is. -/
def checkNew (index : String → Option String) (refusal : String) (value : Option String) :
    Except ExchangeError Unit :=
  match value with
  | some value =>
    if index value = none then .ok () else .error (.UserError [.text refusal, .text value])
  | none => .ok ()

def checkUsername (request : UserRegisterRequest) (manager : UserManager) :
    Except ExchangeError Unit :=
  checkNew manager.usernameIndex "Username already exists: " (some request.username)

def checkPhone (request : UserRegisterRequest) (manager : UserManager) :
    Except ExchangeError Unit :=
  checkNew manager.phoneIndex "Phone already registered: " request.phone

def checkEmail (request : UserRegisterRequest) (manager : UserManager) :
    Except ExchangeError Unit :=
  checkNew manager.emailIndex "Email already registered: " request.email

/-- What becomes of the result of `bcrypt::hash`. -/
def hashed (hash : Except String String) : Except ExchangeError String :=
  hash.mapError fun text => .InternalError [.text "Password hashing failed: ", .text text]

/-- `hash` is the result of `bcrypt::hash` for the password. -/
def register (request : UserRegisterRequest) (uuid : String) (hash : Except String String)
    (now : ClockReading) (manager : UserManager) :
    Except ExchangeError (UserManager × Option UserRecord) := do
  manager.checkUsername request
  manager.checkPhone request
  manager.checkEmail request
  let passwordHash ← hashed hash
  let user := requestedUser request uuid passwordHash manager.users.rows.isEmpty now.timestamp
  pure (manager.insertUser user, some (.ofUser user))

structure Accepts (manager : UserManager) (request : UserRegisterRequest)
    (hash : Except String String) (passwordHash : String) : Prop where
  username : manager.usernameIndex request.username = none
  phone : ∀ phone, request.phone = some phone → manager.phoneIndex phone = none
  email : ∀ email, request.email = some email → manager.emailIndex email = none
  hashed : hash = .ok passwordHash

theorem checkNew_eq_ok :
    checkNew index refusal value = .ok () ↔ ∀ own, value = some own → index own = none := by
  cases value with
  | none => simp [checkNew]
  | some own =>
    rw [checkNew]
    split_ifs with free
    · simp [free]
    · simp [free]

theorem register_eq_ok {request : UserRegisterRequest} {uuid : String}
    {hash : Except String String} {now : ClockReading} {manager after : UserManager}
    {logged : Option UserRecord} :
    register request uuid hash now manager = .ok (after, logged) ↔
      ∃ passwordHash, manager.Accepts request hash passwordHash ∧
        after = manager.insertUser (requestedUser request uuid passwordHash
          manager.users.rows.isEmpty now.timestamp) ∧
        logged = some (.ofUser (requestedUser request uuid passwordHash
          manager.users.rows.isEmpty now.timestamp)) := by
  have onlyUnit : ∀ check : Except ExchangeError Unit, (∃ text, check = .error text) ∨
      check = .ok () := by
    intro check
    cases check with
    | error text => exact .inl ⟨text, rfl⟩
    | ok value => exact .inr rfl
  have checks : manager.checkUsername request = .ok () ↔
      manager.usernameIndex request.username = none := by
    rw [checkUsername, checkNew_eq_ok]
    simp
  rw [register]
  constructor
  · intro done
    rcases onlyUnit (manager.checkUsername request) with ⟨text, failed⟩ | username
    · rw [failed] at done
      cases done
    rcases onlyUnit (manager.checkPhone request) with ⟨text, failed⟩ | phone
    · rw [username, failed] at done
      cases done
    rcases onlyUnit (manager.checkEmail request) with ⟨text, failed⟩ | email
    · rw [username, phone, failed] at done
      cases done
    rw [username, phone, email] at done
    cases hash with
    | error text => cases done
    | ok passwordHash =>
      cases done
      exact ⟨passwordHash, ⟨checks.mp username, checkNew_eq_ok.mp phone,
        checkNew_eq_ok.mp email, rfl⟩, rfl, rfl⟩
  · rintro ⟨passwordHash, accepts, rfl, rfl⟩
    have phone : manager.checkPhone request = .ok () := checkNew_eq_ok.mpr accepts.phone
    have email : manager.checkEmail request = .ok () := checkNew_eq_ok.mpr accepts.email
    rw [checks.mpr accepts.username, phone, email, accepts.hashed]
    rfl

def changeUser (userId : String) (change : User → User) (record : User → Option UserRecord)
    (manager : UserManager) : Except ExchangeError (UserManager × Option UserRecord) :=
  match manager.users.get userId with
  | none => .error (.UserError [.text "User not found: ", .text userId])
  | some user =>
    .ok ({ manager with users := manager.users.insert (change user) }, record (change user))

def bindAccount (userId accountId : String) (changedAt loggedAt : ClockReading) :
    UserManager → Except ExchangeError (UserManager × Option UserRecord) :=
  changeUser userId (User.addAccount accountId changedAt.timestamp) fun _ =>
    some (.AccountBind (WalRecord.toFixedArray 40 userId) (WalRecord.toFixedArray 40 accountId)
      loggedAt.timestampNanos)

def unbindAccount (userId accountId : String) (changedAt : ClockReading) :
    UserManager → Except ExchangeError (UserManager × Option UserRecord) :=
  changeUser userId (User.removeAccount accountId changedAt.timestamp) fun _ => none

def freezeUser (userId : String) (changedAt : ClockReading) :
    UserManager → Except ExchangeError (UserManager × Option UserRecord) :=
  changeUser userId (User.freeze changedAt.timestamp) fun _ => none

def unfreezeUser (userId : String) (changedAt : ClockReading) :
    UserManager → Except ExchangeError (UserManager × Option UserRecord) :=
  changeUser userId (User.unfreeze changedAt.timestamp) fun _ => none

def rolesRecord (userId : String) (roles : List UserRole) (loggedAt : ClockReading) : UserRecord :=
  .UserRoleUpdate (WalRecord.toFixedArray 40 userId) (UserRole.rolesToBitmask roles)
    loggedAt.timestamp

def addUserRole (userId : String) (role : UserRole) (changedAt loggedAt : ClockReading) :
    UserManager → Except ExchangeError (UserManager × Option UserRecord) :=
  changeUser userId (User.addRole role changedAt.timestamp) fun user =>
    some (rolesRecord userId user.roles loggedAt)

def removeUserRole (userId : String) (role : UserRole) (changedAt loggedAt : ClockReading) :
    UserManager → Except ExchangeError (UserManager × Option UserRecord) :=
  changeUser userId (User.removeRole role changedAt.timestamp) fun user =>
    some (rolesRecord userId user.roles loggedAt)

def setUserRoles (userId : String) (roles : List UserRole) (changedAt loggedAt : ClockReading) :
    UserManager → Except ExchangeError (UserManager × Option UserRecord) :=
  changeUser userId (User.setRoles roles changedAt.timestamp) fun _ =>
    some (rolesRecord userId roles loggedAt)

end UserManager

end QAExchange.Users
