import QAExchange.Foundation.Interleaving
import QAExchange.Foundation.Runs
import QAExchange.Users.UserIndexes

/-! # Registrations side by side

A registration looks the names up, hashes the password, tests whether there are users, and
then inserts the user and the entries of the indexes one after the other. Other calls may
come between any two of these steps.
-/

namespace QAExchange.Users

open Foundation UserManager

/-- The arguments of a call, with the id and the hash that it is given and the reading of
the clock when it makes the user. -/
structure RegisterCall where
  request : UserRegisterRequest
  uuid : String
  hash : Except String String
  now : ClockReading

inductive RegisterStage
  | checkUsername
  | checkPhone
  | checkEmail
  | hashPassword
  | testEmpty (passwordHash : String)
  | insertUser (user : User)
  | indexUsername (user : User)
  | indexPhone (user : User)
  | indexEmail (user : User)
  | done (result : Except ExchangeError User)

structure RegisterTask where
  call : RegisterCall
  stage : RegisterStage

namespace RegisterTask

def start (call : RegisterCall) : RegisterTask where
  call := call
  stage := .checkUsername

/-- The next stage after a check. -/
def checked (result : Except ExchangeError Unit) (next : RegisterStage) (task : RegisterTask) :
    RegisterTask :=
  match result with
  | .ok () => { task with stage := next }
  | .error error => { task with stage := .done (.error error) }

def advance (manager : UserManager) (task : RegisterTask) : RegisterTask × UserManager :=
  match task.stage with
  | .checkUsername => (task.checked (manager.checkUsername task.call.request) .checkPhone, manager)
  | .checkPhone => (task.checked (manager.checkPhone task.call.request) .checkEmail, manager)
  | .checkEmail => (task.checked (manager.checkEmail task.call.request) .hashPassword, manager)
  | .hashPassword =>
    match hashed task.call.hash with
    | .ok passwordHash => ({ task with stage := .testEmpty passwordHash }, manager)
    | .error error => ({ task with stage := .done (.error error) }, manager)
  | .testEmpty passwordHash =>
    let user := requestedUser task.call.request task.call.uuid passwordHash
      manager.users.rows.isEmpty task.call.now.timestamp
    ({ task with stage := .insertUser user }, manager)
  | .insertUser user =>
    ({ task with stage := .indexUsername user },
      { manager with users := manager.users.insert user })
  | .indexUsername user =>
    ({ task with stage := .indexPhone user },
      { manager with
        usernameIndex := withIndex manager.usernameIndex (some user.username) user.userId })
  | .indexPhone user =>
    ({ task with stage := .indexEmail user },
      { manager with phoneIndex := withIndex manager.phoneIndex user.phone user.userId })
  | .indexEmail user =>
    ({ task with stage := .done (.ok user) },
      { manager with emailIndex := withIndex manager.emailIndex user.email user.userId })
  | .done _ => (task, manager)

def inserted (task : RegisterTask) : Option User :=
  match task.stage with
  | .indexUsername user | .indexPhone user | .indexEmail user | .done (.ok user) => some user
  | .checkUsername | .checkPhone | .checkEmail | .hashPassword | .testEmpty _ | .insertUser _
  | .done (.error _) => none

def Finished (task : RegisterTask) : Prop := ∃ result, task.stage = .done result

end RegisterTask

/-- Calls to `register`. -/
def registration : Service UserManager RegisterTask RegisterCall Unit where
  start := RegisterTask.start
  advance _ := RegisterTask.advance

abbrev RegisterPool := Pool UserManager RegisterTask

namespace RegisterPool

/-- All calls at their first step, at a new manager. -/
def new (calls : List RegisterCall) : RegisterPool where
  shared := .new
  tasks := calls.map registration.start

def next (pool : RegisterPool) (index : ℕ) : RegisterPool := registration.next pool (.step () index)

end RegisterPool

/-! ## Alone -/

/-- The steps of a call without others between them. -/
def registerAlone (call : RegisterCall) (manager : UserManager) : RegisterPool :=
  (List.replicate 9 0).foldl RegisterPool.next ⟨manager, [.start call]⟩

theorem next_alone (manager : UserManager) (task : RegisterTask) :
    RegisterPool.next ⟨manager, [task]⟩ 0 =
      ⟨(task.advance manager).2, [(task.advance manager).1]⟩ := rfl

theorem registerAlone_of_ok {call : RegisterCall}
    (succeeds : register call.request call.uuid call.hash call.now manager = .ok (after, record)) :
    ∃ user, registerAlone call manager = ⟨after, [⟨call, .done (.ok user)⟩]⟩ ∧
      record = some (.ofUser user) := by
  rcases register_eq_ok.mp succeeds with ⟨passwordHash, accepts, rfl, rfl⟩
  refine ⟨_, ?_, rfl⟩
  have username : manager.checkUsername call.request = .ok () := by
    apply checkNew_eq_ok.mpr
    intro own isOwn
    cases isOwn
    exact accepts.username
  have phone : manager.checkPhone call.request = .ok () := checkNew_eq_ok.mpr accepts.phone
  have email : manager.checkEmail call.request = .ok () := checkNew_eq_ok.mpr accepts.email
  have isHash : hashed call.hash = .ok passwordHash := by
    rw [accepts.hashed]
    rfl
  simp only [registerAlone, List.replicate, List.foldl_cons, List.foldl_nil, next_alone,
    RegisterTask.advance, RegisterTask.start, RegisterTask.checked, username, phone, email, isHash]
  rfl

end QAExchange.Users
