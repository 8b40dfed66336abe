import QAExchange.Foundation.Runs
import QAExchange.Storage.OltpRestarts
import QAExchange.Users.UserManager

/-! # Recovery of users

Recovery reads all records of the storage in the order of their timestamps. Registrations
and roles are stamped in seconds and bound accounts in nanoseconds, so that the accounts
come last.
-/

namespace QAExchange.Users

open Foundation Action OltpHybridStorage

namespace UserRecovery

/-- `UserRecoveryStats` without the time that recovery took. -/
structure UserRecoveryStats where
  totalRecords : ℕ
  userRegisterRecords : ℕ
  accountBindRecords : ℕ
  usersRecovered : ℕ

/-- The text, unless it is empty. -/
def nonEmpty (text : String) : Option String := if text.isEmpty then none else some text

def registeredUser (userId username passwordHash phone email : String) (createdAt : Timestamp)
    (rolesBitmask : UInt8) : User :=
  { User.new userId username passwordHash createdAt with
    phone := nonEmpty phone
    email := nonEmpty email
    roles := UserRole.fromBitmask rolesBitmask }

/-- The users after one more record. Of two registrations of an id the later one stays. -/
def replayUser (users : KeyedRows User.userId) : UserRecord → KeyedRows User.userId
  | .UserRegister userId username passwordHash phone email createdAt rolesBitmask =>
    let user := registeredUser (WalRecord.fromFixedArray userId)
      (WalRecord.fromFixedArray username) (WalRecord.fromFixedArray passwordHash)
      (WalRecord.fromFixedArray phone) (WalRecord.fromFixedArray email) createdAt rolesBitmask
    match users.get user.userId with
    | some existing =>
      if existing.createdAt.val < user.createdAt.val then users.insert user else users
    | none => users.insert user
  | .UserRoleUpdate userId rolesBitmask timestamp =>
    match users.get (WalRecord.fromFixedArray userId) with
    | some user =>
      if user.updatedAt.val ≤ timestamp.val then
        users.insert { user with
          roles := UserRole.fromBitmask rolesBitmask
          updatedAt := timestamp }
      else users
    | none => users
  | .AccountBind .. => users

def binding : UserRecord → Option (String × String)
  | .AccountBind userId accountId _ =>
    some (WalRecord.fromFixedArray userId, WalRecord.fromFixedArray accountId)
  | .UserRegister .. | .UserRoleUpdate .. => none

def bind (users : KeyedRows User.userId) (binding : String × String) : KeyedRows User.userId :=
  match users.get binding.1 with
  | some user =>
    if binding.2 ∈ user.accountIds then users
    else users.insert { user with accountIds := user.accountIds ++ [binding.2] }
  | none => users

/-- The part of `recover_users` behind the query. -/
def restore (order : IterationOrder) (records : List UserRecord) (manager : UserManager) : UserManager :=
  let users := records.foldl replayUser .empty
  let inserted := (order.arrange (users.rows.map User.userId)).filterMap users.get
  let manager := inserted.foldl (fun manager user => manager.insertUser user) manager
  { manager with users := (records.filterMap binding).foldl bind manager.users }

def isRegister : UserRecord → Bool
  | .UserRegister .. => true
  | .AccountBind .. | .UserRoleUpdate .. => false

def stats (records : List UserRecord) : UserRecoveryStats where
  totalRecords := records.length
  userRegisterRecords := (records.filter isRegister).length
  accountBindRecords := (records.filterMap binding).length
  usersRecovered := (records.foldl replayUser .empty).rows.length

def recoverUsers (readsMetadata : ReadsMetadata UserRecord) (order : IterationOrder)
    (startTs endTs : ℤ) (storage : OltpHybridStorage UserRecord) (manager : UserManager) :
    Except ExchangeError (UserRecoveryStats × UserManager) := do
  let rows ← (storage.rangeQuery readsMetadata startTs endTs).mapError fun text =>
    .StorageError [.text "Failed to query WAL: ", .text text]
  let records := rows.map MemTableEntry.record
  pure (stats records, restore order records manager)

def recoverAllUsers (readsMetadata : ReadsMetadata UserRecord) (order : IterationOrder)
    (now : ClockReading) (storage : OltpHybridStorage UserRecord) (manager : UserManager) :
    Except ExchangeError (UserRecoveryStats × UserManager) :=
  recoverUsers readsMetadata order 0 now.nanos storage manager

end UserRecovery

/-! ## The log of a user manager

A manager with its storage takes calls. The storage has the records of the calls that
write one, and recovery finds the records of each kind in the order of the calls.
-/

/-! ## Calls -/

/-- `uuid` and `hash` are what `Uuid::new_v4` and `bcrypt::hash` give. -/
inductive UserCall
  | register (request : UserRegisterRequest) (uuid : String) (hash : Except String String)
  | bindAccount (userId accountId : String)
  | unbindAccount (userId accountId : String)
  | freezeUser (userId : String)
  | unfreezeUser (userId : String)
  | addUserRole (userId : String) (role : UserRole)
  | removeUserRole (userId : String) (role : UserRole)
  | setUserRoles (userId : String) (roles : List UserRole)

/-- A call with its readings of the clock: when the user is changed, when the record is
made, and when the record is written. -/
structure TimedCall where
  call : UserCall
  changedAt : ClockReading
  loggedAt : ClockReading
  writtenAt : ClockReading

def TimedCall.perform (timed : TimedCall) :
    UserManager → Except ExchangeError (UserManager × Option UserRecord) :=
  match timed.call with
  | .register request uuid hash => UserManager.register request uuid hash timed.changedAt
  | .bindAccount userId accountId =>
    UserManager.bindAccount userId accountId timed.changedAt timed.loggedAt
  | .unbindAccount userId accountId => UserManager.unbindAccount userId accountId timed.changedAt
  | .freezeUser userId => UserManager.freezeUser userId timed.changedAt
  | .unfreezeUser userId => UserManager.unfreezeUser userId timed.changedAt
  | .addUserRole userId role =>
    UserManager.addUserRole userId role timed.changedAt timed.loggedAt
  | .removeUserRole userId role =>
    UserManager.removeUserRole userId role timed.changedAt timed.loggedAt
  | .setUserRoles userId roles =>
    UserManager.setUserRoles userId roles timed.changedAt timed.loggedAt

/-- A manager with its storage, and the last reading of the clock. -/
structure UserSystem where
  manager : UserManager
  storage : OltpHybridStorage UserRecord
  clock : ClockReading

def TimedCall.write (timed : TimedCall) (record : UserRecord) : StorageWrite UserRecord :=
  .write timed.writtenAt.timestamp.val ⟨timed.writtenAt.nanos, record⟩

namespace UserSystem

def new (storage : OltpHybridStorage UserRecord) (clock : ClockReading) : UserSystem where
  manager := .new
  storage := storage
  clock := clock

/-- The manager after a call, and the record for the storage. A call that fails changes
nothing. -/
def performed (system : UserSystem) (timed : TimedCall) : UserManager × Option UserRecord :=
  match timed.perform system.manager with
  | .ok done => done
  | .error _ => (system.manager, none)

def step (codec : EntryCodec UserRecord) (system : UserSystem) (timed : TimedCall) :
    UserSystem where
  manager := (system.performed timed).1
  storage :=
    match (system.performed timed).2 with
    | some record => (stepWrite codec UserRecord.clock (timed.write record) system.storage).2
    | none => system.storage
  clock := timed.writtenAt

def Written (codec : EntryCodec UserRecord) (system : UserSystem) (timed : TimedCall) : Prop :=
  ∀ record ∈ (system.performed timed).2, (timed.write record).Writes codec system.storage ∧
    system.storage.wal.currentSequence < 2 ^ 64

/-- The clock does not go back. -/
def InTime (system : UserSystem) (timed : TimedCall) : Prop :=
  system.clock.nanos ≤ timed.changedAt.nanos ∧ timed.changedAt.nanos ≤ timed.loggedAt.nanos ∧
    timed.loggedAt.nanos ≤ timed.writtenAt.nanos

instance (codec : EntryCodec UserRecord) (system : UserSystem) (timed : TimedCall) :
    Decidable (Written codec system timed) :=
  inferInstanceAs (Decidable (∀ record ∈ (system.performed timed).2, _ ∧ _))

instance (system : UserSystem) (timed : TimedCall) : Decidable (InTime system timed) :=
  inferInstanceAs (Decidable (_ ∧ _))

end UserSystem

def UserRecord.isBind : UserRecord → Bool
  | .AccountBind .. => true
  | .UserRegister .. | .UserRoleUpdate .. => false

def ClockReading.stamp (reading : ClockReading) (isBind : Bool) : Timestamp :=
  if isBind then reading.timestampNanos else reading.timestamp

theorem ClockReading.stamp_mono {earlier later : ClockReading} (order : earlier.nanos ≤ later.nanos)
    (isBind : Bool) : (earlier.stamp isBind).val ≤ (later.stamp isBind).val := by
  cases isBind with
  | false =>
    have seconds := Nat.div_le_div_right (c := 10 ^ 9) order
    exact Int.ofNat_le.mpr seconds
  | true => exact Int.ofNat_le.mpr order

theorem ClockReading.stamp_range (reading : ClockReading) (isBind : Bool) :
    0 ≤ (reading.stamp isBind).val ∧ (reading.stamp isBind).val ≤ reading.nanos := by
  cases isBind with
  | false =>
    change (0 : ℤ) ≤ (reading.nanos / 10 ^ 9 : ℕ) ∧ ((reading.nanos / 10 ^ 9 : ℕ) : ℤ) ≤ _
    omega
  | true =>
    change (0 : ℤ) ≤ (reading.nanos : ℤ) ∧ (reading.nanos : ℤ) ≤ _
    omega

theorem changeUser_eq_ok
    (done : UserManager.changeUser userId change record manager = .ok (after, logged)) :
    ∃ user, manager.users.get userId = some user ∧ logged = record (change user) ∧
      after = { manager with users := manager.users.insert (change user) } := by
  rw [UserManager.changeUser] at done
  cases found : manager.users.get userId with
  | none =>
    rw [found] at done
    cases done
  | some user =>
    rw [found] at done
    cases done
    exact ⟨user, rfl, rfl, rfl⟩

theorem TimedCall.perform_stamped {timed : TimedCall}
    (done : timed.perform manager = .ok (after, some record)) :
    ∃ reading, (reading = timed.changedAt ∨ reading = timed.loggedAt) ∧
      record.timestamp = reading.stamp record.isBind := by
  rw [perform] at done
  cases isCall : timed.call with
  | register request uuid hash =>
    rw [isCall] at done
    rcases UserManager.register_eq_ok.mp done with ⟨passwordHash, _, _, logged⟩
    cases logged
    refine ⟨timed.changedAt, .inl rfl, ?_⟩
    cases isFirst : manager.users.rows.isEmpty <;> rfl
  | bindAccount userId accountId =>
    rw [isCall] at done
    rcases changeUser_eq_ok done with ⟨user, _, logged, _⟩
    cases logged
    exact ⟨timed.loggedAt, .inr rfl, rfl⟩
  | unbindAccount userId accountId =>
    rw [isCall] at done
    rcases changeUser_eq_ok done with ⟨user, _, logged, _⟩
    cases logged
  | freezeUser userId =>
    rw [isCall] at done
    rcases changeUser_eq_ok done with ⟨user, _, logged, _⟩
    cases logged
  | unfreezeUser userId =>
    rw [isCall] at done
    rcases changeUser_eq_ok done with ⟨user, _, logged, _⟩
    cases logged
  | addUserRole userId role =>
    rw [isCall] at done
    rcases changeUser_eq_ok done with ⟨user, _, logged, _⟩
    cases logged
    exact ⟨timed.loggedAt, .inr rfl, rfl⟩
  | removeUserRole userId role =>
    rw [isCall] at done
    rcases changeUser_eq_ok done with ⟨user, _, logged, _⟩
    cases logged
    exact ⟨timed.loggedAt, .inr rfl, rfl⟩
  | setUserRoles userId roles =>
    rw [isCall] at done
    rcases changeUser_eq_ok done with ⟨user, _, logged, _⟩
    cases logged
    exact ⟨timed.loggedAt, .inr rfl, rfl⟩

/-- The storage has the records under increasing numbers, and the records of each kind are
stamped in their order. -/
structure UserSystem.Logged (codec : EntryCodec UserRecord) (system : UserSystem)
    (records : List (ℕ × UserRecord)) : Prop where
  healthy : ∃ layout, Healthy codec UserRecord.clock system.storage layout records
  started : system.storage.sstableCounter = 0 → system.storage.sstableFiles.rows = []
  numbered : records.Pairwise fun left right => left.1 < right.1
  small : ∀ record ∈ records, record.1 < 2 ^ 64
  stamped : ∀ kind, (records.filter fun record => record.2.isBind = kind).Pairwise
    fun left right => left.2.timestamp.val ≤ right.2.timestamp.val
  past : ∀ record ∈ records, ∃ reading : ClockReading, reading.nanos ≤ system.clock.nanos ∧
    record.2.timestamp = reading.stamp record.2.isBind

theorem started_settled {storage : OltpHybridStorage UserRecord}
    (started : storage.sstableCounter = 0 → storage.sstableFiles.rows = []) :
    storage.settled.sstableCounter = 0 → storage.settled.sstableFiles.rows = [] := by
  rw [settled]
  split_ifs with full
  · intro zero
    change storage.sstableCounter + 1 = 0 at zero
    omega
  · exact started

namespace UserSystem.Logged

variable {codec : EntryCodec UserRecord} {system : UserSystem} {records : List (ℕ × UserRecord)}

theorem new (roundTrip : codec.RoundTrip) {config : OltpHybridConfig} {seconds : ℤ}
    {storage : OltpHybridStorage UserRecord}
    (isCreated : create codec UserRecord.clock config [] .empty .empty seconds = .ok storage)
    (clock : ClockReading) : (UserSystem.new storage clock).Logged codec [] := by
  refine ⟨healthy_new roundTrip isCreated, ?_, .nil, by simp, fun _ => .nil, by simp⟩
  intro _
  change storage.sstableFiles.rows = []
  rw [create_sstableFiles isCreated]
  rfl

section

variable (logged : system.Logged codec records)
include logged

theorem silent (inTime : system.InTime timed) (nothing : (system.performed timed).2 = none) :
    (system.step codec timed).Logged codec records := by
  have same : (system.step codec timed).storage = system.storage := by
    rw [UserSystem.step, nothing]
  refine ⟨same ▸ logged.healthy, same ▸ logged.started, logged.numbered, logged.small,
    logged.stamped, ?_⟩
  intro record member
  rcases logged.past record member with ⟨reading, past, isStamp⟩
  refine ⟨reading, ?_, isStamp⟩
  have order : system.clock.nanos ≤ timed.writtenAt.nanos := by
    rcases inTime with ⟨first, second, third⟩
    omega
  exact past.trans order

theorem write (inTime : system.InTime timed) (written : system.Written codec timed)
    (isRecord : (system.performed timed).2 = some record) : (system.step codec timed).Logged codec
      (records ++ [(system.storage.wal.currentSequence, record)]) := by
  have order : system.clock.nanos ≤ timed.writtenAt.nanos := by
    rcases inTime with ⟨first, second, third⟩
    omega
  rcases written record (by simp [isRecord]) with ⟨writes, inRange⟩
  rcases logged.healthy with ⟨layout, healthy⟩
  have stored : (system.step codec timed).storage =
      (system.storage.stored codec UserRecord.clock (timed.write record)).settled := by
    rw [UserSystem.step, isRecord]
    rcases stepWrite_cases codec UserRecord.clock (timed.write record) system.storage with
      ⟨_, ran⟩ | ⟨fails, _⟩
    · dsimp only
      rw [ran]
    · exact absurd writes fails
  have stamp : ∃ reading : ClockReading, system.clock.nanos ≤ reading.nanos ∧
      reading.nanos ≤ timed.writtenAt.nanos ∧ record.timestamp = reading.stamp record.isBind := by
    have done : timed.perform system.manager = .ok ((system.performed timed).1, some record) := by
      rw [UserSystem.performed] at isRecord ⊢
      cases ran : timed.perform system.manager with
      | error text =>
        rw [ran] at isRecord
        cases isRecord
      | ok done =>
        rw [ran] at isRecord
        rw [← isRecord]
    rcases TimedCall.perform_stamped done with ⟨reading, which, isStamp⟩
    refine ⟨reading, ?_, ?_, isStamp⟩
    · rcases inTime with ⟨first, second, third⟩
      rcases which with rfl | rfl <;> omega
    · rcases inTime with ⟨first, second, third⟩
      rcases which with rfl | rfl <;> omega
  rcases stamp with ⟨reading, later, earlier, isStamp⟩
  constructor
  · rw [stored]
    rcases (healthy.write writes fun _ => logged.started).2 with ⟨layout', still⟩
    exact ⟨layout', still⟩
  · rw [stored]
    exact started_settled logged.started
  · apply List.pairwise_append.mpr
    refine ⟨logged.numbered, List.pairwise_singleton _ _, ?_⟩
    intro old isOld added isAdded
    rw [List.mem_singleton.mp isAdded]
    exact healthy.holds.below old isOld
  · intro other member
    rcases List.mem_append.mp member with old | isAdded
    · exact logged.small other old
    · rw [List.mem_singleton.mp isAdded]
      exact inRange
  · intro kind
    rw [List.filter_append]
    apply List.pairwise_append.mpr
    refine ⟨logged.stamped kind, List.Pairwise.sublist List.filter_sublist
      (List.pairwise_singleton _ _), ?_⟩
    intro old isOld added isAdded
    rcases List.mem_filter.mp isOld with ⟨isOld, oldKind⟩
    rcases List.mem_filter.mp isAdded with ⟨isAdded, addedKind⟩
    rw [List.mem_singleton] at isAdded
    subst isAdded
    rw [decide_eq_true_iff] at oldKind addedKind
    rcases logged.past old isOld with ⟨before, past, oldStamp⟩
    rw [oldStamp, oldKind]
    change _ ≤ record.timestamp.val
    change record.isBind = kind at addedKind
    rw [isStamp, addedKind]
    exact ClockReading.stamp_mono (past.trans later) kind
  · intro other member
    rcases List.mem_append.mp member with old | isAdded
    · rcases logged.past other old with ⟨before, past, oldStamp⟩
      exact ⟨before, past.trans order, oldStamp⟩
    · rw [List.mem_singleton.mp isAdded]
      exact ⟨reading, earlier, isStamp⟩

theorem step (inTime : system.InTime timed) (written : system.Written codec timed) :
    ∃ more, (system.step codec timed).Logged codec (records ++ more) ∧
      more.map Prod.snd = (system.performed timed).2.toList := by
  cases isRecord : (system.performed timed).2 with
  | none =>
    refine ⟨[], ?_, rfl⟩
    rw [List.append_nil]
    exact logged.silent inTime isRecord
  | some record => exact ⟨_, logged.write inTime written isRecord, rfl⟩

theorem reads (readsMetadata : ReadsMetadata UserRecord) {now : ClockReading}
    (order : system.clock.nanos ≤ now.nanos) :
    ∃ rows, system.storage.rangeQuery readsMetadata 0 now.nanos = .ok rows ∧
      ∀ kind, (rows.map MemTableEntry.record).filter (fun record => record.isBind = kind) =
        (records.map Prod.snd).filter fun record => record.isBind = kind := by
  rcases logged.healthy with ⟨layout, healthy⟩
  rcases healthy.holds.answers logged.small readsMetadata 0 now.nanos with
    ⟨rows, found, increasing, members⟩
  refine ⟨rows, found, ?_⟩
  intro kind
  let entry : ℕ × UserRecord → MemTableEntry UserRecord := fun record =>
    .fromWal UserRecord.clock record.1 record.2
  have sameRows : rows.filter (fun row => row.record.isBind = kind) =
      (records.filter fun record => record.2.isBind = kind).map entry := by
    apply eq_of_sorted MemTableEntry.key
    · exact increasing.sublist List.filter_sublist
    · rw [List.pairwise_map]
      apply List.Pairwise.imp₂ _ (logged.stamped kind)
        (logged.numbered.sublist List.filter_sublist)
      intro left right stamps numbers
      apply lt_of_le_of_ne
      · apply (MemTableKey.le_iff _ _).mpr
        change left.2.timestamp.val < right.2.timestamp.val ∨
          left.2.timestamp.val = right.2.timestamp.val ∧ left.1 ≤ right.1
        omega
      · intro same
        have sameNumber : left.1 = right.1 := congrArg MemTableKey.sequence same
        omega
    · intro row
      rw [List.mem_filter, members, List.mem_map]
      constructor
      · rintro ⟨⟨record, isRecord, rfl, _⟩, ofKind⟩
        exact ⟨record, List.mem_filter.mpr ⟨isRecord, ofKind⟩, rfl⟩
      · rintro ⟨record, isRecord, rfl⟩
        rcases List.mem_filter.mp isRecord with ⟨isRecord, ofKind⟩
        refine ⟨⟨record, isRecord, rfl, ?_⟩, ofKind⟩
        rcases logged.past record isRecord with ⟨reading, past, isStamp⟩
        change 0 ≤ record.2.timestamp.val ∧ record.2.timestamp.val ≤ _
        rw [isStamp]
        have range := reading.stamp_range record.2.isBind
        omega
  rw [List.filter_map, List.filter_map]
  change (rows.filter fun row => row.record.isBind = kind).map MemTableEntry.record =
    (records.filter fun record => record.2.isBind = kind).map Prod.snd
  rw [sameRows, List.map_map]
  rfl

end

end UserSystem.Logged

end QAExchange.Users
