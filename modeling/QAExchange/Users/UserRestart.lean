import QAExchange.Users.RestoredUsers

/-! # Users after a restart

A new manager gets the users back as long as every call logs what it changes. An account
that was removed comes back, and a frozen user is active again.
-/

namespace QAExchange.Users

open Foundation OltpHybridStorage UserManager UserRecovery KeyedRows WalRecord

def UserCall.Sized : UserCall → Prop
  | .register request uuid hash => WalRecord.Fits 40 uuid ∧ request.username.utf8ByteSize ≤ 32 ∧
      (∀ phone ∈ request.phone, phone.utf8ByteSize ≤ 16) ∧
      (∀ email ∈ request.email, email.utf8ByteSize ≤ 32) ∧
      ∀ passwordHash ∈ hash.toOption, WalRecord.Fits 64 passwordHash
  | .bindAccount _ accountId => accountId.utf8ByteSize ≤ 40
  | .unbindAccount .. | .freezeUser _ | .unfreezeUser _ | .addUserRole .. | .removeUserRole ..
  | .setUserRoles .. => True

instance : (call : UserCall) → Decidable call.Sized
  | .register .. => inferInstanceAs (Decidable (_ ∧ _ ∧ _ ∧ _ ∧ _))
  | .bindAccount .. => inferInstanceAs (Decidable (_ ≤ _))
  | .unbindAccount .. | .freezeUser _ | .unfreezeUser _ | .addUserRole .. | .removeUserRole ..
  | .setUserRoles .. => .isTrue trivial

def UserCall.Fresh (manager : UserManager) : UserCall → Prop
  | .register _ uuid _ => manager.users.get uuid = none
  | .bindAccount .. | .unbindAccount .. | .freezeUser _ | .unfreezeUser _ | .addUserRole ..
  | .removeUserRole .. | .setUserRoles .. => True

instance (manager : UserManager) : (call : UserCall) → Decidable (call.Fresh manager)
  | .register .. => inferInstanceAs (Decidable (_ = none))
  | .bindAccount .. | .unbindAccount .. | .freezeUser _ | .unfreezeUser _ | .addUserRole ..
  | .removeUserRole .. | .setUserRoles .. => .isTrue trivial

/-- The texts fit, the clock does not go back, and the record is written. -/
structure UserSystem.Meets (codec : EntryCodec UserRecord) (system : UserSystem)
    (timed : TimedCall) : Prop where
  sized : timed.call.Sized
  fresh : timed.call.Fresh system.manager
  inTime : system.InTime timed
  written : system.Written codec timed

instance (codec : EntryCodec UserRecord) (system : UserSystem) (timed : TimedCall) :
    Decidable (system.Meets codec timed) :=
  decidable_of_iff (timed.call.Sized ∧ timed.call.Fresh system.manager ∧ system.InTime timed ∧
      system.Written codec timed)
    ⟨fun ⟨sized, fresh, inTime, written⟩ => ⟨sized, fresh, inTime, written⟩,
      fun meets => ⟨meets.sized, meets.fresh, meets.inTime, meets.written⟩⟩

def UserCall.Obeys (manager : UserManager) : UserCall → Prop
  | .register request _ hash => (∃ passwordHash, manager.Accepts request hash passwordHash) →
      Marked request.username ∧ (∀ phone ∈ request.phone, Present phone) ∧
        ∀ email ∈ request.email, Present email
  | .bindAccount userId accountId => manager.users.get userId ≠ none → Marked accountId
  | .unbindAccount userId accountId =>
    ∀ user ∈ manager.users.get userId, accountId ∉ user.accountIds
  | .freezeUser userId => manager.users.get userId = none
  | .unfreezeUser _ => True
  | .addUserRole .. => True
  | .removeUserRole userId role =>
    ∀ user ∈ manager.users.get userId, ∃ other ∈ user.roles, other ≠ role
  | .setUserRoles userId roles => manager.users.get userId ≠ none → roles ≠ []

/-! ## One call -/

theorem Mirrored.later {limit later : ℤ} {logged user : User} (mirrored : Mirrored limit logged user)
    (order : limit ≤ later) : Mirrored later logged user :=
  { mirrored with updated := mirrored.updated.trans order }

theorem Mirrored.rel_later {limit later : ℤ} {logged user : Option User}
    (rel : Option.Rel (Mirrored limit) logged user) (order : limit ≤ later) :
    Option.Rel (Mirrored later) logged user := by
  cases rel with
  | none => exact .none
  | some mirrored => exact .some (mirrored.later order)

namespace UserSystem.Mirrors

variable {system after : UserSystem} {log : List UserRecord}

theorem unchanged (mirrors : system.Mirrors log) (same : after.manager = system.manager)
    (later : system.clock.timestamp.val ≤ after.clock.timestamp.val) : after.Mirrors log := by
  refine ⟨?_, same ▸ mirrors.accounts, same ▸ mirrors.known, same ▸ mirrors.indexed,
    same ▸ mirrors.fits⟩
  intro userId
  rw [same]
  exact Mirrored.rel_later (mirrors.users userId) later

variable {user changed : User}

theorem change (mirrors : system.Mirrors log) (more : List UserRecord)
    (found : system.manager.users.get changed.userId = some user) (isAfter : after.manager =
      { system.manager with users := system.manager.users.insert changed })
    (later : system.clock.timestamp.val ≤ after.clock.timestamp.val)
    (username : changed.username = user.username) (phone : changed.phone = user.phone)
    (email : changed.email = user.email) (others : ∀ userId, userId ≠ changed.userId →
      (replay (log ++ more)).get userId = (replay log).get userId)
    (own : ∃ logged, (replay (log ++ more)).get changed.userId = some logged ∧
      Mirrored after.clock.timestamp.val logged changed)
    (accounts : ∀ userId, accountsAfter [] userId ((log ++ more).filterMap binding) =
      if userId = changed.userId then changed.accountIds
      else accountsAfter [] userId (log.filterMap binding))
    (owner : ∀ pair ∈ more.filterMap binding, pair.1 = changed.userId) :
    after.Mirrors (log ++ more) := by
  rcases get_eq_some.mp found with ⟨isUser, sameId⟩
  have users : after.manager.users = system.manager.users.insert changed := by rw [isAfter]
  have members : ∀ other, other ∈ after.manager.users.rows ↔
      other = changed ∨ other ∈ system.manager.users.rows ∧ other.userId ≠ changed.userId := by
    intro other
    rw [users]
    exact mem_insert
  have sameField : ∀ {field : User → Option String}, field changed = field user →
      ∀ userId value, (∃ other ∈ after.manager.users.rows,
          other.userId = userId ∧ field other = some value) ↔
        ∃ other ∈ system.manager.users.rows, other.userId = userId ∧ field other = some value := by
    intro field isField userId value
    constructor
    · rintro ⟨other, member, rfl, isValue⟩
      rcases (members other).mp member with rfl | ⟨old, _⟩
      · exact ⟨user, isUser, sameId, isField ▸ isValue⟩
      · exact ⟨other, old, rfl, isValue⟩
    · rintro ⟨other, member, rfl, isValue⟩
      by_cases isChanged : other.userId = changed.userId
      · have same : other = user := by
          have again := get_eq_some.mpr ⟨member, isChanged⟩
          rw [found] at again
          exact (Option.some.inj again).symm
        subst same
        exact ⟨changed, (members _).mpr (.inl rfl), isChanged.symm, isField.trans isValue⟩
      · exact ⟨other, (members _).mpr (.inr ⟨member, isChanged⟩), rfl, isValue⟩
  constructor
  · intro userId
    rw [users, get_insert]
    split_ifs with isChanged
    · rcases own with ⟨logged, isLogged, mirrored⟩
      rw [← isChanged, isLogged]
      exact .some mirrored
    · rw [others userId (fun same => isChanged same.symm)]
      exact Mirrored.rel_later (mirrors.users userId) later
  · intro other member
    rw [accounts]
    rcases (members other).mp member with rfl | ⟨old, different⟩
    · rw [if_pos rfl]
    · rw [if_neg different]
      exact mirrors.accounts other old
  · intro pair member
    rw [users, get_insert]
    split_ifs with isChanged
    · exact Option.some_ne_none _
    · rw [List.filterMap_append] at member
      rcases List.mem_append.mp member with old | isNew
      · exact mirrors.known pair old
      · exact absurd (owner pair isNew).symm isChanged
  · have indexed := mirrors.indexed
    constructor
    · have indexes := indexed.usernames.change (sameField (congrArg some username))
      rw [isAfter] at indexes ⊢
      exact indexes
    · have indexes := indexed.phones.change (sameField phone)
      rw [isAfter] at indexes ⊢
      exact indexes
    · have indexes := indexed.emails.change (sameField email)
      rw [isAfter] at indexes ⊢
      exact indexes
  · intro other member
    rcases (members other).mp member with rfl | ⟨old, _⟩
    · rw [← sameId]
      exact mirrors.fits user isUser
    · exact mirrors.fits other old

theorem silent (mirrors : system.Mirrors log)
    (found : system.manager.users.get changed.userId = some user) (isAfter : after.manager =
      { system.manager with users := system.manager.users.insert changed })
    (later : system.clock.timestamp.val ≤ after.clock.timestamp.val)
    (kept : changed.kept = user.kept) : after.Mirrors log := by
  rcases get_eq_some.mp found with ⟨isUser, sameId⟩
  rcases mirrors.exists_logged isUser with ⟨logged, _, isLogged, mirrored⟩
  have fields := kept
  simp only [User.kept, KeptUser.mk.injEq] at fields
  have changed' := mirrors.change [] found isAfter later fields.2.1 fields.2.2.2.1
    fields.2.2.2.2.1 (by simp) ⟨logged, ?_, ?_⟩ ?_ (by simp)
  · rwa [List.append_nil] at changed'
  · rw [List.append_nil, ← sameId]
    exact isLogged
  · refine ⟨?_, ?_, mirrored.updated.trans later⟩
    · rw [kept]
      exact mirrored.kept
    · rw [fields.2.2.2.2.2.2.2]
      exact mirrored.active
  · intro userId
    rw [List.append_nil]
    split_ifs with own
    · rw [own, fields.2.2.2.2.2.1, mirrors.accounts user isUser, sameId]
    · rfl

theorem roles (mirrors : system.Mirrors log)
    (found : system.manager.users.get changed.userId = some user) (isAfter : after.manager =
      { system.manager with users := system.manager.users.insert changed })
    {loggedAt : ClockReading} (earlier : system.clock.nanos ≤ loggedAt.nanos)
    (later : loggedAt.nanos ≤ after.clock.nanos)
    (kept : changed.kept = { user.kept with roles := changed.roles.toFinset })
    (some : changed.roles ≠ []) :
    after.Mirrors (log ++ [rolesRecord changed.userId changed.roles loggedAt]) := by
  rcases get_eq_some.mp found with ⟨isUser, sameId⟩
  rcases mirrors.exists_logged isUser with ⟨logged, _, isLogged, mirrored⟩
  have fields := kept
  simp only [User.kept, KeptUser.mk.injEq] at fields
  have fits : WalRecord.Fits 40 changed.userId := sameId ▸ mirrors.fits user isUser
  have before : system.clock.timestamp.val ≤ loggedAt.timestamp.val :=
    ClockReading.stamp_mono earlier false
  have behind : loggedAt.timestamp.val ≤ after.clock.timestamp.val :=
    ClockReading.stamp_mono later false
  have loggedId : logged.userId = changed.userId :=
    (get_eq_some.mp isLogged).2.trans sameId
  let updated : User := { logged with
    roles := UserRole.fromBitmask (UserRole.rolesToBitmask changed.roles)
    updatedAt := loggedAt.timestamp }
  have replayed : replay (log ++ [rolesRecord changed.userId changed.roles loggedAt]) =
      (replay log).insert updated := by
    rw [replay_append, List.foldl_cons, List.foldl_nil, rolesRecord, replayUser,
      fromFixedArray_toFixedArray fits, ← sameId, isLogged]
    dsimp only
    rw [if_pos (mirrored.updated.trans before)]
  have isUpdated : updated.userId = changed.userId := loggedId
  apply mirrors.change _ found isAfter (before.trans behind) fields.2.1 fields.2.2.2.1
    fields.2.2.2.2.1
  · intro userId other
    rw [replayed, get_insert, if_neg (fun same => other (same.symm.trans isUpdated))]
  · refine ⟨updated, ?_, ?_, ?_, behind⟩
    · rw [replayed, get_insert, if_pos isUpdated]
    · have sameRoles : updated.roles.toFinset = changed.roles.toFinset := by
        ext role
        rw [List.mem_toFinset, List.mem_toFinset]
        exact UserRole.mem_fromBitmask_rolesToBitmask some role
      have isKept := mirrored.kept
      simp only [User.kept, KeptUser.mk.injEq] at isKept ⊢
      simp only [updated] at sameRoles ⊢
      simp [isKept, fields, sameRoles]
    · rw [fields.2.2.2.2.2.2.2]
      exact mirrored.active
  · intro userId
    rw [List.filterMap_append]
    simp only [rolesRecord, binding, List.filterMap_cons, List.filterMap_nil, List.append_nil]
    split_ifs with own
    · rw [own, fields.2.2.2.2.2.1, mirrors.accounts user isUser, sameId]
    · rfl
  · intro pair member
    simp [rolesRecord, binding] at member

theorem account (mirrors : system.Mirrors log) {accountId : String}
    (found : system.manager.users.get changed.userId = some user) (isAfter : after.manager =
      { system.manager with users := system.manager.users.insert changed })
    (later : system.clock.timestamp.val ≤ after.clock.timestamp.val) (kept : changed.kept =
      { user.kept with accountIds := withAccount user.accountIds accountId })
    (fits : WalRecord.Fits 40 accountId) (loggedAt : ClockReading) :
    after.Mirrors (log ++ [.AccountBind (toFixedArray 40 changed.userId)
      (toFixedArray 40 accountId) loggedAt.timestampNanos]) := by
  rcases get_eq_some.mp found with ⟨isUser, sameId⟩
  rcases mirrors.exists_logged isUser with ⟨logged, _, isLogged, mirrored⟩
  have fields := kept
  simp only [User.kept, KeptUser.mk.injEq] at fields
  have idFits : WalRecord.Fits 40 changed.userId := sameId ▸ mirrors.fits user isUser
  have pairs : (log ++ [UserRecord.AccountBind (toFixedArray 40 changed.userId)
      (toFixedArray 40 accountId) loggedAt.timestampNanos]).filterMap binding =
        log.filterMap binding ++ [(changed.userId, accountId)] := by
    rw [List.filterMap_append, List.filterMap_cons, binding,
      fromFixedArray_toFixedArray idFits, fromFixedArray_toFixedArray fits]
    rfl
  have replayed : replay (log ++ [UserRecord.AccountBind
      (toFixedArray 40 changed.userId) (toFixedArray 40 accountId)
      loggedAt.timestampNanos]) = replay log := by
    rw [replay_append]
    rfl
  apply mirrors.change _ found isAfter later fields.2.1 fields.2.2.2.1 fields.2.2.2.2.1
  · intro userId _
    rw [replayed]
  · refine ⟨logged, ?_, ?_, ?_, mirrored.updated.trans later⟩
    · rw [replayed, ← sameId]
      exact isLogged
    · rw [kept]
      exact mirrored.kept
    · rw [fields.2.2.2.2.2.2.2]
      exact mirrored.active
  · intro userId
    rw [pairs, accountsAfter_concat]
    by_cases own : userId = changed.userId
    · rw [if_pos own.symm, if_pos own, fields.2.2.2.2.2.1, mirrors.accounts user isUser, sameId, own]
    · rw [if_neg (fun same => own same.symm), if_neg own]
  · intro pair member
    rw [List.filterMap_cons, binding, fromFixedArray_toFixedArray idFits] at member
    simp only [List.filterMap_nil, List.mem_singleton] at member
    rw [member]

theorem register (mirrors : system.Mirrors log)
    (fresh : system.manager.users.get user.userId = none)
    (isAfter : after.manager = system.manager.insertUser user)
    (later : system.clock.timestamp.val ≤ after.clock.timestamp.val)
    (created : user.createdAt.val ≤ after.clock.timestamp.val)
    (free : ∀ other ∈ system.manager.users.rows, Apart user other)
    (userId : WalRecord.Fits 40 user.userId) (username : WalRecord.Fits 32 user.username)
    (passwordHash : WalRecord.Fits 64 user.passwordHash)
    (phone : ∀ phone ∈ user.phone, phone.utf8ByteSize ≤ 16 ∧ Present phone)
    (email : ∀ email ∈ user.email, email.utf8ByteSize ≤ 32 ∧ Present email)
    (accountIds : user.accountIds = []) (roles : user.roles ≠ []) (status : user.status = .Active) :
    after.Mirrors (log ++ [.ofUser user]) := by
  have users : after.manager.users = system.manager.users.insert user := by
    rw [isAfter]
    rfl
  have unlogged : (replay log).get user.userId = none := by
    have rel := mirrors.users user.userId
    rw [fresh] at rel
    cases isLogged : (replay log).get user.userId with
    | none => rfl
    | some logged =>
      rw [isLogged] at rel
      cases rel
  have isPhone := nonEmpty_logged (fun text isText => (phone text isText).1) fun text isText =>
    (phone text isText).2
  have isEmail := nonEmpty_logged (fun text isText => (email text isText).1) fun text isText =>
    (email text isText).2
  let logged : User :=
    { User.new user.userId user.username user.passwordHash user.createdAt with
      phone := user.phone
      email := user.email
      roles := UserRole.fromBitmask (UserRole.rolesToBitmask user.roles) }
  have loggedRoles : logged.roles.toFinset = user.roles.toFinset := by
    ext role
    rw [List.mem_toFinset, List.mem_toFinset]
    exact UserRole.mem_fromBitmask_rolesToBitmask roles role
  have replayed : replay (log ++ [.ofUser user]) = (replay log).insert logged := by
    rw [replay_append, List.foldl_cons, List.foldl_nil, UserRecord.ofUser, replayUser,
      fromFixedArray_toFixedArray userId, fromFixedArray_toFixedArray username,
      fromFixedArray_toFixedArray passwordHash, registeredUser, isPhone, isEmail]
    dsimp only [User.new]
    rw [unlogged]
    rfl
  have pairs : (log ++ [UserRecord.ofUser user]).filterMap binding = log.filterMap binding := by
    rw [List.filterMap_append]
    exact List.append_nil _
  constructor
  · intro wanted
    rw [replayed, users, get_insert, get_insert]
    change Option.Rel _ (if user.userId = wanted then _ else _) _
    split_ifs with own
    · refine .some ⟨?_, status, created⟩
      simp only [User.kept, KeptUser.mk.injEq]
      exact ⟨rfl, rfl, rfl, rfl, rfl, rfl, loggedRoles, status.symm⟩
    · exact Mirrored.rel_later (mirrors.users wanted) later
  · intro other member
    rw [pairs]
    rw [users] at member
    rcases mem_insert.mp member with rfl | ⟨old, _⟩
    · have noPairs : (log.filterMap binding).filter (fun pair => pair.1 = other.userId) = [] := by
        apply List.filter_eq_nil_iff.mpr
        intro pair isPair
        rw [decide_eq_true_iff]
        intro own
        exact mirrors.known pair isPair (own ▸ fresh)
      rw [accountsAfter, noPairs, accountIds]
      rfl
    · exact mirrors.accounts other old
  · intro pair member
    rw [pairs] at member
    rw [users, get_insert]
    split_ifs
    · exact Option.some_ne_none _
    · exact mirrors.known pair member
  · rw [isAfter]
    exact mirrors.indexed.insertUser free
  · intro other member
    rw [users] at member
    rcases mem_insert.mp member with rfl | ⟨old, _⟩
    · exact userId
    · exact mirrors.fits other old

end UserSystem.Mirrors

/-! ## Runs -/

theorem changeUser_of_none {manager : UserManager} (missing : manager.users.get userId = none)
    (change : User → User) (record : User → Option UserRecord) :
    changeUser userId change record manager =
      .error (.UserError [.text "User not found: ", .text userId]) := by
  rw [changeUser, missing]

theorem changeUser_of_some {manager : UserManager} (found : manager.users.get userId = some user)
    (change : User → User) (record : User → Option UserRecord) :
    changeUser userId change record manager =
      .ok ({ manager with users := manager.users.insert (change user) }, record (change user)) := by
  rw [changeUser, found]

namespace UserSystem

variable {codec : EntryCodec UserRecord} {system : UserSystem} {timed : TimedCall}

theorem performed_of_error (failed : timed.perform system.manager = .error error) :
    system.performed timed = (system.manager, none) := by
  rw [performed, failed]

theorem performed_of_ok (succeeded : timed.perform system.manager = .ok done) :
    system.performed timed = done := by
  rw [performed, succeeded]

theorem InTime.clock (inTime : system.InTime timed) :
    system.clock.timestamp.val ≤ timed.writtenAt.timestamp.val := by
  rcases inTime with ⟨first, second, third⟩
  exact ClockReading.stamp_mono (first.trans (second.trans third)) false

theorem performed_changeUser {userId : String} {change : User → User}
    {record : User → Option UserRecord}
    (isChange : timed.perform system.manager = changeUser userId change record system.manager) :
    (system.manager.users.get userId = none ∧ system.performed timed = (system.manager, none)) ∨
      ∃ user, system.manager.users.get userId = some user ∧ system.performed timed =
        ({ system.manager with users := system.manager.users.insert (change user) },
          record (change user)) := by
  cases found : system.manager.users.get userId with
  | none =>
    have failed := isChange.trans (changeUser_of_none found change record)
    exact .inl ⟨rfl, performed_of_error failed⟩
  | some user =>
    have succeeded := isChange.trans (changeUser_of_some found change record)
    exact .inr ⟨user, rfl, performed_of_ok succeeded⟩

variable {log : List UserRecord}

theorem Accepted.free (mirrors : system.Mirrors log) {request : UserRegisterRequest}
    {hash : Except String String} {passwordHash : String}
    (accepts : system.manager.Accepts request hash passwordHash) {uuid : String}
    (fresh : system.manager.users.get uuid = none) (isFirstUser : Bool) (now : Timestamp) :
    ∀ other ∈ system.manager.users.rows,
      Apart (requestedUser request uuid passwordHash isFirstUser now) other := by
  intro other member
  constructor
  · rw [requestedUser_userId]
    exact (get_eq_none.mp fresh other member).symm
  · rw [requestedUser_username]
    intro same
    exact (mirrors.indexed.usernames.eq_none_iff _).mp accepts.username other member
      (congrArg some same.symm)
  · intro phone isPhone
    exact (mirrors.indexed.phones.eq_none_iff _).mp (accepts.phone phone isPhone) other member
  · intro email isEmail
    exact (mirrors.indexed.emails.eq_none_iff _).mp (accepts.email email isEmail) other member

theorem performed_register {request : UserRegisterRequest} {uuid : String}
    {hash : Except String String} (isCall : timed.call = .register request uuid hash) :
    (∃ passwordHash, system.manager.Accepts request hash passwordHash ∧
      system.performed timed = (system.manager.insertUser (requestedUser request uuid passwordHash
        system.manager.users.rows.isEmpty timed.changedAt.timestamp),
        some (.ofUser (requestedUser request uuid passwordHash
          system.manager.users.rows.isEmpty timed.changedAt.timestamp)))) ∨
      (¬ ∃ passwordHash, system.manager.Accepts request hash passwordHash) ∧
        system.performed timed = (system.manager, none) := by
  have isRegister : timed.perform system.manager =
      register request uuid hash timed.changedAt system.manager := by
    rw [TimedCall.perform, isCall]
  cases ran : register request uuid hash timed.changedAt system.manager with
  | error error =>
    refine .inr ⟨?_, performed_of_error (isRegister.trans ran)⟩
    rintro ⟨passwordHash, accepts⟩
    rw [register_eq_ok.mpr ⟨passwordHash, accepts, rfl, rfl⟩] at ran
    cases ran
  | ok done =>
    rcases done with ⟨manager, logged⟩
    rcases register_eq_ok.mp ran with ⟨passwordHash, accepts, rfl, rfl⟩
    exact .inl ⟨passwordHash, accepts, performed_of_ok (isRegister.trans ran)⟩

theorem Mirrors.step_roles (mirrors : system.Mirrors log) (inTime : system.InTime timed)
    {userId : String} {user changed : User} (found : system.manager.users.get userId = some user)
    (performs : system.performed timed =
      ({ system.manager with users := system.manager.users.insert changed },
        some (rolesRecord userId changed.roles timed.loggedAt)))
    (kept : changed.kept = { user.kept with roles := changed.roles.toFinset })
    (some : changed.roles ≠ []) :
    (system.step codec timed).Mirrors (log ++ (system.performed timed).2.toList) := by
  rcases inTime with ⟨first, second, third⟩
  have isUser := (get_eq_some.mp found).2
  have sameId : changed.userId = userId := (congrArg KeptUser.userId kept).trans isUser
  have isFound : system.manager.users.get changed.userId = .some user := by
    rw [sameId]
    exact found
  have isAfter : (system.step codec timed).manager =
      { system.manager with users := system.manager.users.insert changed } := by
    rw [UserSystem.step, performs]
  have stepped := mirrors.roles isFound isAfter (first.trans second) third kept some
  rw [performs]
  rwa [sameId] at stepped

theorem Mirrors.step (mirrors : system.Mirrors log) (meets : system.Meets codec timed)
    (obeys : timed.call.Obeys system.manager) :
    (system.step codec timed).Mirrors (log ++ (system.performed timed).2.toList) := by
  have later : system.clock.timestamp.val ≤ (system.step codec timed).clock.timestamp.val :=
    meets.inTime.clock
  have managers : (system.step codec timed).manager = (system.performed timed).1 := rfl
  -- a call for a user who does not exist changes nothing
  have failed : system.performed timed = (system.manager, none) →
      (system.step codec timed).Mirrors (log ++ (system.performed timed).2.toList) := by
    intro nothing
    rw [nothing]
    dsimp only
    rw [Option.toList_none, List.append_nil]
    apply mirrors.unchanged _ later
    rw [managers, nothing]
  have sized := meets.sized
  have fresh := meets.fresh
  rcases meets.inTime with ⟨first, second, third⟩
  cases isCall : timed.call with
  | register request uuid hash =>
    rw [isCall] at sized fresh obeys
    rcases performed_register isCall with ⟨passwordHash, accepts, performs⟩ | ⟨_, nothing⟩
    · rcases sized with ⟨uuidFits, usernameFits, phoneFits, emailFits, hashFits⟩
      rcases obeys ⟨passwordHash, accepts⟩ with ⟨marked, phonePresent, emailPresent⟩
      have hashFit : WalRecord.Fits 64 passwordHash := by
        apply hashFits
        rw [accepts.hashed]
        rfl
      rw [performs]
      apply mirrors.register
      · rw [requestedUser_userId]
        exact fresh
      · rw [managers, performs]
      · exact later
      · rw [requestedUser_createdAt]
        exact ClockReading.stamp_mono (second.trans third) false
      · exact Accepted.free mirrors accepts fresh _ _
      · rw [requestedUser_userId]
        exact uuidFits
      · rw [requestedUser_username]
        exact ⟨usernameFits, marked⟩
      · rw [requestedUser_passwordHash]
        exact hashFit
      · intro phone isPhone
        exact ⟨phoneFits phone isPhone, phonePresent phone isPhone⟩
      · intro email isEmail
        exact ⟨emailFits email isEmail, emailPresent email isEmail⟩
      · exact requestedUser_accountIds ..
      · rw [requestedUser_roles]
        split_ifs <;> exact List.cons_ne_nil _ _
      · exact requestedUser_status ..
    · exact failed nothing
  | bindAccount userId accountId =>
    rw [isCall] at sized obeys
    have isChange : timed.perform system.manager =
        bindAccount userId accountId timed.changedAt timed.loggedAt system.manager := by
      rw [TimedCall.perform, isCall]
    rcases performed_changeUser isChange with ⟨_, nothing⟩ | ⟨user, found, performs⟩
    · exact failed nothing
    · have marked := obeys (by rw [found]; exact Option.some_ne_none _)
      have isUser := (get_eq_some.mp found).2
      have kept : (user.addAccount accountId timed.changedAt.timestamp).kept =
          { user.kept with accountIds := withAccount user.accountIds accountId } := by
        rw [User.addAccount, withAccount]
        split_ifs <;> rfl
      have sameId : (user.addAccount accountId timed.changedAt.timestamp).userId = userId :=
        (congrArg KeptUser.userId kept).trans isUser
      have isFound : system.manager.users.get
          (user.addAccount accountId timed.changedAt.timestamp).userId = some user := by
        rw [sameId]
        exact found
      have isAfter : (system.step codec timed).manager = { system.manager with
          users := system.manager.users.insert
            (user.addAccount accountId timed.changedAt.timestamp) } := by
        rw [managers, performs]
      have stepped := mirrors.account isFound isAfter later kept ⟨sized, marked⟩ timed.loggedAt
      rw [performs]
      rwa [sameId] at stepped
  | unbindAccount userId accountId =>
    rw [isCall] at obeys
    have isChange : timed.perform system.manager =
        unbindAccount userId accountId timed.changedAt system.manager := by
      rw [TimedCall.perform, isCall]
    rcases performed_changeUser isChange with ⟨_, nothing⟩ | ⟨user, found, performs⟩
    · exact failed nothing
    · have absent := obeys user found
      have isUser := (get_eq_some.mp found).2
      have kept : (user.removeAccount accountId timed.changedAt.timestamp).kept = user.kept := by
        have same : user.accountIds.filter (fun id => id ≠ accountId) = user.accountIds := by
          apply List.filter_eq_self.mpr
          intro id member
          rw [decide_eq_true_iff]
          intro own
          exact absent (own ▸ member)
        rw [User.removeAccount, same]
        rfl
      rw [performs, Option.toList_none, List.append_nil]
      have isFound : system.manager.users.get (user.removeAccount accountId timed.changedAt.timestamp).userId =
          some user := by
        have sameId : (user.removeAccount accountId timed.changedAt.timestamp).userId = userId := isUser
        rw [sameId]
        exact found
      exact mirrors.silent isFound (by rw [managers, performs]) later kept
  | freezeUser userId =>
    rw [isCall] at obeys
    have isChange : timed.perform system.manager =
        freezeUser userId timed.changedAt system.manager := by
      rw [TimedCall.perform, isCall]
    rcases performed_changeUser isChange with ⟨_, nothing⟩ | ⟨user, found, _⟩
    · exact failed nothing
    · rw [UserCall.Obeys, found] at obeys
      cases obeys
  | unfreezeUser userId =>
    have isChange : timed.perform system.manager =
        unfreezeUser userId timed.changedAt system.manager := by
      rw [TimedCall.perform, isCall]
    rcases performed_changeUser isChange with ⟨_, nothing⟩ | ⟨user, found, performs⟩
    · exact failed nothing
    · rcases get_eq_some.mp found with ⟨member, isUser⟩
      rcases mirrors.exists_logged member with ⟨_, _, _, mirrored⟩
      have kept : (user.unfreeze timed.changedAt.timestamp).kept = user.kept := by
        rw [User.unfreeze, ← mirrored.active]
        rfl
      rw [performs, Option.toList_none, List.append_nil]
      have isFound : system.manager.users.get (user.unfreeze timed.changedAt.timestamp).userId =
          some user := by
        have sameId : (user.unfreeze timed.changedAt.timestamp).userId = userId := isUser
        rw [sameId]
        exact found
      exact mirrors.silent isFound (by rw [managers, performs]) later kept
  | addUserRole userId role =>
    have isChange : timed.perform system.manager =
        addUserRole userId role timed.changedAt timed.loggedAt system.manager := by
      rw [TimedCall.perform, isCall]
    rcases performed_changeUser isChange with ⟨_, nothing⟩ | ⟨user, found, performs⟩
    · exact failed nothing
    · apply mirrors.step_roles meets.inTime found performs
      · rw [User.addRole]
        split_ifs <;> rfl
      · rw [User.addRole]
        split_ifs with already
        · exact List.ne_nil_of_mem already
        · exact List.append_ne_nil_of_right_ne_nil _ (List.cons_ne_nil _ _)
  | removeUserRole userId role =>
    rw [isCall] at obeys
    have isChange : timed.perform system.manager =
        removeUserRole userId role timed.changedAt timed.loggedAt system.manager := by
      rw [TimedCall.perform, isCall]
    rcases performed_changeUser isChange with ⟨_, nothing⟩ | ⟨user, found, performs⟩
    · exact failed nothing
    · apply mirrors.step_roles meets.inTime found performs rfl
      rcases obeys user found with ⟨other, member, different⟩
      apply List.ne_nil_of_mem
      exact List.mem_filter.mpr ⟨member, by simpa using different⟩
  | setUserRoles userId roles =>
    rw [isCall] at obeys
    have isChange : timed.perform system.manager =
        setUserRoles userId roles timed.changedAt timed.loggedAt system.manager := by
      rw [TimedCall.perform, isCall]
    rcases performed_changeUser isChange with ⟨_, nothing⟩ | ⟨user, found, performs⟩
    · exact failed nothing
    · apply mirrors.step_roles meets.inTime found performs rfl
      apply obeys
      rw [found]
      exact Option.some_ne_none _

variable {records : List (ℕ × UserRecord)}

theorem Logged.survives (logged : system.Logged codec records)
    (mirrors : system.Mirrors (records.map Prod.snd)) (readsMetadata : ReadsMetadata UserRecord) :
    system.Survives readsMetadata := by
  intro order now later
  rcases logged.recoverAllUsers readsMetadata order later with ⟨stats, recovered⟩
  exact ⟨stats, _, recovered, mirrors.restored order⟩

variable {readsMetadata : ReadsMetadata UserRecord}

theorem Survives.restored (survives : system.Survives readsMetadata)
    (logged : system.Logged codec records) :
    (restore .asIs (records.map Prod.snd) .new).kept = system.manager.kept := by
  rcases survives .asIs system.clock (le_refl _) with ⟨stats, recovered, found, same⟩
  rcases logged.recoverAllUsers readsMetadata .asIs (le_refl _) with ⟨others, isFound⟩
  rw [isFound] at found
  cases found
  exact same

theorem Survives.restorable (survives : system.Survives readsMetadata)
    (logged : system.Logged codec records) (member : user ∈ system.manager.users.rows) :
    Restorable user := by
  have same := congrFun (congrArg KeptManager.users (survives.restored logged)) user.userId
  change ((restore .asIs (records.map Prod.snd) .new).users.get user.userId).map User.kept =
    (system.manager.users.get user.userId).map User.kept at same
  rw [get_eq_some.mpr ⟨member, rfl⟩, Option.map_some, Option.map_eq_some_iff] at same
  rcases same with ⟨made, found, kept⟩
  have restorable := restorable_restore .asIs _ made (get_eq_some.mp found).1
  simp only [User.kept, KeptUser.mk.injEq] at kept
  refine ⟨kept.2.1 ▸ restorable.username, kept.2.2.2.1 ▸ restorable.phone,
    kept.2.2.2.2.1 ▸ restorable.email, kept.2.2.2.2.2.1 ▸ restorable.accountIds, ?_,
    kept.2.2.2.2.2.2.2 ▸ restorable.status⟩
  intro none
  rw [none, List.toFinset_nil, List.toFinset_eq_empty_iff] at kept
  exact restorable.roles kept.2.2.2.2.2.2.1

theorem obeys_of_survives (mirrors : system.Mirrors (records.map Prod.snd))
    (logged : (system.step codec timed).Logged codec (records ++ more))
    (isMore : more.map Prod.snd = (system.performed timed).2.toList)
    (survives : (system.step codec timed).Survives readsMetadata) :
    timed.call.Obeys system.manager := by
  have restorable : ∀ {changed : User}, changed ∈ (system.performed timed).1.users.rows →
      Restorable changed := fun member => survives.restorable logged member
  have inserted : ∀ {changed : User} {record : Option UserRecord}, system.performed timed =
      ({ system.manager with users := system.manager.users.insert changed }, record) →
        Restorable changed := by
    intro changed record performs
    apply restorable
    rw [performs]
    exact mem_insert.mpr (.inl rfl)
  cases isCall : timed.call with
  | register request uuid hash =>
    intro accepted
    rcases performed_register isCall with ⟨passwordHash, _, performs⟩ | ⟨refused, _⟩
    · have member : requestedUser request uuid passwordHash system.manager.users.rows.isEmpty
          timed.changedAt.timestamp ∈ (system.performed timed).1.users.rows := by
        rw [performs]
        exact mem_insert.mpr (.inl rfl)
      have isUser := restorable member
      have marked := isUser.username
      rw [requestedUser_username] at marked
      exact ⟨marked, isUser.phone, isUser.email⟩
    · exact absurd accepted refused
  | bindAccount userId accountId =>
    have isChange : timed.perform system.manager =
        bindAccount userId accountId timed.changedAt timed.loggedAt system.manager := by
      rw [TimedCall.perform, isCall]
    intro known
    rcases performed_changeUser isChange with ⟨missing, _⟩ | ⟨user, found, performs⟩
    · exact absurd missing known
    · apply (inserted performs).accountIds
      rw [User.addAccount]
      split_ifs with already
      · exact already
      · exact List.mem_append_right _ (List.mem_singleton.mpr rfl)
  | unbindAccount userId accountId =>
    have isChange : timed.perform system.manager =
        unbindAccount userId accountId timed.changedAt system.manager := by
      rw [TimedCall.perform, isCall]
    intro user isUser
    rcases performed_changeUser isChange with ⟨missing, _⟩ | ⟨other, found, performs⟩
    · rw [isUser] at missing
      cases missing
    · rw [isUser] at found
      cases found
      -- the log gives the manager before the call and the one after it
      have noMore : more = [] := by
        rw [performs] at isMore
        exact List.map_eq_nil_iff.mp isMore
      have same := survives.restored logged
      rw [noMore, List.append_nil, mirrors.restored] at same
      have sameUser := congrFun (congrArg KeptManager.users same) userId
      change (system.manager.users.get userId).map User.kept =
        ((system.performed timed).1.users.get userId).map User.kept at sameUser
      have sameId : (user.removeAccount accountId timed.changedAt.timestamp).userId = userId :=
        (get_eq_some.mp isUser).2
      rw [isUser, performs, get_insert, if_pos sameId, Option.map_some,
        Option.map_some, Option.some_inj] at sameUser
      have sameAccounts : user.accountIds = user.accountIds.filter fun id => id ≠ accountId :=
        congrArg KeptUser.accountIds sameUser
      rw [sameAccounts]
      simp
  | freezeUser userId =>
    have isChange : timed.perform system.manager =
        freezeUser userId timed.changedAt system.manager := by
      rw [TimedCall.perform, isCall]
    rcases performed_changeUser isChange with ⟨missing, _⟩ | ⟨user, _, performs⟩
    · exact missing
    · have active := (inserted performs).status
      cases active
  | unfreezeUser userId => trivial
  | addUserRole userId role => trivial
  | removeUserRole userId role =>
    have isChange : timed.perform system.manager =
        removeUserRole userId role timed.changedAt timed.loggedAt system.manager := by
      rw [TimedCall.perform, isCall]
    intro user isUser
    rcases performed_changeUser isChange with ⟨missing, _⟩ | ⟨other, found, performs⟩
    · rw [isUser] at missing
      cases missing
    · rw [isUser] at found
      cases found
      rcases List.exists_mem_of_ne_nil _ (inserted performs).roles with ⟨kept, member⟩
      rcases List.mem_filter.mp member with ⟨member, different⟩
      exact ⟨kept, member, by simpa using different⟩
  | setUserRoles userId roles =>
    have isChange : timed.perform system.manager =
        setUserRoles userId roles timed.changedAt timed.loggedAt system.manager := by
      rw [TimedCall.perform, isCall]
    intro known
    rcases performed_changeUser isChange with ⟨missing, _⟩ | ⟨user, _, performs⟩
    · exact absurd missing known
    · exact (inserted performs).roles

/-- In a run on a new storage whose texts fit and whose records are written, with a clock
that does not go back, the users survive a restart at any time if and only if no account is
removed from a user, no user is frozen, no user loses all roles, and no text that is logged
looks like another one in its array. -/
theorem survives_throughout_iff {codec : EntryCodec UserRecord} (roundTrip : codec.RoundTrip)
    {config : OltpHybridConfig} {seconds : ℤ} {storage : OltpHybridStorage UserRecord}
    (isCreated : create codec UserRecord.clock config [] .empty .empty seconds = .ok storage)
    (readsMetadata : ReadsMetadata UserRecord) (clock : ClockReading) {calls : List TimedCall}
    (meets : Along (step codec) (Meets codec) calls (.new storage clock)) :
    (∀ first, first <+: calls →
        (first.foldl (step codec) (.new storage clock)).Survives readsMetadata) ↔
      Along (step codec) (fun system timed => timed.call.Obeys system.manager) calls
        (.new storage clock) := by
  let invariant : UserSystem → Prop := fun system => ∃ records : List (ℕ × UserRecord),
    system.Logged codec records ∧ system.Mirrors (records.map Prod.snd)
  have start : invariant (.new storage clock) :=
    ⟨[], .new roundTrip isCreated clock, .new storage clock⟩
  have survivesNow : ∀ system, invariant system → system.Survives readsMetadata := by
    rintro system ⟨records, logged, mirrors⟩
    exact logged.survives mirrors readsMetadata
  have keeps : ∀ system timed, invariant system → Meets codec system timed →
      timed.call.Obeys system.manager → invariant (system.step codec timed) := by
    rintro system timed ⟨records, logged, mirrors⟩ isMet obeys
    rcases logged.step isMet.inTime isMet.written with ⟨more, still, isMore⟩
    refine ⟨records ++ more, still, ?_⟩
    rw [List.map_append, isMore]
    exact mirrors.step isMet obeys
  have same : ∀ system timed, invariant system → Meets codec system timed →
      ((system.step codec timed).Survives readsMetadata ↔ timed.call.Obeys system.manager) := by
    rintro system timed ⟨records, logged, mirrors⟩ isMet
    constructor
    · intro survives
      rcases logged.step isMet.inTime isMet.written with ⟨more, still, isMore⟩
      exact obeys_of_survives mirrors still isMore survives
    · intro obeys
      exact survivesNow _ (keeps system timed ⟨records, logged, mirrors⟩ isMet obeys)
  apply (forall_reached_iff calls (survivesNow _ start)).trans
  apply along_congr_of_along invariant same _ meets start
  intro system timed holds isMet survives
  exact keeps system timed holds isMet ((same system timed holds isMet).mp survives)

/-! ## Small runs -/

def readingAt (seconds : Fin 1000) : ClockReading := ⟨seconds * 10 ^ 9, by omega⟩

def timedAt (seconds : Fin 1000) (call : UserCall) : TimedCall :=
  ⟨call, readingAt seconds, readingAt seconds, readingAt seconds⟩

def aliceRequest : UserRegisterRequest where
  username := "alice"
  password := "secret"
  phone := some "138"
  email := none
  realName := none
  idCard := none

def aliceCalls : List TimedCall :=
  [timedAt 1 (.register aliceRequest "u1" (.ok "hash")), timedAt 2 (.bindAccount "u1" "a1")]

def aliceCodec : EntryCodec UserRecord :=
  tableCodec [
    ⟨1, 0, 10 ^ 9, .UserRegister (toFixedArray 40 "u1")
      (toFixedArray 32 "alice") (toFixedArray 64 "hash")
      (toFixedArray 16 "138") (zeros 32) (readingAt 1).timestamp 128⟩,
    ⟨2, 0, 2 * 10 ^ 9, .AccountBind (toFixedArray 40 "u1")
      (toFixedArray 40 "a1") (readingAt 2).timestampNanos⟩,
    ⟨3, 0, 3 * 10 ^ 9, .UserRoleUpdate (toFixedArray 40 "u1") 130
      (readingAt 3).timestamp⟩]

def newStorage : OltpHybridStorage UserRecord :=
  created (WalManager.new aliceCodec [] 0) (.new ⟨256, 256⟩) ⟨256, 256⟩ .empty .empty

/-- The account and one more role survive. -/
theorem loggedChanges_survive :
    ((aliceCalls ++ [timedAt 3 (.addUserRole "u1" .Analyst),
      timedAt 4 (.unfreezeUser "u1")]).foldl (step aliceCodec)
        (.new newStorage (readingAt 0))).Survives (fun _ _ => .ok []) := by
  have isCreated : create aliceCodec UserRecord.clock ⟨256, 256⟩ [] .empty .empty 0 =
      .ok newStorage := by
    decide +kernel
  apply (survives_throughout_iff (tableCodec_roundTrip _) isCreated (fun _ _ => .ok [])
    (readingAt 0) (by decide +kernel)).mpr _ _ (List.prefix_refl _)
  refine ⟨fun _ => ⟨?_, ?_, ?_⟩, fun _ => ?_, trivial, trivial, trivial⟩
  · decide
  · decide
  · decide
  · decide

/-- An account that was removed comes back. -/
theorem removedAccount_returns :
    Along (step aliceCodec) (Meets aliceCodec)
      (aliceCalls ++ [timedAt 3 (.unbindAccount "u1" "a1")]) (.new newStorage (readingAt 0)) ∧
    ¬ ∀ readsMetadata, ((aliceCalls ++ [timedAt 3 (.unbindAccount "u1" "a1")]).foldl
      (step aliceCodec) (.new newStorage (readingAt 0))).Survives readsMetadata := by
  refine ⟨by decide +kernel, ?_⟩
  intro survives
  rcases survives (fun _ _ => .ok []) .asIs (readingAt 4) (by decide) with
    ⟨stats, recovered, found, same⟩
  have accounts : (recoverAllUsers (fun _ _ => .ok []) .asIs (readingAt 4)
      ((aliceCalls ++ [timedAt 3 (.unbindAccount "u1" "a1")]).foldl (step aliceCodec)
        (.new newStorage (readingAt 0))).storage .new).map
          (fun result => (result.2.users.get "u1").map User.accountIds) = .ok (some ["a1"]) := by
    decide +kernel
  have removed : (((aliceCalls ++ [timedAt 3 (.unbindAccount "u1" "a1")]).foldl (step aliceCodec)
      (.new newStorage (readingAt 0))).manager.users.get "u1").map User.accountIds =
        some [] := by
    decide +kernel
  have sameUser := congrFun (congrArg KeptManager.users same) "u1"
  have sameAccounts := congrArg (Option.map KeptUser.accountIds) sameUser
  simp only [UserManager.kept, Option.map_map] at sameAccounts
  change (recovered.users.get "u1").map User.accountIds = Option.map User.accountIds _
    at sameAccounts
  rw [removed] at sameAccounts
  rw [found] at accounts
  change Except.ok ((recovered.users.get "u1").map User.accountIds) = _ at accounts
  rw [sameAccounts] at accounts
  cases accounts

end UserSystem

end QAExchange.Users
