import QAExchange.Users.UserIndexes
import QAExchange.Users.UserLog

/-! # Users from a log

Recovery inserts the users that the log makes into a new manager, and then their accounts.
-/

namespace QAExchange.Users

open Foundation OltpHybridStorage UserManager UserRecovery KeyedRows

structure KeptUser where
  userId : String
  username : String
  passwordHash : String
  phone : Option String
  email : Option String
  accountIds : List String
  roles : Finset UserRole
  status : UserStatus

def User.kept (user : User) : KeptUser where
  userId := user.userId
  username := user.username
  passwordHash := user.passwordHash
  phone := user.phone
  email := user.email
  accountIds := user.accountIds
  roles := user.roles.toFinset
  status := user.status

structure KeptManager where
  users : String → Option KeptUser
  usernameIndex : String → Option String
  phoneIndex : String → Option String
  emailIndex : String → Option String

def UserManager.kept (manager : UserManager) : KeptManager where
  users := fun userId => (manager.users.get userId).map User.kept
  usernameIndex := manager.usernameIndex
  phoneIndex := manager.phoneIndex
  emailIndex := manager.emailIndex

def UserSystem.Survives (readsMetadata : ReadsMetadata UserRecord) (system : UserSystem) : Prop :=
  ∀ (order : IterationOrder) (now : ClockReading), system.clock.nanos ≤ now.nanos →
    ∃ stats recovered,
      recoverAllUsers readsMetadata order now system.storage .new = .ok (stats, recovered) ∧
        recovered.kept = system.manager.kept

/-! ## Texts of the log -/

/-- The text does not end like the filling of an array. -/
def Marked (text : String) : Prop := text.toList.getLast? ≠ some (Char.ofNat 0)

instance (text : String) : Decidable (Marked text) := inferInstanceAs (Decidable (_ ≠ _))

def Present (text : String) : Prop := Marked text ∧ text ≠ ""

instance (text : String) : Decidable (Present text) := inferInstanceAs (Decidable (_ ∧ _))

theorem marked_fromFixedArray (array : FixedArray length) :
    Marked (WalRecord.fromFixedArray array) := by
  rw [Marked, WalRecord.fromFixedArray, Ipc.trimEndZeros]
  generalize (fromUtf8Lossy array.bytes).toList.reverse = chars
  rw [String.toList_ofList, List.getLast?_reverse]
  intro isZero
  have kept := List.head?_dropWhile_not (fun char => decide (char = Char.ofNat 0)) chars
  rw [isZero] at kept
  simp at kept

theorem fromFixedArray_zeros (length : ℕ) : WalRecord.fromFixedArray (zeros length) = "" := by
  have same : zeros length = WalRecord.toFixedArray length "" := by
    rw [zeros, WalRecord.toFixedArray]
    congr 1
    change _ = (([] : List UInt8) ++ List.replicate length 0).take length
    rw [List.nil_append, List.take_of_length_le (by simp)]
  rw [same, WalRecord.fromFixedArray_toFixedArray]
  exact ⟨Nat.zero_le _, by simp⟩

theorem nonEmpty_logged (fits : ∀ text ∈ value, text.utf8ByteSize ≤ length)
    (present : ∀ text ∈ value, Present text) :
    nonEmpty (WalRecord.fromFixedArray
      ((value.map (WalRecord.toFixedArray length)).getD (zeros length))) = value := by
  cases value with
  | none =>
    rw [Option.map_none, Option.getD_none, fromFixedArray_zeros]
    rfl
  | some text =>
    have isPresent := present text rfl
    rw [Option.map_some, Option.getD_some,
      WalRecord.fromFixedArray_toFixedArray ⟨fits text rfl, isPresent.1⟩, nonEmpty, if_neg]
    simpa using isPresent.2

theorem present_nonEmpty (marked : Marked value) (isText : nonEmpty value = some text) :
    Present text := by
  rw [nonEmpty] at isText
  split_ifs at isText with isEmpty
  cases isText
  refine ⟨marked, ?_⟩
  simpa using isEmpty

/-! ## What recovery can give -/

structure Restorable (user : User) : Prop where
  username : Marked user.username
  phone : ∀ phone ∈ user.phone, Present phone
  email : ∀ email ∈ user.email, Present email
  accountIds : ∀ accountId ∈ user.accountIds, Marked accountId
  roles : user.roles ≠ []
  status : user.status = .Active

theorem restorable_registeredUser (userId passwordHash : String) (marked : Marked username)
    (phoneMarked : Marked phone) (emailMarked : Marked email) (createdAt : Timestamp)
    (rolesBitmask : UInt8) :
    Restorable (registeredUser userId username passwordHash phone email createdAt
      rolesBitmask) where
  username := marked
  phone _ isText := present_nonEmpty phoneMarked isText
  email _ isText := present_nonEmpty emailMarked isText
  accountIds accountId member := by
    cases member
  roles := UserRole.fromBitmask_ne_nil rolesBitmask
  status := rfl

variable {users : KeyedRows User.userId}

theorem restorable_insert (restorable : ∀ user ∈ users.rows, Restorable user) {user : User}
    (isUser : Restorable user) : ∀ other ∈ (users.insert user).rows, Restorable other := by
  intro other member
  rcases mem_insert.mp member with rfl | ⟨old, _⟩
  · exact isUser
  · exact restorable other old

theorem restorable_replayUser (restorable : ∀ user ∈ users.rows, Restorable user)
    (record : UserRecord) : ∀ user ∈ (replayUser users record).rows, Restorable user := by
  cases record with
  | AccountBind userId accountId timestamp => exact restorable
  | UserRegister userId username passwordHash phone email createdAt rolesBitmask =>
    have inserted := restorable_insert restorable (restorable_registeredUser
      (WalRecord.fromFixedArray userId) (WalRecord.fromFixedArray passwordHash)
      (marked_fromFixedArray username) (marked_fromFixedArray phone)
      (marked_fromFixedArray email) createdAt rolesBitmask)
    rw [replayUser]
    split
    · split_ifs
      · exact inserted
      · exact restorable
    · exact inserted
  | UserRoleUpdate userId rolesBitmask timestamp =>
    rw [replayUser]
    split
    · rename_i found isFound
      have isOld := restorable found (get_eq_some.mp isFound).1
      split_ifs
      · apply restorable_insert restorable
        exact { isOld with roles := UserRole.fromBitmask_ne_nil _ }
      · exact restorable
    · exact restorable

theorem restorable_bind (restorable : ∀ user ∈ users.rows, Restorable user) {pair : String × String}
    (marked : Marked pair.2) : ∀ user ∈ (bind users pair).rows, Restorable user := by
  rw [UserRecovery.bind]
  split
  · rename_i found isFound
    have isOld := restorable found (get_eq_some.mp isFound).1
    split_ifs
    · exact restorable
    · apply restorable_insert restorable
      refine { isOld with accountIds := ?_ }
      intro accountId isAccount
      rcases List.mem_append.mp isAccount with old | isAdded
      · exact isOld.accountIds accountId old
      · rw [List.mem_singleton.mp isAdded]
        exact marked
  · exact restorable

theorem mem_foldl_insertUser {users : List User} {manager : UserManager} (member : user ∈
      (users.foldl (fun manager user => manager.insertUser user) manager).users.rows) :
    user ∈ users ∨ user ∈ manager.users.rows := by
  induction users generalizing manager with
  | nil => exact .inr member
  | cons first users induction =>
    rcases induction member with later | inserted
    · exact .inl (List.mem_cons_of_mem _ later)
    · rcases mem_insert.mp inserted with rfl | ⟨old, _⟩
      · exact .inl List.mem_cons_self
      · exact .inr old

theorem marked_of_binding (isBinding : binding record = some pair) : Marked pair.2 := by
  cases record with
  | UserRegister => cases isBinding
  | UserRoleUpdate => cases isBinding
  | AccountBind userId accountId timestamp =>
    cases isBinding
    exact marked_fromFixedArray accountId

theorem restorable_restore (order : IterationOrder) (log : List UserRecord) :
    ∀ user ∈ (restore order log .new).users.rows, Restorable user := by
  have replayed : ∀ user ∈ (log.foldl replayUser .empty).rows, Restorable user := by
    apply foldl_invariant (fun users : KeyedRows User.userId =>
      ∀ user ∈ users.rows, Restorable user)
    · intro users record restorable
      exact restorable_replayUser restorable record
    · intro user member
      cases member
  have bindings : ∀ (pairs : List (String × String)) (users : KeyedRows User.userId),
      (∀ pair ∈ pairs, Marked pair.2) → (∀ user ∈ users.rows, Restorable user) →
        ∀ user ∈ (pairs.foldl bind users).rows, Restorable user := by
    intro pairs
    induction pairs with
    | nil =>
      intro users _ restorable
      exact restorable
    | cons pair pairs induction =>
      intro users marked restorable
      apply induction
      · intro other later
        exact marked other (List.mem_cons_of_mem _ later)
      · exact restorable_bind restorable (marked pair List.mem_cons_self)
  apply bindings
  · intro pair member
    rcases List.mem_filterMap.mp member with ⟨record, _, isBinding⟩
    exact marked_of_binding isBinding
  · intro user member
    rcases mem_foldl_insertUser member with inserted | none
    · rcases List.mem_filterMap.mp inserted with ⟨userId, _, isUser⟩
      exact replayed user (get_eq_some.mp isUser).1
    · cases none

/-! ## What recovery gives -/

/-- The users of the log, without their accounts. -/
def replay (log : List UserRecord) : KeyedRows User.userId := log.foldl replayUser .empty

theorem replay_append (log more : List UserRecord) :
    replay (log ++ more) = more.foldl replayUser (replay log) :=
  List.foldl_append

def withAccount (accountIds : List String) (accountId : String) : List String :=
  if accountId ∈ accountIds then accountIds else accountIds ++ [accountId]

/-- The list after the accounts are bound that belong to a user. -/
def accountsAfter (accountIds : List String) (userId : String) (pairs : List (String × String)) :
    List String :=
  ((pairs.filter fun pair => pair.1 = userId).map Prod.snd).foldl withAccount accountIds

theorem accountsAfter_concat (accountIds : List String) (userId : String)
    (pairs : List (String × String)) (pair : String × String) :
    accountsAfter accountIds userId (pairs ++ [pair]) =
      if pair.1 = userId then withAccount (accountsAfter accountIds userId pairs) pair.2
      else accountsAfter accountIds userId pairs := by
  rw [accountsAfter, List.filter_append, List.map_append, List.foldl_append]
  split_ifs with own
  · rw [List.filter_cons_of_pos (by simpa using own)]
    rfl
  · rw [List.filter_cons_of_neg (by simpa using own)]
    rfl

theorem get_bind (users : KeyedRows User.userId) (pair : String × String) (userId : String) :
    (UserRecovery.bind users pair).get userId = (users.get userId).map fun user =>
      { user with accountIds :=
          if pair.1 = userId then withAccount user.accountIds pair.2 else user.accountIds } := by
  rw [UserRecovery.bind]
  cases found : users.get pair.1 with
  | none =>
    by_cases own : pair.1 = userId
    · rw [← own, found]
      rfl
    · simp [own]
  | some user =>
    dsimp only
    have isUser : user.userId = pair.1 := (get_eq_some.mp found).2
    by_cases own : pair.1 = userId
    · rw [own] at isUser found
      rw [found]
      split_ifs with already
      · rw [found, Option.map_some, withAccount, if_pos already]
      · rw [get_insert, if_pos isUser, Option.map_some, withAccount, if_neg already]
    · have other : user.userId ≠ userId := fun same => own (isUser.symm.trans same)
      split_ifs
      · simp
      · rw [get_insert, if_neg other]
        simp

theorem get_foldl_bind (pairs : List (String × String)) (users : KeyedRows User.userId)
    (userId : String) : (pairs.foldl UserRecovery.bind users).get userId =
      (users.get userId).map fun user =>
        { user with accountIds := accountsAfter user.accountIds userId pairs } := by
  induction pairs generalizing users with
  | nil => simp [accountsAfter]
  | cons pair pairs induction =>
    rw [List.foldl_cons, induction, get_bind, Option.map_map]
    congr 1
    funext user
    by_cases own : pair.1 = userId
    · simp [accountsAfter, own]
    · simp [accountsAfter, own]

theorem foldl_insertUser {users : List User} {manager : UserManager} (indexed : manager.Indexed)
    (apart : users.Pairwise Apart)
    (fresh : ∀ user ∈ users, ∀ other ∈ manager.users.rows, Apart user other) :
    (users.foldl (fun manager user => manager.insertUser user) manager).Indexed ∧
      ∀ user, user ∈ (users.foldl (fun manager user => manager.insertUser user) manager).users.rows ↔
        user ∈ users ∨ user ∈ manager.users.rows := by
  induction users generalizing manager with
  | nil => exact ⟨indexed, fun user => by simp⟩
  | cons first users induction =>
    rcases List.pairwise_cons.mp apart with ⟨firstApart, restApart⟩
    have firstFresh := fresh first List.mem_cons_self
    have members : ∀ user, user ∈ (manager.insertUser first).users.rows ↔
        user = first ∨ user ∈ manager.users.rows := by
      intro user
      apply mem_insert.trans
      constructor
      · exact Or.imp_right And.left
      · exact Or.imp_right fun old => ⟨old, (firstFresh user old).userId.symm⟩
    have rest := induction (indexed.insertUser firstFresh) restApart (by
      intro user isUser other isOther
      rcases (members other).mp isOther with rfl | old
      · exact (firstApart user isUser).symm
      · exact fresh user (List.mem_cons_of_mem _ isUser) other old)
    refine ⟨rest.1, ?_⟩
    intro user
    rw [List.foldl_cons, rest.2, members, List.mem_cons]
    tauto

theorem restore_spec (order : IterationOrder) {log : List UserRecord}
    (apart : ∀ left ∈ (replay log).rows, ∀ right ∈ (replay log).rows,
      left.userId ≠ right.userId → Apart left right) :
    (∀ userId, (restore order log .new).users.get userId = ((replay log).get userId).map
      fun user => { user with
        accountIds := accountsAfter user.accountIds userId (log.filterMap binding) }) ∧
      Indexes (fun user => some user.username) (restore order log .new).usernameIndex
        (replay log).rows ∧
      Indexes User.phone (restore order log .new).phoneIndex (replay log).rows ∧
      Indexes User.email (restore order log .new).emailIndex (replay log).rows := by
  let keys := order.arrange ((replay log).rows.map User.userId)
  let users := keys.filterMap (replay log).get
  let inserted := users.foldl (fun manager user => manager.insertUser user) UserManager.new
  have keysOnce : keys.Nodup := by
    apply (order.perm _).nodup_iff.mpr
    rw [List.Nodup, List.pairwise_map]
    exact (replay log).sorted.imp fun smaller => ne_of_lt smaller
  have members : ∀ user, user ∈ users ↔ user ∈ (replay log).rows := by
    intro user
    rw [List.mem_filterMap]
    constructor
    · rintro ⟨userId, _, found⟩
      exact (get_eq_some.mp found).1
    · intro member
      refine ⟨user.userId, ?_, get_eq_some.mpr ⟨member, rfl⟩⟩
      exact (order.perm _).mem_iff.mpr (List.mem_map_of_mem member)
  have usersApart : users.Pairwise Apart := by
    have distinct : users.Pairwise fun left right => left.userId ≠ right.userId := by
      rw [List.pairwise_filterMap]
      apply keysOnce.imp
      intro first second different left isLeft right isRight
      rw [(get_eq_some.mp isLeft).2, (get_eq_some.mp isRight).2]
      exact different
    apply distinct.imp_of_mem
    intro left right isLeft isRight different
    exact apart left ((members left).mp isLeft) right ((members right).mp isRight) different
  have spec := foldl_insertUser UserManager.Indexed.new usersApart (by
    intro user _ other isOther
    cases isOther)
  have sameRows : ∀ user, user ∈ (replay log).rows ↔ user ∈ inserted.users.rows := by
    intro user
    rw [spec.2, members]
    simp [UserManager.new]
  have sameUsers : inserted.users = replay log := by
    have rows := eq_of_sorted User.userId (replay log).sorted inserted.users.sorted sameRows
    cases isInserted : inserted.users
    cases isReplay : replay log
    simp_all
  refine ⟨?_, spec.1.usernames.congr sameRows, spec.1.phones.congr sameRows,
    spec.1.emails.congr sameRows⟩
  intro userId
  change ((log.filterMap binding).foldl UserRecovery.bind inserted.users).get userId = _
  rw [get_foldl_bind, sameUsers]

/-- Recovery only depends on the order within each kind of records. -/
theorem restore_congr (order : IterationOrder) {log other : List UserRecord}
    (same : ∀ kind, log.filter (fun record => record.isBind = kind) =
      other.filter fun record => record.isBind = kind) (manager : UserManager) :
    restore order log manager = restore order other manager := by
  have users : ∀ (records : List UserRecord) (start : KeyedRows User.userId),
      records.foldl replayUser start =
        (records.filter fun record => record.isBind = false).foldl replayUser start := by
    intro records
    induction records with
    | nil => exact fun _ => rfl
    | cons record records induction =>
      intro start
      cases record with
      | AccountBind userId accountId timestamp => exact induction start
      | UserRegister => exact induction _
      | UserRoleUpdate => exact induction _
  have bindings : ∀ records : List UserRecord, records.filterMap binding =
      (records.filter fun record => record.isBind = true).filterMap binding := by
    intro records
    induction records with
    | nil => rfl
    | cons record records induction =>
      cases record with
      | AccountBind userId accountId timestamp =>
        rw [List.filter_cons_of_pos rfl, List.filterMap_cons, List.filterMap_cons, induction]
      | UserRegister => exact induction
      | UserRoleUpdate => exact induction
  rw [restore, restore, users log, users other, bindings log, bindings other, same, same]

theorem UserSystem.Logged.recoverAllUsers {system : UserSystem}
    (logged : system.Logged codec records) (readsMetadata : ReadsMetadata UserRecord)
    (order : IterationOrder) {now : ClockReading} (later : system.clock.nanos ≤ now.nanos) :
    ∃ stats, UserRecovery.recoverAllUsers readsMetadata order now system.storage .new =
      .ok (stats, restore order (records.map Prod.snd) .new) := by
  rcases logged.reads readsMetadata later with ⟨rows, found, kinds⟩
  refine ⟨stats (rows.map MemTableEntry.record), ?_⟩
  rw [UserRecovery.recoverAllUsers, recoverUsers, found, ← restore_congr order kinds]
  rfl

/-! ## The log and the manager -/

structure Mirrored (limit : ℤ) (logged user : User) : Prop where
  kept : logged.kept = { user.kept with accountIds := [] }
  active : user.status = .Active
  updated : logged.updatedAt.val ≤ limit

structure UserSystem.Mirrors (system : UserSystem) (log : List UserRecord) : Prop where
  users : ∀ userId, Option.Rel (Mirrored system.clock.timestamp.val) ((replay log).get userId)
    (system.manager.users.get userId)
  accounts : ∀ user ∈ system.manager.users.rows,
    user.accountIds = accountsAfter [] user.userId (log.filterMap binding)
  known : ∀ pair ∈ log.filterMap binding, system.manager.users.get pair.1 ≠ none
  indexed : system.manager.Indexed
  fits : ∀ user ∈ system.manager.users.rows, WalRecord.Fits 40 user.userId

namespace UserSystem.Mirrors

variable {system : UserSystem} {log : List UserRecord}

theorem new (storage : OltpHybridStorage UserRecord) (clock : ClockReading) :
    (UserSystem.new storage clock).Mirrors [] where
  users _ := .none
  accounts _ member := by cases member
  known _ member := by cases member
  indexed := .new
  fits _ member := by cases member

section

variable (mirrors : system.Mirrors log)
include mirrors

theorem exists_user (member : logged ∈ (replay log).rows) :
    ∃ user ∈ system.manager.users.rows,
      user.userId = logged.userId ∧ Mirrored system.clock.timestamp.val logged user := by
  have rel := mirrors.users logged.userId
  rw [get_eq_some.mpr ⟨member, rfl⟩] at rel
  cases found : system.manager.users.get logged.userId with
  | none =>
    rw [found] at rel
    cases rel
  | some user =>
    rw [found] at rel
    rcases get_eq_some.mp found with ⟨isUser, same⟩
    cases rel with
    | some mirrored => exact ⟨user, isUser, same, mirrored⟩

theorem exists_logged {user : User} (member : user ∈ system.manager.users.rows) :
    ∃ logged ∈ (replay log).rows, (replay log).get user.userId = some logged ∧
        Mirrored system.clock.timestamp.val logged user := by
  have rel := mirrors.users user.userId
  rw [get_eq_some.mpr ⟨member, rfl⟩] at rel
  cases found : (replay log).get user.userId with
  | none =>
    rw [found] at rel
    cases rel
  | some logged =>
    rw [found] at rel
    cases rel with
    | some mirrored => exact ⟨logged, (get_eq_some.mp found).1, rfl, mirrored⟩

theorem apart : ∀ left ∈ (replay log).rows,
    ∀ right ∈ (replay log).rows, left.userId ≠ right.userId → Apart left right := by
  intro left isLeft right isRight different
  rcases mirrors.exists_user isLeft with ⟨first, isFirst, firstId, firstMirrored⟩
  rcases mirrors.exists_user isRight with ⟨second, isSecond, secondId, secondMirrored⟩
  have apart := mirrors.indexed.apart isFirst isSecond (by rwa [firstId, secondId])
  have left' := firstMirrored.kept
  have right' := secondMirrored.kept
  simp only [User.kept, KeptUser.mk.injEq] at left' right'
  constructor
  · exact different
  · rw [left'.2.1, right'.2.1]
    exact apart.username
  · rw [left'.2.2.2.1, right'.2.2.2.1]
    exact apart.phone
  · rw [left'.2.2.2.2.1, right'.2.2.2.2.1]
    exact apart.email

theorem sameValues {field : User → Option String} (keptField : KeptUser → Option String)
    (isField : ∀ user, field user = keptField user.kept)
    (noAccounts : ∀ user, keptField { user with accountIds := [] } = keptField user)
    (userId value : String) :
    (∃ user ∈ system.manager.users.rows, user.userId = userId ∧ field user = some value) ↔
      ∃ user ∈ (replay log).rows, user.userId = userId ∧ field user = some value := by
  have same : ∀ {logged user : User}, Mirrored system.clock.timestamp.val logged user →
      field logged = field user := by
    intro logged user mirrored
    rw [isField, isField, mirrored.kept, noAccounts]
  constructor
  · rintro ⟨user, member, rfl, isValue⟩
    rcases mirrors.exists_logged member with ⟨logged, isLogged, found, mirrored⟩
    exact ⟨logged, isLogged, (get_eq_some.mp found).2, (same mirrored).trans isValue⟩
  · rintro ⟨logged, member, rfl, isValue⟩
    rcases mirrors.exists_user member with ⟨user, isUser, sameId, mirrored⟩
    exact ⟨user, isUser, sameId, (same mirrored).symm.trans isValue⟩

theorem restored (order : IterationOrder) :
    (restore order log .new).kept = system.manager.kept := by
  rcases restore_spec order mirrors.apart with ⟨users, usernames, phones, emails⟩
  have isUsers : (restore order log .new).kept.users = system.manager.kept.users := by
    funext userId
    change ((restore order log .new).users.get userId).map User.kept =
      (system.manager.users.get userId).map User.kept
    rw [users, Option.map_map]
    have rel := mirrors.users userId
    cases found : system.manager.users.get userId with
    | none =>
      rw [found] at rel
      cases isLogged : (replay log).get userId with
      | none => rfl
      | some logged =>
        rw [isLogged] at rel
        cases rel
    | some user =>
      rcases get_eq_some.mp found with ⟨member, rfl⟩
      rcases mirrors.exists_logged member with ⟨logged, _, isLogged, mirrored⟩
      have accounts := mirrors.accounts user member
      have kept := mirrored.kept
      simp only [User.kept, KeptUser.mk.injEq] at kept
      rw [isLogged, Option.map_some, Option.map_some]
      congr 1
      simp only [Function.comp_apply, User.kept, KeptUser.mk.injEq]
      rw [kept.2.2.2.2.2.1, accounts]
      simp [kept]
  have isUsername := mirrors.indexed.usernames.eq usernames fun userId value =>
    (mirrors.sameValues (fun user => some user.username) (fun _ => rfl) (fun _ => rfl)
      userId value).symm
  have isPhone := mirrors.indexed.phones.eq phones fun userId value =>
    (mirrors.sameValues KeptUser.phone (fun _ => rfl) (fun _ => rfl) userId value).symm
  have isEmail := mirrors.indexed.emails.eq emails fun userId value =>
    (mirrors.sameValues KeptUser.email (fun _ => rfl) (fun _ => rfl) userId value).symm
  rw [UserManager.kept, UserManager.kept, KeptManager.mk.injEq]
  exact ⟨isUsers, isUsername, isPhone, isEmail⟩

end

end UserSystem.Mirrors

end QAExchange.Users
