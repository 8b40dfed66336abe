import QAExchange.Users.Registration

/-! # Unique registration

Registrations that run side by side keep the names unique as long as what a call has found
is still so when it inserts its user.
-/

namespace QAExchange.Users

open Foundation UserManager

/-- No name is used twice, the indexes are those of the users, and one user founded the
system. -/
structure UniquelyRegistered (manager : UserManager) : Prop where
  apart : ∀ left ∈ manager.users.rows, ∀ right ∈ manager.users.rows, left ≠ right →
    Apart left right
  indexed : manager.Indexed
  founder : manager.users.rows ≠ [] →
    ∃! user, user ∈ manager.users.rows ∧ UserRole.Admin ∈ user.roles

/-- No user has the name, the phone or the email, and who is to be the first user is the
first. -/
def Clear (manager : UserManager) (user : User) : Prop :=
  (∀ other ∈ manager.users.rows, user.username ≠ other.username ∧
    (∀ phone ∈ user.phone, other.phone ≠ some phone) ∧
    ∀ email ∈ user.email, other.email ≠ some email) ∧
  (UserRole.Admin ∈ user.roles → manager.users.rows = [])

instance (manager : UserManager) (user : User) : Decidable (Clear manager user) :=
  inferInstanceAs (Decidable ((∀ other ∈ manager.users.rows, _ ∧ _ ∧ _) ∧ (_ → _)))

def RegisterTask.StillClear (manager : UserManager) (task : RegisterTask) : Prop :=
  match task.stage with
  | .insertUser user => Clear manager user
  | .checkUsername | .checkPhone | .checkEmail | .hashPassword | .testEmpty _ | .indexUsername _
  | .indexPhone _ | .indexEmail _ | .done _ => True

instance (manager : UserManager) (task : RegisterTask) : Decidable (task.StillClear manager) := by
  unfold RegisterTask.StillClear
  split <;> infer_instance

def RegisterPool.StillClear (pool : RegisterPool) (index : ℕ) : Prop :=
  ∀ task ∈ pool.tasks[index]?, task.StillClear pool.shared

instance (pool : RegisterPool) (index : ℕ) : Decidable (pool.StillClear index) :=
  inferInstanceAs (Decidable (∀ task ∈ pool.tasks[index]?, _))

/-! ## One step -/

namespace RegisterTask

def hasUsername (task : RegisterTask) : Option User :=
  match task.stage with
  | .indexPhone user | .indexEmail user | .done (.ok user) => some user
  | .checkUsername | .checkPhone | .checkEmail | .hashPassword | .testEmpty _ | .insertUser _
  | .indexUsername _ | .done (.error _) => none

def hasPhone (task : RegisterTask) : Option User :=
  match task.stage with
  | .indexEmail user | .done (.ok user) => some user
  | .checkUsername | .checkPhone | .checkEmail | .hashPassword | .testEmpty _ | .insertUser _
  | .indexUsername _ | .indexPhone _ | .done (.error _) => none

def hasEmail (task : RegisterTask) : Option User :=
  match task.stage with
  | .done (.ok user) => some user
  | .checkUsername | .checkPhone | .checkEmail | .hashPassword | .testEmpty _ | .insertUser _
  | .indexUsername _ | .indexPhone _ | .indexEmail _ | .done (.error _) => none

theorem Finished.indexed {task : RegisterTask} (finished : task.Finished) :
    task.hasUsername = task.inserted ∧ task.hasPhone = task.inserted ∧
      task.hasEmail = task.inserted := by
  rcases finished with ⟨result, isDone⟩
  rw [hasUsername, hasPhone, hasEmail, inserted, isDone]
  cases result with
  | ok user => exact ⟨rfl, rfl, rfl⟩
  | error error => exact ⟨rfl, rfl, rfl⟩

/-- The call does not change the manager in this step. -/
structure Quiet (manager : UserManager) (task after : RegisterTask) : Prop where
  call : after.call = task.call
  inserted : after.inserted = task.inserted
  username : after.hasUsername = task.hasUsername
  phone : after.hasPhone = task.hasPhone
  email : after.hasEmail = task.hasEmail
  requested : ∀ user, after.stage = .insertUser user → user.userId = after.call.uuid ∧
    (manager.users.rows = [] → UserRole.Admin ∈ user.roles)

theorem quiet_of_unstarted {manager : UserManager} {task : RegisterTask} {stage : RegisterStage}
    (unstarted : task.inserted = none) (notYet : RegisterTask.inserted ⟨task.call, stage⟩ = none)
    (requested : ∀ user, stage = .insertUser user → user.userId = task.call.uuid ∧
      (manager.users.rows = [] → UserRole.Admin ∈ user.roles)) :
    Quiet manager task { task with stage := stage } := by
  have none : ∀ other : RegisterTask, other.inserted = none →
      other.hasUsername = none ∧ other.hasPhone = none ∧ other.hasEmail = none := by
    intro other unstarted
    rw [inserted] at unstarted
    rw [hasUsername, hasPhone, hasEmail]
    split at unstarted <;> simp_all
  have before := none task unstarted
  have behind := none { task with stage := stage } notYet
  exact ⟨rfl, notYet.trans unstarted.symm, behind.1.trans before.1.symm,
    behind.2.1.trans before.2.1.symm, behind.2.2.trans before.2.2.symm, requested⟩

theorem advance_cases (manager : UserManager) (task : RegisterTask) :
    ((task.advance manager).2 = manager ∧ Quiet manager task (task.advance manager).1) ∨
    (∃ user, task.stage = .insertUser user ∧ task.advance manager =
      ({ task with stage := .indexUsername user },
        { manager with users := manager.users.insert user })) ∨
    (∃ user, task.stage = .indexUsername user ∧ task.advance manager =
      ({ task with stage := .indexPhone user }, { manager with
        usernameIndex := withIndex manager.usernameIndex (some user.username) user.userId })) ∨
    (∃ user, task.stage = .indexPhone user ∧ task.advance manager =
      ({ task with stage := .indexEmail user }, { manager with
        phoneIndex := withIndex manager.phoneIndex user.phone user.userId })) ∨
    ∃ user, task.stage = .indexEmail user ∧ task.advance manager =
      ({ task with stage := .done (.ok user) }, { manager with
        emailIndex := withIndex manager.emailIndex user.email user.userId }) := by
  rcases task with ⟨call, stage⟩
  have checked : ∀ {stage next : RegisterStage} (check : Except ExchangeError Unit),
      RegisterTask.inserted ⟨call, stage⟩ = none → RegisterTask.inserted ⟨call, next⟩ = none →
        (∀ user, next ≠ .insertUser user) →
          Quiet manager ⟨call, stage⟩ (RegisterTask.checked check next ⟨call, stage⟩) := by
    intro stage next check unstarted notYet otherwise
    cases check with
    | error error =>
      apply quiet_of_unstarted unstarted rfl
      intro user isInsert
      cases isInsert
    | ok value =>
      apply quiet_of_unstarted unstarted notYet
      intro user isInsert
      exact absurd isInsert (otherwise user)
  cases stage with
  | checkUsername => exact .inl ⟨rfl, checked _ rfl rfl (fun _ => by simp)⟩
  | checkPhone => exact .inl ⟨rfl, checked _ rfl rfl (fun _ => by simp)⟩
  | checkEmail => exact .inl ⟨rfl, checked _ rfl rfl (fun _ => by simp)⟩
  | hashPassword =>
    left
    rw [advance]
    dsimp only
    cases hashed call.hash with
    | error error =>
      refine ⟨rfl, quiet_of_unstarted rfl rfl ?_⟩
      intro user isInsert
      cases isInsert
    | ok passwordHash =>
      refine ⟨rfl, quiet_of_unstarted rfl rfl ?_⟩
      intro user isInsert
      cases isInsert
  | testEmpty passwordHash =>
    refine .inl ⟨rfl, quiet_of_unstarted rfl rfl ?_⟩
    intro user isInsert
    cases isInsert
    constructor
    · exact requestedUser_userId ..
    · intro empty
      rw [requestedUser_roles, empty]
      exact List.mem_singleton.mpr rfl
  | insertUser user => exact .inr (.inl ⟨user, rfl, rfl⟩)
  | indexUsername user => exact .inr (.inr (.inl ⟨user, rfl, rfl⟩))
  | indexPhone user => exact .inr (.inr (.inr (.inl ⟨user, rfl, rfl⟩)))
  | indexEmail user => exact .inr (.inr (.inr (.inr ⟨user, rfl, rfl⟩)))
  | done result =>
    refine .inl ⟨rfl, rfl, rfl, rfl, rfl, rfl, ?_⟩
    intro user isInsert
    cases isInsert

end RegisterTask

theorem RegisterPool.next_cases (pool : RegisterPool) (index : ℕ) :
    (∃ before task after, pool.tasks = before ++ task :: after ∧ pool.tasks[index]? = some task ∧
      pool.next index = ⟨(task.advance pool.shared).2,
        before ++ (task.advance pool.shared).1 :: after⟩) ∨
      pool.tasks[index]? = none ∧ pool.next index = pool := by
  rcases registration.next_cases pool (.step () index) with
    ⟨_, isCall, _⟩ | ⟨_, place, before, task, after, isStep, isPlace, split, same⟩ |
      ⟨_, _, isStep, none, same⟩
  · cases isCall
  · cases isStep
    refine .inl ⟨before, task, after, split, ?_, same⟩
    rw [split, ← isPlace]
    simp
  · cases isStep
    exact .inr ⟨none, same⟩

/-! ## What always holds -/

/-- The users are those that the calls have inserted, under the ids of the calls, and the
first of them is an admin. -/
structure Registering (pool : RegisterPool) : Prop where
  ids : (pool.tasks.map fun task => task.call.uuid).Nodup
  inserted : ∀ task ∈ pool.tasks, ∀ user, task.inserted = some user →
    user ∈ pool.shared.users.rows ∧ user.userId = task.call.uuid
  owned : ∀ user ∈ pool.shared.users.rows, ∃ task ∈ pool.tasks, task.inserted = some user
  requested : ∀ task ∈ pool.tasks, ∀ user, task.stage = .insertUser user →
    user.userId = task.call.uuid ∧
      (pool.shared.users.rows = [] → UserRole.Admin ∈ user.roles)
  founded : pool.shared.users.rows ≠ [] → ∃ user ∈ pool.shared.users.rows,
    UserRole.Admin ∈ user.roles

variable {task : RegisterTask} {before after : List RegisterTask}

theorem mem_middle : other ∈ before ++ task :: after ↔ other = task ∨ other ∈ before ++ after := by
  simp only [List.mem_append, List.mem_cons]
  tauto

namespace Registering

theorem new {calls : List RegisterCall} (distinct : (calls.map RegisterCall.uuid).Nodup) :
    Registering (.new calls) := by
  have unstarted : ∀ task ∈ (RegisterPool.new calls).tasks, ∃ call, task = .start call := by
    intro task member
    rcases List.mem_map.mp member with ⟨call, _, rfl⟩
    exact ⟨call, rfl⟩
  constructor
  · change ((calls.map registration.start).map _).Nodup
    rw [List.map_map]
    exact distinct
  · intro task member user isInserted
    rcases unstarted task member with ⟨call, rfl⟩
    cases isInserted
  · intro user member
    cases member
  · intro task member user isInsert
    rcases unstarted task member with ⟨call, rfl⟩
    cases isInsert
  · intro some
    exact absurd rfl some

variable {user : User}

theorem fresh (registering : Registering pool) (member : task ∈ pool.tasks)
    (isInsert : task.stage = .insertUser user) :
    ∀ other ∈ pool.shared.users.rows, user.userId ≠ other.userId := by
  intro other isOther same
  rcases registering.owned other isOther with ⟨owner, isTask, isInserted⟩
  have ids : owner.call.uuid = task.call.uuid :=
    (registering.inserted owner isTask other isInserted).2.symm.trans
      (same.symm.trans (registering.requested task member user isInsert).1)
  have isOwner := List.inj_on_of_nodup_map registering.ids isTask member ids
  rw [isOwner, RegisterTask.inserted, isInsert] at isInserted
  cases isInserted

theorem mem_insert (registering : Registering pool) (member : task ∈ pool.tasks)
    (isInsert : task.stage = .insertUser user) (other : User) :
    other ∈ (pool.shared.users.insert user).rows ↔
      other = user ∨ other ∈ pool.shared.users.rows := by
  apply KeyedRows.mem_insert.trans
  constructor
  · exact Or.imp_right And.left
  · exact Or.imp_right fun old => ⟨old, (registering.fresh member isInsert other old).symm⟩

theorem keep {moved : RegisterTask} {changed : UserManager}
    (registering : Registering ⟨manager, before ++ task :: after⟩)
    (users : changed.users = manager.users) (call : moved.call = task.call)
    (inserted : moved.inserted = task.inserted)
    (requested : ∀ user, moved.stage = .insertUser user → user.userId = moved.call.uuid ∧
      (manager.users.rows = [] → UserRole.Admin ∈ user.roles)) :
    Registering ⟨changed, before ++ moved :: after⟩ := by
  have isTask : task ∈ before ++ task :: after := mem_middle.mpr (.inl rfl)
  constructor
  · have ids := registering.ids
    simp only [List.map_append, List.map_cons, call] at ids ⊢
    exact ids
  · intro other member user isInserted
    dsimp only
    rw [users]
    rcases mem_middle.mp member with rfl | old
    · rw [inserted] at isInserted
      rw [call]
      exact registering.inserted task isTask user isInserted
    · exact registering.inserted other (mem_middle.mpr (.inr old)) user isInserted
  · intro user member
    dsimp only at member
    rw [users] at member
    rcases registering.owned user member with ⟨owner, isOwner, isInserted⟩
    rcases mem_middle.mp isOwner with rfl | old
    · exact ⟨moved, mem_middle.mpr (.inl rfl), inserted.trans isInserted⟩
    · exact ⟨owner, mem_middle.mpr (.inr old), isInserted⟩
  · intro other member user isInsert
    dsimp only
    rw [users]
    rcases mem_middle.mp member with rfl | old
    · exact requested user isInsert
    · exact registering.requested other (mem_middle.mpr (.inr old)) user isInsert
  · dsimp only
    rw [users]
    exact registering.founded

theorem insert (registering : Registering ⟨manager, before ++ task :: after⟩)
    (isInsert : task.stage = .insertUser user) :
    Registering ⟨{ manager with users := manager.users.insert user },
      before ++ { task with stage := .indexUsername user } :: after⟩ := by
  have isTask : task ∈ before ++ task :: after := mem_middle.mpr (.inl rfl)
  have members := registering.mem_insert isTask isInsert
  have isRequested := registering.requested task isTask user isInsert
  constructor
  · have ids := registering.ids
    simp only [List.map_append, List.map_cons] at ids ⊢
    exact ids
  · intro other member found isInserted
    rcases mem_middle.mp member with rfl | old
    · cases isInserted
      exact ⟨(members user).mpr (.inl rfl), isRequested.1⟩
    · rcases registering.inserted other (mem_middle.mpr (.inr old)) found isInserted with
        ⟨isUser, isId⟩
      exact ⟨(members found).mpr (.inr isUser), isId⟩
  · intro found member
    rcases (members found).mp member with rfl | old
    · exact ⟨_, mem_middle.mpr (.inl rfl), rfl⟩
    · rcases registering.owned found old with ⟨owner, isOwner, isInserted⟩
      rcases mem_middle.mp isOwner with rfl | other
      · rw [RegisterTask.inserted, isInsert] at isInserted
        cases isInserted
      · exact ⟨owner, mem_middle.mpr (.inr other), isInserted⟩
  · intro other member found isOther
    have some : (manager.users.insert user).rows ≠ [] := KeyedRows.insert_ne_nil _ _
    rcases mem_middle.mp member with rfl | old
    · cases isOther
    · refine ⟨(registering.requested other (mem_middle.mpr (.inr old)) found isOther).1, ?_⟩
      intro empty
      exact absurd empty some
  · intro _
    by_cases empty : manager.users.rows = []
    · exact ⟨user, (members user).mpr (.inl rfl), isRequested.2 empty⟩
    · rcases registering.founded empty with ⟨founder, isFounder, isAdmin⟩
      exact ⟨founder, (members founder).mpr (.inr isFounder), isAdmin⟩

/-- Any step; no user is ever lost. -/
theorem step (registering : Registering pool) (index : ℕ) :
    Registering (pool.next index) ∧
      pool.shared.users.rows ⊆ (pool.next index).shared.users.rows := by
  rcases pool with ⟨manager, tasks⟩
  rcases RegisterPool.next_cases ⟨manager, tasks⟩ index with
    ⟨before, task, after, rfl, _, same⟩ | ⟨_, same⟩
  · rw [same]
    have isTask : task ∈ before ++ task :: after := mem_middle.mpr (.inl rfl)
    dsimp only at same ⊢
    rcases task.advance_cases manager with ⟨unchanged, quiet⟩ | ⟨user, isStage, moves⟩ |
      ⟨user, isStage, moves⟩ | ⟨user, isStage, moves⟩ | ⟨user, isStage, moves⟩
    · rw [unchanged]
      exact ⟨registering.keep rfl quiet.call quiet.inserted quiet.requested,
        List.Subset.refl _⟩
    · rw [moves]
      refine ⟨registering.insert isStage, ?_⟩
      intro other old
      exact (registering.mem_insert isTask isStage other).mpr (.inr old)
    all_goals
      rw [moves]
      refine ⟨registering.keep rfl rfl ?_ ?_, List.Subset.refl _⟩
      · rw [RegisterTask.inserted, RegisterTask.inserted, isStage]
      · intro found isInsert
        cases isInsert
  · rw [same]
    exact ⟨registering, List.Subset.refl _⟩

/-- No user is lost in a run. -/
theorem grows (registering : Registering pool) (schedule : List ℕ) :
    pool.shared.users.rows ⊆ (schedule.foldl RegisterPool.next pool).shared.users.rows := by
  induction schedule generalizing pool with
  | nil => exact List.Subset.refl _
  | cons index schedule induction =>
    rcases registering.step index with ⟨still, kept⟩
    exact List.Subset.trans kept (induction still)

/-- Where nothing is registered twice, every user was clear when the user was inserted. -/
theorem clear_of_unique (registering : Registering pool) (schedule : List ℕ)
    (unique : UniquelyRegistered (schedule.foldl RegisterPool.next pool).shared) :
    Along RegisterPool.next RegisterPool.StillClear schedule pool := by
  induction schedule generalizing pool with
  | nil => trivial
  | cons index schedule induction =>
    rcases registering.step index with ⟨still, _⟩
    refine ⟨?_, induction still unique⟩
    intro task found
    rw [RegisterTask.StillClear]
    cases isStage : task.stage with
    | insertUser user =>
      have isTask := List.mem_of_getElem? found
      have members := registering.mem_insert isTask isStage
      have stepped : (pool.next index).shared.users = pool.shared.users.insert user := by
        rcases RegisterPool.next_cases pool index with
          ⟨before, other, after, _, isOther, same⟩ | ⟨missing, _⟩
        · rw [found] at isOther
          cases isOther
          rw [same, RegisterTask.advance, isStage]
        · rw [found] at missing
          cases missing
      have inFinal : ∀ other, other = user ∨ other ∈ pool.shared.users.rows → other ∈
          ((index :: schedule).foldl RegisterPool.next pool).shared.users.rows := by
        intro other isOther
        apply still.grows schedule
        rw [stepped]
        exact (members other).mpr isOther
      have isUser := inFinal user (.inl rfl)
      have different : ∀ other ∈ pool.shared.users.rows, user ≠ other := by
        intro other isOther same
        exact registering.fresh isTask isStage other isOther (congrArg User.userId same)
      constructor
      · intro other isOther
        have apart := unique.apart user isUser other (inFinal other (.inr isOther))
          (different other isOther)
        exact ⟨apart.username, apart.phone, apart.email⟩
      · intro isAdmin
        by_contra some
        rcases registering.founded some with ⟨founder, isFounder, alsoAdmin⟩
        rcases unique.founder (List.ne_nil_of_mem isUser) with ⟨only, _, isOnly⟩
        have first := isOnly user ⟨isUser, isAdmin⟩
        have second := isOnly founder ⟨inFinal founder (.inr isFounder), alsoAdmin⟩
        exact different founder isFounder (first.trans second.symm)
    | _ => trivial

end Registering

/-! ## What holds while every user is clear -/

/-- The users are apart from each other, each index has the users of the calls that have
come so far, and one user founded the system. -/
structure Exact (pool : RegisterPool) : Prop where
  registering : Registering pool
  apart : ∀ left ∈ pool.shared.users.rows, ∀ right ∈ pool.shared.users.rows, left ≠ right →
    Apart left right
  usernames : Indexes (fun user => some user.username) pool.shared.usernameIndex
    (pool.tasks.filterMap RegisterTask.hasUsername)
  phones : Indexes User.phone pool.shared.phoneIndex (pool.tasks.filterMap RegisterTask.hasPhone)
  emails : Indexes User.email pool.shared.emailIndex (pool.tasks.filterMap RegisterTask.hasEmail)
  founder : ∀ left ∈ pool.shared.users.rows, ∀ right ∈ pool.shared.users.rows,
    UserRole.Admin ∈ left.roles → UserRole.Admin ∈ right.roles → left = right

/-- What a function gives for the calls, if it gives the same for the call that moves. -/
theorem mem_filterMap_keep (same : view moved = view task) (user : User) :
    user ∈ (before ++ moved :: after).filterMap view ↔
      user ∈ (before ++ task :: after).filterMap view := by
  simp only [List.filterMap_append, List.filterMap_cons, same]

theorem mem_filterMap_add (none : view task = none) (added : view moved = some user)
    (other : User) :
    other ∈ (before ++ moved :: after).filterMap view ↔
      other = user ∨ other ∈ (before ++ task :: after).filterMap view := by
  simp only [List.filterMap_append, List.filterMap_cons, none, added, List.mem_append,
    List.mem_cons]
  tauto

namespace Exact

variable {before after : List RegisterTask} {task : RegisterTask} {manager : UserManager}

theorem inserted_of_view (registering : Registering pool)
    (isView : ∀ task user, view task = some user → task.inserted = some user)
    (member : user ∈ pool.tasks.filterMap view) :
    ∃ task ∈ pool.tasks, view task = some user ∧ user ∈ pool.shared.users.rows ∧
      user.userId = task.call.uuid := by
  rcases List.mem_filterMap.mp member with ⟨task, isTask, isUser⟩
  rcases registering.inserted task isTask user (isView task user isUser) with ⟨isRow, isId⟩
  exact ⟨task, isTask, isUser, isRow, isId⟩

theorem apart_of_view (exact : Exact ⟨manager, before ++ task :: after⟩)
    (isView : ∀ task user, view task = some user → task.inserted = some user)
    (isUser : task.inserted = some user) (none : view task = none)
    (member : other ∈ (before ++ task :: after).filterMap view) : Apart user other := by
  have isTask : task ∈ before ++ task :: after := mem_middle.mpr (.inl rfl)
  rcases inserted_of_view exact.registering isView member with
    ⟨owner, isOwner, isOther, otherRow, otherId⟩
  rcases exact.registering.inserted task isTask user isUser with ⟨userRow, userId⟩
  apply exact.apart user userRow other otherRow
  rintro rfl
  have same := List.inj_on_of_nodup_map exact.registering.ids isTask isOwner
    (userId.symm.trans otherId)
  rw [← same, none] at isOther
  cases isOther

theorem hasUsername_inserted (task : RegisterTask) (user : User)
    (isUser : task.hasUsername = some user) : task.inserted = some user := by
  rw [RegisterTask.hasUsername] at isUser
  rw [RegisterTask.inserted]
  split at isUser <;> simp_all

theorem hasPhone_inserted (task : RegisterTask) (user : User)
    (isUser : task.hasPhone = some user) : task.inserted = some user := by
  rw [RegisterTask.hasPhone] at isUser
  rw [RegisterTask.inserted]
  split at isUser <;> simp_all

theorem hasEmail_inserted (task : RegisterTask) (user : User)
    (isUser : task.hasEmail = some user) : task.inserted = some user := by
  rw [RegisterTask.hasEmail] at isUser
  rw [RegisterTask.inserted]
  split at isUser <;> simp_all

theorem new {calls : List RegisterCall} (distinct : (calls.map RegisterCall.uuid).Nodup) :
    Exact (.new calls) := by
  have nothing : ∀ view : RegisterTask → Option User,
      (∀ call, view (.start call) = none) →
        (RegisterPool.new calls).tasks.filterMap view = [] := by
    intro view none
    apply List.filterMap_eq_nil_iff.mpr
    intro task member
    rcases List.mem_map.mp member with ⟨call, _, rfl⟩
    exact none call
  refine ⟨.new distinct, ?_, ?_, ?_, ?_, ?_⟩
  · intro left isLeft
    cases isLeft
  · rw [nothing _ fun _ => rfl]
    exact .empty _
  · rw [nothing _ fun _ => rfl]
    exact .empty _
  · rw [nothing _ fun _ => rfl]
    exact .empty _
  · intro left isLeft
    cases isLeft

section

variable (exact : Exact ⟨manager, before ++ task :: after⟩)
include exact

theorem insert (isInsert : task.stage = .insertUser user) (clear : Clear manager user) :
    Exact ⟨{ manager with users := manager.users.insert user },
      before ++ { task with stage := .indexUsername user } :: after⟩ := by
  have isTask : task ∈ before ++ task :: after := mem_middle.mpr (.inl rfl)
  have members := exact.registering.mem_insert isTask isInsert
  have isApart : ∀ other ∈ manager.users.rows, Apart user other := by
    intro other isOther
    rcases clear.1 other isOther with ⟨username, phone, email⟩
    exact ⟨exact.registering.fresh isTask isInsert other isOther, username, phone, email⟩
  have isOnly : ∀ other ∈ manager.users.rows, UserRole.Admin ∉ user.roles := by
    intro other isOther isAdmin
    have empty := clear.2 isAdmin
    rw [empty] at isOther
    cases isOther
  refine ⟨exact.registering.insert isInsert, ?_, ?_, ?_, ?_, ?_⟩
  · intro left isLeft right isRight different
    rcases (members left).mp isLeft with rfl | oldLeft
    · rcases (members right).mp isRight with rfl | oldRight
      · exact absurd rfl different
      · exact isApart right oldRight
    · rcases (members right).mp isRight with rfl | oldRight
      · exact (isApart left oldLeft).symm
      · exact exact.apart left oldLeft right oldRight different
  · apply exact.usernames.congr
    apply mem_filterMap_keep
    rw [RegisterTask.hasUsername, RegisterTask.hasUsername, isInsert]
  · apply exact.phones.congr
    apply mem_filterMap_keep
    rw [RegisterTask.hasPhone, RegisterTask.hasPhone, isInsert]
  · apply exact.emails.congr
    apply mem_filterMap_keep
    rw [RegisterTask.hasEmail, RegisterTask.hasEmail, isInsert]
  · intro left isLeft right isRight leftAdmin rightAdmin
    rcases (members left).mp isLeft with rfl | oldLeft
    · rcases (members right).mp isRight with rfl | oldRight
      · rfl
      · exact absurd leftAdmin (isOnly right oldRight)
    · rcases (members right).mp isRight with rfl | oldRight
      · exact absurd rightAdmin (isOnly left oldLeft)
      · exact exact.founder left oldLeft right oldRight leftAdmin rightAdmin

theorem indexUsername (isStage : task.stage = .indexUsername user) : Exact ⟨{ manager with
        usernameIndex := withIndex manager.usernameIndex (some user.username) user.userId },
      before ++ { task with stage := .indexPhone user } :: after⟩ := by
  have isUser : task.inserted = some user := by
    rw [RegisterTask.inserted, isStage]
  have none : task.hasUsername = none := by
    rw [RegisterTask.hasUsername, isStage]
  refine ⟨exact.registering.keep rfl rfl isUser.symm ?_, exact.apart, ?_, ?_, ?_, exact.founder⟩
  · intro other isInsert
    cases isInsert
  · apply exact.usernames.insert (mem_filterMap_add none rfl)
    intro value isValue other member same
    have apart := exact.apart_of_view hasUsername_inserted isUser none member
    exact apart.username (Option.some.inj (isValue.trans same.symm))
  · apply exact.phones.congr
    apply mem_filterMap_keep
    rw [RegisterTask.hasPhone, RegisterTask.hasPhone, isStage]
  · apply exact.emails.congr
    apply mem_filterMap_keep
    rw [RegisterTask.hasEmail, RegisterTask.hasEmail, isStage]

theorem indexPhone (isStage : task.stage = .indexPhone user) : Exact ⟨{ manager with
        phoneIndex := withIndex manager.phoneIndex user.phone user.userId },
      before ++ { task with stage := .indexEmail user } :: after⟩ := by
  have isUser : task.inserted = some user := by
    rw [RegisterTask.inserted, isStage]
  have none : task.hasPhone = none := by
    rw [RegisterTask.hasPhone, isStage]
  refine ⟨exact.registering.keep rfl rfl isUser.symm ?_, exact.apart, ?_, ?_, ?_, exact.founder⟩
  · intro other isInsert
    cases isInsert
  · apply exact.usernames.congr
    apply mem_filterMap_keep
    rw [RegisterTask.hasUsername, RegisterTask.hasUsername, isStage]
  · apply exact.phones.insert (mem_filterMap_add none rfl)
    intro value isValue other member
    have apart := exact.apart_of_view hasPhone_inserted isUser none member
    exact apart.phone value isValue
  · apply exact.emails.congr
    apply mem_filterMap_keep
    rw [RegisterTask.hasEmail, RegisterTask.hasEmail, isStage]

theorem indexEmail (isStage : task.stage = .indexEmail user) : Exact ⟨{ manager with
        emailIndex := withIndex manager.emailIndex user.email user.userId },
      before ++ { task with stage := .done (.ok user) } :: after⟩ := by
  have isUser : task.inserted = some user := by
    rw [RegisterTask.inserted, isStage]
  have none : task.hasEmail = none := by
    rw [RegisterTask.hasEmail, isStage]
  refine ⟨exact.registering.keep rfl rfl isUser.symm ?_, exact.apart, ?_, ?_, ?_, exact.founder⟩
  · intro other isInsert
    cases isInsert
  · apply exact.usernames.congr
    apply mem_filterMap_keep
    rw [RegisterTask.hasUsername, RegisterTask.hasUsername, isStage]
  · apply exact.phones.congr
    apply mem_filterMap_keep
    rw [RegisterTask.hasPhone, RegisterTask.hasPhone, isStage]
  · apply exact.emails.insert (mem_filterMap_add none rfl)
    intro value isValue other member
    have apart := exact.apart_of_view hasEmail_inserted isUser none member
    exact apart.email value isValue

end

theorem step (exact : Exact pool) (clear : pool.StillClear index) : Exact (pool.next index) := by
  rcases pool with ⟨manager, tasks⟩
  rcases RegisterPool.next_cases ⟨manager, tasks⟩ index with
    ⟨before, task, after, rfl, found, same⟩ | ⟨_, same⟩
  · rw [same]
    have isClear := clear task found
    dsimp only at isClear ⊢
    rcases task.advance_cases manager with ⟨unchanged, quiet⟩ | ⟨user, isStage, moves⟩ |
      ⟨user, isStage, moves⟩ | ⟨user, isStage, moves⟩ | ⟨user, isStage, moves⟩
    · rw [unchanged]
      exact ⟨exact.registering.keep rfl quiet.call quiet.inserted quiet.requested, exact.apart,
        exact.usernames.congr (mem_filterMap_keep quiet.username),
        exact.phones.congr (mem_filterMap_keep quiet.phone),
        exact.emails.congr (mem_filterMap_keep quiet.email), exact.founder⟩
    · rw [moves]
      rw [RegisterTask.StillClear, isStage] at isClear
      exact exact.insert isStage isClear
    · rw [moves]
      exact exact.indexUsername isStage
    · rw [moves]
      exact exact.indexPhone isStage
    · rw [moves]
      exact exact.indexEmail isStage
  · rw [same]
    exact exact

theorem unique (exact : Exact pool) (finished : ∀ task ∈ pool.tasks, task.Finished) :
    UniquelyRegistered pool.shared := by
  have rows : ∀ {view : RegisterTask → Option User},
      (∀ task ∈ pool.tasks, view task = task.inserted) →
        ∀ user, user ∈ pool.shared.users.rows ↔ user ∈ pool.tasks.filterMap view := by
    intro view isView user
    rw [List.mem_filterMap]
    constructor
    · intro member
      rcases exact.registering.owned user member with ⟨task, isTask, isInserted⟩
      exact ⟨task, isTask, (isView task isTask).trans isInserted⟩
    · rintro ⟨task, isTask, isUser⟩
      have isInserted := (isView task isTask).symm.trans isUser
      exact (exact.registering.inserted task isTask user isInserted).1
  refine ⟨exact.apart, ⟨?_, ?_, ?_⟩, ?_⟩
  · exact exact.usernames.congr (rows fun task isTask => (finished task isTask).indexed.1)
  · exact exact.phones.congr (rows fun task isTask => (finished task isTask).indexed.2.1)
  · exact exact.emails.congr (rows fun task isTask => (finished task isTask).indexed.2.2)
  · intro some
    rcases exact.registering.founded some with ⟨founder, isFounder, isAdmin⟩
    refine ⟨founder, ⟨isFounder, isAdmin⟩, ?_⟩
    rintro other ⟨isOther, alsoAdmin⟩
    exact exact.founder other isOther founder isFounder alsoAdmin isAdmin

end Exact

/-- In any interleaving of calls that are all given different ids, when all of them have
returned, nothing is registered twice if and only if every user was clear when the user was
inserted. -/
theorem uniquelyRegistered_iff {calls : List RegisterCall}
    (distinct : (calls.map RegisterCall.uuid).Nodup) {schedule : List ℕ}
    (finished : ∀ task ∈ (schedule.foldl RegisterPool.next (.new calls)).tasks, task.Finished) :
    UniquelyRegistered (schedule.foldl RegisterPool.next (.new calls)).shared ↔
      Along RegisterPool.next RegisterPool.StillClear schedule (.new calls) := by
  constructor
  · exact (Registering.new distinct).clear_of_unique schedule
  · intro clear
    have exact : Exact (schedule.foldl RegisterPool.next (.new calls)) :=
      foldl_along Exact (fun pool index exact isClear => exact.step isClear) clear (.new distinct)
    exact exact.unique finished

/-- A call of a name, without a phone or an email. -/
def callOf (username uuid : String) : RegisterCall where
  request := ⟨username, "secret", none, none, none, none⟩
  uuid := uuid
  hash := .ok "hash"
  now := ⟨0, by decide⟩

instance (task : RegisterTask) : Decidable task.Finished :=
  match isStage : task.stage with
  | .done result => .isTrue ⟨result, isStage⟩
  | .checkUsername | .checkPhone | .checkEmail | .hashPassword | .testEmpty _ | .insertUser _
  | .indexUsername _ | .indexPhone _ | .indexEmail _ =>
    .isFalse (by
      rintro ⟨result, isDone⟩
      rw [isStage] at isDone
      cases isDone)

/-- The steps of two calls in turn, and then those of a third. -/
theorem inTurn_unique :
    UniquelyRegistered (((List.replicate 5 0 ++ [1, 1] ++ List.replicate 4 0 ++
      List.replicate 7 1 ++ List.replicate 9 2).foldl RegisterPool.next
        (.new [callOf "alice" "u1", callOf "bob" "u2", callOf "alice" "u3"])).shared) :=
  (uniquelyRegistered_iff (by decide) (by decide +kernel)).mpr (by decide +kernel)

/-- Two calls of one name look it up before either of them inserts it. -/
theorem bothLookedUp_twice :
    ¬ ∀ schedule : List ℕ,
      (∀ task ∈ (schedule.foldl RegisterPool.next
        (.new [callOf "alice" "u1", callOf "alice" "u2"])).tasks, task.Finished) →
      UniquelyRegistered (schedule.foldl RegisterPool.next
        (.new [callOf "alice" "u1", callOf "alice" "u2"])).shared := by
  intro all
  have unique := all ([0, 1] ++ List.replicate 8 0 ++ List.replicate 8 1) (by decide +kernel)
  have twice : ∃ left ∈ (([0, 1] ++ List.replicate 8 0 ++ List.replicate 8 1).foldl
      RegisterPool.next (.new [callOf "alice" "u1", callOf "alice" "u2"])).shared.users.rows,
      ∃ right ∈ (([0, 1] ++ List.replicate 8 0 ++ List.replicate 8 1).foldl
        RegisterPool.next (.new [callOf "alice" "u1", callOf "alice" "u2"])).shared.users.rows,
        left ≠ right ∧ left.username = right.username := by
    decide +kernel
  rcases twice with ⟨left, isLeft, right, isRight, different, same⟩
  exact (unique.apart left isLeft right isRight different).username same

end QAExchange.Users
