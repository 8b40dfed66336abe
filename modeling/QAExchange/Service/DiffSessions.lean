import QAExchange.Protocol.SnapshotManager

/-! # The DIFF sessions of one user

All sessions of a user share the user's entry in the snapshot manager. A login makes the
entry where there is none, a peek takes its queue, and the end of a session removes it,
while the tasks that hold an older entry go on.
-/

namespace QAExchange

open Foundation

/-- An entry that the snapshot manager has made for the user, with the patches that it was
given, merged and asked for, in order. -/
structure SnapshotEntry extends UserSnapshotState where
  enqueued : List Value
  merged : List Value
  taken : List Value

namespace SnapshotEntry

def new : SnapshotEntry where
  toUserSnapshotState := { UserSnapshotState.new with registered := true }
  enqueued := []
  merged := []
  taken := []

def enqueue (patch : Value) (entry : SnapshotEntry) : SnapshotEntry :=
  { entry with
    pendingPatches := entry.pendingPatches ++ [patch]
    enqueued := entry.enqueued ++ [patch] }

def merge (patch : Value) (entry : SnapshotEntry) : SnapshotEntry :=
  { entry with
    snapshot := mergePatch entry.snapshot patch
    merged := entry.merged ++ [patch] }

def notify (entry : SnapshotEntry) : SnapshotEntry :=
  { entry with notifyCalls := entry.notifyCalls + 1 }

/-- `take_pending_patches` -/
def take (entry : SnapshotEntry) : SnapshotEntry :=
  { entry with pendingPatches := [], taken := entry.taken ++ entry.pendingPatches }

end SnapshotEntry

inductive SessionStatus
  | connected
  /-- The login has initialized the snapshot. -/
  | loggedIn
  /-- The session knows its user. -/
  | identified
  | stopped
  deriving DecidableEq

def SessionStatus.isLive : SessionStatus → Bool
  | .loggedIn | .identified => true
  | .connected | .stopped => false

/-- `DiffWebsocketSession` with the patches that it was sent since its login. -/
structure DiffWebsocketSession where
  status : SessionStatus
  received : List Value

/-- `entries` has the entries in the order in which they were made, `made` of them, and
`current` is the one in the map. -/
structure DiffSessions where
  entries : ℕ → SnapshotEntry
  made : ℕ
  current : Option ℕ
  sessions : ℕ → DiffWebsocketSession

inductive DiffCall
  | login (session : ℕ) (username : String)
  | pushPatch (patch : Value)
  | setUserId (session : ℕ)
  | peekMessage (session : ℕ)
  | stop (session : ℕ)

inductive DiffTask
  | initializing (session : ℕ) (username : String)
  | entering (patch : Value)
  | enqueueing (entry : ℕ) (patch : Value)
  | merging (entry : ℕ) (patch : Value)
  | notifying (entry : ℕ)
  | identifying (session : ℕ)
  /-- A session without a user refuses the message. -/
  | asking (session : ℕ)
  | testing (session : ℕ)
  /-- The queue of the entry was not empty. -/
  | takingFound (session entry : ℕ)
  | subscribing (session entry : ℕ)
  | waiting (session entry notifyCalls : ℕ)
  /-- After the wait the user is looked up once more. -/
  | takingAgain (session : ℕ)
  | answering (session : ℕ) (patches : List Value)
  | stopping (session : ℕ)
  | removing
  | done

namespace DiffTask

def inProgress : DiffTask → Bool
  | .initializing _ _ | .entering _ | .enqueueing _ _ | .merging _ _ | .notifying _
  | .takingFound _ _ | .takingAgain _ | .answering _ _ => true
  | .identifying _ | .asking _ | .testing _ | .subscribing _ _ | .waiting _ _ _ | .stopping _
  | .removing | .done => false

def listensTo (session : ℕ) : DiffTask → Option ℕ
  | .takingFound other entry | .subscribing other entry | .waiting other entry _ =>
    if other = session then some entry else none
  | .initializing _ _ | .entering _ | .enqueueing _ _ | .merging _ _ | .notifying _
  | .takingAgain _ | .answering _ _ | .identifying _ | .asking _ | .testing _ | .stopping _
  | .removing | .done => none

end DiffTask

namespace DiffSessions

def new : DiffSessions where
  entries _ := .new
  made := 0
  current := none
  sessions _ := ⟨.connected, []⟩

def loginPatch (username userId : String) : Value :=
  .object [
    ("notify", .object [
      ("login_success", .object [
        ("code", .number "0"),
        ("content", .string ("Login successful for user: " ++ username)),
        ("level", .string "INFO"),
        ("type", .string "MESSAGE")])]),
    ("user_id", .string userId),
    ("username", .string username)]

def getOrInsert (state : DiffSessions) : ℕ × DiffSessions :=
  match state.current with
  | some entry => (entry, state)
  | none => (state.made, { state with made := state.made + 1, current := some state.made })

def changeEntry (entry : ℕ) (change : SnapshotEntry → SnapshotEntry) (state : DiffSessions) :
    DiffSessions :=
  { state with entries := Function.update state.entries entry (change (state.entries entry)) }

def changeSession (session : ℕ) (change : DiffWebsocketSession → DiffWebsocketSession)
    (state : DiffSessions) : DiffSessions :=
  { state with sessions := Function.update state.sessions session (change (state.sessions session)) }

def start : DiffCall → DiffTask
  | .login session username => .initializing session username
  | .pushPatch patch => .entering patch
  | .setUserId session => .identifying session
  | .peekMessage session => .asking session
  | .stop session => .stopping session

/-- `initialize_user` of a login. The patches since the login begin with the first one. -/
def initializeUser (session : ℕ) (state : DiffSessions) : DiffSessions :=
  let state := (getOrInsert state).2
  match (state.sessions session).status with
  | .connected => state.changeSession session fun _ => ⟨.loggedIn, []⟩
  | .loggedIn | .identified | .stopped => state

def advance (userId : String) (input : SnapshotInput) (state : DiffSessions) :
    DiffTask → DiffTask × DiffSessions
  | .initializing session username =>
    match (state.sessions session).status with
    | .stopped => (.done, state)
    | .connected | .loggedIn | .identified =>
      (.entering (loginPatch username userId), initializeUser session state)
  | .entering patch =>
    let found := getOrInsert state
    (.enqueueing found.1 patch, found.2)
  | .enqueueing entry patch =>
    (.merging entry patch, state.changeEntry entry (SnapshotEntry.enqueue patch))
  | .merging entry patch =>
    (.notifying entry, state.changeEntry entry (SnapshotEntry.merge patch))
  | .notifying entry => (.done, state.changeEntry entry SnapshotEntry.notify)
  | .identifying session =>
    match (state.sessions session).status with
    | .loggedIn =>
      (.done, state.changeSession session fun opened => { opened with status := .identified })
    | .connected | .identified | .stopped => (.done, state)
  | .asking session =>
    match (state.sessions session).status with
    | .identified => (.testing session, state)
    | .connected | .loggedIn | .stopped => (.done, state)
  | .testing session =>
    match state.current with
    | none => (.done, state)
    | some entry =>
      if (state.entries entry).hasPendingPatches then (.takingFound session entry, state)
      else (.subscribing session entry, state)
  | .takingFound session entry =>
    (.answering session (state.entries entry).pendingPatches,
      state.changeEntry entry SnapshotEntry.take)
  | .subscribing session entry =>
    (.waiting session entry (state.entries entry).notifyCalls, state)
  | .waiting session entry calls =>
    if calls < (state.entries entry).notifyCalls then (.takingAgain session, state)
    else
      match input with
      | .proceed => (.waiting session entry calls, state)
      | .expired => (.done, state)
  | .takingAgain session =>
    match state.current with
    | none => (.done, state)
    | some entry =>
      (.answering session (state.entries entry).pendingPatches,
        state.changeEntry entry SnapshotEntry.take)
  | .answering session patches =>
    if (state.sessions session).status = .stopped then (.done, state)
    else
      (.done, state.changeSession session fun opened =>
        { opened with received := opened.received ++ patches })
  | .stopping session =>
    let stopped := state.changeSession session fun opened => { opened with status := .stopped }
    match (state.sessions session).status with
    | .identified => (.removing, stopped)
    | .connected | .loggedIn | .stopped => (.done, stopped)
  | .removing => (.done, { state with current := none })
  | .done => (.done, state)

def service (userId : String) : Service DiffSessions DiffTask DiffCall SnapshotInput where
  start := start
  advance := advance userId

def isLive (state : DiffSessions) (session : ℕ) : Prop :=
  (state.sessions session).status.isLive = true

/-- The user has an entry. The session has its snapshot when nothing is pending or in
progress, and the session's peeks listen to it. -/
def Whole (pool : Pool DiffSessions DiffTask) (session : ℕ) : Prop :=
  ∃ entry, pool.shared.current = some entry ∧
    (∀ task ∈ pool.tasks, ∀ other, task.listensTo session = some other → other = entry) ∧
    ((∀ task ∈ pool.tasks, task.inProgress = false) →
      (pool.shared.entries entry).pendingPatches = [] →
      applyPatches .emptyObject (pool.shared.sessions session).received =
        (pool.shared.entries entry).snapshot)

def EverySessionWhole (pool : Pool DiffSessions DiffTask) : Prop :=
  ∀ session, pool.shared.isLive session → Whole pool session

/-- A queue with patches is taken for the only live session. -/
def TakesAlone (state : DiffSessions) (session entry : ℕ) : Prop :=
  (state.entries entry).pendingPatches ≠ [] → ∀ other, state.isLive other → other = session

/-- The sessions follow one another: a session logs in to an entry of which nothing was taken,
is the only one while patches are taken, and has stopped when the entry is removed. Patches
are merged and sent in the order of the queue. -/
def OneAfterAnother (pool : Pool DiffSessions DiffTask) : Turn DiffCall SnapshotInput → Prop
  | .call _ => True
  | .step _ index =>
    match pool.tasks[index]? with
    | some (.initializing session _) =>
      (pool.shared.sessions session).status = .connected →
        ∀ entry, pool.shared.current = some entry → (pool.shared.entries entry).taken = []
    | some (.merging entry patch) =>
      (pool.shared.entries entry).merged ++ [patch] <+: (pool.shared.entries entry).enqueued
    | some (.takingFound session entry) => TakesAlone pool.shared session entry
    | some (.takingAgain session) =>
      ∀ entry, pool.shared.current = some entry → TakesAlone pool.shared session entry
    | some (.answering session patches) =>
      pool.shared.isLive session → ∀ entry, pool.shared.current = some entry →
        (pool.shared.sessions session).received ++ patches <+:
          (pool.shared.entries entry).taken
    | some .removing => ∀ session, ¬ pool.shared.isLive session
    | _ => True

end DiffSessions

end QAExchange
