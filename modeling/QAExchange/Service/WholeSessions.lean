import Mathlib.Algebra.BigOperators.Group.List.Basic
import Mathlib.Algebra.GroupWithZero.Nat
import QAExchange.Service.DiffSessions

/-! # Every session of a user that comes after the others has the whole state -/

namespace QAExchange

open Foundation

namespace DiffTask

def unmerged (entry : ℕ) : DiffTask → ℕ
  | .merging other _ => if other = entry then 1 else 0
  | _ => 0

def unsent (session : ℕ) : DiffTask → ℕ
  | .answering other patches => if other = session then patches.length else 0
  | _ => 0

def total (weight : DiffTask → ℕ) (tasks : List DiffTask) : ℕ := (tasks.map weight).sum

theorem total_split (weight : DiffTask → ℕ) (before after : List DiffTask) (task : DiffTask) :
    total weight (before ++ task :: after) =
      total weight before + (weight task + total weight after) := by
  simp only [total, List.map_append, List.map_cons, List.sum_append, List.sum_cons]

theorem total_eq_zero (none : ∀ task ∈ tasks, weight task = 0) : total weight tasks = 0 := by
  induction tasks with
  | nil => rfl
  | cons task tasks induction =>
    have first := none task List.mem_cons_self
    have rest := induction fun other member => none other (List.mem_cons_of_mem task member)
    rw [total, List.map_cons, List.sum_cons, first, zero_add]
    exact rest

end DiffTask

namespace DiffSessions

open DiffTask

/-- The queue of an entry and its snapshot are what the pushes and the peeks have made of
them. -/
structure Traced (tasks : List DiffTask) (index : ℕ) (entry : SnapshotEntry) : Prop where
  snapshot : entry.snapshot = applyPatches .emptyObject entry.merged
  inOrder : entry.merged <+: entry.enqueued
  counted : total (unmerged index) tasks + entry.merged.length = entry.enqueued.length
  handed : entry.taken ++ entry.pendingPatches = entry.enqueued

def Placed (state : DiffSessions) : DiffTask → Prop
  | .enqueueing entry _ | .merging entry _ | .notifying entry => entry < state.made
  | .testing session | .takingAgain session | .answering session _ =>
    (state.sessions session).status ≠ .connected
  | .takingFound session entry | .subscribing session entry | .waiting session entry _ =>
    entry < state.made ∧ (state.sessions session).status ≠ .connected ∧
      (state.isLive session → state.current = some entry)
  | .initializing _ _ | .entering _ | .identifying _ | .asking _ | .stopping _ | .removing
  | .done => True

/-- The session has been sent the first of the patches that were taken, and the tasks hold
the others. -/
structure Follows (tasks : List DiffTask) (session : ℕ) (received taken : List Value) :
    Prop where
  inOrder : received <+: taken
  counted : total (unsent session) tasks + received.length = taken.length

structure Invariant (pool : Pool DiffSessions DiffTask) : Prop where
  traced : ∀ entry, Traced pool.tasks entry (pool.shared.entries entry)
  fresh : ∀ entry, pool.shared.made ≤ entry → pool.shared.entries entry = .new
  currentMade : ∀ entry, pool.shared.current = some entry → entry < pool.shared.made
  placed : ∀ task ∈ pool.tasks, Placed pool.shared task
  follows : ∀ session, pool.shared.isLive session →
    ∃ entry, pool.shared.current = some entry ∧
      Follows pool.tasks session (pool.shared.sessions session).received
        (pool.shared.entries entry).taken

theorem invariant_new : Invariant ⟨new, []⟩ where
  traced _ := ⟨rfl, List.prefix_rfl, rfl, rfl⟩
  fresh _ _ := rfl
  currentMade _ isCurrent := nomatch isCurrent
  placed _ member := nomatch member
  follows _ live := nomatch live

theorem Invariant.whole (invariant : Invariant pool) : EverySessionWhole pool := by
  intro session live
  rcases invariant.follows session live with ⟨entry, isCurrent, follows⟩
  refine ⟨entry, isCurrent, ?_, ?_⟩
  · intro task member other listens
    have placed := invariant.placed task member
    cases task with
    | takingFound owner held | subscribing owner held | waiting owner held calls =>
      rw [listensTo] at listens
      split_ifs at listens with same
      cases listens
      rw [same] at placed
      have found := placed.2.2 live
      rw [isCurrent] at found
      exact (Option.some.inj found).symm
    | _ => cases listens
  · intro quiet noPending
    have traced := invariant.traced entry
    have allMerged : (pool.shared.entries entry).merged =
        (pool.shared.entries entry).enqueued := by
      apply traced.inOrder.eq_of_length
      have none : total (unmerged entry) pool.tasks = 0 := by
        apply total_eq_zero
        intro task member
        cases task with
        | merging other patch => cases quiet _ member
        | _ => rfl
      have counted := traced.counted
      omega
    have allSent : (pool.shared.sessions session).received =
        (pool.shared.entries entry).taken := by
      apply follows.inOrder.eq_of_length
      have none : total (unsent session) pool.tasks = 0 := by
        apply total_eq_zero
        intro task member
        cases task with
        | answering other patches => cases quiet _ member
        | _ => rfl
      have counted := follows.counted
      omega
    have allTaken := traced.handed
    rw [noPending, List.append_nil] at allTaken
    rw [allSent, allTaken, ← allMerged, traced.snapshot]

/-! ## What the steps keep -/

/-- What a task knows outlasts a step after which the sessions have not gone back, none that
was not live is so, and the live ones have their entry. -/
theorem Placed.mono {after : DiffSessions} (placed : Placed state task)
    (made : state.made ≤ after.made)
    (met : ∀ session, (state.sessions session).status ≠ .connected →
      (after.sessions session).status ≠ .connected ∧ (after.isLive session → state.isLive session))
    (current : ∀ session entry, after.isLive session → state.current = some entry →
      after.current = some entry) : Placed after task := by
  cases task with
  | enqueueing entry patch => exact lt_of_lt_of_le placed made
  | merging entry patch => exact lt_of_lt_of_le placed made
  | notifying entry => exact lt_of_lt_of_le placed made
  | testing session => exact (met session placed).1
  | takingAgain session => exact (met session placed).1
  | answering session patches => exact (met session placed).1
  | takingFound session entry | subscribing session entry | waiting session entry calls =>
    rcases placed with ⟨below, notConnected, listens⟩
    rcases met session notConnected with ⟨still, wasLive⟩
    refine ⟨lt_of_lt_of_le below made, still, ?_⟩
    intro live
    exact current session entry live (listens (wasLive live))
  | _ => trivial

theorem Follows.congr (follows : Follows tasks session received taken)
    (same : total (unsent session) others = total (unsent session) tasks) :
    Follows others session received taken :=
  ⟨follows.inOrder, same ▸ follows.counted⟩

theorem Traced.congr (traced : Traced tasks index entry)
    (same : total (unmerged index) others = total (unmerged index) tasks) :
    Traced others index entry :=
  ⟨traced.snapshot, traced.inOrder, same ▸ traced.counted, traced.handed⟩

section Steps

variable {state : DiffSessions} {before after : List DiffTask} {task next : DiffTask}

theorem placed_replaced (placed : ∀ other ∈ before ++ task :: after, Placed state other)
    (isPlaced : Placed state next) : ∀ other ∈ before ++ next :: after, Placed state other := by
  intro other member
  rcases List.mem_append.mp member with isBefore | member
  · exact placed other (List.mem_append_left _ isBefore)
  · rcases List.mem_cons.mp member with rfl | isAfter
    · exact isPlaced
    · exact placed other (List.mem_append_right before (List.mem_cons_of_mem task isAfter))

theorem total_replaced (same : weight next = weight task) :
    total weight (before ++ next :: after) = total weight (before ++ task :: after) := by
  rw [total_split, total_split, same]

theorem Invariant.sameState (invariant : Invariant ⟨state, before ++ task :: after⟩)
    (sameUnmerged : ∀ entry, unmerged entry next = unmerged entry task)
    (sameUnsent : ∀ session, unsent session next = unsent session task)
    (placed : Placed state next) : Invariant ⟨state, before ++ next :: after⟩ where
  traced entry := (invariant.traced entry).congr (total_replaced (sameUnmerged entry))
  fresh := invariant.fresh
  currentMade := invariant.currentMade
  placed := placed_replaced invariant.placed placed
  follows session live := by
    rcases invariant.follows session live with ⟨entry, isCurrent, follows⟩
    exact ⟨entry, isCurrent, follows.congr (total_replaced (sameUnsent session))⟩

theorem getOrInsert_current (state : DiffSessions) :
    (getOrInsert state).2.current = some (getOrInsert state).1 := by
  rw [getOrInsert]
  cases isCurrent : state.current with
  | none => rfl
  | some entry => exact isCurrent

variable {tasks : List DiffTask}

theorem Invariant.getOrInsert (invariant : Invariant ⟨state, tasks⟩) :
    Invariant ⟨(getOrInsert state).2, tasks⟩ := by
  rw [DiffSessions.getOrInsert]
  cases isCurrent : state.current with
  | some entry => exact invariant
  | none =>
    have noneLive : ∀ session, ¬ state.isLive session := by
      intro session live
      rcases invariant.follows session live with ⟨entry, found, _⟩
      rw [isCurrent] at found
      cases found
    refine ⟨invariant.traced, ?_, ?_, ?_, ?_⟩
    · intro entry notMade
      exact invariant.fresh entry (Nat.le_of_succ_le notMade)
    · intro entry found
      cases found
      exact Nat.lt_succ_self _
    · intro task member
      apply (invariant.placed task member).mono (Nat.le_succ _)
      · intro session notConnected
        exact ⟨notConnected, id⟩
      · intro session entry live
        exact absurd live (noneLive session)
    · intro session live
      exact absurd live (noneLive session)

theorem Invariant.current_lt (invariant : Invariant ⟨state, tasks⟩) :
    (DiffSessions.getOrInsert state).1 < (DiffSessions.getOrInsert state).2.made :=
  invariant.getOrInsert.currentMade _ (getOrInsert_current state)

theorem changeEntry_entries_self (entry : ℕ) (change : SnapshotEntry → SnapshotEntry) :
    (state.changeEntry entry change).entries entry = change (state.entries entry) :=
  Function.update_self entry _ _

variable {entry : ℕ}

theorem changeEntry_entries_of_ne (change : SnapshotEntry → SnapshotEntry)
    (different : other ≠ entry) :
    (state.changeEntry entry change).entries other = state.entries other :=
  Function.update_of_ne different _ _

theorem Placed.changeEntry (placed : Placed state task) :
    Placed (state.changeEntry entry change) task := by
  apply placed.mono (Nat.le_refl _)
  · intro session notConnected
    exact ⟨notConnected, id⟩
  · intro session entry _ found
    exact found

theorem Invariant.changeEntry (invariant : Invariant ⟨state, before ++ task :: after⟩)
    (below : entry < state.made)
    (traced : Traced (before ++ next :: after) entry (change (state.entries entry)))
    (sameUnmerged : ∀ other, other ≠ entry → unmerged other next = unmerged other task)
    (sameUnsent : ∀ session, unsent session next = unsent session task)
    (sameTaken : (change (state.entries entry)).taken = (state.entries entry).taken)
    (placed : Placed state next) :
    Invariant ⟨state.changeEntry entry change, before ++ next :: after⟩ := by
  refine ⟨?_, ?_, invariant.currentMade, ?_, ?_⟩
  · intro other
    by_cases same : other = entry
    · rw [same, changeEntry_entries_self]
      exact traced
    · rw [changeEntry_entries_of_ne change same]
      exact (invariant.traced other).congr (total_replaced (sameUnmerged other same))
  · intro other notMade
    have different : other ≠ entry := fun same => absurd below (not_lt.mpr (same ▸ notMade))
    rw [changeEntry_entries_of_ne change different]
    exact invariant.fresh other notMade
  · have others : ∀ other ∈ before ++ task :: after,
        Placed (state.changeEntry entry change) other := by
      intro other member
      exact (invariant.placed other member).changeEntry
    exact placed_replaced others placed.changeEntry
  · intro session live
    rcases invariant.follows session live with ⟨current, isCurrent, follows⟩
    refine ⟨current, isCurrent, ?_⟩
    have still : ((state.changeEntry entry change).entries current).taken =
        (state.entries current).taken := by
      by_cases same : current = entry
      · rw [same, changeEntry_entries_self, sameTaken]
      · rw [changeEntry_entries_of_ne change same]
    rw [still]
    exact follows.congr (total_replaced (sameUnsent session))

variable {session : ℕ}

theorem Invariant.take (invariant : Invariant ⟨state, before ++ task :: after⟩)
    (below : entry < state.made) (listens : state.isLive session → state.current = some entry)
    (notConnected : (state.sessions session).status ≠ .connected)
    (alone : TakesAlone state session entry) (nothingUnmerged : ∀ other, unmerged other task = 0)
    (nothingUnsent : ∀ other, unsent other task = 0) :
    Invariant ⟨state.changeEntry entry SnapshotEntry.take,
      before ++ .answering session (state.entries entry).pendingPatches :: after⟩ := by
  refine ⟨?_, ?_, invariant.currentMade, ?_, ?_⟩
  · intro other
    have sameTotal : total (unmerged other)
        (before ++ .answering session (state.entries entry).pendingPatches :: after) =
          total (unmerged other) (before ++ task :: after) :=
      total_replaced (nothingUnmerged other).symm
    by_cases same : other = entry
    · have traced := (invariant.traced other).congr sameTotal
      rw [same] at traced ⊢
      rw [changeEntry_entries_self]
      refine ⟨traced.snapshot, traced.inOrder, traced.counted, ?_⟩
      change (state.entries entry).taken ++ (state.entries entry).pendingPatches ++ [] = _
      rw [List.append_nil]
      exact traced.handed
    · rw [changeEntry_entries_of_ne _ same]
      exact (invariant.traced other).congr sameTotal
  · intro other notMade
    have different : other ≠ entry := fun same => absurd below (not_lt.mpr (same ▸ notMade))
    rw [changeEntry_entries_of_ne _ different]
    exact invariant.fresh other notMade
  · have placed : Placed state (.answering session (state.entries entry).pendingPatches) :=
      notConnected
    have others : ∀ other ∈ before ++ task :: after,
        Placed (state.changeEntry entry SnapshotEntry.take) other := by
      intro other member
      exact (invariant.placed other member).changeEntry
    exact placed_replaced others placed.changeEntry
  · intro other live
    rcases invariant.follows other live with ⟨current, isCurrent, inOrder, counted⟩
    refine ⟨current, isCurrent, ?_⟩
    rw [total_split, nothingUnsent] at counted
    by_cases isPending : (state.entries entry).pendingPatches = []
    · have still : ((state.changeEntry entry SnapshotEntry.take).entries current).taken =
          (state.entries current).taken := by
        by_cases same : current = entry
        · rw [same, changeEntry_entries_self]
          change (state.entries entry).taken ++ (state.entries entry).pendingPatches = _
          rw [isPending, List.append_nil]
        · rw [changeEntry_entries_of_ne _ same]
      have nothing : unsent other (.answering session (state.entries entry).pendingPatches) =
          0 := by
        rw [isPending, unsent]
        split_ifs <;> rfl
      rw [still]
      refine ⟨inOrder, ?_⟩
      rw [total_split, nothing]
      exact counted
    · have isSession : other = session := alone isPending other live
      subst isSession
      have isEntry : current = entry :=
        Option.some.inj (isCurrent.symm.trans (listens live))
      subst isEntry
      rw [changeEntry_entries_self]
      refine ⟨inOrder.trans (List.prefix_append _ _), ?_⟩
      have more : (state.entries current).take.taken.length =
          (state.entries current).taken.length +
            (state.entries current).pendingPatches.length := List.length_append
      rw [total_split, unsent, if_pos rfl]
      change _ + (state.sessions other).received.length =
        (state.entries current).taken.length at counted
      change _ + (state.sessions other).received.length =
        (state.entries current).take.taken.length
      omega

theorem changeSession_sessions_self (session : ℕ)
    (change : DiffWebsocketSession → DiffWebsocketSession) :
    (state.changeSession session change).sessions session = change (state.sessions session) :=
  Function.update_self session _ _

theorem changeSession_sessions_of_ne (change : DiffWebsocketSession → DiffWebsocketSession)
    (different : other ≠ session) :
    (state.changeSession session change).sessions other = state.sessions other :=
  Function.update_of_ne different _ _

theorem Placed.changeSession (placed : Placed state task)
    (notConnected : (change (state.sessions session)).status ≠ .connected)
    (noNewLife : (state.sessions session).status ≠ .connected →
      (change (state.sessions session)).status.isLive = true → state.isLive session) :
    Placed (state.changeSession session change) task := by
  have sameMade : state.made ≤ (state.changeSession session change).made := Nat.le_refl _
  apply placed.mono sameMade
  · intro other wasNotConnected
    by_cases same : other = session
    · subst same
      rw [isLive, changeSession_sessions_self]
      exact ⟨notConnected, noNewLife wasNotConnected⟩
    · rw [isLive, changeSession_sessions_of_ne change same]
      exact ⟨wasNotConnected, id⟩
  · intro other entry _ found
    exact found

/-- A session changes its status and is live only if it was. -/
theorem Invariant.restatus (invariant : Invariant ⟨state, before ++ task :: after⟩)
    (notConnected : status ≠ .connected) (noNewLife : status.isLive = true → state.isLive session) :
    Invariant ⟨state.changeSession session fun opened => { opened with status },
      before ++ task :: after⟩ := by
  refine ⟨invariant.traced, invariant.fresh, invariant.currentMade, ?_, ?_⟩
  · intro other member
    exact (invariant.placed other member).changeSession notConnected (fun _ => noNewLife)
  · intro other live
    by_cases same : other = session
    · subst same
      rw [isLive, changeSession_sessions_self] at live
      rcases invariant.follows other (noNewLife live) with ⟨entry, isCurrent, follows⟩
      refine ⟨entry, isCurrent, ?_⟩
      rw [changeSession_sessions_self]
      exact follows
    · rw [isLive, changeSession_sessions_of_ne _ same] at live
      rcases invariant.follows other live with ⟨entry, isCurrent, follows⟩
      refine ⟨entry, isCurrent, ?_⟩
      rw [changeSession_sessions_of_ne _ same]
      exact follows

theorem Invariant.logIn (invariant : Invariant ⟨state, tasks⟩)
    (connected : (state.sessions session).status = .connected)
    (isCurrent : state.current = some entry) (untaken : (state.entries entry).taken = []) :
    Invariant ⟨state.changeSession session fun _ => ⟨.loggedIn, []⟩, tasks⟩ := by
  refine ⟨invariant.traced, invariant.fresh, invariant.currentMade, ?_, ?_⟩
  · intro other member
    apply (invariant.placed other member).changeSession
    · exact nofun
    · intro notConnected
      exact absurd connected notConnected
  · intro other live
    by_cases same : other = session
    · subst same
      refine ⟨entry, isCurrent, ?_⟩
      rw [changeSession_sessions_self]
      refine ⟨List.nil_prefix, ?_⟩
      have none : total (unsent other) tasks = 0 := by
        apply total_eq_zero
        intro task member
        cases task with
        | answering owner patches =>
          rw [unsent, if_neg]
          rintro rfl
          exact invariant.placed _ member connected
        | _ => rfl
      rw [none]
      change 0 = (state.entries entry).taken.length
      rw [untaken]
      rfl
    · rw [isLive, changeSession_sessions_of_ne _ same] at live
      rcases invariant.follows other live with ⟨current, found, follows⟩
      refine ⟨current, found, ?_⟩
      rw [changeSession_sessions_of_ne _ same]
      exact follows

theorem Invariant.send
    (invariant : Invariant ⟨state, before ++ .answering session patches :: after⟩)
    (inTurn : state.isLive session → ∀ entry, state.current = some entry →
      (state.sessions session).received ++ patches <+: (state.entries entry).taken) :
    Invariant ⟨state.changeSession session fun opened =>
        { opened with received := opened.received ++ patches },
      before ++ .done :: after⟩ := by
  have notConnected : (state.sessions session).status ≠ .connected :=
    invariant.placed _ (List.mem_append_right before List.mem_cons_self)
  have others : ∀ other ∈ before ++ .answering session patches :: after,
      Placed (state.changeSession session fun opened =>
        { opened with received := opened.received ++ patches }) other := by
    intro other member
    exact (invariant.placed other member).changeSession notConnected (fun _ live => live)
  refine ⟨?_, invariant.fresh, invariant.currentMade, placed_replaced others trivial, ?_⟩
  · intro entry
    exact (invariant.traced entry).congr (total_replaced rfl)
  · intro other live
    by_cases same : other = session
    · subst same
      rw [isLive, changeSession_sessions_self] at live
      rcases invariant.follows other live with ⟨entry, isCurrent, _, counted⟩
      refine ⟨entry, isCurrent, ?_⟩
      rw [changeSession_sessions_self]
      refine ⟨inTurn live entry isCurrent, ?_⟩
      rw [total_split, unsent, if_pos rfl] at counted
      change _ + (state.sessions other).received.length =
        (state.entries entry).taken.length at counted
      change _ + ((state.sessions other).received ++ patches).length =
        (state.entries entry).taken.length
      rw [total_split, List.length_append]
      change _ + (0 + _) + _ = _
      omega
    · rw [isLive, changeSession_sessions_of_ne _ same] at live
      rcases invariant.follows other live with ⟨entry, isCurrent, follows⟩
      refine ⟨entry, isCurrent, ?_⟩
      rw [changeSession_sessions_of_ne _ same]
      have sentElsewhere : unsent other (.answering session patches) = 0 :=
        if_neg (Ne.symm same)
      exact follows.congr (total_replaced sentElsewhere.symm)

theorem Invariant.discard
    (invariant : Invariant ⟨state, before ++ .answering session patches :: after⟩)
    (notLive : ¬ state.isLive session) : Invariant ⟨state, before ++ .done :: after⟩ where
  traced entry := (invariant.traced entry).congr (total_replaced rfl)
  fresh := invariant.fresh
  currentMade := invariant.currentMade
  placed := placed_replaced invariant.placed trivial
  follows other live := by
    rcases invariant.follows other live with ⟨entry, isCurrent, follows⟩
    have sentElsewhere : unsent other (.answering session patches) = 0 := by
      apply if_neg
      rintro rfl
      exact notLive live
    exact ⟨entry, isCurrent, follows.congr (total_replaced sentElsewhere.symm)⟩

theorem Invariant.remove (invariant : Invariant ⟨state, before ++ .removing :: after⟩)
    (noneLive : ∀ session, ¬ state.isLive session) :
    Invariant ⟨{ state with current := none }, before ++ .done :: after⟩ := by
  have others : ∀ other ∈ before ++ .removing :: after,
      Placed { state with current := none } other := by
    intro other member
    have placed : Placed state other := invariant.placed other member
    have sameMade : state.made ≤ { state with current := none }.made := Nat.le_refl state.made
    apply placed.mono sameMade
    · intro session notConnected
      exact ⟨notConnected, id⟩
    · intro session entry live
      exact absurd live (noneLive session)
  refine ⟨?_, invariant.fresh, nofun, placed_replaced others trivial, ?_⟩
  · intro entry
    exact (invariant.traced entry).congr (total_replaced rfl)
  · intro session live
    exact absurd live (noneLive session)

theorem Invariant.initializeUser (invariant : Invariant ⟨state, tasks⟩)
    (untaken : (state.sessions session).status = .connected →
      ∀ entry, state.current = some entry → (state.entries entry).taken = []) :
    Invariant ⟨DiffSessions.initializeUser session state, tasks⟩ := by
  have inserted := invariant.getOrInsert
  have sameSessions : (DiffSessions.getOrInsert state).2.sessions = state.sessions := by
    rw [DiffSessions.getOrInsert]
    cases state.current <;> rfl
  rw [DiffSessions.initializeUser]
  cases status : ((DiffSessions.getOrInsert state).2.sessions session).status with
  | connected =>
    have isUntaken : ((DiffSessions.getOrInsert state).2.entries
        (DiffSessions.getOrInsert state).1).taken = [] := by
      rw [sameSessions] at status
      rw [DiffSessions.getOrInsert]
      cases isCurrent : state.current with
      | some entry => exact untaken status entry isCurrent
      | none =>
        have isNew := invariant.fresh state.made (Nat.le_refl _)
        change (state.entries state.made).taken = []
        rw [isNew]
        rfl
    exact inserted.logIn status (getOrInsert_current state) isUntaken
  | loggedIn => exact inserted
  | identified => exact inserted
  | stopped => exact inserted

theorem getElem?_middle (before after : List DiffTask) (task : DiffTask) :
    (before ++ task :: after)[before.length]? = some task := by
  rw [List.getElem?_append_right (Nat.le_refl _), Nat.sub_self, List.getElem?_cons_zero]

theorem Invariant.enqueue
    (invariant : Invariant ⟨state, before ++ .enqueueing entry patch :: after⟩) :
    Invariant ⟨state.changeEntry entry (SnapshotEntry.enqueue patch),
      before ++ .merging entry patch :: after⟩ := by
  have below : entry < state.made :=
    invariant.placed _ (List.mem_append_right before List.mem_cons_self)
  have traced := invariant.traced entry
  have counted := traced.counted
  rw [total_split] at counted
  refine invariant.changeEntry below ⟨traced.snapshot,
    traced.inOrder.trans (List.prefix_append _ _), ?_, ?_⟩ ?_ (fun _ => rfl) rfl below
  · change _ + (state.entries entry).merged.length =
      ((state.entries entry).enqueued ++ [patch]).length
    change _ + (0 + _) + (state.entries entry).merged.length =
      (state.entries entry).enqueued.length at counted
    rw [total_split, unmerged, if_pos rfl, List.length_append, List.length_singleton]
    omega
  · change (state.entries entry).taken ++ ((state.entries entry).pendingPatches ++ [patch]) =
      (state.entries entry).enqueued ++ [patch]
    rw [← List.append_assoc]
    exact congrArg (· ++ [patch]) traced.handed
  · intro other different
    exact if_neg (Ne.symm different)

theorem Invariant.merge (invariant : Invariant ⟨state, before ++ .merging entry patch :: after⟩)
    (inTurn : (state.entries entry).merged ++ [patch] <+: (state.entries entry).enqueued) :
    Invariant ⟨state.changeEntry entry (SnapshotEntry.merge patch),
      before ++ .notifying entry :: after⟩ := by
  have below : entry < state.made :=
    invariant.placed _ (List.mem_append_right before List.mem_cons_self)
  have traced := invariant.traced entry
  have counted := traced.counted
  rw [total_split, unmerged, if_pos rfl] at counted
  refine invariant.changeEntry below ⟨?_, inTurn, ?_, traced.handed⟩ ?_ (fun _ => rfl) rfl
    below
  · change mergePatch (state.entries entry).snapshot patch =
      applyPatches .emptyObject ((state.entries entry).merged ++ [patch])
    have merged : (state.entries entry).snapshot =
      applyPatches .emptyObject (state.entries entry).merged := traced.snapshot
    rw [applyPatches_append, ← merged]
    rfl
  · change _ + ((state.entries entry).merged ++ [patch]).length =
      (state.entries entry).enqueued.length
    change _ + (state.entries entry).merged.length =
      (state.entries entry).enqueued.length at counted
    rw [total_split, List.length_append, List.length_singleton]
    change _ + (0 + _) + _ = _
    omega
  · intro other different
    exact (if_neg (Ne.symm different)).symm

theorem Invariant.notify (invariant : Invariant ⟨state, before ++ .notifying entry :: after⟩) :
    Invariant ⟨state.changeEntry entry SnapshotEntry.notify, before ++ .done :: after⟩ := by
  have below : entry < state.made :=
    invariant.placed _ (List.mem_append_right before List.mem_cons_self)
  have traced : Traced (before ++ .done :: after) entry (state.entries entry) :=
    (invariant.traced entry).congr (total_replaced rfl)
  exact invariant.changeEntry below
    ⟨traced.snapshot, traced.inOrder, traced.counted, traced.handed⟩ (fun _ _ => rfl)
    (fun _ => rfl) rfl trivial

theorem Invariant.step (userId : String) (input : SnapshotInput)
    (invariant : Invariant ⟨state, before ++ task :: after⟩)
    (allowed : OneAfterAnother ⟨state, before ++ task :: after⟩ (.step input before.length)) :
    Invariant ⟨(advance userId input state task).2,
      before ++ (advance userId input state task).1 :: after⟩ := by
  rw [OneAfterAnother, getElem?_middle] at allowed
  have placed : Placed state task :=
    invariant.placed task (List.mem_append_right before List.mem_cons_self)
  cases task with
  | initializing session username =>
    rw [advance]
    have opened := invariant.initializeUser allowed
    cases (state.sessions session).status with
    | stopped => exact invariant.sameState (fun _ => rfl) (fun _ => rfl) trivial
    | connected => exact opened.sameState (fun _ => rfl) (fun _ => rfl) trivial
    | loggedIn => exact opened.sameState (fun _ => rfl) (fun _ => rfl) trivial
    | identified => exact opened.sameState (fun _ => rfl) (fun _ => rfl) trivial
  | entering patch =>
    exact invariant.getOrInsert.sameState (fun _ => rfl) (fun _ => rfl) invariant.current_lt
  | enqueueing entry patch => exact invariant.enqueue
  | merging entry patch => exact invariant.merge allowed
  | notifying entry => exact invariant.notify
  | identifying session =>
    rw [advance]
    have done : Invariant ⟨state, before ++ .done :: after⟩ :=
      invariant.sameState (fun _ => rfl) (fun _ => rfl) trivial
    cases status : (state.sessions session).status with
    | loggedIn =>
      apply done.restatus
      · exact nofun
      · intro _
        rw [isLive, status]
        rfl
    | connected => exact done
    | identified => exact done
    | stopped => exact done
  | asking session =>
    rw [advance]
    have done : Invariant ⟨state, before ++ .done :: after⟩ :=
      invariant.sameState (fun _ => rfl) (fun _ => rfl) trivial
    cases status : (state.sessions session).status with
    | identified =>
      have asks : Placed state (.testing session) := by
        rw [Placed, status]
        exact nofun
      exact invariant.sameState (fun _ => rfl) (fun _ => rfl) asks
    | connected => exact done
    | loggedIn => exact done
    | stopped => exact done
  | testing session =>
    rw [advance]
    cases isCurrent : state.current with
    | none => exact invariant.sameState (fun _ => rfl) (fun _ => rfl) trivial
    | some entry =>
      have below := invariant.currentMade entry isCurrent
      have listens : Placed state (.subscribing session entry) :=
        ⟨below, placed, fun _ => isCurrent⟩
      dsimp only
      split_ifs
      · exact invariant.sameState (fun _ => rfl) (fun _ => rfl) listens
      · exact invariant.sameState (fun _ => rfl) (fun _ => rfl) listens
  | takingFound session entry =>
    exact invariant.take placed.1 placed.2.2 placed.2.1 allowed (fun _ => rfl) (fun _ => rfl)
  | subscribing session entry =>
    exact invariant.sameState (fun _ => rfl) (fun _ => rfl) placed
  | waiting session entry calls =>
    dsimp only [advance]
    split_ifs
    · exact invariant.sameState (fun _ => rfl) (fun _ => rfl) placed.2.1
    · cases input with
      | proceed => exact invariant.sameState (fun _ => rfl) (fun _ => rfl) placed
      | expired => exact invariant.sameState (fun _ => rfl) (fun _ => rfl) trivial
  | takingAgain session =>
    rw [advance]
    cases isCurrent : state.current with
    | none => exact invariant.sameState (fun _ => rfl) (fun _ => rfl) trivial
    | some entry =>
      exact invariant.take (invariant.currentMade entry isCurrent) (fun _ => isCurrent)
        placed (allowed entry isCurrent) (fun _ => rfl) (fun _ => rfl)
  | answering session patches =>
    rw [advance]
    split_ifs with isStopped
    · apply invariant.discard
      rw [isLive, isStopped]
      exact nofun
    · exact invariant.send allowed
  | stopping session =>
    dsimp only [advance]
    have stopped : Invariant ⟨state.changeSession session fun opened =>
        { opened with status := .stopped }, before ++ .stopping session :: after⟩ :=
      invariant.restatus nofun nofun
    cases (state.sessions session).status with
    | identified => exact stopped.sameState (fun _ => rfl) (fun _ => rfl) trivial
    | connected => exact stopped.sameState (fun _ => rfl) (fun _ => rfl) trivial
    | loggedIn => exact stopped.sameState (fun _ => rfl) (fun _ => rfl) trivial
    | stopped => exact stopped.sameState (fun _ => rfl) (fun _ => rfl) trivial
  | removing => exact invariant.remove allowed
  | done => exact invariant

end Steps

theorem Invariant.call (invariant : Invariant pool) (call : DiffCall) :
    Invariant ⟨pool.shared, pool.tasks ++ [start call]⟩ := by
  have noneUnmerged : ∀ entry, unmerged entry (start call) = 0 := by
    intro entry
    cases call <;> rfl
  have noneUnsent : ∀ session, unsent session (start call) = 0 := by
    intro session
    cases call <;> rfl
  have started : ∀ weight : DiffTask → ℕ, weight (start call) = 0 →
      total weight (pool.tasks ++ [start call]) = total weight pool.tasks := by
    intro weight none
    rw [total_split, none]
    rfl
  refine ⟨?_, invariant.fresh, invariant.currentMade, ?_, ?_⟩
  · intro entry
    exact (invariant.traced entry).congr (started _ (noneUnmerged entry))
  · intro task member
    rcases List.mem_append.mp member with isOld | isNew
    · exact invariant.placed task isOld
    · rw [List.mem_singleton.mp isNew]
      cases call <;> trivial
  · intro session live
    rcases invariant.follows session live with ⟨entry, isCurrent, follows⟩
    exact ⟨entry, isCurrent, follows.congr (started _ (noneUnsent session))⟩

/-- In every run of logins, peeks, patches and disconnects in which the sessions follow one
another, every live session has the snapshot and hears of the next patches. -/
theorem everySessionWhole_of_obeys (userId : String) (turns : List (Turn DiffCall SnapshotInput))
    (oneAfterAnother : (service userId).Obeys OneAfterAnother turns ⟨new, []⟩) :
    EverySessionWhole ((service userId).run turns ⟨new, []⟩) := by
  have invariant : Invariant ((service userId).run turns ⟨new, []⟩) := by
    apply (service userId).run_preserves Invariant _ _ turns _ oneAfterAnother invariant_new
    · intro pool call holds
      exact holds.call call
    · intro shared before task after input holds allowed
      exact holds.step userId input allowed
  exact invariant.whole

/-- A session logs in, learns its user and peeks; its tasks come after `first` others. -/
def logInAndPeek (session first : ℕ) : List (Turn DiffCall SnapshotInput) :=
  [.call (.login session "alice"), .step .proceed first, .step .proceed first,
    .step .proceed first, .step .proceed first, .step .proceed first,
    .call (.setUserId session), .step .proceed (first + 1),
    .call (.peekMessage session), .step .proceed (first + 2), .step .proceed (first + 2),
    .step .proceed (first + 2), .step .proceed (first + 2)]

theorem oneSession_whole : EverySessionWhole ((service "u1").run (logInAndPeek 0 0) ⟨new, []⟩) := by
  apply everySessionWhole_of_obeys
  refine ⟨trivial, ?_, trivial, trivial, ?_, trivial, trivial, trivial, trivial, trivial, trivial,
    ?_, ?_, trivial⟩
  · intro _ entry isCurrent
    cases isCurrent
  · exact List.prefix_rfl
  · intro _ other live
    cases other with
    | zero => rfl
    | succ other => cases live
  · intro _ entry isCurrent
    cases isCurrent
    exact List.prefix_rfl

/-- A first session takes a patch, and a second one logs in beside it. -/
def besideAnother : List (Turn DiffCall SnapshotInput) :=
  .call (.pushPatch (.object [("balance", .number "100")])) ::
    (List.replicate 4 (.step .proceed 0) ++ logInAndPeek 0 1 ++ logInAndPeek 1 4)

/-- Then the first session stops. -/
def endsBesideAnother : List (Turn DiffCall SnapshotInput) :=
  besideAnother ++ [.call (.stop 0), .step .proceed 7, .step .proceed 7]

theorem besideAnother_lacks :
    let pool := (service "u1").run besideAnother ⟨new, []⟩
    let ended := (service "u1").run endsBesideAnother ⟨new, []⟩
    pool.shared.isLive 1 ∧ (pool.shared.sessions 1).received = [loginPatch "alice" "u1"] ∧
      (pool.shared.entries 0).snapshot =
        applyPatches .emptyObject
          [.object [("balance", .number "100")], loginPatch "alice" "u1",
            loginPatch "alice" "u1"] ∧
      ¬ Whole pool 1 ∧
      ended.shared.isLive 1 ∧ ended.shared.current = none ∧ ¬ Whole ended 1 := by
  refine ⟨rfl, rfl, rfl, ?_, rfl, rfl, ?_⟩
  · rintro ⟨entry, isCurrent, _, same⟩
    cases isCurrent
    have equal := same (by decide) rfl
    injection equal with fields
    injection fields with field _
    injection field with key _
    exact absurd key (by decide)
  · rintro ⟨entry, isCurrent, _⟩
    cases isCurrent

end DiffSessions

end QAExchange
