import QAExchange.Foundation.Interleaving
import QAExchange.Protocol.MergePatch

/-! # The snapshot of a user

A push puts its patch into the queue of the user, merges it into the snapshot and wakes
the peeks that wait. A peek takes the queue, at once or when it is woken.
-/

namespace QAExchange

open Foundation

/-- The entry of one user. Until the map has the user it is as `new` makes it. A future of
`notified()` is ready when `notify_waiters` was called since it was made, of which
`notifyCalls` is the count. -/
structure UserSnapshotState where
  registered : Bool
  snapshot : Value
  pendingPatches : List Value
  notifyCalls : ℕ

namespace UserSnapshotState

def new : UserSnapshotState where
  registered := false
  snapshot := .emptyObject
  pendingPatches := []
  notifyCalls := 0

def hasPendingPatches (state : UserSnapshotState) : Bool := !state.pendingPatches.isEmpty

end UserSnapshotState

inductive SnapshotCall
  | pushPatch (patch : Value)
  | broadcastPatch (patch : Value)
  | peek

inductive SnapshotTask
  | entering (patch : Value)
  | broadcasting (patch : Value)
  | enqueueing (patch : Value)
  | merging (patch : Value)
  | notifying
  | pushed
  /-- The user is looked up and the queue is tested. -/
  | testing
  /-- The queue was empty, and `notified()` is to be called. -/
  | subscribing
  /-- A future that was made after so many calls of `notify_waiters`. -/
  | waiting (notifyCalls : ℕ)
  | taking
  | returned (patches : List Value)
  | timedOut
  | unknownUser

/-- What a step of a task depends on besides the shared state: whether the timeout of a
peek has expired. -/
inductive SnapshotInput
  | proceed
  | expired

namespace SnapshotManager

def start : SnapshotCall → SnapshotTask
  | .pushPatch patch => .entering patch
  | .broadcastPatch patch => .broadcasting patch
  | .peek => .testing

def advance (input : SnapshotInput) (state : UserSnapshotState) :
    SnapshotTask → SnapshotTask × UserSnapshotState
  | .entering patch => (.enqueueing patch, { state with registered := true })
  | .broadcasting patch =>
    (if state.registered then .enqueueing patch else .pushed, state)
  | .enqueueing patch =>
    (.merging patch, { state with pendingPatches := state.pendingPatches ++ [patch] })
  | .merging patch => (.notifying, { state with snapshot := mergePatch state.snapshot patch })
  | .notifying => (.pushed, { state with notifyCalls := state.notifyCalls + 1 })
  | .pushed => (.pushed, state)
  | .testing =>
    if !state.registered then (.unknownUser, state)
    else if state.hasPendingPatches then (.taking, state)
    else (.subscribing, state)
  | .subscribing => (.waiting state.notifyCalls, state)
  | .waiting calls =>
    -- `timeout` polls the future before the clock
    if calls < state.notifyCalls then (.taking, state)
    else
      match input with
      | .proceed => (.waiting calls, state)
      | .expired => (.timedOut, state)
  | .taking => (.returned state.pendingPatches, { state with pendingPatches := [] })
  | .returned patches => (.returned patches, state)
  | .timedOut => (.timedOut, state)
  | .unknownUser => (.unknownUser, state)

def service : Service UserSnapshotState SnapshotTask SnapshotCall SnapshotInput where
  start := start
  advance := advance

end SnapshotManager

abbrev SnapshotPool := Pool UserSnapshotState SnapshotTask

def SnapshotPool.new (initialized : Bool) : SnapshotPool :=
  ⟨{ UserSnapshotState.new with registered := initialized }, []⟩

end QAExchange
