import QAExchange.Protocol.SnapshotManager

/-! # Client and server snapshot

The client applies the patches in the order of the queue, and the server in the order in
which the pushes get hold of the snapshot.
-/

namespace QAExchange

open Foundation

def SnapshotTask.isOpenPush : SnapshotTask → Bool
  | .entering _ | .broadcasting _ | .enqueueing _ | .merging _ | .notifying => true
  | .pushed | .testing | .subscribing | .waiting _ | .taking | .returned _ | .timedOut
  | .unknownUser => false

namespace SnapshotManager

/-- The patches that peeks have taken, one after the other, after a turn. -/
def takenAfter (pool : SnapshotPool) (taken : List Value) :
    Turn SnapshotCall SnapshotInput → List Value
  | .call _ => taken
  | .step _ index =>
    match pool.tasks[index]? with
    | some .taking => taken ++ pool.shared.pendingPatches
    | _ => taken

/-- When no push is under way, the patches that were taken and those in the queue give the
snapshot. -/
def Agrees (taken : List Value) (pool : SnapshotPool) : Prop :=
  (∀ task ∈ pool.tasks, task.isOpenPush = false) →
    applyPatches .emptyObject (taken ++ pool.shared.pendingPatches) = pool.shared.snapshot

def AgreesThroughout :
    List (Turn SnapshotCall SnapshotInput) → List Value → SnapshotPool → Prop
  | [], taken, pool => Agrees taken pool
  | turn :: turns, taken, pool =>
    Agrees taken pool ∧
      AgreesThroughout turns (takenAfter pool taken turn) (service.next pool turn)

/-- The pushes that have put their patch into the queue and not merged it, after a turn.
They are in the order of the queue. -/
def unmergedAfter (pool : SnapshotPool) (unmerged : List (ℕ × Value)) :
    Turn SnapshotCall SnapshotInput → List (ℕ × Value)
  | .call _ => unmerged
  | .step _ index =>
    match pool.tasks[index]? with
    | some (.enqueueing patch) => unmerged ++ [(index, patch)]
    | some (.merging _) => unmerged.filter fun push => push.1 ≠ index
    | _ => unmerged

/-- A patch is merged before older ones of the queue only if the snapshot is the same
after all of them. -/
def MergesInTurn (pool : SnapshotPool) (unmerged : List (ℕ × Value)) :
    Turn SnapshotCall SnapshotInput → Prop
  | .call _ => True
  | .step _ index =>
    match pool.tasks[index]? with
    | some (.merging patch) =>
      let older := (unmerged.takeWhile fun push => push.1 ≠ index).map Prod.snd
      applyPatches pool.shared.snapshot (patch :: older) =
        applyPatches pool.shared.snapshot (older ++ [patch])
    | _ => True

def MergesInOrder :
    List (Turn SnapshotCall SnapshotInput) → List (ℕ × Value) → SnapshotPool → Prop
  | [], _, _ => True
  | turn :: turns, unmerged, pool =>
    MergesInTurn pool unmerged turn ∧
      MergesInOrder turns (unmergedAfter pool unmerged turn) (service.next pool turn)

/-! ## What holds while the patches are merged in order -/

structure Tracks (taken : List Value) (unmerged : List (ℕ × Value)) (pool : SnapshotPool) :
    Prop where
  distinct : (unmerged.map Prod.fst).Nodup
  merging : ∀ index patch, (index, patch) ∈ unmerged ↔ pool.tasks[index]? = some (.merging patch)
  same : applyPatches pool.shared.snapshot (unmerged.map Prod.snd) =
    applyPatches .emptyObject (taken ++ pool.shared.pendingPatches)

section Tracks

variable {taken : List Value} {unmerged : List (ℕ × Value)} {pool : SnapshotPool}

theorem Tracks.agrees (tracks : Tracks taken unmerged pool) : Agrees taken pool := by
  intro quiet
  have none : unmerged = [] := by
    apply List.eq_nil_iff_forall_not_mem.mpr
    rintro ⟨index, patch⟩ member
    have found := (tracks.merging index patch).mp member
    have done := quiet _ (List.mem_of_getElem? found)
    cases done
  have same := tracks.same
  rw [none] at same
  exact same.symm

theorem Tracks.call (tracks : Tracks taken unmerged pool) (call : SnapshotCall) :
    Tracks taken unmerged ⟨pool.shared, pool.tasks ++ [start call]⟩ := by
  refine ⟨tracks.distinct, ?_, tracks.same⟩
  intro index patch
  rw [tracks.merging]
  change _ ↔ (pool.tasks ++ [start call])[index]? = _
  by_cases inside : index < pool.tasks.length
  · rw [List.getElem?_append_left inside]
  · have outside : pool.tasks[index]? = none := List.getElem?_eq_none (not_lt.mp inside)
    rw [outside, List.getElem?_append_right (not_lt.mp inside)]
    refine iff_of_false (by simp) ?_
    intro found
    have isStart := List.mem_singleton.mp (List.mem_of_getElem? found)
    cases call <;> cases isStart

theorem Tracks.other (tracks : Tracks taken unmerged pool) (found : pool.tasks[index]? = some task)
    (wasOther : ∀ patch, task ≠ .merging patch) (isOther : ∀ patch, moved ≠ .merging patch)
    (other : ℕ) (patch : Value) : (other, patch) ∈ unmerged ↔
      (pool.tasks.set index moved)[other]? = some (.merging patch) := by
  rw [tracks.merging]
  by_cases same : index = other
  · subst same
    rcases List.getElem?_eq_some_iff.mp found with ⟨inside, _⟩
    rw [found, List.getElem?_set_self inside]
    exact iff_of_false (fun equal => wasOther patch (Option.some.inj equal))
      (fun equal => isOther patch (Option.some.inj equal))
  · rw [List.getElem?_set_ne same]

theorem Tracks.enqueue (tracks : Tracks taken unmerged pool) {index : ℕ} {patch : Value}
    (found : pool.tasks[index]? = some (.enqueueing patch)) :
    Tracks taken (unmerged ++ [(index, patch)])
      ⟨{ pool.shared with pendingPatches := pool.shared.pendingPatches ++ [patch] },
        pool.tasks.set index (.merging patch)⟩ := by
  rcases List.getElem?_eq_some_iff.mp found with ⟨inside, _⟩
  have isNew : ∀ other, (index, other) ∉ unmerged := by
    intro other member
    have merging := (tracks.merging index other).mp member
    rw [found] at merging
    cases merging
  refine ⟨?_, ?_, ?_⟩
  · rw [List.map_append, List.nodup_append]
    refine ⟨tracks.distinct, List.nodup_singleton _, ?_⟩
    intro old isOld last isLast same
    rcases List.mem_map.mp isOld with ⟨⟨_, other⟩, member, rfl⟩
    rw [List.map_singleton, List.mem_singleton] at isLast
    subst same
    change _ = index at isLast
    subst isLast
    exact isNew other member
  · intro other value
    change _ ↔ (pool.tasks.set index (.merging patch))[other]? = _
    by_cases same : index = other
    · subst same
      rw [List.getElem?_set_self inside, List.mem_append, List.mem_singleton]
      constructor
      · rintro (member | isLast)
        · exact absurd member (isNew value)
        · cases isLast
          rfl
      · intro equal
        cases equal
        exact .inr rfl
    · rw [List.getElem?_set_ne same, ← tracks.merging, List.mem_append, List.mem_singleton]
      constructor
      · rintro (member | isLast)
        · exact member
        · cases isLast
          exact absurd rfl same
      · exact .inl
  · change applyPatches pool.shared.snapshot _ =
      applyPatches _ (taken ++ (pool.shared.pendingPatches ++ [patch]))
    rw [List.map_append, applyPatches_append, tracks.same, ← List.append_assoc]
    exact (applyPatches_append _ _ _).symm

theorem Tracks.merge (tracks : Tracks taken unmerged pool) {index : ℕ} {patch : Value}
    (found : pool.tasks[index]? = some (.merging patch))
    (inTurn : let older := (unmerged.takeWhile fun push => push.1 ≠ index).map Prod.snd
      applyPatches pool.shared.snapshot (patch :: older) =
        applyPatches pool.shared.snapshot (older ++ [patch])) :
    Tracks taken (unmerged.filter fun push => push.1 ≠ index)
      ⟨{ pool.shared with snapshot := mergePatch pool.shared.snapshot patch },
        pool.tasks.set index .notifying⟩ := by
  rcases List.getElem?_eq_some_iff.mp found with ⟨inside, _⟩
  have member := (tracks.merging index patch).mpr found
  rcases List.append_of_mem member with ⟨older, newer, split⟩
  have distinct := tracks.distinct
  rw [split, List.map_append, List.map_cons, List.nodup_append, List.nodup_cons] at distinct
  have olderOther : ∀ push ∈ older, push.1 ≠ index := by
    intro push isOlder
    exact distinct.2.2 push.1 (List.mem_map_of_mem isOlder) index (List.mem_cons_self ..)
  have newerOther : ∀ push ∈ newer, push.1 ≠ index := by
    intro push isNewer same
    have inside : push.1 ∈ newer.map Prod.fst := List.mem_map_of_mem isNewer
    rw [same] at inside
    exact distinct.2.1.1 inside
  have before : unmerged.takeWhile (fun push => push.1 ≠ index) = older := by
    rw [split, List.takeWhile_append_of_pos fun push isOlder => by simpa using olderOther push isOlder]
    simp
  have remaining : unmerged.filter (fun push => push.1 ≠ index) = older ++ newer := by
    rw [split, List.filter_append, List.filter_cons_of_neg (by simp)]
    congr 1
    · exact List.filter_eq_self.mpr fun push isOlder => by simpa using olderOther push isOlder
    · exact List.filter_eq_self.mpr fun push isNewer => by simpa using newerOther push isNewer
  rw [before] at inTurn
  refine ⟨?_, ?_, ?_⟩
  · exact tracks.distinct.sublist (List.filter_sublist.map _)
  · intro other value
    change _ ↔ (pool.tasks.set index .notifying)[other]? = _
    rw [List.mem_filter, tracks.merging, decide_eq_true_iff]
    by_cases same : index = other
    · subst same
      rw [List.getElem?_set_self inside]
      exact iff_of_false (fun both => both.2 rfl) (by simp)
    · rw [List.getElem?_set_ne same]
      exact and_iff_left (Ne.symm same)
  · have old := tracks.same
    rw [split, List.map_append, List.map_cons] at old
    rw [remaining, List.map_append]
    change applyPatches (mergePatch pool.shared.snapshot patch) _ = _
    calc applyPatches (mergePatch pool.shared.snapshot patch)
          (older.map Prod.snd ++ newer.map Prod.snd)
        = applyPatches (applyPatches pool.shared.snapshot (patch :: older.map Prod.snd))
            (newer.map Prod.snd) := applyPatches_append _ _ _
      _ = applyPatches (applyPatches pool.shared.snapshot (older.map Prod.snd ++ [patch]))
            (newer.map Prod.snd) := by rw [inTurn]
      _ = applyPatches pool.shared.snapshot
            (older.map Prod.snd ++ patch :: newer.map Prod.snd) := by
          rw [← applyPatches_append, List.append_assoc, List.singleton_append]
      _ = applyPatches .emptyObject (taken ++ pool.shared.pendingPatches) := old

theorem Tracks.next (tracks : Tracks taken unmerged pool)
    (inTurn : MergesInTurn pool unmerged turn) :
    Tracks (takenAfter pool taken turn) (unmergedAfter pool unmerged turn)
      (service.next pool turn) := by
  cases turn with
  | call call => exact tracks.call call
  | step input index =>
    cases found : pool.tasks[index]? with
    | none =>
      simp only [takenAfter, unmergedAfter, Service.next, found]
      exact tracks
    | some task =>
      have next : service.next pool (.step input index) =
          ⟨(advance input pool.shared task).2,
            pool.tasks.set index (advance input pool.shared task).1⟩ := by
        simp only [Service.next, found]
        rfl
      rw [next]
      simp only [MergesInTurn, found] at inTurn
      simp only [takenAfter, unmergedAfter, found]
      -- steps that leave queue and snapshot as they are
      have still : ∀ (shared : UserSnapshotState) (moved : SnapshotTask),
          shared.snapshot = pool.shared.snapshot →
          shared.pendingPatches = pool.shared.pendingPatches →
          (∀ patch, task ≠ .merging patch) → (∀ patch, moved ≠ .merging patch) →
          Tracks taken unmerged ⟨shared, pool.tasks.set index moved⟩ := by
        intro shared moved snapshot pending wasOther isOther
        refine ⟨tracks.distinct, tracks.other found wasOther isOther, ?_⟩
        change applyPatches shared.snapshot _ = applyPatches _ (_ ++ shared.pendingPatches)
        rw [snapshot, pending]
        exact tracks.same
      cases task with
      | enqueueing patch => exact tracks.enqueue found
      | merging patch => exact tracks.merge found inTurn
      | taking =>
        refine ⟨tracks.distinct, tracks.other found (by simp) (by simp [advance]), ?_⟩
        change _ = applyPatches _ (taken ++ pool.shared.pendingPatches ++ [])
        rw [List.append_nil]
        exact tracks.same
      | broadcasting patch =>
        apply still _ _ rfl rfl (by simp)
        simp only [advance]
        split_ifs <;> simp
      | testing =>
        apply still
        · simp only [advance]
          split_ifs <;> rfl
        · simp only [advance]
          split_ifs <;> rfl
        · simp
        · simp only [advance]
          split_ifs <;> simp
      | waiting calls =>
        simp only [advance]
        split_ifs
        · exact still _ _ rfl rfl (by simp) (by simp)
        · cases input with
          | proceed => exact still _ _ rfl rfl (by simp) (by simp)
          | expired => exact still _ _ rfl rfl (by simp) (by simp)
      | entering patch => exact still _ _ rfl rfl (by simp) (by simp [advance])
      | notifying => exact still _ _ rfl rfl (by simp) (by simp [advance])
      | pushed => exact still _ _ rfl rfl (by simp) (by simp [advance])
      | subscribing => exact still _ _ rfl rfl (by simp) (by simp [advance])
      | returned patches => exact still _ _ rfl rfl (by simp) (by simp [advance])
      | timedOut => exact still _ _ rfl rfl (by simp) (by simp [advance])
      | unknownUser => exact still _ _ rfl rfl (by simp) (by simp [advance])

end Tracks

theorem Tracks.agreesThroughout :
    ∀ {turns : List (Turn SnapshotCall SnapshotInput)} {taken : List Value}
      {unmerged : List (ℕ × Value)} {pool : SnapshotPool},
      Tracks taken unmerged pool → MergesInOrder turns unmerged pool →
      AgreesThroughout turns taken pool
  | [], _, _, _, tracks, _ => tracks.agrees
  | _ :: _, _, _, _, tracks, ⟨inTurn, later⟩ =>
    ⟨tracks.agrees, (tracks.next inTurn).agreesThroughout later⟩

def fieldPatch (text : String) : Value := .object [("balance", .number text)]

def twoQueued : List (Turn SnapshotCall SnapshotInput) :=
  [.call (.pushPatch (fieldPatch "1")), .call (.pushPatch (fieldPatch "2")),
    .step .proceed 0, .step .proceed 1, .step .proceed 0, .step .proceed 1]

end SnapshotManager

end QAExchange
