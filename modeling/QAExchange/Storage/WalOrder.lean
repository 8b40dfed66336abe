import QAExchange.Storage.ReferenceCodec
import QAExchange.Storage.WalLayout

/-! # The order of the log

The four ways to append share one sequence, but only the group commit buffers
its entries. Replay delivers the entries as they were written to the files, so
the order is right unless a write passes over buffered entries.
-/

namespace QAExchange

open Foundation Action Framing Segment

variable {Record : Type}

inductive WalCall (Record : Type)
  | append (seconds : ℤ) (stamped : Stamped Record)
  | appendBatch (seconds : ℤ) (records : List (Stamped Record))
  | appendAsync (seconds : ℤ) (elapsed : ℕ) (stamped : Stamped Record)
  | flushGroupCommit (seconds : ℤ)

/-- `append` and `append_batch`. -/
def WalCall.IsSync : WalCall Record → Prop
  | .append .. | .appendBatch .. => True
  | .appendAsync .. | .flushGroupCommit _ => False

def WalCall.records : WalCall Record → List (Stamped Record)
  | .append _ stamped | .appendAsync _ _ stamped => [stamped]
  | .appendBatch _ records => records
  | .flushGroupCommit _ => []

/-- What replay is to deliver of a record: its number and the record. -/
def WalEntry.numberedRecord (entry : WalEntry Record) : ℕ × Record :=
  (entry.sequence, entry.record)

namespace WalManager

/-- Make a call, and return the records that it appended under the numbers that
it returned for them. -/
def perform (codec : EntryCodec Record) :
    WalCall Record → Action String WalManager (List (ℕ × Record))
  | .append seconds stamped => do
    let sequence ← append codec seconds stamped
    pure [(sequence, stamped.record)]
  | .appendBatch seconds records => do
    let sequences ← appendBatch codec seconds records
    pure (sequences.zip (records.map Stamped.record))
  | .appendAsync seconds elapsed stamped => do
    let sequence ← appendAsync codec seconds elapsed stamped
    pure [(sequence, stamped.record)]
  | .flushGroupCommit seconds => do
    let _ ← flushGroupCommit seconds
    pure []

def performAll (codec : EntryCodec Record) :
    List (WalCall Record) → Action String WalManager (List (ℕ × Record))
  | [] => pure []
  | call :: calls => do
    let appended ← perform codec call
    let rest ← performAll codec calls
    pure (appended ++ rest)

def collect (entry : WalEntry Record) : Action String (List (WalEntry Record)) Unit :=
  update fun entries => entries ++ [entry]

/-- The entries that replay delivers, one after the other. -/
def delivered (codec : EntryCodec Record) (files : List WalFile) :
    Except String Unit × List (WalEntry Record) :=
  exec (replay codec collect files) []

/-- Replay succeeds and delivers each of the records once, under its number, in
the order of the numbers. -/
def DeliversInOrder (codec : EntryCodec Record) (files : List WalFile)
    (appended : List (ℕ × Record)) : Prop :=
  (delivered codec files).1 = .ok () ∧
    ((delivered codec files).2.map WalEntry.numberedRecord).Perm appended ∧
    ((delivered codec files).2.map WalEntry.sequence).Pairwise (· < ·)

instance decidableEqOk {α : Type} [DecidableEq α] :
    ∀ (outcome : Except String α) (value : α), Decidable (outcome = .ok value)
  | .ok found, value => decidable_of_iff (found = value) (by simp)
  | .error _, _ => .isFalse (by simp)

instance [DecidableEq Record] (codec : EntryCodec Record) (files : List WalFile)
    (appended : List (ℕ × Record)) : Decidable (DeliversInOrder codec files appended) := by
  unfold DeliversInOrder
  infer_instance

def WritesNow (manager : WalManager) : WalCall Record → Prop
  | .append .. => True
  | .appendBatch _ records => records ≠ []
  | .appendAsync .. => manager.groupCommitConfig.enabled = false
  | .flushGroupCommit _ => False

def NothingPassedOver (codec : EntryCodec Record) : List (WalCall Record) → WalManager → Prop
  | [], _ => True
  | call :: calls, manager =>
    (manager.WritesNow call → manager.groupCommitBuffer = []) ∧
      NothingPassedOver codec calls (exec (perform codec call) manager).2

instance decidableWritesNow (manager : WalManager) :
    ∀ call : WalCall Record, Decidable (manager.WritesNow call)
  | .append .. => .isTrue trivial
  | .appendBatch _ [] => .isFalse fun some => some rfl
  | .appendBatch _ (_ :: _) => .isTrue (List.cons_ne_nil _ _)
  | .appendAsync .. => inferInstanceAs (Decidable (manager.groupCommitConfig.enabled = false))
  | .flushGroupCommit _ => .isFalse id

instance decidableNothingPassedOver (codec : EntryCodec Record) :
    ∀ (calls : List (WalCall Record)) (manager : WalManager),
      Decidable (NothingPassedOver codec calls manager)
  | [], _ => .isTrue trivial
  | call :: calls, manager =>
    have := decidableNothingPassedOver codec calls (exec (perform codec call) manager).2
    inferInstanceAs (Decidable ((manager.WritesNow call → manager.groupCommitBuffer = []) ∧
      NothingPassedOver codec calls (exec (perform codec call) manager).2))

theorem exec_forM_collect (entries collected : List (WalEntry Record)) :
    exec (forM entries collect) collected = (.ok (), collected ++ entries) := by
  induction entries generalizing collected with
  | nil => simp
  | cons entry entries induction =>
    rw [List.forM_cons, exec_bind, collect, exec_update]
    simp only [induction, List.append_assoc, List.singleton_append]

theorem delivered_segments {codec : EntryCodec Record} (roundTrip : codec.RoundTrip)
    {segments : List (Segment Record)}
    (stored : ∀ segment ∈ segments, ∀ entry ∈ segment.entries, entry.Stored codec) :
    delivered codec (segments.map (toFile codec)) =
      (.ok (), segments.flatMap Segment.entries) := by
  rw [delivered, replay_segments roundTrip _ stored, exec_forM_collect, List.nil_append]

/-! ## Runs without passing over -/

structure Ordered (codec : EntryCodec Record) (manager : WalManager) (layout : Layout Record)
    (buffer : List (WalEntry Record)) (appended : List (ℕ × Record)) : Prop where
  stores : Stores codec manager layout
  linked : layout.linked = true
  buffered : manager.groupCommitBuffer = buffer.map (WalEntry.preSerialized codec)
  bufferStored : ∀ entry ∈ buffer, entry.Stored codec
  increasing : ((layout.entries ++ buffer).map WalEntry.sequence).Pairwise (· < ·)
  below : ∀ entry ∈ layout.entries ++ buffer, entry.sequence < manager.currentSequence
  newer : ∀ entry ∈ buffer, ∀ segment ∈ layout.segments, segment.start ≤ entry.sequence
  appended_eq : appended = (layout.entries ++ buffer).map WalEntry.numberedRecord

end WalManager

namespace WalEntry

theorem sequence_numberedFrom (codec : EntryCodec Record) (sequence : ℕ)
    (records : List (Stamped Record)) :
    (numberedFrom codec sequence records).map WalEntry.sequence =
      List.range' sequence records.length := by
  induction records generalizing sequence with
  | nil => rfl
  | cons stamped records induction =>
    simp only [numberedFrom, List.map_cons, induction, List.length_cons, List.range'_succ]
    rfl

theorem zip_numberedFrom (codec : EntryCodec Record) (sequence : ℕ)
    (records : List (Stamped Record)) :
    ((numberedFrom codec sequence records).map WalEntry.sequence).zip (records.map Stamped.record) =
      (numberedFrom codec sequence records).map numberedRecord := by
  induction records generalizing sequence with
  | nil => rfl
  | cons stamped records induction =>
    simp only [numberedFrom, List.map_cons, List.zip_cons_cons, induction]
    rfl

theorem mem_numberedFrom {codec : EntryCodec Record} {sequence : ℕ}
    {records : List (Stamped Record)} {entry : WalEntry Record}
    (member : entry ∈ numberedFrom codec sequence records) :
    sequence ≤ entry.sequence ∧ entry.sequence < sequence + records.length := by
  have inRange := List.mem_map_of_mem (f := WalEntry.sequence) member
  rw [sequence_numberedFrom, List.mem_range'_1] at inRange
  exact inRange

theorem numberedFrom_ne_nil (codec : EntryCodec Record) (sequence : ℕ)
    {records : List (Stamped Record)} (some : records ≠ []) :
    numberedFrom codec sequence records ≠ [] := by
  cases records with
  | nil => exact absurd rfl some
  | cons stamped records => simp [numberedFrom]

end WalEntry

namespace WalManager

variable {codec : EntryCodec Record} {manager after : WalManager}

/-- `append` and `append_batch` number their records and write them, or there is
nothing to write. -/
theorem exec_perform_sync {call : WalCall Record} (sync : call.IsSync)
    (ran : exec (WalManager.perform codec call) manager = (.ok more, after)) :
    let entries := WalEntry.numberedFrom codec manager.currentSequence call.records
    (call.records = [] ∧ after = manager ∧ more = []) ∨
      (call.records ≠ [] ∧ (∀ entry ∈ entries, entry.Stored codec) ∧
        more = entries.map WalEntry.numberedRecord ∧
        ∃ seconds, after = wrote seconds (entries.map (WalEntry.preSerialized codec))
          (manager.advanced call.records.length)) := by
  intro entries
  cases call with
  | append seconds stamped =>
    rcases exec_bind_eq_ok ran with ⟨_, _, first, ran⟩
    rcases exec_append first with ⟨stored, rfl, rfl⟩
    cases ran
    refine .inr ⟨List.cons_ne_nil _ _, ?_, rfl, seconds, rfl⟩
    intro entry member
    rw [List.mem_singleton.mp member]
    exact stored
  | appendBatch seconds records =>
    by_cases none : records = []
    · subst none
      cases ran
      exact .inl ⟨rfl, rfl, rfl⟩
    · rcases exec_bind_eq_ok ran with ⟨_, _, first, ran⟩
      rcases exec_appendBatch first none with ⟨stored, rfl, rfl⟩
      simp only [exec_pure, WalEntry.zip_numberedFrom] at ran
      cases ran
      exact .inr ⟨none, stored, rfl, seconds, rfl⟩
  | appendAsync seconds elapsed stamped => exact absurd sync id
  | flushGroupCommit seconds => exact absurd sync id

section Ordered

variable {codec : EntryCodec Record}

theorem Ordered.skipped (ordered : Ordered codec manager layout buffer appended) (count : ℕ) :
    Ordered codec (manager.advanced count) layout buffer appended where
  stores := ordered.stores.advanced count
  linked := ordered.linked
  buffered := ordered.buffered
  bufferStored := ordered.bufferStored
  increasing := ordered.increasing
  below := fun entry member => (ordered.below entry member).trans_le (Nat.le_add_right _ _)
  newer := ordered.newer
  appended_eq := ordered.appended_eq

theorem Ordered.wroteNumbered (ordered : Ordered codec manager layout [] appended) (seconds : ℤ)
    (records : List (Stamped Record))
    (stored : ∀ entry ∈ WalEntry.numberedFrom codec manager.currentSequence records,
      entry.Stored codec) (some : records ≠ []) :
    let entries := WalEntry.numberedFrom codec manager.currentSequence records
    let after := manager.advanced records.length
    Ordered codec (wrote seconds (entries.map (WalEntry.preSerialized codec)) after)
      (layout.append (after.full (entries.map (WalEntry.preSerialized codec)))
        after.currentSequence seconds entries)
      [] (appended ++ entries.map WalEntry.numberedRecord) := by
  intro entries after
  have positive : 0 < records.length := List.length_pos_of_ne_nil some
  have wrote := (ordered.stores.advanced records.length).wrote stored seconds
    (fun _ segment member => by
      have bound := ordered.stores.bounded segment member
      simp only [WalManager.advanced]
      omega)
  have contents := Layout.entries_append ordered.linked (ordered.stores.nonempty ordered.linked)
    ((manager.advanced records.length).full (entries.map (WalEntry.preSerialized codec)))
    (manager.advanced records.length).currentSequence seconds entries
  refine ⟨wrote, Layout.linked_append ordered.linked _ _ _ _, ?_, by simp, ?_, ?_, by simp, ?_⟩
  · rw [wrote_groupCommitBuffer]
    exact ordered.buffered
  · have increasing := ordered.increasing
    rw [List.append_nil] at increasing
    rw [List.append_nil, contents, List.map_append, List.pairwise_append,
      WalEntry.sequence_numberedFrom]
    refine ⟨increasing, List.pairwise_lt_range', ?_⟩
    intro early isEarly late isLate
    rcases List.mem_map.mp isEarly with ⟨entry, member, rfl⟩
    have small := ordered.below entry (by simp [member])
    have large := (List.mem_range'_1.mp isLate).1
    omega
  · rw [List.append_nil, contents]
    intro entry member
    rw [wrote_currentSequence]
    change entry.sequence < manager.currentSequence + records.length
    rcases List.mem_append.mp member with old | isNew
    · have small := ordered.below entry (by simp [old])
      omega
    · exact (WalEntry.mem_numberedFrom isNew).2
  · rw [List.append_nil, contents, ordered.appended_eq, List.append_nil, List.map_append]

theorem Ordered.flush (ordered : Ordered codec manager layout buffer appended) (seconds : ℤ) :
    ∃ layout', Ordered codec (manager.flushed seconds) layout' [] appended := by
  have buffered := ordered.buffered
  cases buffer with
  | nil =>
    have same : manager.flushed seconds = manager.cleared := by
      rw [flushed, buffered]
      rfl
    refine ⟨layout, ?_⟩
    rw [same]
    exact ⟨ordered.stores.congr rfl rfl (le_refl _), ordered.linked, rfl, ordered.bufferStored,
      ordered.increasing, ordered.below, ordered.newer, ordered.appended_eq⟩
  | cons entry buffer =>
    have isWrite : manager.flushed seconds = manager.cleared.wrote seconds
        ((entry :: buffer).map (WalEntry.preSerialized codec)) := by
      rw [flushed, buffered]
      rfl
    have cleared : Stores codec manager.cleared layout :=
      ordered.stores.congr rfl rfl (le_refl _)
    have wrote := cleared.wrote ordered.bufferStored seconds (fun _ segment member => by
      have old := ordered.newer entry (by simp) segment member
      have small := ordered.below entry (by simp)
      change segment.start < manager.currentSequence
      omega)
    have contents := Layout.entries_append ordered.linked
      (ordered.stores.nonempty ordered.linked)
      (manager.cleared.full ((entry :: buffer).map (WalEntry.preSerialized codec)))
      manager.cleared.currentSequence seconds (entry :: buffer)
    refine ⟨_, isWrite ▸ wrote, Layout.linked_append ordered.linked _ _ _ _, ?_, by simp, ?_, ?_,
      by simp, ?_⟩
    · rw [isWrite, wrote_groupCommitBuffer]
      rfl
    · rw [List.append_nil, contents]
      exact ordered.increasing
    · rw [List.append_nil, contents, isWrite, wrote_currentSequence]
      exact ordered.below
    · rw [List.append_nil, contents]
      exact ordered.appended_eq

theorem Ordered.enqueue (ordered : Ordered codec manager layout buffer appended)
    (stored : (WalEntry.numbered codec manager.currentSequence stamped).Stored codec) :
    let entry := WalEntry.numbered codec manager.currentSequence stamped
    Ordered codec ((manager.advanced 1).enqueued (entry.preSerialized codec)) layout
      (buffer ++ [entry]) (appended ++ [entry.numberedRecord]) where
  stores := ordered.stores.congr rfl rfl (Nat.le_succ _)
  linked := ordered.linked
  buffered := by
    rw [List.map_append, ← ordered.buffered]
    rfl
  bufferStored := by
    intro other member
    rcases List.mem_append.mp member with old | isNew
    · exact ordered.bufferStored other old
    · rw [List.mem_singleton.mp isNew]
      exact stored
  increasing := by
    rw [← List.append_assoc, List.map_append, List.pairwise_append]
    refine ⟨ordered.increasing, List.pairwise_singleton _ _, ?_⟩
    intro early isEarly late isLate
    rcases List.mem_map.mp isEarly with ⟨other, member, rfl⟩
    rw [List.map_singleton, List.mem_singleton] at isLate
    rw [isLate]
    exact ordered.below other member
  below := by
    intro other member
    rw [← List.append_assoc] at member
    change other.sequence < manager.currentSequence + 1
    rcases List.mem_append.mp member with old | isNew
    · have small := ordered.below other old
      omega
    · rw [List.mem_singleton.mp isNew]
      exact Nat.lt_succ_self _
  newer := by
    intro other member segment inside
    rcases List.mem_append.mp member with old | isNew
    · exact ordered.newer other old segment inside
    · rw [List.mem_singleton.mp isNew]
      exact ordered.stores.bounded segment inside
  appended_eq := by
    rw [← List.append_assoc, List.map_append, ← ordered.appended_eq]
    rfl

theorem Ordered.wroteOne (ordered : Ordered codec manager layout [] appended) (seconds : ℤ)
    (stored : (WalEntry.numbered codec manager.currentSequence stamped).Stored codec) :
    let entry := WalEntry.numbered codec manager.currentSequence stamped
    let after := manager.advanced 1
    Ordered codec (wrote seconds [entry.preSerialized codec] after)
      (layout.append (after.full [entry.preSerialized codec]) after.currentSequence seconds [entry])
      [] (appended ++ [entry.numberedRecord]) :=
  ordered.wroteNumbered seconds [stamped]
    (fun _ member => by rw [List.mem_singleton.mp member]; exact stored) (by simp)

theorem Ordered.perform (ordered : Ordered codec manager layout buffer appended)
    (waits : manager.WritesNow call → manager.groupCommitBuffer = [])
    (ran : exec (WalManager.perform codec call) manager = (.ok more, after)) :
    ∃ layout' buffer', Ordered codec after layout' buffer' (appended ++ more) := by
  have emptied : manager.groupCommitBuffer = [] → buffer = [] := by
    intro none
    rw [ordered.buffered] at none
    exact List.map_eq_nil_iff.mp none
  cases call with
  | append seconds stamped =>
    obtain rfl := emptied (waits trivial)
    rcases exec_bind_eq_ok ran with ⟨_, _, first, ran⟩
    rcases exec_append first with ⟨stored, rfl, rfl⟩
    cases ran
    exact ⟨_, [], ordered.wroteOne seconds stored⟩
  | appendBatch seconds records =>
    by_cases none : records = []
    · subst none
      cases ran
      exact ⟨layout, buffer, by simpa using ordered⟩
    · obtain rfl := emptied (waits none)
      rcases exec_bind_eq_ok ran with ⟨_, _, first, ran⟩
      rcases exec_appendBatch first none with ⟨stored, rfl, rfl⟩
      simp only [exec_pure, WalEntry.zip_numberedFrom] at ran
      cases ran
      exact ⟨_, [], ordered.wroteNumbered seconds records stored none⟩
  | appendAsync seconds elapsed stamped =>
    rcases exec_bind_eq_ok ran with ⟨_, _, first, ran⟩
    cases enabled : manager.groupCommitConfig.enabled with
    | true =>
      rcases exec_appendAsync first enabled with ⟨stored, rfl, rfl | rfl⟩
      · cases ran
        exact ⟨layout, _, ordered.enqueue stored⟩
      · cases ran
        rcases (ordered.enqueue stored).flush seconds with ⟨layout', kept⟩
        exact ⟨layout', [], kept⟩
    | false =>
      obtain rfl := emptied (waits enabled)
      rw [exec_appendAsync_of_disabled codec seconds elapsed stamped enabled] at first
      rcases exec_append first with ⟨stored, rfl, rfl⟩
      cases ran
      exact ⟨_, [], ordered.wroteOne seconds stored⟩
  | flushGroupCommit seconds =>
    rw [WalManager.perform, exec_bind, exec_flushGroupCommit] at ran
    cases ran
    rcases ordered.flush seconds with ⟨layout', kept⟩
    exact ⟨layout', [], by rwa [List.append_nil]⟩

theorem Ordered.performAll :
    ∀ {calls : List (WalCall Record)} {manager : WalManager} {layout : Layout Record}
      {buffer : List (WalEntry Record)} {appended more : List (ℕ × Record)} {after : WalManager},
      Ordered codec manager layout buffer appended → NothingPassedOver codec calls manager →
      exec (WalManager.performAll codec calls) manager = (.ok more, after) →
      ∃ layout' buffer', Ordered codec after layout' buffer' (appended ++ more)
  | [], _, _, _, _, _, _, ordered, _, ran => by
    cases ran
    exact ⟨_, _, by rwa [List.append_nil]⟩
  | call :: calls, manager, _, _, _, _, _, ordered, ⟨waits, later⟩, ran => by
    rcases exec_bind_eq_ok ran with ⟨_, _, first, ran⟩
    rcases exec_bind_eq_ok ran with ⟨_, _, second, ran⟩
    cases ran
    rcases ordered.perform waits first with ⟨layout', buffer', kept⟩
    rw [first] at later
    rw [← List.append_assoc]
    exact kept.performAll later second

theorem Ordered.perform_sync (ordered : Ordered codec manager layout [] appended)
    {call : WalCall Record} (sync : call.IsSync)
    (ran : exec (WalManager.perform codec call) manager = (.ok more, after)) :
    (after = manager ∧ more = []) ∨
    ∃ (rotates : Bool) (seconds : ℤ) (records : List (Stamped Record)), records ≠ [] ∧
      let entries := WalEntry.numberedFrom codec manager.currentSequence records
      after.currentSequence = manager.currentSequence + records.length ∧
        more = entries.map WalEntry.numberedRecord ∧
        Ordered codec after (layout.append rotates (manager.currentSequence + records.length)
          seconds entries) [] (appended ++ more) := by
  rcases exec_perform_sync sync ran with ⟨_, same, none⟩ | ⟨some, stored, rfl, seconds, rfl⟩
  · exact .inl ⟨same, none⟩
  · exact .inr ⟨_, seconds, call.records, some, wrote_currentSequence _ _ _, rfl,
      ordered.wroteNumbered seconds call.records stored some⟩

theorem Ordered.performAll_sync (invariant : Layout Record → ℕ → Prop)
    (step : ∀ (layout : Layout Record) (next : ℕ) (rotates : Bool) (seconds : ℤ)
      (records : List (Stamped Record)), records ≠ [] → layout.linked = true →
      layout.segments ≠ [] → invariant layout next →
      invariant (layout.append rotates (next + records.length) seconds
        (WalEntry.numberedFrom codec next records)) (next + records.length)) :
    ∀ {calls : List (WalCall Record)} {manager : WalManager} {layout : Layout Record}
      {appended more : List (ℕ × Record)} {after : WalManager}, (∀ call ∈ calls, call.IsSync) →
      Ordered codec manager layout [] appended → invariant layout manager.currentSequence →
      exec (WalManager.performAll codec calls) manager = (.ok more, after) →
      ∃ layout', Ordered codec after layout' [] (appended ++ more) ∧
        invariant layout' after.currentSequence
  | [], _, _, _, _, _, _, ordered, holds, ran => by
    cases ran
    exact ⟨_, by rwa [List.append_nil], holds⟩
  | call :: calls, manager, _, _, _, _, sync, ordered, holds, ran => by
    rcases exec_bind_eq_ok ran with ⟨_, _, first, ran⟩
    rcases exec_bind_eq_ok ran with ⟨_, _, second, ran⟩
    cases ran
    have rest : ∀ call ∈ calls, call.IsSync := fun call member =>
      sync call (List.mem_cons_of_mem _ member)
    rw [← List.append_assoc]
    rcases ordered.perform_sync (sync call (by simp)) first with
      ⟨rfl, rfl⟩ | ⟨rotates, seconds, records, some, next, isMore, written⟩
    · rw [List.append_nil]
      exact ordered.performAll_sync invariant step rest holds second
    · refine written.performAll_sync invariant step rest ?_ second
      rw [next]
      exact step _ _ rotates seconds records some ordered.linked
        (ordered.stores.nonempty ordered.linked) holds

theorem Stores.delivered_eq (roundTrip : codec.RoundTrip) (stores : Stores codec manager layout) :
    delivered codec manager.files = (.ok (), layout.entries) := by
  rw [stores.files]
  exact delivered_segments roundTrip stores.stored

theorem Ordered.delivers (roundTrip : codec.RoundTrip)
    (ordered : Ordered codec manager layout [] appended) :
    DeliversInOrder codec manager.files appended := by
  have increasing := ordered.increasing
  have same := ordered.appended_eq
  rw [List.append_nil] at increasing same
  rw [DeliversInOrder, ordered.stores.delivered_eq roundTrip, same]
  exact ⟨rfl, List.Perm.refl _, increasing⟩

end Ordered

theorem ordered_new (codec : EntryCodec Record) (seconds : ℤ) (config : GroupCommitConfig) :
    Ordered codec (withConfig codec [] seconds config) ⟨[⟨1, seconds, []⟩], true⟩ [] [] where
  stores := stores_new codec seconds config
  linked := rfl
  buffered := rfl
  bufferStored := by simp
  increasing := by simp [Layout.entries]
  below := by simp [Layout.entries]
  newer := by simp
  appended_eq := rfl

/-! ## Runs that pass entries over -/

def Tidy (manager : WalManager) : Prop :=
  ∃ older newest, manager.files = older ++ [newest] ∧
    manager.currentFile = some newest.number ∧
    (∀ file ∈ older, file.number < newest.number) ∧ newest.number ≤ manager.currentSequence

def Extends (base files : List WalFile) : Prop :=
  ∃ older newest extra more, base = older ++ [newest] ∧
    files = older ++ ⟨newest.number, newest.bytes ++ extra⟩ :: more

variable {files : List WalFile}

theorem Extends.refl (some : files ≠ []) : Extends files files := by
  rcases List.eq_nil_or_concat files with none | ⟨older, newest, isConcat⟩
  · exact absurd none some
  · refine ⟨older, newest, [], [], by simpa using isConcat, ?_⟩
    simpa using isConcat

theorem Extends.trans (first : Extends base files) (second : Extends files later) :
    Extends base later := by
  rcases first with ⟨older, newest, extra, more, rfl, rfl⟩
  rcases second with ⟨older', newest', extra', more', same, rfl⟩
  rcases List.eq_nil_or_concat more with rfl | ⟨between, last, isConcat⟩
  · rcases List.append_inj' same rfl with ⟨rfl, isNewest⟩
    cases isNewest
    exact ⟨older, newest, extra ++ extra', more', rfl, by simp⟩
  · have isConcat : more = between ++ [last] := by simpa using isConcat
    rw [isConcat, ← List.cons_append, ← List.append_assoc] at same
    rcases List.append_inj' same rfl with ⟨rfl, _⟩
    refine ⟨older, newest, extra, between ++ ⟨newest'.number, newest'.bytes ++ extra'⟩ :: more',
      rfl, ?_⟩
    simp

def Advances (manager after : WalManager) : Prop := Tidy after ∧ Extends manager.files after.files

theorem Tidy.ne_nil (tidy : Tidy manager) : manager.files ≠ [] := by
  rcases tidy with ⟨older, newest, files, _⟩
  rw [files]
  simp

theorem Tidy.congr (tidy : Tidy manager) (files : after.files = manager.files)
    (currentFile : after.currentFile = manager.currentFile)
    (later : manager.currentSequence ≤ after.currentSequence) : Advances manager after := by
  constructor
  · rcases tidy with ⟨older, newest, isFiles, isCurrent, increasing, bound⟩
    exact ⟨older, newest, files.trans isFiles, currentFile.trans isCurrent, increasing,
      bound.trans later⟩
  · rw [files]
    exact .refl tidy.ne_nil

theorem Advances.trans (first : Advances manager middle) (second : Advances middle after) :
    Advances manager after :=
  ⟨second.1, first.2.trans second.2⟩

section

variable (tidy : Tidy manager)
include tidy

theorem Tidy.appended (bytes : List UInt8) {number : ℕ} (live : manager.currentFile = some number)
    (files : after.files = appendBytes number bytes manager.files)
    (currentFile : after.currentFile = some number)
    (later : manager.currentSequence ≤ after.currentSequence) : Advances manager after := by
  rcases tidy with ⟨older, newest, isFiles, isCurrent, increasing, bound⟩
  obtain rfl := Option.some.inj (live.symm.trans isCurrent)
  have result : after.files = older ++ [⟨newest.number, newest.bytes ++ bytes⟩] := by
    rw [files, isFiles]
    exact appendBytes_newest (fun file member => ne_of_lt (increasing file member)) _
  constructor
  · exact ⟨older, _, result, currentFile, increasing, bound.trans later⟩
  · exact ⟨older, newest, bytes, [], isFiles, result⟩

theorem Tidy.written (bytes : List UInt8) : Advances manager (manager.written bytes) := by
  have live := tidy
  rcases live with ⟨_, newest, _, isCurrent, _⟩
  refine tidy.appended bytes isCurrent ?_ ?_ (by simp)
  · rw [WalManager.written, isCurrent]
  · rw [written_currentFile, isCurrent]

theorem Tidy.rotated (seconds : ℤ) : Advances manager (manager.rotated seconds) := by
  rcases tidy with ⟨older, newest, isFiles, isCurrent, increasing, bound⟩
  rcases Nat.lt_or_eq_of_le bound with isNew | again
  · have earlier : ∀ file ∈ manager.files, file.number < manager.currentSequence := by
      intro file member
      rw [isFiles] at member
      rcases List.mem_append.mp member with old | isNewest
      · exact (increasing file old).trans isNew
      · rw [List.mem_singleton.mp isNewest]
        exact isNew
    let begun : WalFile :=
      ⟨manager.currentSequence, (WalFileHeader.new manager.currentSequence seconds).toBytes⟩
    have result : (manager.rotated seconds).files = manager.files ++ [begun] := by
      change appendBytes _ _ (openFile _ manager.files) = _
      rw [openFile_of_lt earlier,
        appendBytes_newest (fun file member => ne_of_lt (earlier file member)), List.nil_append]
    constructor
    · exact ⟨manager.files, _, result, rfl, earlier, le_refl manager.currentSequence⟩
    · refine ⟨older, newest, [], [begun], isFiles, ?_⟩
      rw [result, isFiles, List.append_nil]
      simp
  · -- the file of this number is there already: it gets a second header
    have opened : openFile manager.currentSequence manager.files = manager.files := by
      rw [openFile, if_pos ⟨newest, by simp [isFiles], again⟩]
    refine Tidy.appended ⟨older, newest, isFiles, isCurrent, increasing, bound⟩
      (WalFileHeader.new manager.currentSequence seconds).toBytes (again ▸ isCurrent) ?_ rfl
      (le_refl _)
    change appendBytes _ _ (openFile _ manager.files) = _
    rw [opened]

theorem Tidy.wrote (seconds : ℤ) (entries : List PreSerializedEntry) :
    Advances manager (manager.wrote seconds entries) := by
  have begun : Advances manager
      (if manager.full entries then manager.rotated seconds else manager) := by
    split
    · exact tidy.rotated seconds
    · exact tidy.congr rfl rfl (le_refl _)
  have written := begun.1.written (entries.flatMap fun entry => frame entry.bytes)
  exact (begun.trans written).trans (written.1.congr rfl rfl (le_refl _))

theorem Tidy.flushed (seconds : ℤ) : Advances manager (manager.flushed seconds) := by
  have cleared : Advances manager manager.cleared := tidy.congr rfl rfl (le_refl _)
  unfold WalManager.flushed
  split
  · exact cleared
  · exact cleared.trans (cleared.1.wrote seconds _)

theorem Tidy.perform (ran : exec (WalManager.perform codec call) manager = (.ok more, after)) :
    Advances manager after := by
  have advanced : ∀ count, Advances manager (manager.advanced count) := fun count =>
    tidy.congr rfl rfl (Nat.le_add_right _ _)
  cases call with
  | append seconds stamped =>
    rcases exec_bind_eq_ok ran with ⟨_, _, first, ran⟩
    rcases exec_append first with ⟨_, _, rfl⟩
    cases ran
    exact (advanced 1).trans ((advanced 1).1.wrote seconds _)
  | appendBatch seconds records =>
    by_cases none : records = []
    · subst none
      cases ran
      exact tidy.congr rfl rfl (le_refl _)
    · rcases exec_bind_eq_ok ran with ⟨_, _, first, ran⟩
      rcases exec_appendBatch first none with ⟨_, _, rfl⟩
      cases ran
      exact (advanced _).trans ((advanced _).1.wrote seconds _)
  | appendAsync seconds elapsed stamped =>
    rcases exec_bind_eq_ok ran with ⟨_, _, first, ran⟩
    cases enabled : manager.groupCommitConfig.enabled with
    | true =>
      have buffered : ∀ entry, Advances manager ((manager.advanced 1).enqueued entry) :=
        fun entry => tidy.congr rfl rfl (Nat.le_add_right _ _)
      rcases exec_appendAsync first enabled with ⟨_, _, rfl | rfl⟩
      · cases ran
        exact buffered _
      · cases ran
        exact (buffered _).trans ((buffered _).1.flushed seconds)
    | false =>
      rw [exec_appendAsync_of_disabled codec seconds elapsed stamped enabled] at first
      rcases exec_append first with ⟨_, _, rfl⟩
      cases ran
      exact (advanced 1).trans ((advanced 1).1.wrote seconds _)
  | flushGroupCommit seconds =>
    rw [WalManager.perform, exec_bind, exec_flushGroupCommit] at ran
    cases ran
    exact tidy.flushed seconds

end

theorem Stores.tidy {layout : Layout Record} (stores : Stores codec manager layout)
    (linked : layout.linked = true) : Tidy manager := by
  rcases stores.live linked with ⟨init, last, isConcat, isLive, others⟩
  refine ⟨init.map (toFile codec), last.toFile codec, ?_, isLive, ?_,
    stores.bounded last (by simp [isConcat])⟩
  · rw [stores.files, isConcat]
    simp
  · intro file member
    rcases List.mem_map.mp member with ⟨segment, inside, rfl⟩
    exact others segment inside

/-- An entry stands in the files before one with a smaller number. -/
def PassedOver (codec : EntryCodec Record) (manager : WalManager)
    (appended : List (ℕ × Record)) : Prop :=
  ∃ segments : List (Segment Record),
    (∀ segment ∈ segments, ∀ entry ∈ segment.entries, entry.Stored codec) ∧
    Extends (segments.map (toFile codec)) manager.files ∧
    ∃ late ∈ segments.flatMap Segment.entries, ∃ early ∈ appended, early.1 < late.sequence ∧
      ∀ entry ∈ segments.flatMap Segment.entries, entry.sequence ≠ early.1

theorem PassedOver.advances (passed : PassedOver codec manager appended)
    (advances : Advances manager after) (more : List (ℕ × Record)) :
    PassedOver codec after (appended ++ more) := by
  rcases passed with ⟨segments, stored, extended, late, isLate, early, isEarly, smaller, missing⟩
  exact ⟨segments, stored, extended.trans advances.2, late, isLate, early,
    List.mem_append_left _ isEarly, smaller, missing⟩

theorem PassedOver.performAll :
    ∀ {calls : List (WalCall Record)} {manager after : WalManager}
      {appended more : List (ℕ × Record)}, Tidy manager → PassedOver codec manager appended →
      exec (WalManager.performAll codec calls) manager = (.ok more, after) →
      Tidy after ∧ PassedOver codec after (appended ++ more)
  | [], _, _, _, _, tidy, passed, ran => by
    cases ran
    exact ⟨tidy, by rwa [List.append_nil]⟩
  | call :: calls, _, _, _, _, tidy, passed, ran => by
    rcases exec_bind_eq_ok ran with ⟨_, _, first, ran⟩
    rcases exec_bind_eq_ok ran with ⟨_, _, second, ran⟩
    cases ran
    have advances := tidy.perform first
    rw [← List.append_assoc]
    exact PassedOver.performAll advances.1 (passed.advances advances _) second

/-! ## What replay delivers of a directory that grew -/

/-- The action only adds at the end of the collected list. -/
def Collects (action : Action String (List (WalEntry Record)) Unit) : Prop :=
  ∀ collected, collected <+: (exec action collected).2

namespace Collects

theorem done : Collects (pure () : Action String (List (WalEntry Record)) Unit) :=
  fun _ => List.prefix_refl _

theorem failed (text : String) :
    Collects (fail text : Action String (List (WalEntry Record)) Unit) :=
  fun _ => List.prefix_refl _

theorem sequence {action : Action String (List (WalEntry Record)) α}
    {next : α → Action String (List (WalEntry Record)) Unit}
    (first : ∀ collected, collected <+: (exec action collected).2)
    (rest : ∀ value, Collects (next value)) : Collects (action >>= next) := by
  intro collected
  have grown := first collected
  rw [exec_bind]
  rcases outcome : exec action collected with ⟨_ | value, middle⟩ <;> rw [outcome] at grown
  · exact grown
  · exact grown.trans (rest value middle)

theorem each {items : List α} {body : α → Action String (List (WalEntry Record)) Unit}
    (collects : ∀ item, Collects (body item)) : Collects (forM items body) := by
  induction items with
  | nil => exact done
  | cons item items induction =>
    rw [List.forM_cons]
    exact sequence (collects item) fun _ => induction

end Collects

theorem collects_replayEntry (codec : EntryCodec Record) (buffer : List UInt8) :
    Collects (replayEntry codec collect buffer) := by
  apply Collects.sequence
  · intro collected
    exact List.prefix_refl _
  · intro entry
    cases entry.verifyCrc32 codec with
    | true => exact fun collected => List.prefix_append _ _
    | false => exact Collects.done

theorem collects_replayFile (codec : EntryCodec Record) (file : WalFile) :
    Collects (replayFile codec collect file) := by
  unfold replayFile
  split_ifs with short
  · exact Collects.failed _
  · apply Collects.sequence
    · intro collected
      exact List.prefix_refl _
    · intro header
      refine Collects.sequence (Collects.each (collects_replayEntry codec)) fun _ => ?_
      cases (frames (file.bytes.drop 128)).2 with
      | eof => exact Collects.done
      | cut => exact Collects.failed _

theorem delivered_of_extends (roundTrip : codec.RoundTrip) {segments : List (Segment Record)}
    (stored : ∀ segment ∈ segments, ∀ entry ∈ segment.entries, entry.Stored codec)
    (extended : Extends (segments.map (toFile codec)) files) :
    segments.flatMap Segment.entries <+: (delivered codec files).2 := by
  rcases extended with ⟨older, newest, extra, more, isBase, rfl⟩
  rcases List.map_eq_append_iff.mp isBase with ⟨init, ends, rfl, rfl, isEnds⟩
  rcases List.map_eq_singleton_iff.mp isEnds with ⟨last, rfl, rfl⟩
  have initStored : ∀ segment ∈ init, ∀ entry ∈ segment.entries, entry.Stored codec :=
    fun segment member => stored segment (List.mem_append_left _ member)
  have lastStored : ∀ entry ∈ last.entries, entry.Stored codec := stored last (by simp)
  have first : exec (forM (init.map (toFile codec)) (replayFile codec collect)) [] =
      (.ok (), init.flatMap Segment.entries) := by
    have read := replay_segments roundTrip collect initStored
    rw [replay] at read
    rw [read, exec_forM_collect, List.nil_append]
  have isFile : (⟨(last.toFile codec).number, (last.toFile codec).bytes ++ extra⟩ : WalFile) =
      ⟨last.start, last.header ++ (body codec last.entries ++ extra)⟩ := by
    simp [toFile]
  rw [delivered, replay, List.forM_append, exec_bind_ok first, isFile, List.forM_cons,
    replayFile_segment roundTrip _ lastStored, bind_assoc,
    exec_bind_ok (exec_forM_collect last.entries _)]
  have whole : (init ++ [last]).flatMap Segment.entries =
      init.flatMap Segment.entries ++ last.entries := by simp
  rw [whole]
  apply Collects.sequence
  · apply Collects.sequence
    · exact Collects.each (collects_replayEntry codec)
    · intro _
      cases (frames extra).2 with
      | eof => exact Collects.done
      | cut => exact Collects.failed _
  · intro _
    exact Collects.each (collects_replayFile codec)

theorem PassedOver.not_delivers (roundTrip : codec.RoundTrip) {appended : List (ℕ × Record)}
    (passed : PassedOver codec manager appended) :
    ¬ DeliversInOrder codec manager.files appended := by
  intro delivers
  rcases passed with ⟨segments, stored, extended, late, isLate, early, isEarly, smaller, missing⟩
  rcases delivers with ⟨_, complete, increasing⟩
  rcases delivered_of_extends roundTrip stored extended with ⟨rest, split⟩
  rcases List.mem_map.mp (complete.mem_iff.mpr isEarly) with ⟨entry, member, isEntry⟩
  have number : entry.sequence = early.1 := congrArg Prod.fst isEntry
  rw [← split] at member increasing
  rcases List.mem_append.mp member with before | behind
  · exact missing entry before number
  · rw [List.map_append, List.pairwise_append] at increasing
    have larger := increasing.2.2 late.sequence (List.mem_map_of_mem isLate) entry.sequence
      (List.mem_map_of_mem behind)
    omega

section PassingOver

variable {codec : EntryCodec Record}

theorem Ordered.passes (ordered : Ordered codec manager layout (early :: buffer) appended)
    (seconds : ℤ) (records : List (Stamped Record))
    (stored : ∀ entry ∈ WalEntry.numberedFrom codec manager.currentSequence records,
      entry.Stored codec) (some : records ≠ []) (more : List (ℕ × Record)) :
    let after := wrote seconds ((WalEntry.numberedFrom codec manager.currentSequence records).map
      (WalEntry.preSerialized codec)) (manager.advanced records.length)
    Tidy after ∧ PassedOver codec after (appended ++ more) := by
  intro after
  have positive : 0 < records.length := List.length_pos_of_ne_nil some
  have stores := (ordered.stores.advanced records.length).wrote stored seconds
    (fun _ segment member => by
      have bound := ordered.stores.bounded segment member
      simp only [WalManager.advanced]
      omega)
  have contents := Layout.entries_append ordered.linked (ordered.stores.nonempty ordered.linked)
    ((manager.advanced records.length).full
      ((WalEntry.numberedFrom codec manager.currentSequence records).map
        (WalEntry.preSerialized codec)))
    (manager.advanced records.length).currentSequence seconds
    (WalEntry.numberedFrom codec manager.currentSequence records)
  have waiting := ordered.below early (by simp)
  have increasing := ordered.increasing
  rw [List.map_append, List.pairwise_append] at increasing
  refine ⟨stores.tidy (Layout.linked_append ordered.linked _ _ _ _), _, stores.stored, ?_, ?_⟩
  · rw [← stores.files]
    exact .refl (stores.tidy (Layout.linked_append ordered.linked _ _ _ _)).ne_nil
  · change ∃ late ∈ Layout.entries _, ∃ early ∈ appended ++ more, early.1 < late.sequence ∧
      ∀ entry ∈ Layout.entries _, entry.sequence ≠ early.1
    rw [contents]
    rcases List.exists_mem_of_ne_nil _ (WalEntry.numberedFrom_ne_nil codec
      manager.currentSequence some) with ⟨late, isLate⟩
    have isNumbered := WalEntry.mem_numberedFrom isLate
    refine ⟨late, List.mem_append_right _ isLate, early.numberedRecord, ?_, ?_, ?_⟩
    · rw [ordered.appended_eq]
      simp
    · change early.sequence < late.sequence
      omega
    · intro entry member same
      change entry.sequence = early.sequence at same
      rcases List.mem_append.mp member with old | isNew
      · have smaller := increasing.2.2 entry.sequence (List.mem_map_of_mem old) early.sequence
          (by simp)
        omega
      · have numbered := WalEntry.mem_numberedFrom isNew
        omega

theorem Ordered.perform_passes (ordered : Ordered codec manager layout (early :: buffer) appended)
    (writes : manager.WritesNow call)
    (ran : exec (WalManager.perform codec call) manager = (.ok more, after)) :
    Tidy after ∧ PassedOver codec after (appended ++ more) := by
  have one : ∀ (seconds : ℤ) (stamped : Stamped Record),
      (WalEntry.numbered codec manager.currentSequence stamped).Stored codec →
      Tidy (wrote seconds [(WalEntry.numbered codec manager.currentSequence stamped).preSerialized
        codec] (manager.advanced 1)) ∧ PassedOver codec (wrote seconds [(WalEntry.numbered codec
          manager.currentSequence stamped).preSerialized codec] (manager.advanced 1))
            (appended ++ more) := by
    intro seconds stamped stored
    exact ordered.passes seconds [stamped]
      (fun _ member => by rw [List.mem_singleton.mp member]; exact stored) (by simp) more
  cases call with
  | append seconds stamped =>
    rcases exec_bind_eq_ok ran with ⟨_, _, first, ran⟩
    rcases exec_append first with ⟨stored, _, rfl⟩
    cases ran
    exact one seconds stamped stored
  | appendBatch seconds records =>
    rcases exec_bind_eq_ok ran with ⟨_, _, first, ran⟩
    rcases exec_appendBatch first writes with ⟨stored, _, rfl⟩
    cases ran
    exact ordered.passes seconds records stored writes _
  | appendAsync seconds elapsed stamped =>
    rcases exec_bind_eq_ok ran with ⟨_, _, first, ran⟩
    rw [exec_appendAsync_of_disabled codec seconds elapsed stamped writes] at first
    rcases exec_append first with ⟨stored, _, rfl⟩
    cases ran
    exact one seconds stamped stored
  | flushGroupCommit seconds => exact absurd writes id

theorem Ordered.performAll_passes :
    ∀ {calls : List (WalCall Record)} {manager : WalManager} {layout : Layout Record}
      {buffer : List (WalEntry Record)} {appended more : List (ℕ × Record)} {after : WalManager},
      Ordered codec manager layout buffer appended → ¬ NothingPassedOver codec calls manager →
      exec (WalManager.performAll codec calls) manager = (.ok more, after) →
      Tidy after ∧ PassedOver codec after (appended ++ more)
  | [], _, _, _, _, _, _, _, passes, _ => absurd trivial passes
  | call :: calls, manager, layout, buffer, appended, _, _, ordered, passes, ran => by
    rcases exec_bind_eq_ok ran with ⟨one, middle, first, ran⟩
    rcases exec_bind_eq_ok ran with ⟨_, _, second, ran⟩
    cases ran
    rw [← List.append_assoc]
    by_cases waits : manager.WritesNow call → manager.groupCommitBuffer = []
    · rcases ordered.perform waits first with ⟨layout', buffer', kept⟩
      refine kept.performAll_passes ?_ second
      intro later
      refine passes ⟨waits, ?_⟩
      rwa [first]
    · rcases Classical.not_imp.mp waits with ⟨writes, some⟩
      cases buffer with
      | nil => exact absurd ordered.buffered some
      | cons early buffer =>
        rcases ordered.perform_passes writes first with ⟨tidy, passed⟩
        exact PassedOver.performAll tidy passed second

end PassingOver

/-- A last flush and replay deliver every appended record once, under its number
and in the order of the numbers, if and only if no entry was written while others
waited in the group commit buffer. -/
theorem delivers_in_order_iff {codec : EntryCodec Record} (roundTrip : codec.RoundTrip)
    (config : GroupCommitConfig) (seconds last : ℤ) (calls : List (WalCall Record))
    {appended : List (ℕ × Record)} {manager : WalManager}
    (ran : exec (performAll codec calls) (withConfig codec [] seconds config) =
      (.ok appended, manager)) :
    DeliversInOrder codec (exec (flushGroupCommit last) manager).2.files appended ↔
      NothingPassedOver codec calls (withConfig codec [] seconds config) := by
  rw [exec_flushGroupCommit]
  constructor
  · intro delivers
    by_contra passes
    rcases (ordered_new codec seconds config).performAll_passes passes ran with ⟨tidy, passed⟩
    refine PassedOver.not_delivers roundTrip ?_ delivers
    simpa using passed.advances (tidy.flushed last) []
  · intro waits
    rcases (ordered_new codec seconds config).performAll waits ran with ⟨_, _, ordered⟩
    rcases ordered.flush last with ⟨_, flushed⟩
    exact flushed.delivers roundTrip

def flushedFirst : List (WalCall UInt8) :=
  [.appendAsync 0 0 ⟨0, 5⟩, .flushGroupCommit 0, .append 0 ⟨0, 7⟩]

theorem flushedFirst_in_order :
    DeliversInOrder referenceCodec (exec (flushGroupCommit 0) (exec (performAll referenceCodec
      flushedFirst) (withConfig referenceCodec [] 0 .default)).2).2.files [(1, 5), (2, 7)] := by
  have succeeded : (exec (performAll referenceCodec flushedFirst)
      (withConfig referenceCodec [] 0 .default)).1 = .ok [(1, 5), (2, 7)] := by decide +kernel
  have waits : NothingPassedOver referenceCodec flushedFirst
      (withConfig referenceCodec [] 0 .default) := by decide +kernel
  exact (delivers_in_order_iff ReferenceCodec.roundTrip .default 0 0 flushedFirst
    (exec_eq_of_outcome succeeded)).mpr waits

def bufferedFirst : List (WalCall UInt8) :=
  [.appendAsync 0 0 ⟨0, 5⟩, .append 0 ⟨0, 7⟩]

theorem bufferedFirst_out_of_order :
    let ran := exec (performAll referenceCodec bufferedFirst)
      (withConfig referenceCodec [] 0 .default)
    ran.1 = .ok [(1, 5), (2, 7)] ∧
      (delivered referenceCodec (exec (flushGroupCommit 0) ran.2).2.files).2.map
        WalEntry.numberedRecord = [(2, 7), (1, 5)] ∧
      ¬ DeliversInOrder referenceCodec (exec (flushGroupCommit 0) ran.2).2.files
        [(1, 5), (2, 7)] := by
  decide +kernel

end WalManager

end QAExchange
