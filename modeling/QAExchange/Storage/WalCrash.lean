import QAExchange.Storage.WalCheckpoint
import QAExchange.Storage.WalTornTail

/-! # Crashes in the middle of a write

A crash may leave the first bytes of a write. Nothing removes them when the log is
opened again: replay ends at them with an error, or reads what was written behind
them as their continuation.
-/

namespace QAExchange

open Foundation Action Framing Segment WalManager

variable {Record : Type}

/-- What the process was doing: nothing, or an `append` of which the first `kept`
bytes are in the newest file. -/
inductive Crash (Record : Type)
  | idle
  | appending (seconds : ℤ) (stamped : Stamped Record) (kept : ℕ)

namespace Crash

def fileSize (number : ℕ) (files : List WalFile) : ℕ :=
  match files.find? fun file => file.number = number with
  | some file => file.bytes.length
  | none => 0

/-- The newest file has only the first `kept` of its new bytes. -/
def cutNewest (kept : ℕ) (before after : List WalFile) : List WalFile :=
  match after.getLast? with
  | some newest => after.dropLast ++
      [{ newest with bytes := newest.bytes.take (fileSize newest.number before + kept) }]
  | none => []

/-- The directory after the crash. -/
def leaves (codec : EntryCodec Record) (manager : WalManager) : Crash Record → List WalFile
  | .idle => manager.files
  | .appending seconds stamped kept =>
    cutNewest kept manager.files (exec (append codec seconds stamped) manager).2.files

def Writes (codec : EntryCodec Record) (manager : WalManager) : Crash Record → Prop
  | .idle => True
  | .appending seconds stamped _ =>
    ∃ sequence, (exec (append codec seconds stamped) manager).1 = .ok sequence

/-- The bytes of a write that come before its frame: the header of a new file. -/
def headerBytes (size : ℕ) (manager : WalManager) : ℕ :=
  if manager.maxFileSize < manager.currentFileSize + (size + 4) then 128 else 0

def StopsCleanly (size : ℕ) (manager : WalManager) : Crash Record → Prop
  | .idle => True
  | .appending _ _ kept =>
    kept = headerBytes size manager ∨ headerBytes size manager + (size + 4) ≤ kept

def StopsInLength (size : ℕ) (manager : WalManager) : Crash Record → Prop
  | .idle => False
  | .appending _ _ kept =>
    headerBytes size manager < kept ∧ kept < headerBytes size manager + 4

instance decidableStopsCleanly (size : ℕ) (manager : WalManager) :
    ∀ crash : Crash Record, Decidable (crash.StopsCleanly size manager)
  | .idle => .isTrue trivial
  | .appending _ _ kept => inferInstanceAs (Decidable
      (kept = headerBytes size manager ∨ headerBytes size manager + (size + 4) ≤ kept))

end Crash

namespace WalManager

def KeepsAcknowledged [DecidableEq Record] (codec : EntryCodec Record) (files : List WalFile)
    (acknowledged : List (ℕ × Record)) : Prop :=
  (delivered codec files).1 = .ok () ∧ ∀ record ∈ acknowledged,
    ((delivered codec files).2.map WalEntry.numberedRecord).count record = 1

instance [DecidableEq Record] (codec : EntryCodec Record) (files : List WalFile)
    (acknowledged : List (ℕ × Record)) :
    Decidable (KeepsAcknowledged codec files acknowledged) := by
  unfold KeepsAcknowledged
  infer_instance

/-- The directory has the entries of some segments, numbered up to `next`, and
unreadable bytes behind them. -/
structure Stopped (codec : EntryCodec Record) (init : List (Segment Record))
    (last : Segment Record) (tail : List UInt8) (next : ℕ) : Prop where
  stored : ∀ segment ∈ init ++ [last], ∀ entry ∈ segment.entries, entry.Stored codec
  older : ∀ segment ∈ init, segment.start < last.start
  positive : 1 ≤ next
  numbers : ((init ++ [last]).flatMap Segment.entries).map WalEntry.sequence =
    List.range' 1 (next - 1)
  ahead : last.start ≤ next ∨ last.start ≤ next + 1 ∧ last.entries = []
  unread : (frames tail).1 = []
  short : tail.length < 65540

def stoppedFiles (codec : EntryCodec Record) (init : List (Segment Record))
    (last : Segment Record) (tail : List UInt8) : List WalFile :=
  init.map (toFile codec) ++ [⟨last.start, stoppedContent codec last tail⟩]

/-- The number that a manager goes on with behind entries numbered up to `next`. -/
def reopenedSequence (next : ℕ) : ℕ := max 1 (next - 1) + 1

theorem openExisting_currentSequence {codec : EntryCodec Record} {files : List WalFile}
    {next : ℕ} (scanned : files.flatMap (scanFile codec) = List.range' 1 (next - 1))
    (latest : WalFile) :
    (openExisting codec files latest).currentSequence = reopenedSequence next := by
  rw [openExisting, scanned, foldl_max_range', reopenedSequence]

section Stopped

variable {codec : EntryCodec Record} {size : ℕ} {init : List (Segment Record)}
  {last : Segment Record} {tail : List UInt8} {next : ℕ}

theorem Stopped.reopen (roundTrip : codec.RoundTrip)
    (stopped : Stopped codec init last tail next) (seconds : ℤ) :
    Resumed codec (init.map (toFile codec)) (stoppedContent codec last tail)
      (reopenedSequence next) (new codec (stoppedFiles codec init last tail) seconds)
      (found last.start) := by
  have positive := stopped.positive
  have scanned : (stoppedFiles codec init last tail).flatMap (scanFile codec) =
      List.range' 1 (next - 1) := by
    have isLast := scanFile_segment roundTrip
      (fun entry member => stopped.stored last (by simp) entry member) stopped.unread
    rw [← stopped.numbers, stoppedFiles, List.flatMap_append, List.flatMap_append,
      List.map_append,
      scanFiles roundTrip (fun segment member => stopped.stored segment (by simp [member]))]
    simp only [List.flatMap_cons, List.flatMap_nil, List.append_nil, stoppedContent, isLast]
  have sequence := openExisting_currentSequence scanned
    ⟨last.start, stoppedContent codec last tail⟩
  have enough : next ≤ reopenedSequence next := by
    rw [reopenedSequence]
    omega
  rw [stoppedFiles] at scanned sequence ⊢
  rw [new_concat]
  refine ⟨⟨?_, rfl, by simp [found], rfl, ?_, List.pairwise_singleton _ _⟩,
    by simp [found, Layout.entries], ?_, ?_, ?_⟩
  · simp [openExisting, resumedFiles, found, body]
  · intro file member segment isFound
    rcases List.mem_map.mp member with ⟨earlier, inside, rfl⟩
    rw [List.mem_singleton.mp isFound]
    exact stopped.older earlier inside
  · rw [Room, sequence]
    rcases stopped.ahead with behind | ⟨ahead, none⟩
    · left
      intro segment isFound
      rw [List.mem_singleton.mp isFound]
      exact behind.trans enough
    · right
      constructor
      · intro segment isFound
        rw [List.mem_singleton.mp isFound]
        exact ahead.trans (by omega)
      · have short := stopped.short
        have length : (stoppedContent codec last tail).length = 128 + tail.length := by
          simp [stoppedContent, none, body]
        change (stoppedContent codec last tail).length + 65540 ≤ 1000000000
        omega
  · rw [sequence]
  · rw [sequence]
    simp [found, Layout.entries]

end Stopped

/-! ## Runs with a crash -/

section Runs

variable {codec : EntryCodec Record} {size : ℕ}

theorem not_keeps_of_fewer [DecidableEq Record] {files : List WalFile} {acknowledged : List (ℕ × Record)}
    (distinct : acknowledged.Nodup) (fewer : (delivered codec files).1 = .ok () →
      (delivered codec files).2.length < acknowledged.length) :
    ¬ KeepsAcknowledged codec files acknowledged := by
  intro keeps
  have inside : acknowledged ⊆ (delivered codec files).2.map WalEntry.numberedRecord := by
    intro record member
    apply List.count_pos_iff.mp
    rw [keeps.2 record member]
    exact Nat.one_pos
  have atMost := (List.subperm_of_subset distinct inside).length_le
  rw [List.length_map] at atMost
  have short := fewer keeps.1
  omega

theorem nodup_of_numbers (count : ℕ) {before behind : List (ℕ × Record)}
    (first : before.map Prod.fst = List.range' 1 count)
    (second : behind.map Prod.fst = List.range' next later) (apart : count < next) :
    (before ++ behind).Nodup := by
  apply List.Nodup.of_map Prod.fst
  rw [List.map_append, first, second, List.nodup_append]
  refine ⟨List.nodup_range', List.nodup_range', ?_⟩
  intro early isEarly late isLate same
  rw [List.mem_range'_1] at isEarly isLate
  omega

theorem map_fst_numberedRecord (entries : List (WalEntry Record)) :
    (entries.map WalEntry.numberedRecord).map Prod.fst = entries.map WalEntry.sequence := by
  rw [List.map_map]
  rfl

def records (segments : List (Segment Record)) : List (ℕ × Record) :=
  (segments.flatMap Segment.entries).map WalEntry.numberedRecord

section Reopened

variable {init : List (Segment Record)} {last : Segment Record} {tail : List UInt8} {next : ℕ}
  {further : List (WalCall Record)} {seconds : ℤ} {more : List (ℕ × Record)} {after : WalManager}

theorem Stopped.acknowledged_nodup (stopped : Stopped codec init last tail next)
    {older : List WalFile} {content : List UInt8} {layout : Layout Record}
    (resumed : Resumed codec older content (reopenedSequence next) after layout)
    (isMore : layout.entries.map WalEntry.numberedRecord = more) :
    (records (init ++ [last]) ++ more).Nodup := by
  apply nodup_of_numbers (next - 1)
  · rw [records, map_fst_numberedRecord, stopped.numbers]
  · rw [← isMore, map_fst_numberedRecord, resumed.numbers]
  · rw [reopenedSequence]
    omega

/-- What was on the disk and what came later is delivered, if nothing is written behind
a part of a length. -/
theorem Stopped.keeps [DecidableEq Record] (roundTrip : codec.RoundTrip)
    (fixed : codec.FixedSize size) (stopped : Stopped codec init last tail next)
    (sync : ∀ call ∈ further, call.IsSync)
    (ran : exec (performAll codec further) (new codec (stoppedFiles codec init last tail) seconds) =
      (.ok more, after)) (clean : tail = [] ∨ tail.length < 4 ∧
      BeginsFile size further (new codec (stoppedFiles codec init last tail) seconds))
    (known : acknowledged ⊆ records (init ++ [last]) ++ more) :
    KeepsAcknowledged codec after.files acknowledged := by
  rcases (stopped.reopen roundTrip seconds).performAll_found fixed sync ran with
    ⟨layout, first, newer, resumed, isSegments, isMore, begins⟩
  have distinct := stopped.acknowledged_nodup resumed isMore
  have contents : layout.entries = first.entries ++ newer.flatMap Segment.entries := by
    rw [Layout.entries, isSegments, List.flatMap_cons]
  have newStored := resumed.stored
  rw [contents] at newStored
  have read := read_clean roundTrip (stopped.stored last (by simp)) first.start
    (fun entry member => newStored entry (by simp [member]))
    (clean.imp_right fun torn => ⟨torn.1, begins.mpr torn.2⟩) (init.flatMap Segment.entries)
  have all := replay_resumed roundTrip (fun segment member => stopped.stored segment
      (by simp [member])) (fun segment member entry inside => newStored entry (by
        rw [List.mem_append, List.mem_flatMap]
        exact .inr ⟨segment, member, inside⟩)) read
  rw [← isSegments, ← resumed.files] at all
  have deliveredAll : (delivered codec after.files).2.map WalEntry.numberedRecord =
      records (init ++ [last]) ++ more := by
    rw [all, ← isMore, contents, records]
    simp
  refine ⟨by rw [all], ?_⟩
  intro record member
  rw [deliveredAll]
  exact List.count_eq_one_of_mem distinct (known member)

/-- Behind the torn bytes of an entry, or behind those of a length with something
written after them, an acknowledged record is lost. -/
theorem Stopped.loses [DecidableEq Record] (roundTrip : codec.RoundTrip)
    (fixed : codec.FixedSize size) {torn : WalEntry Record} (tornStored : torn.Stored codec)
    (begun : 0 < cut) (isCut : cut < size + 4)
    (stopped : Stopped codec init last ((frame (torn.data codec)).take cut) next)
    (sync : ∀ call ∈ further, call.IsSync) (ran : exec (performAll codec further)
      (new codec (stoppedFiles codec init last ((frame (torn.data codec)).take cut)) seconds) =
        (.ok more, after)) (dirty : cut < 4 → ¬ BeginsFile size further
      (new codec (stoppedFiles codec init last ((frame (torn.data codec)).take cut)) seconds)) :
    ¬ KeepsAcknowledged codec after.files (records (init ++ [last]) ++ more) := by
  rcases (stopped.reopen roundTrip seconds).performAll_found fixed sync ran with
    ⟨layout, first, newer, resumed, isSegments, isMore, begins⟩
  have contents : layout.entries = first.entries ++ newer.flatMap Segment.entries := by
    rw [Layout.entries, isSegments, List.flatMap_cons]
  have newStored := resumed.stored
  rw [contents] at newStored
  have initStored : ∀ segment ∈ init, ∀ entry ∈ segment.entries, entry.Stored codec :=
    fun segment member => stopped.stored segment (by simp [member])
  have newerStored : ∀ segment ∈ newer, ∀ entry ∈ segment.entries, entry.Stored codec := by
    intro segment member entry inside
    apply newStored
    rw [List.mem_append, List.mem_flatMap]
    exact .inr ⟨segment, member, inside⟩
  apply not_keeps_of_fewer (stopped.acknowledged_nodup resumed isMore)
  intro succeeds
  rw [resumed.files, isSegments] at succeeds ⊢
  rcases read_of_delivered roundTrip initStored succeeds with ⟨collected, read⟩
  rw [replay_resumed roundTrip initStored newerStored read]
  rcases length_of_read roundTrip (stopped.stored last (by simp)) read with ⟨whole, length⟩
  have firstStored : ∀ entry ∈ first.entries, entry.Stored codec :=
    fun entry member => newStored entry (by simp [member])
  have fewer : ((frames ((frame (torn.data codec)).take cut ++
      body codec first.entries)).1.filter (accepts codec)).length < first.entries.length := by
    by_cases inLength : cut < 4
    · have some : first.entries ≠ [] := fun none => dirty inLength (begins.mp none)
      exact fewer_behind_length fixed tornStored begun inLength firstStored some whole
    · exact fewer_behind_entry fixed tornStored (by omega) isCut firstStored whole
  rw [← isMore, contents, records]
  simp only [List.flatMap_append, List.flatMap_cons, List.flatMap_nil, List.append_nil,
    List.length_append, List.length_map]
  omega

/-- A file whose header is not whole hides an acknowledged record or makes replay
fail. -/
theorem short_header_loses [DecidableEq Record] (roundTrip : codec.RoundTrip)
    (fixed : codec.FixedSize size)
    (stored : ∀ segment ∈ segments, ∀ entry ∈ segment.entries, entry.Stored codec)
    (positive : 1 ≤ next) (numbers : (segments.flatMap Segment.entries).map WalEntry.sequence =
      List.range' 1 (next - 1)) (older : ∀ segment ∈ segments, segment.start ≤ next)
    {content : List UInt8} (short : content.length < 128) (sync : ∀ call ∈ further, call.IsSync)
    (ran : exec (performAll codec further)
      (new codec (segments.map (toFile codec) ++ [⟨next + 1, content⟩]) seconds) =
        (.ok more, after)) : ¬ KeepsAcknowledged codec after.files (records segments ++ more) := by
  have unread : scanFile codec (⟨next + 1, content⟩ : WalFile) = [] :=
    scanFile_of_short codec short
  have scanned : (segments.map (toFile codec) ++ [(⟨next + 1, content⟩ : WalFile)]).flatMap
      (scanFile codec) = List.range' 1 (next - 1) := by
    rw [← numbers, List.flatMap_append, scanFiles roundTrip stored]
    simp [unread]
  have sequence := openExisting_currentSequence scanned ⟨next + 1, content⟩
  have enough : next ≤ reopenedSequence next := by
    rw [reopenedSequence]
    omega
  have reopened : Resumed codec (segments.map (toFile codec)) content (reopenedSequence next)
      (new codec (segments.map (toFile codec) ++ [⟨next + 1, content⟩]) seconds)
      (found (next + 1)) := by
    rw [new_concat]
    refine ⟨⟨?_, rfl, by simp [found], rfl, ?_, List.pairwise_singleton _ _⟩,
      by simp [found, Layout.entries], .inr ⟨?_, ?_⟩, ?_, ?_⟩
    · simp [openExisting, resumedFiles, found, body]
    · intro file member segment isFound
      rcases List.mem_map.mp member with ⟨earlier, inside, rfl⟩
      rw [List.mem_singleton.mp isFound]
      exact Nat.lt_succ_of_le (older earlier inside)
    · intro segment isFound
      rw [List.mem_singleton.mp isFound, sequence]
      exact Nat.succ_le_succ enough
    · change content.length + 65540 ≤ 1000000000
      omega
    · rw [sequence]
    · rw [sequence]
      simp [found, Layout.entries]
  rcases reopened.performAll_found fixed sync ran with
    ⟨layout, first, newer, resumed, isSegments, isMore, _⟩
  have contents : layout.entries = first.entries ++ newer.flatMap Segment.entries := by
    rw [Layout.entries, isSegments, List.flatMap_cons]
  have newStored := resumed.stored
  rw [contents] at newStored
  have newerStored : ∀ segment ∈ newer, ∀ entry ∈ segment.entries, entry.Stored codec := by
    intro segment member entry inside
    apply newStored
    rw [List.mem_append, List.mem_flatMap]
    exact .inr ⟨segment, member, inside⟩
  have distinct : (records segments ++ more).Nodup := by
    apply nodup_of_numbers (next - 1)
    · rw [records, map_fst_numberedRecord, numbers]
    · rw [← isMore, map_fst_numberedRecord, resumed.numbers]
    · rw [reopenedSequence]
      omega
  apply not_keeps_of_fewer distinct
  intro succeeds
  rw [resumed.files, isSegments] at succeeds ⊢
  rcases read_of_delivered roundTrip stored succeeds with ⟨collected, read⟩
  rw [replay_resumed roundTrip stored newerStored read]
  have fewer := fewer_behind_header fixed short
    (fun entry member => newStored entry (by simp [member])) read
  rw [← isMore, contents, records]
  simp only [List.length_append, List.length_map]
  omega

end Reopened

end Runs

/-! ## Where the crash may be -/

section Begun

variable {codec : EntryCodec Record} {size : ℕ} {layout : Layout Record}

/-- The segments when a write begins: its entries go behind the last one. -/
structure Begun (codec : EntryCodec Record) (layout : Layout Record) (next : ℕ)
    (init : List (Segment Record)) (last : Segment Record) : Prop where
  stored : ∀ segment ∈ init ++ [last], ∀ entry ∈ segment.entries, entry.Stored codec
  older : ∀ segment ∈ init, segment.start < last.start
  entries : (init ++ [last]).flatMap Segment.entries = layout.entries
  ahead : last.start ≤ next ∨ last.start ≤ next + 1 ∧ last.entries = []

theorem Begun.stopped (begun : Begun codec layout next init last) (dense : Dense layout next)
    (unread : (frames tail).1 = []) (short : tail.length < 65540) :
    Stopped codec init last tail next where
  stored := begun.stored
  older := begun.older
  positive := dense.positive
  numbers := by rw [begun.entries, dense.numbers]
  ahead := begun.ahead
  unread := unread
  short := short

theorem Begun.whole (begun : Begun codec layout next init last) (dense : Dense layout next)
    {entry : WalEntry Record} (stored : entry.Stored codec) (isNext : entry.sequence = next) :
    Stopped codec init (last.add [entry]) [] (next + 1) where
  stored := by
    intro segment member other inside
    rcases List.mem_append.mp member with isOld | isLast
    · exact begun.stored segment (by simp [isOld]) other inside
    · rw [List.mem_singleton.mp isLast] at inside
      rcases List.mem_append.mp inside with old | isNew
      · exact begun.stored last (by simp) other old
      · rw [List.mem_singleton.mp isNew]
        exact stored
  older := begun.older
  positive := by omega
  numbers := by
    have positive := dense.positive
    have entries : (init ++ [last.add [entry]]).flatMap Segment.entries =
        layout.entries ++ [entry] := by
      rw [← begun.entries]
      simp
    rw [entries, List.map_append, dense.numbers, List.map_singleton, isNext,
      show next + 1 - 1 = (next - 1) + 1 by omega, List.range'_concat]
    congr 2
    omega
  ahead := by
    left
    rw [Segment.add_start]
    rcases begun.ahead with behind | ⟨ahead, _⟩
    · omega
    · exact ahead
  unread := by rw [frames_of_short (by decide)]
  short := by decide

theorem fileSize_of_mem (bytes : List UInt8) (others : ∀ file ∈ front, file.number ≠ number) :
    Crash.fileSize number (front ++ [⟨number, bytes⟩]) = bytes.length := by
  have found : (front ++ [(⟨number, bytes⟩ : WalFile)]).find? (fun file => file.number = number) =
      some ⟨number, bytes⟩ := by
    rw [List.find?_append, List.find?_eq_none.mpr]
    · simp
    · intro file member
      simpa using others file member
  rw [Crash.fileSize, found]

theorem fileSize_of_new {files : List WalFile} {number : ℕ}
    (others : ∀ file ∈ files, file.number ≠ number) : Crash.fileSize number files = 0 := by
  have missing : files.find? (fun file => file.number = number) = none := by
    apply List.find?_eq_none.mpr
    intro file member
    simpa using others file member
  rw [Crash.fileSize, missing]

theorem Ordered.begun (ordered : Ordered codec manager layout [] appended) :
    ∃ init last, Begun codec layout manager.currentSequence init last ∧
      manager.files = stoppedFiles codec init last [] := by
  rcases ordered.stores.live ordered.linked with ⟨init, last, isConcat, _, others⟩
  refine ⟨init, last, ⟨?_, others, ?_, .inl ?_⟩, ?_⟩
  · rw [← isConcat]
    exact ordered.stores.stored
  · rw [← isConcat]
    rfl
  · exact ordered.stores.bounded last (by simp [isConcat])
  · rw [ordered.stores.files, isConcat]
    simp [stoppedFiles, stoppedContent, toFile]

theorem Stores.cut_new (stores : Stores codec manager layout) (seconds : ℤ)
    (entry : WalEntry Record) (kept : ℕ) :
    Crash.cutNewest kept manager.files ((layout.append true (manager.currentSequence + 1) seconds
        [entry]).segments.map (toFile codec)) =
      layout.segments.map (toFile codec) ++ [⟨manager.currentSequence + 1,
        ((WalFileHeader.new (manager.currentSequence + 1) seconds).toBytes ++
          frame (entry.data codec)).take kept⟩] := by
  let begun : Segment Record := ⟨manager.currentSequence + 1, seconds, []⟩
  have segments : (layout.append true (manager.currentSequence + 1) seconds [entry]).segments =
      layout.segments ++ [begun.add [entry]] := by
    simp only [Layout.append, Layout.rotate, Layout.write, if_true]
    exact Layout.addToLast_concat _ layout.segments begun
  have number : ((begun.add [entry]).toFile codec).number = manager.currentSequence + 1 := rfl
  have isNew : ∀ file ∈ manager.files, file.number ≠ manager.currentSequence + 1 := by
    intro file member
    rw [stores.files] at member
    rcases List.mem_map.mp member with ⟨segment, inside, rfl⟩
    have bound := stores.bounded segment inside
    change segment.start ≠ _
    omega
  rw [segments, List.map_append, List.map_singleton, Crash.cutNewest, List.getLast?_concat,
    List.dropLast_concat]
  simp only [number, fileSize_of_new isNew, Nat.zero_add]
  simp [toFile, header, body, begun, Segment.add]

theorem Stores.cut_live (stores : Stores codec manager layout) (linked : layout.linked = true)
    (start : ℕ) (seconds : ℤ) (entry : WalEntry Record) (kept : ℕ) :
    ∃ init last, layout.segments = init ++ [last] ∧
      (∀ segment ∈ init, segment.start < last.start) ∧
      Crash.cutNewest kept manager.files
          ((layout.append false start seconds [entry]).segments.map (toFile codec)) =
        stoppedFiles codec init last ((frame (entry.data codec)).take kept) := by
  rcases stores.live linked with ⟨init, last, isConcat, _, others⟩
  refine ⟨init, last, isConcat, others, ?_⟩
  have segments : (layout.append false start seconds [entry]).segments =
      init ++ [last.add [entry]] := by
    simp only [Layout.append, Layout.write, linked, if_true, isConcat]
    exact Layout.addToLast_concat _ init last
  have apart : ∀ file ∈ init.map (toFile codec), file.number ≠ last.start := by
    intro file member
    rcases List.mem_map.mp member with ⟨segment, inside, rfl⟩
    exact ne_of_lt (others segment inside)
  have length : Crash.fileSize last.start manager.files =
      (last.header ++ body codec last.entries).length := by
    rw [stores.files, isConcat, List.map_append, List.map_singleton]
    exact fileSize_of_mem _ apart
  have number : ((last.add [entry]).toFile codec).number = last.start := rfl
  have bytes : ((last.add [entry]).toFile codec).bytes =
      (last.header ++ body codec last.entries) ++ frame (entry.data codec) := by
    simp [toFile, header, body, Segment.add]
  rw [segments, List.map_append, List.map_singleton, Crash.cutNewest, List.getLast?_concat,
    List.dropLast_concat, stoppedFiles]
  simp only [number, length, bytes]
  rw [List.take_length_add_append, stoppedContent, List.append_assoc]

/-- What a crash in an `append` leaves: a part of a header, or a part of a frame behind
the segments. -/
theorem Ordered.crash (fixed : codec.FixedSize size)
    (ordered : Ordered codec manager layout [] appended) (seconds : ℤ) (stamped : Stamped Record)
    (kept : ℕ) (writes : (Crash.appending seconds stamped kept).Writes codec manager) :
    let entry := WalEntry.numbered codec manager.currentSequence stamped
    let left := (Crash.appending seconds stamped kept).leaves codec manager
    entry.Stored codec ∧
      ((kept < Crash.headerBytes size manager ∧ ∃ content : List UInt8, content.length < 128 ∧
          left = layout.segments.map (toFile codec) ++ [⟨manager.currentSequence + 1, content⟩]) ∨
        (Crash.headerBytes size manager ≤ kept ∧ ∃ init last,
          Begun codec layout manager.currentSequence init last ∧
          left = stoppedFiles codec init last
            ((frame (entry.data codec)).take (kept - Crash.headerBytes size manager)))) := by
  intro entry left
  rcases writes with ⟨sequence, succeeded⟩
  rcases exec_append (exec_eq_of_outcome succeeded) with ⟨stored, _, after⟩
  refine ⟨stored, ?_⟩
  have oneStored : ∀ other ∈ [entry], other.Stored codec := by
    intro other member
    rw [List.mem_singleton.mp member]
    exact stored
  have isFull : (manager.advanced 1).full ([entry].map (WalEntry.preSerialized codec)) =
      decide (manager.maxFileSize < manager.currentFileSize + (size + 4)) := by
    rw [full_preSerialized fixed oneStored]
    simp [advanced]
  have wrote := (ordered.stores.advanced 1).wrote oneStored seconds (fun _ segment member => by
    have bound := ordered.stores.bounded segment member
    simp only [WalManager.advanced]
    omega)
  have files : left = Crash.cutNewest kept manager.files
      ((layout.append (decide (manager.maxFileSize < manager.currentFileSize + (size + 4)))
        (manager.currentSequence + 1) seconds [entry]).segments.map (toFile codec)) := by
    rw [← isFull]
    change Crash.cutNewest kept manager.files (exec (append codec seconds stamped) manager).2.files
      = _
    rw [after]
    exact congrArg (Crash.cutNewest kept manager.files) wrote.files
  rw [Crash.headerBytes]
  by_cases rotates : manager.maxFileSize < manager.currentFileSize + (size + 4)
  · rw [if_pos rotates]
    rw [decide_eq_true rotates, ordered.stores.cut_new] at files
    by_cases inHeader : kept < 128
    · refine .inl ⟨inHeader, _, ?_, files⟩
      simp only [List.length_take]
      omega
    · refine .inr ⟨by omega, layout.segments, ⟨manager.currentSequence + 1, seconds, []⟩,
        ⟨?_, ?_, ?_, .inr ⟨le_refl _, rfl⟩⟩, ?_⟩
      · intro segment member other inside
        rcases List.mem_append.mp member with isOld | isLast
        · exact ordered.stores.stored segment isOld other inside
        · rw [List.mem_singleton.mp isLast] at inside
          cases inside
      · intro segment member
        have bound := ordered.stores.bounded segment member
        change segment.start < manager.currentSequence + 1
        omega
      · simp [Layout.entries]
      · rw [files, stoppedFiles, stoppedContent, List.take_append,
          WalFileHeader.length_toBytes_new, List.take_of_length_le (by
            rw [WalFileHeader.length_toBytes_new]
            omega)]
        simp [body, header]
  · rw [if_neg rotates]
    rw [decide_eq_false rotates] at files
    rcases ordered.stores.cut_live ordered.linked (manager.currentSequence + 1) seconds entry kept
      with ⟨init, last, isConcat, others, cutFiles⟩
    refine .inr ⟨Nat.zero_le _, init, last, ⟨?_, others, ?_, .inl ?_⟩, files.trans cutFiles⟩
    · rw [← isConcat]
      exact ordered.stores.stored
    · rw [← isConcat]
      rfl
    · exact ordered.stores.bounded last (by simp [isConcat])

end Begun

/-- After a crash, an opening and further calls replay succeeds and delivers every
acknowledged record once if and only if the crash left nothing of the frame or all of
it, or a part of its length behind which nothing is written. -/
theorem keeps_acknowledged_iff [DecidableEq Record] {codec : EntryCodec Record} {size : ℕ}
    (roundTrip : codec.RoundTrip) (fixed : codec.FixedSize size) (config : GroupCommitConfig)
    (seconds reopened : ℤ) {calls further : List (WalCall Record)}
    (sync : ∀ call ∈ calls, call.IsSync) (furtherSync : ∀ call ∈ further, call.IsSync)
    {appended more : List (ℕ × Record)} {manager last : WalManager}
    (ran : exec (performAll codec calls) (withConfig codec [] seconds config) =
      (.ok appended, manager)) {crash : Crash Record} (writes : crash.Writes codec manager)
    (resumed : exec (performAll codec further) (new codec (crash.leaves codec manager) reopened) =
      (.ok more, last)) :
    KeepsAcknowledged codec last.files (appended ++ more) ↔
      crash.StopsCleanly size manager ∨ crash.StopsInLength size manager ∧
        BeginsFile size further (new codec (crash.leaves codec manager) reopened) := by
  rcases (ordered_new codec seconds config).performAll_sync Dense
    (fun _ _ rotates seconds _ some linked _ dense => dense.append rotates seconds some linked)
    sync (dense_new seconds) ran with ⟨layout, ordered, dense⟩
  have isAppended : appended = layout.entries.map WalEntry.numberedRecord := by
    simpa using ordered.appended_eq
  have none : (frames []).1 = [] := by rw [frames_of_short (by decide)]
  have small := fixed.small
  cases crash with
  | idle =>
    rcases ordered.begun with ⟨init, newest, begun, files⟩
    change exec _ (new codec manager.files reopened) = _ at resumed
    rw [files] at resumed
    refine iff_of_true ?_ (.inl trivial)
    apply (begun.stopped dense none (by decide)).keeps roundTrip fixed furtherSync resumed
      (.inl rfl)
    rw [records, begun.entries, ← isAppended]
    exact List.Subset.refl _
  | appending now stamped kept =>
    rcases ordered.crash fixed now stamped kept writes with
      ⟨stored, ⟨inHeader, content, short, left⟩ | ⟨behind, init, newest, begun, left⟩⟩
    · -- the header is torn
      rw [left] at resumed
      refine iff_of_false ?_ ?_
      · rw [isAppended]
        exact short_header_loses roundTrip fixed ordered.stores.stored dense.positive
          dense.numbers ordered.stores.bounded short furtherSync resumed
      · rintro (clean | ⟨inLength, _⟩)
        · simp only [Crash.StopsCleanly] at clean
          omega
        · simp only [Crash.StopsInLength] at inLength
          omega
    · have sameRecords : records (init ++ [newest]) = appended := by
        rw [records, begun.entries, isAppended]
      have length := stored.length_data fixed
      generalize isData : WalEntry.data codec _ = data at left length
      rw [left] at resumed ⊢
      simp only [Crash.StopsCleanly, Crash.StopsInLength]
      generalize Crash.headerBytes size manager = header at *
      by_cases whole : header + (size + 4) ≤ kept
      · -- the write is whole, though not acknowledged
        refine iff_of_true ?_ (.inl (.inr whole))
        have isWhole : stoppedFiles codec init newest ((frame data).take (kept - header)) =
            stoppedFiles codec init (newest.add
              [WalEntry.numbered codec manager.currentSequence stamped]) [] := by
          rw [List.take_of_length_le (by rw [length_frame]; omega)]
          simp [stoppedFiles, stoppedContent, Segment.header, Segment.add, body, isData]
        rw [isWhole] at resumed
        apply (begun.whole dense stored rfl).keeps roundTrip fixed furtherSync resumed (.inl rfl)
        intro record member
        rcases List.mem_append.mp member with old | isNew
        · rw [← sameRecords] at old
          apply List.mem_append_left
          simp only [records, List.flatMap_append, List.map_append, List.mem_append,
            List.flatMap_cons, List.flatMap_nil, List.append_nil, Segment.add_entries] at old ⊢
          exact old.imp_right .inl
        · exact List.mem_append_right _ isNew
      · have unread : (frames ((frame data).take (kept - header))).1 = [] := by
          rw [frames_take_frame (by omega) (by omega)]
        have stopped := begun.stopped dense unread (by
          simp only [List.length_take, length_frame]
          omega)
        rw [← sameRecords]
        by_cases nothing : kept = header
        · refine iff_of_true ?_ (.inl (.inl nothing))
          apply stopped.keeps roundTrip fixed furtherSync resumed (.inl ?_)
            (List.Subset.refl _)
          rw [nothing, Nat.sub_self, List.take_zero]
        · constructor
          · intro keeps
            by_contra fails
            rw [← isData] at stopped resumed fails
            refine stopped.loses roundTrip fixed stored (by omega) (by omega) furtherSync resumed
              ?_ keeps
            intro inLength begins
            exact fails (.inr ⟨by omega, begins⟩)
          · rintro (clean | ⟨inLength, begins⟩)
            · omega
            · apply stopped.keeps roundTrip fixed furtherSync resumed (.inr ⟨?_, begins⟩)
                (List.Subset.refl _)
              simp only [List.length_take]
              omega

theorem referenceCodec_fixedSize : referenceCodec.FixedSize 4 where
  length_eq := by
    intro entry bytes serialized
    rcases ReferenceCodec.serialize_eq_ok serialized with ⟨_, _, _, rfl⟩
    rfl
  small := by decide
  lowByte := by decide
  enough := by
    intro bytes entry read
    rcases bytes with _ | ⟨_, _ | ⟨_, _ | ⟨_, _ | ⟨_, _⟩⟩⟩⟩ <;>
      simp [referenceCodec] at read ⊢
  torn := by
    intro first second bytes next cut entry firstBytes secondBytes isCut read
    rcases ReferenceCodec.serialize_eq_ok firstBytes with ⟨_, _, _, rfl⟩
    rcases ReferenceCodec.serialize_eq_ok secondBytes with ⟨_, _, _, rfl⟩
    -- the last byte is one of a length, and not the mark
    rcases (by omega : cut = 0 ∨ cut = 1 ∨ cut = 2 ∨ cut = 3) with rfl | rfl | rfl | rfl <;>
      simp [referenceCodec, frame, leBytes] at read

def oneRecord : WalManager :=
  (exec (performAll referenceCodec [.append 0 ⟨0, 5⟩]) (withConfig referenceCodec [] 0 .default)).2

/-- The manager after a crash with `kept` bytes of the next record. -/
def reopenedAfter (kept : ℕ) : WalManager :=
  new referenceCodec ((Crash.appending 0 ⟨0, 7⟩ kept).leaves referenceCodec oneRecord) 0

/-- A crash before the first byte, and a record after it. -/
theorem reopenedAfter_zero_keeps :
    KeepsAcknowledged referenceCodec
      (exec (performAll referenceCodec [.append 0 ⟨0, 9⟩]) (reopenedAfter 0)).2.files
      [(1, 5), (2, 9)] := by
  have sync : ∀ record, ∀ call ∈ [WalCall.append 0 (⟨0, record⟩ : Stamped UInt8)],
      call.IsSync := by
    intro record call member
    rw [List.mem_singleton.mp member]
    trivial
  have first : (exec (performAll referenceCodec [.append 0 ⟨0, 5⟩])
      (withConfig referenceCodec [] 0 .default)).1 = .ok [(1, 5)] := by decide +kernel
  have second : (exec (performAll referenceCodec [.append 0 ⟨0, 9⟩]) (reopenedAfter 0)).1 =
      .ok [(2, 9)] := by decide +kernel
  have succeeds : (exec (append referenceCodec 0 ⟨0, 7⟩) oneRecord).1 = .ok 2 := by
    decide +kernel
  have writes : (Crash.appending 0 (⟨0, 7⟩ : Stamped UInt8) 0).Writes referenceCodec oneRecord :=
    ⟨2, succeeds⟩
  have clean : (Crash.appending 0 (⟨0, 7⟩ : Stamped UInt8) 0).StopsCleanly 4 oneRecord := by
    decide +kernel
  have ran : exec (performAll referenceCodec [.append 0 ⟨0, 5⟩])
      (withConfig referenceCodec [] 0 .default) = (.ok [(1, 5)], oneRecord) :=
    exec_eq_of_outcome first
  have resumed : exec (performAll referenceCodec [.append 0 ⟨0, 9⟩]) (new referenceCodec
      ((Crash.appending 0 (⟨0, 7⟩ : Stamped UInt8) 0).leaves referenceCodec oneRecord) 0) =
        (.ok [(2, 9)], (exec (performAll referenceCodec [.append 0 ⟨0, 9⟩])
          (reopenedAfter 0)).2) := exec_eq_of_outcome second
  exact (keeps_acknowledged_iff ReferenceCodec.roundTrip referenceCodec_fixedSize .default 0 0
    (sync 5) (sync 9) ran writes resumed).mpr (.inl clean)

/-- One byte of the entry makes replay fail, before and after another record; two bytes
of the length hide the record that is written behind them. -/
theorem torn_write_loses : (delivered referenceCodec (reopenedAfter 5).files).1 =
        .error "Read entry data failed: failed to fill whole buffer" ∧
      ¬ KeepsAcknowledged referenceCodec (reopenedAfter 5).files [(1, 5)] ∧
      (exec (performAll referenceCodec [.append 0 ⟨0, 9⟩]) (reopenedAfter 5)).1 = .ok [(2, 9)] ∧
      ¬ KeepsAcknowledged referenceCodec
        (exec (performAll referenceCodec [.append 0 ⟨0, 9⟩]) (reopenedAfter 5)).2.files
        [(1, 5), (2, 9)] ∧
      (exec (performAll referenceCodec [.append 0 ⟨0, 9⟩]) (reopenedAfter 2)).1 = .ok [(2, 9)] ∧
      ¬ KeepsAcknowledged referenceCodec
        (exec (performAll referenceCodec [.append 0 ⟨0, 9⟩]) (reopenedAfter 2)).2.files
        [(1, 5), (2, 9)] := by
  decide +kernel

end WalManager

end QAExchange
