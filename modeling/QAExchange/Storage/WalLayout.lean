import QAExchange.Storage.WalSegments

/-! # What the manager writes, as segments

Every write of the manager is a change of its layout: entries behind the last
segment, or a new segment. The actions are first brought into the form of pure
functions, and these are then followed on the layout.
-/

namespace QAExchange

open Foundation Action Framing Segment

variable {Record : Type}

def WalEntry.numbered (codec : EntryCodec Record) (sequence : ℕ) (stamped : Stamped Record) :
    WalEntry Record :=
  (WalEntry.new sequence stamped).withCrc32 codec

def WalEntry.preSerialized (codec : EntryCodec Record) (entry : WalEntry Record) :
    PreSerializedEntry :=
  ⟨entry.sequence, entry.data codec⟩

/-- The entries of records that are numbered one after the other. -/
def WalEntry.numberedFrom (codec : EntryCodec Record) :
    ℕ → List (Stamped Record) → List (WalEntry Record)
  | _, [] => []
  | sequence, stamped :: records =>
    WalEntry.numbered codec sequence stamped :: numberedFrom codec (sequence + 1) records

def Segment.add (entries : List (WalEntry Record)) (segment : Segment Record) : Segment Record :=
  { segment with entries := segment.entries ++ entries }

@[simp] theorem Segment.add_start (entries : List (WalEntry Record)) (segment : Segment Record) :
    (segment.add entries).start = segment.start := rfl

@[simp] theorem Segment.add_entries (entries : List (WalEntry Record)) (segment : Segment Record) :
    (segment.add entries).entries = segment.entries ++ entries := rfl

/-- The log on the disk: its segments, and whether the directory still has the
file that the manager appends to, which then is the last one. -/
structure Layout (Record : Type) where
  segments : List (Segment Record)
  linked : Bool

namespace Layout

/-- Entries behind the last segment's. -/
def addToLast (entries : List (WalEntry Record)) : List (Segment Record) → List (Segment Record)
  | [] => []
  | [last] => [last.add entries]
  | first :: second :: rest => first :: addToLast entries (second :: rest)

def write (entries : List (WalEntry Record)) (layout : Layout Record) : Layout Record :=
  { layout with
    segments := if layout.linked then addToLast entries layout.segments else layout.segments }

def rotate (start : ℕ) (seconds : ℤ) (layout : Layout Record) : Layout Record where
  segments := layout.segments ++ [⟨start, seconds, []⟩]
  linked := true

/-- Entries behind the last segment's, or in a new segment. -/
def append (rotates : Bool) (start : ℕ) (seconds : ℤ) (entries : List (WalEntry Record))
    (layout : Layout Record) : Layout Record :=
  match rotates with
  | true => (layout.rotate start seconds).write entries
  | false => layout.write entries

/-- Remove the segments that were begun before `sequence`. -/
def truncate (sequence : ℕ) (layout : Layout Record) : Layout Record where
  segments := layout.segments.filter fun segment => sequence ≤ segment.start
  linked := layout.linked && layout.segments.getLast?.any fun last => sequence ≤ last.start

def entries (layout : Layout Record) : List (WalEntry Record) :=
  layout.segments.flatMap Segment.entries

@[simp] theorem addToLast_concat (entries : List (WalEntry Record)) (init : List (Segment Record))
    (last : Segment Record) : addToLast entries (init ++ [last]) = init ++ [last.add entries] := by
  induction init with
  | nil => rfl
  | cons first init induction =>
    cases init with
    | nil => rfl
    | cons second rest => simp only [List.cons_append, addToLast] at induction ⊢; rw [induction]

end Layout

namespace WalManager

structure Stores (codec : EntryCodec Record) (manager : WalManager) (layout : Layout Record) :
    Prop where
  files : manager.files = layout.segments.map (toFile codec)
  currentFile : manager.currentFile =
    if layout.linked then layout.segments.getLast?.map Segment.start else none
  nonempty : layout.linked = true → layout.segments ≠ []
  sorted : layout.segments.Pairwise fun left right => left.start < right.start
  bounded : ∀ segment ∈ layout.segments, segment.start ≤ manager.currentSequence
  stored : ∀ segment ∈ layout.segments, ∀ entry ∈ segment.entries, entry.Stored codec

variable {number : ℕ} {files : List WalFile}

theorem openFile_of_lt (newest : ∀ file ∈ files, file.number < number) :
    openFile number files = files ++ [⟨number, []⟩] := by
  have isNew : ¬ ∃ file ∈ files, file.number = number := by
    intro found
    rcases found with ⟨file, member, same⟩
    have smaller := newest file member
    omega
  rw [openFile, if_neg isNew]
  induction files with
  | nil => rfl
  | cons file files induction =>
    have smaller := newest file (by simp)
    rw [List.orderedInsert_cons, if_neg (not_le.mpr smaller), List.cons_append]
    congr 1
    apply induction
    · intro other member
      exact newest other (List.mem_cons_of_mem _ member)
    · intro found
      rcases found with ⟨other, member, same⟩
      exact isNew ⟨other, List.mem_cons_of_mem _ member, same⟩

theorem appendBytes_of_ne (others : ∀ file ∈ files, file.number ≠ number) :
    appendBytes number bytes files = files := by
  rw [appendBytes]
  conv_rhs => rw [← List.map_id files]
  apply List.map_congr_left
  intro file member
  rw [if_neg (others file member)]
  rfl

theorem appendBytes_append (number : ℕ) (bytes : List UInt8) (first rest : List WalFile) :
    appendBytes number bytes (first ++ rest) =
      appendBytes number bytes first ++ appendBytes number bytes rest := List.map_append

theorem appendBytes_newest (others : ∀ file ∈ files, file.number ≠ number) (content : List UInt8) :
    appendBytes number bytes (files ++ [⟨number, content⟩]) =
      files ++ [⟨number, content ++ bytes⟩] := by
  rw [appendBytes_append, appendBytes_of_ne others]
  simp [appendBytes]

/-! ### Pure forms of the actions -/

def full (entries : List PreSerializedEntry) (manager : WalManager) : Bool :=
  decide (manager.maxFileSize <
    manager.currentFileSize + (entries.map fun entry => frameSize entry.bytes).sum)

/-- After `count` sequence numbers were taken. -/
def advanced (count : ℕ) (manager : WalManager) : WalManager :=
  { manager with currentSequence := manager.currentSequence + count }

def rotated (seconds : ℤ) (manager : WalManager) : WalManager :=
  { manager with
    files := appendBytes manager.currentSequence
      (WalFileHeader.new manager.currentSequence seconds).toBytes
      (openFile manager.currentSequence manager.files)
    currentFile := some manager.currentSequence
    currentFileSize := 128 }

def written (bytes : List UInt8) (manager : WalManager) : WalManager :=
  match manager.currentFile with
  | some number => { manager with files := appendBytes number bytes manager.files }
  | none => manager

/-- What `write_entries` leaves. -/
def wrote (seconds : ℤ) (entries : List PreSerializedEntry) (manager : WalManager) : WalManager :=
  let after := written (entries.flatMap fun entry => frame entry.bytes)
    (if manager.full entries then rotated seconds manager else manager)
  { after with
    currentFileSize :=
      after.currentFileSize + (entries.map fun entry => frameSize entry.bytes).sum }

@[simp] theorem written_currentSequence (bytes : List UInt8) (manager : WalManager) :
    (manager.written bytes).currentSequence = manager.currentSequence := by
  unfold written; split <;> rfl

@[simp] theorem written_groupCommitBuffer (bytes : List UInt8) (manager : WalManager) :
    (manager.written bytes).groupCommitBuffer = manager.groupCommitBuffer := by
  unfold written; split <;> rfl

@[simp] theorem written_currentFile (bytes : List UInt8) (manager : WalManager) :
    (manager.written bytes).currentFile = manager.currentFile := by
  unfold written; split <;> simp_all

@[simp] theorem wrote_currentSequence (seconds : ℤ) (entries : List PreSerializedEntry)
    (manager : WalManager) :
    (manager.wrote seconds entries).currentSequence = manager.currentSequence := by
  simp only [wrote, written_currentSequence]
  split <;> rfl

@[simp] theorem wrote_groupCommitBuffer (seconds : ℤ) (entries : List PreSerializedEntry)
    (manager : WalManager) :
    (manager.wrote seconds entries).groupCommitBuffer = manager.groupCommitBuffer := by
  simp only [wrote, written_groupCommitBuffer]
  split <;> rfl

theorem exec_writeEntries (seconds : ℤ) (entries : List PreSerializedEntry) (manager : WalManager) :
    exec (writeEntries seconds entries) manager = (.ok (), manager.wrote seconds entries) := by
  cases isFull : manager.full entries with
  | true =>
    simp only [wrote, isFull]
    simp only [full] at isFull
    simp only [writeEntries, exec_bind, exec_read, isFull, exec_runIf_true]
    rfl
  | false =>
    simp only [wrote, isFull]
    simp only [full] at isFull
    simp only [writeEntries, exec_bind, exec_read, isFull, exec_runIf_false]
    rfl

variable {codec : EntryCodec Record} {stamped : Stamped Record} {manager after : WalManager}

/-- The next sequence number is taken in any case, and the bytes are those of the
numbered entry. -/
theorem exec_preSerialize (ran : exec (preSerialize codec stamped) manager = (.ok entry, after)) :
    (WalEntry.numbered codec manager.currentSequence stamped).Stored codec ∧
      entry = (WalEntry.numbered codec manager.currentSequence stamped).preSerialized codec ∧
      after = manager.advanced 1 := by
  have split : exec (preSerialize codec stamped) manager =
      exec (do
        let bytes ← result ((WalEntry.numbered codec manager.currentSequence stamped).toBytes codec)
        pure (PreSerializedEntry.mk manager.currentSequence bytes))
        (manager.advanced 1) := rfl
  rw [split, exec_bind, exec_result] at ran
  cases made : (WalEntry.numbered codec manager.currentSequence stamped).toBytes codec with
  | error text => rw [made] at ran; cases ran
  | ok bytes =>
    rw [made] at ran
    cases ran
    rcases WalEntry.toBytes_eq_ok made with ⟨serialized, isData⟩
    refine ⟨⟨⟨bytes, serialized⟩, WalEntry.verifyCrc32_withCrc32 _ _⟩, ?_, rfl⟩
    rw [WalEntry.preSerialized, isData]
    rfl

variable {records : List (Stamped Record)}

theorem exec_preSerializeAll {entries : List PreSerializedEntry}
    (ran : exec (preSerializeAll codec records) manager = (.ok entries, after)) :
    (∀ entry ∈ WalEntry.numberedFrom codec manager.currentSequence records, entry.Stored codec) ∧
      entries = (WalEntry.numberedFrom codec manager.currentSequence records).map
        (WalEntry.preSerialized codec) ∧
      after = manager.advanced records.length := by
  induction records generalizing manager entries after with
  | nil =>
    cases ran
    exact ⟨by simp [WalEntry.numberedFrom], rfl, rfl⟩
  | cons stamped records induction =>
    rcases exec_bind_eq_ok ran with ⟨_, _, first, ran⟩
    rcases exec_preSerialize first with ⟨stored, rfl, rfl⟩
    rcases exec_bind_eq_ok ran with ⟨_, _, second, ran⟩
    rcases induction second with ⟨restStored, rfl, rfl⟩
    cases ran
    refine ⟨?_, rfl, ?_⟩
    · intro entry member
      rcases List.mem_cons.mp member with rfl | member
      · exact stored
      · exact restStored entry member
    · simp only [advanced, List.length_cons, Nat.add_assoc, Nat.add_comm 1]

theorem written_size (bytes : List UInt8) (size : ℕ) (manager : WalManager) :
    written bytes { manager with currentFileSize := manager.currentFileSize + size } =
      { written bytes manager with
        currentFileSize := (written bytes manager).currentFileSize + size } := by
  rcases manager with ⟨_, currentFile⟩
  cases currentFile <;> rfl

theorem append_eq (codec : EntryCodec Record) (seconds : ℤ) (stamped : Stamped Record) :
    append codec seconds stamped = (do
      let entry ← preSerialize codec stamped
      writeEntries seconds [entry]
      pure entry.sequence) := by
  rw [append]
  congr 1
  funext entry manager
  have single : ([entry].map fun entry => frameSize entry.bytes).sum = frameSize entry.bytes :=
    List.sum_singleton
  have bytes : ([entry].flatMap fun entry => frame entry.bytes) = frame entry.bytes := by simp
  have right : exec (do writeEntries seconds [entry]; pure entry.sequence) manager =
      (.ok entry.sequence, manager.wrote seconds [entry]) := by
    rw [exec_bind, exec_writeEntries]
    rfl
  refine Eq.trans ?_ right.symm
  have sameFull : manager.full [entry] =
      decide (manager.maxFileSize < manager.currentFileSize + frameSize entry.bytes) := by
    rw [full, single]
  change exec _ manager = _
  rw [exec_bind, exec_read, wrote, sameFull, single, bytes]
  cases decide (manager.maxFileSize < manager.currentFileSize + frameSize entry.bytes) with
  | true =>
    exact congrArg (Prod.mk (Except.ok entry.sequence)) (written_size (frame entry.bytes)
      (frameSize entry.bytes) (manager.rotated seconds))
  | false =>
    exact congrArg (Prod.mk (Except.ok entry.sequence)) (written_size (frame entry.bytes)
      (frameSize entry.bytes) manager)

variable {seconds : ℤ} {sequence : ℕ}

theorem exec_append (ran : exec (append codec seconds stamped) manager = (.ok sequence, after)) :
    (WalEntry.numbered codec manager.currentSequence stamped).Stored codec ∧
      sequence = manager.currentSequence ∧
      after = wrote seconds
        [(WalEntry.numbered codec manager.currentSequence stamped).preSerialized codec]
        (manager.advanced 1) := by
  rw [append_eq] at ran
  rcases exec_bind_eq_ok ran with ⟨_, _, first, ran⟩
  rcases exec_preSerialize first with ⟨stored, rfl, rfl⟩
  simp only [exec_bind, exec_writeEntries, exec_pure] at ran
  cases ran
  exact ⟨stored, rfl, rfl⟩

theorem exec_appendBatch
    (ran : exec (appendBatch codec seconds records) manager = (.ok sequences, after))
    (some : records ≠ []) :
    let entries := WalEntry.numberedFrom codec manager.currentSequence records
    (∀ entry ∈ entries, entry.Stored codec) ∧ sequences = entries.map WalEntry.sequence ∧
      after = wrote seconds (entries.map (WalEntry.preSerialized codec))
        (manager.advanced records.length) := by
  rw [appendBatch, if_neg (by simpa using some)] at ran
  rcases exec_bind_eq_ok ran with ⟨_, _, first, ran⟩
  rcases exec_preSerializeAll first with ⟨stored, rfl, rfl⟩
  simp only [exec_bind, exec_writeEntries, exec_pure] at ran
  cases ran
  refine ⟨stored, ?_, rfl⟩
  rw [List.map_map]
  rfl

def Serializes (codec : EntryCodec Record) (sequence : ℕ) (records : List (Stamped Record)) :
    Prop :=
  ∀ entry ∈ WalEntry.numberedFrom codec sequence records, (codec.serialize entry).isOk = true

instance (codec : EntryCodec Record) (sequence : ℕ) (records : List (Stamped Record)) :
    Decidable (Serializes codec sequence records) := by
  unfold Serializes
  infer_instance

theorem Serializes.stored (serializes : Serializes codec sequence records) :
    ∀ entry ∈ WalEntry.numberedFrom codec sequence records, entry.Stored codec := by
  intro entry member
  have isOk := serializes entry member
  constructor
  · cases made : codec.serialize entry with
    | error text => simp [made, Except.isOk, Except.toBool] at isOk
    | ok bytes => exact ⟨bytes, rfl⟩
  · clear isOk serializes
    induction records generalizing sequence with
    | nil => cases member
    | cons stamped records induction =>
      rcases List.mem_cons.mp member with rfl | later
      · exact WalEntry.verifyCrc32_withCrc32 _ _
      · exact induction later

theorem exec_preSerialize_eq (codec : EntryCodec Record) (stamped : Stamped Record)
    (manager : WalManager) :
    let entry := WalEntry.numbered codec manager.currentSequence stamped
    ((codec.serialize entry).isOk = true ∧ exec (preSerialize codec stamped) manager =
      (.ok (entry.preSerialized codec), manager.advanced 1)) ∨
    ((codec.serialize entry).isOk = false ∧ ∃ text, exec (preSerialize codec stamped) manager =
      (.error text, manager.advanced 1)) := by
  intro entry
  have split : exec (preSerialize codec stamped) manager = exec (do
      let bytes ← result (entry.toBytes codec)
      pure (PreSerializedEntry.mk manager.currentSequence bytes)) (manager.advanced 1) := rfl
  rw [split, exec_bind, exec_result, WalEntry.toBytes, WalEntry.preSerialized, WalEntry.data]
  cases codec.serialize entry with
  | error text => exact .inr ⟨rfl, _, rfl⟩
  | ok bytes => exact .inl ⟨rfl, rfl⟩

theorem exec_preSerializeAll_eq (codec : EntryCodec Record) (records : List (Stamped Record))
    (manager : WalManager) : (Serializes codec manager.currentSequence records ∧
      exec (preSerializeAll codec records) manager =
        (.ok ((WalEntry.numberedFrom codec manager.currentSequence records).map
          (WalEntry.preSerialized codec)), manager.advanced records.length)) ∨
    (¬ Serializes codec manager.currentSequence records ∧
      ∃ text count, exec (preSerializeAll codec records) manager =
        (.error text, manager.advanced count)) := by
  induction records generalizing manager with
  | nil => exact .inl ⟨by simp [Serializes, WalEntry.numberedFrom], rfl⟩
  | cons stamped records induction =>
    rw [preSerializeAll]
    rcases exec_preSerialize_eq codec stamped manager with ⟨isOk, first⟩ | ⟨isError, text, first⟩
    · rw [exec_bind_ok first]
      rcases induction (manager.advanced 1) with ⟨serializes, rest⟩ | ⟨fails, text, count, rest⟩
      · left
        constructor
        · intro entry member
          rcases List.mem_cons.mp member with rfl | later
          · exact isOk
          · exact serializes entry later
        · rw [exec_bind_ok rest, exec_pure]
          simp only [advanced, List.length_cons, Nat.add_assoc, Nat.add_comm 1]
          rfl
      · right
        constructor
        · intro serializes
          exact fails fun entry member => serializes entry (List.mem_cons_of_mem _ member)
        · refine ⟨text, 1 + count, ?_⟩
          rw [exec_bind_error rest]
          simp only [advanced, Nat.add_assoc]
    · right
      constructor
      · intro serializes
        have isOk := serializes _ (List.mem_cons_self ..)
        rw [isError] at isOk
        cases isOk
      · exact ⟨text, 1, exec_bind_error first⟩

/-- `append_batch` of some records writes all of them, or it fails and only takes
numbers. -/
theorem exec_appendBatch_eq (codec : EntryCodec Record) (seconds : ℤ) (some : records ≠ [])
    (manager : WalManager) :
    let entries := WalEntry.numberedFrom codec manager.currentSequence records
    (Serializes codec manager.currentSequence records ∧
      exec (appendBatch codec seconds records) manager =
        (.ok (entries.map WalEntry.sequence), wrote seconds
          (entries.map (WalEntry.preSerialized codec)) (manager.advanced records.length))) ∨
    (¬ Serializes codec manager.currentSequence records ∧
      ∃ text count, exec (appendBatch codec seconds records) manager =
        (.error text, manager.advanced count)) := by
  intro entries
  rw [appendBatch, if_neg (by simpa using some)]
  rcases exec_preSerializeAll_eq codec records manager with
    ⟨serializes, ran⟩ | ⟨fails, text, count, ran⟩
  · refine .inl ⟨serializes, ?_⟩
    rw [exec_bind_ok ran, exec_bind_ok (exec_writeEntries _ _ _), exec_pure, List.map_map]
    rfl
  · exact .inr ⟨fails, text, count, exec_bind_error ran⟩

theorem exec_append_eq (codec : EntryCodec Record) (seconds : ℤ) (stamped : Stamped Record)
    (manager : WalManager) :
    let entries := WalEntry.numberedFrom codec manager.currentSequence [stamped]
    (Serializes codec manager.currentSequence [stamped] ∧
      exec (append codec seconds stamped) manager =
        (.ok manager.currentSequence, wrote seconds
          (entries.map (WalEntry.preSerialized codec)) (manager.advanced 1))) ∨
    (¬ Serializes codec manager.currentSequence [stamped] ∧
      ∃ text count, exec (append codec seconds stamped) manager =
        (.error text, manager.advanced count)) := by
  intro entries
  rw [append_eq]
  rcases exec_preSerialize_eq codec stamped manager with ⟨isOk, first⟩ | ⟨isError, text, first⟩
  · left
    constructor
    · intro entry member
      rw [List.mem_singleton.mp member]
      exact isOk
    · rw [exec_bind_ok first, exec_bind_ok (exec_writeEntries _ _ _), exec_pure]
      rfl
  · right
    constructor
    · intro serializes
      have isOk := serializes _ (List.mem_cons_self ..)
      rw [isError] at isOk
      cases isOk
    · exact ⟨text, 1, exec_bind_error first⟩

def cleared (manager : WalManager) : WalManager := { manager with groupCommitBuffer := [] }

def enqueued (entry : PreSerializedEntry) (manager : WalManager) : WalManager :=
  { manager with groupCommitBuffer := manager.groupCommitBuffer ++ [entry] }

/-- What `flush_group_commit` leaves. -/
def flushed (seconds : ℤ) (manager : WalManager) : WalManager :=
  match manager.groupCommitBuffer with
  | [] => manager.cleared
  | entry :: entries => manager.cleared.wrote seconds (entry :: entries)

theorem exec_flushGroupCommit (seconds : ℤ) (manager : WalManager) :
    exec (flushGroupCommit seconds) manager =
      (.ok manager.groupCommitBuffer.length, manager.flushed seconds) := by
  rw [flushGroupCommit, exec_bind, exec_read, flushed]
  cases manager.groupCommitBuffer with
  | nil => rfl
  | cons entry entries =>
    simp only [exec_bind, exec_update, List.isEmpty_cons, Bool.not_false, exec_runIf_true,
      exec_writeEntries]
    rfl

/-- With the group commit enabled the entry is buffered, and the buffer may be
flushed then. -/
theorem exec_appendAsync
    (ran : exec (appendAsync codec seconds elapsed stamped) manager = (.ok sequence, after))
    (enabled : manager.groupCommitConfig.enabled = true) :
    let entry := WalEntry.numbered codec manager.currentSequence stamped
    let buffered := (manager.advanced 1).enqueued (entry.preSerialized codec)
    entry.Stored codec ∧ sequence = manager.currentSequence ∧
      (after = buffered ∨ after = buffered.flushed seconds) := by
  rw [appendAsync, exec_bind, exec_read] at ran
  simp only [enabled, Bool.not_true, Bool.false_eq_true, if_false] at ran
  rcases exec_bind_eq_ok ran with ⟨_, _, first, ran⟩
  rcases exec_preSerialize first with ⟨stored, rfl, rfl⟩
  simp only [exec_bind, exec_update, exec_read, exec_pure] at ran
  refine ⟨stored, ?_⟩
  generalize decide ((manager.advanced 1).groupCommitConfig.maxBatchSize ≤
    ((manager.advanced 1).groupCommitBuffer ++ [(WalEntry.numbered codec
      manager.currentSequence stamped).preSerialized codec]).length ∨
    (manager.advanced 1).groupCommitConfig.maxWaitMs ≤ elapsed) = shouldFlush at ran
  cases shouldFlush with
  | true =>
    simp only [exec_runIf_true, exec_bind, exec_flushGroupCommit] at ran
    cases ran
    exact ⟨rfl, .inr rfl⟩
  | false =>
    simp only [exec_runIf_false] at ran
    cases ran
    exact ⟨rfl, .inl rfl⟩

theorem exec_appendAsync_of_disabled (codec : EntryCodec Record) (seconds : ℤ) (elapsed : ℕ)
    (stamped : Stamped Record) (disabled : manager.groupCommitConfig.enabled = false) :
    exec (appendAsync codec seconds elapsed stamped) manager =
      exec (append codec seconds stamped) manager := by
  rw [appendAsync, exec_bind, exec_read]
  simp [disabled]

/-! ### The actions on the layout -/

section Layouts

variable {codec : EntryCodec Record} {manager : WalManager} {layout : Layout Record}

section

variable (stores : Stores codec manager layout)
include stores

theorem Stores.live (linked : layout.linked = true) :
    ∃ init last, layout.segments = init ++ [last] ∧ manager.currentFile = some last.start ∧
      ∀ segment ∈ init, segment.start < last.start := by
  rcases List.eq_nil_or_concat layout.segments with none | ⟨init, last, isConcat⟩
  · exact absurd none (stores.nonempty linked)
  · have isConcat : layout.segments = init ++ [last] := by simpa using isConcat
    refine ⟨init, last, isConcat, ?_, ?_⟩
    · rw [stores.currentFile, if_pos linked, isConcat, List.getLast?_concat]
      rfl
    · intro segment member
      have sorted := stores.sorted
      rw [isConcat, List.pairwise_append] at sorted
      exact sorted.2.2 segment member last (by simp)

theorem Stores.write {entries : List (WalEntry Record)}
    (stored : ∀ entry ∈ entries, entry.Stored codec) :
    Stores codec (manager.written (body codec entries)) (layout.write entries) := by
  cases linked : layout.linked with
  | false =>
    have lost : manager.currentFile = none := by rw [stores.currentFile, linked]; rfl
    have same : layout.write entries = layout := by
      rw [Layout.write, linked]
      cases layout
      cases linked
      rfl
    rw [same, written, lost]
    exact stores
  | true =>
    rcases stores.live linked with ⟨init, last, isConcat, isLive, others⟩
    have ends : (layout.write entries).segments = init ++ [last.add entries] := by
      rw [Layout.write, isConcat]
      simp [linked]
    have bounded := stores.bounded
    have isStored := stores.stored
    have sorted := stores.sorted
    rw [isConcat] at bounded isStored sorted
    refine ⟨?_, ?_, ?_, ?_, ?_, ?_⟩
    · rw [ends, written, isLive]
      change appendBytes _ _ manager.files = _
      rw [stores.files, isConcat, List.map_append, List.map_append]
      have apart : ∀ file ∈ init.map (toFile codec), file.number ≠ last.start := by
        intro file member
        rcases List.mem_map.mp member with ⟨segment, inside, rfl⟩
        exact ne_of_lt (others segment inside)
      refine (appendBytes_newest apart _).trans ?_
      simp [toFile, header, Segment.add]
    · rw [ends, written_currentFile, isLive]
      simp [Layout.write, linked]
    · intro _
      rw [ends]
      simp
    · rw [ends]
      rw [List.pairwise_append] at sorted ⊢
      exact ⟨sorted.1, List.pairwise_singleton _ _, fun segment member other isLast =>
        by rw [List.mem_singleton.mp isLast]; exact sorted.2.2 segment member last (by simp)⟩
    · rw [ends, written_currentSequence]
      intro segment member
      rcases List.mem_append.mp member with inside | isLast
      · exact bounded segment (by simp [inside])
      · rw [List.mem_singleton.mp isLast]
        exact bounded last (by simp)
    · rw [ends]
      intro segment member entry inEntries
      rcases List.mem_append.mp member with inside | isLast
      · exact isStored segment (by simp [inside]) entry inEntries
      · rw [List.mem_singleton.mp isLast] at inEntries
        rcases List.mem_append.mp inEntries with old | isNew
        · exact isStored last (by simp) entry old
        · exact stored entry isNew

theorem Stores.rotate (seconds : ℤ)
    (fresh : ∀ segment ∈ layout.segments, segment.start < manager.currentSequence) :
    Stores codec (manager.rotated seconds) (layout.rotate manager.currentSequence seconds) := by
  have older : ∀ file ∈ layout.segments.map (toFile codec), file.number < manager.currentSequence := by
    intro file member
    rcases List.mem_map.mp member with ⟨segment, inside, rfl⟩
    exact fresh segment inside
  refine ⟨?_, ?_, ?_, ?_, ?_, ?_⟩
  · change appendBytes _ _ (openFile _ manager.files) = _
    rw [stores.files, openFile_of_lt older,
      appendBytes_newest (fun file member => ne_of_lt (older file member))]
    simp [Layout.rotate, toFile, header, body]
  · simp [Layout.rotate, rotated]
  · intro _
    simp [Layout.rotate]
  · rw [Layout.rotate, List.pairwise_append]
    exact ⟨stores.sorted, List.pairwise_singleton _ _, fun segment member other isLast =>
      by rw [List.mem_singleton.mp isLast]; exact fresh segment member⟩
  · intro segment member
    rcases List.mem_append.mp member with inside | isNew
    · exact stores.bounded segment inside
    · rw [List.mem_singleton.mp isNew]
      exact le_refl manager.currentSequence
  · intro segment member entry inEntries
    rcases List.mem_append.mp member with inside | isNew
    · exact stores.stored segment inside entry inEntries
    · rw [List.mem_singleton.mp isNew] at inEntries
      cases inEntries

theorem Stores.congr {other : WalManager} (files : other.files = manager.files)
    (currentFile : other.currentFile = manager.currentFile)
    (later : manager.currentSequence ≤ other.currentSequence) : Stores codec other layout where
  files := files.trans stores.files
  currentFile := currentFile.trans stores.currentFile
  nonempty := stores.nonempty
  sorted := stores.sorted
  bounded := fun segment member => (stores.bounded segment member).trans later
  stored := stores.stored

theorem Stores.advanced (count : ℕ) : Stores codec (manager.advanced count) layout :=
  stores.congr rfl rfl (Nat.le_add_right _ _)

/-- Entries go behind the last segment's, or into a new segment where the file
would grow too large. -/
theorem Stores.wrote {entries : List (WalEntry Record)}
    (stored : ∀ entry ∈ entries, entry.Stored codec) (seconds : ℤ)
    (fresh : manager.full (entries.map (WalEntry.preSerialized codec)) = true →
      ∀ segment ∈ layout.segments, segment.start < manager.currentSequence) :
    Stores codec (manager.wrote seconds (entries.map (WalEntry.preSerialized codec)))
      (layout.append (manager.full (entries.map (WalEntry.preSerialized codec)))
        manager.currentSequence seconds entries) := by
  have bytes : ((entries.map (WalEntry.preSerialized codec)).flatMap fun entry =>
      frame entry.bytes) = body codec entries := by
    rw [List.flatMap_map]
    rfl
  rw [WalManager.wrote, bytes]
  cases isFull : manager.full (entries.map (WalEntry.preSerialized codec)) with
  | true => exact ((stores.rotate seconds (fresh isFull)).write stored).congr rfl rfl (le_refl _)
  | false => exact (stores.write stored).congr rfl rfl (le_refl _)

end

end Layouts

theorem stores_new (codec : EntryCodec Record) (seconds : ℤ) (config : GroupCommitConfig) :
    Stores codec (withConfig codec [] seconds config) ⟨[⟨1, seconds, []⟩], true⟩ where
  files := by simp [withConfig, new, openFile, appendBytes, toFile, header, body]
  currentFile := rfl
  nonempty := by simp
  sorted := List.pairwise_singleton _ _
  bounded := by simp [withConfig, new]
  stored := by simp

end WalManager

namespace Layout

variable {layout : Layout Record}

theorem entries_write (linked : layout.linked = true) (some : layout.segments ≠ [])
    (entries : List (WalEntry Record)) :
    (layout.write entries).entries = layout.entries ++ entries := by
  rcases List.eq_nil_or_concat layout.segments with none | ⟨init, last, isConcat⟩
  · exact absurd none some
  · have isConcat : layout.segments = init ++ [last] := by simpa using isConcat
    simp [Layout.entries, write, linked, isConcat]

@[simp] theorem entries_rotate (layout : Layout Record) (start : ℕ) (seconds : ℤ) :
    (layout.rotate start seconds).entries = layout.entries := by
  simp [Layout.entries, rotate]

theorem entries_append (linked : layout.linked = true) (some : layout.segments ≠ [])
    (rotates : Bool) (start : ℕ) (seconds : ℤ) (entries : List (WalEntry Record)) :
    (layout.append rotates start seconds entries).entries = layout.entries ++ entries := by
  cases rotates with
  | true =>
    have some : (layout.rotate start seconds).segments ≠ [] := by simp [rotate]
    have begun := entries_write rfl some entries
    rwa [entries_rotate] at begun
  | false => exact entries_write linked some entries

theorem start_mem_append (layout : Layout Record) (linked : layout.linked = true) {start : ℕ}
    (rotates : Bool) (seconds : ℤ) {entries : List (WalEntry Record)} {segment : Segment Record}
    (member : segment ∈ (layout.append rotates start seconds entries).segments) :
    (∃ old ∈ layout.segments, old.start = segment.start) ∨ segment.start = start := by
  have write : ∀ {layout : Layout Record}, layout.linked = true →
      ∀ segment ∈ (layout.write entries).segments,
        ∃ old ∈ layout.segments, old.start = segment.start := by
    intro layout linked segment member
    rcases List.eq_nil_or_concat layout.segments with none | ⟨init, last, isConcat⟩
    · simp [Layout.write, linked, none, addToLast] at member
    · have isConcat : layout.segments = init ++ [last] := by simpa using isConcat
      simp only [Layout.write, linked, if_true, isConcat, addToLast_concat] at member
      rcases List.mem_append.mp member with inside | isLast
      · exact ⟨segment, by simp [isConcat, inside], rfl⟩
      · exact ⟨last, by simp [isConcat], by rw [List.mem_singleton.mp isLast]; rfl⟩
  cases rotates with
  | true =>
    rcases write rfl segment member with ⟨old, isOld, same⟩
    rcases List.mem_append.mp isOld with inside | isNew
    · exact .inl ⟨old, inside, same⟩
    · rw [List.mem_singleton.mp isNew] at same
      exact .inr same.symm
  | false => exact .inl (write linked segment member)

theorem start_append_le (layout : Layout Record) (linked : layout.linked = true) {start : ℕ}
    (starts : ∀ segment ∈ layout.segments, segment.start ≤ start) (rotates : Bool) (seconds : ℤ)
    (entries : List (WalEntry Record)) :
    ∀ segment ∈ (layout.append rotates start seconds entries).segments, segment.start ≤ start := by
  intro segment member
  rcases layout.start_mem_append linked rotates seconds member with ⟨old, isOld, same⟩ | isNew
  · rw [← same]
    exact starts old isOld
  · rw [isNew]

theorem linked_append (linked : layout.linked = true) (rotates : Bool) (start : ℕ) (seconds : ℤ)
    (entries : List (WalEntry Record)) :
    (layout.append rotates start seconds entries).linked = true := by
  cases rotates with
  | true => rfl
  | false => exact linked

end Layout

end QAExchange

