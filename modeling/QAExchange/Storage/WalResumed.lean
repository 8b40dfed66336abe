import QAExchange.Storage.WalOrder

/-! # Logs that are opened again

A manager that opens a directory appends to the newest file, whatever the bytes
of that file are. What it writes then stands behind these bytes and in new files.
-/

namespace QAExchange

open Foundation Action Framing Segment

variable {Record : Type}

/-- What the bytes of entries have in common: rkyv gives all of them the same
size, and bytes of one entry that the frame of the next one follows before it is
whole do not pass for an entry with its checksum. -/
structure EntryCodec.FixedSize (codec : EntryCodec Record) (size : ℕ) : Prop where
  length_eq : ∀ entry bytes, codec.serialize entry = .ok bytes → bytes.length = size
  small : size < 65536
  lowByte : size % 256 ≠ 0
  enough : ∀ bytes entry, codec.checkArchivedRoot bytes = .ok entry → size ≤ bytes.length
  torn : ∀ first second bytes next cut entry, codec.serialize first = .ok bytes →
    codec.serialize second = .ok next → cut < size →
    codec.checkArchivedRoot (bytes.take cut ++ (frame next).take (size - cut)) = .ok entry →
    entry.verifyCrc32 codec = false

theorem WalEntry.Stored.length_data {codec : EntryCodec Record} (fixed : codec.FixedSize size)
    {entry : WalEntry Record} (stored : entry.Stored codec) : (entry.data codec).length = size :=
  fixed.length_eq _ _ stored.serialize_eq

theorem Segment.length_body {codec : EntryCodec Record} {size : ℕ} (fixed : codec.FixedSize size)
    {entries : List (WalEntry Record)} (stored : ∀ entry ∈ entries, entry.Stored codec) :
    (body codec entries).length = entries.length * (size + 4) := by
  induction entries with
  | nil => simp [body]
  | cons entry entries induction =>
    have rest := induction fun other member => stored other (List.mem_cons_of_mem _ member)
    have first := (stored entry (by simp)).length_data fixed
    rw [body, List.flatMap_cons, List.length_append, length_frame, first, ← body, rest,
      List.length_cons, Nat.succ_mul]
    omega

namespace WalManager

variable {codec : EntryCodec Record}

theorem full_preSerialized {size : ℕ} (fixed : codec.FixedSize size)
    {entries : List (WalEntry Record)} (stored : ∀ entry ∈ entries, entry.Stored codec)
    (manager : WalManager) :
    manager.full (entries.map (WalEntry.preSerialized codec)) =
      decide (manager.maxFileSize < manager.currentFileSize + entries.length * (size + 4)) := by
  have small := fixed.small
  have sum : ((entries.map (WalEntry.preSerialized codec)).map fun entry =>
      frameSize entry.bytes).sum = entries.length * (size + 4) := by
    induction entries with
    | nil => simp
    | cons entry entries induction =>
      have rest := induction fun other member => stored other (List.mem_cons_of_mem _ member)
      have first : frameSize (entry.preSerialized codec).bytes = size + 4 := by
        change (4 + (entry.data codec).length) % 2 ^ 32 = _
        rw [(stored entry (by simp)).length_data fixed]
        omega
      rw [List.map_cons, List.map_cons, List.sum_cons, rest, first, List.length_cons,
        Nat.succ_mul]
      omega
  rw [full, sum]

theorem scanFile_segment (roundTrip : codec.RoundTrip) {segment : Segment Record}
    (stored : ∀ entry ∈ segment.entries, entry.Stored codec) (unread : (frames tail).1 = []) :
    scanFile codec ⟨segment.start, segment.header ++ (body codec segment.entries ++ tail)⟩ =
      segment.entries.map WalEntry.sequence := by
  rcases segment.fromBytes_header with ⟨header, readable, _⟩
  have first : (segment.header ++ (body codec segment.entries ++ tail)).take 128 =
      segment.header := List.take_left' segment.length_header
  have behind : (segment.header ++ (body codec segment.entries ++ tail)).drop 128 =
      body codec segment.entries ++ tail := List.drop_left' segment.length_header
  simp only [scanFile, first, behind, readable, frames_toFile roundTrip stored, unread,
    List.append_nil, List.filterMap_map]
  clear first behind
  generalize segment.entries = entries at stored ⊢
  induction entries with
  | nil => rfl
  | cons entry entries induction =>
    have read := (stored entry (by simp)).fromBytes roundTrip
    rw [List.filterMap_cons_some (b := entry.sequence) (by simp [read]), List.map_cons,
      induction fun other member => stored other (List.mem_cons_of_mem _ member)]

theorem scanFile_of_short (codec : EntryCodec Record) {file : WalFile}
    (short : file.bytes.length < 128) : scanFile codec file = [] := by
  have unreadable : WalFileHeader.fromBytes (file.bytes.take 128) =
      .error "Invalid header size" := by
    rw [WalFileHeader.fromBytes, if_pos]
    simp only [List.length_take]
    omega
  rw [scanFile, unreadable]

variable {segments : List (Segment Record)}

theorem scanFiles (roundTrip : codec.RoundTrip)
    (stored : ∀ segment ∈ segments, ∀ entry ∈ segment.entries, entry.Stored codec) :
    (segments.map (toFile codec)).flatMap (scanFile codec) =
      (segments.flatMap Segment.entries).map WalEntry.sequence := by
  induction segments with
  | nil => rfl
  | cons segment segments induction =>
    have none : (frames []).1 = [] := by rw [frames_of_short (by decide)]
    have first := scanFile_segment roundTrip (stored segment (by simp)) none
    rw [List.append_nil] at first
    rw [List.map_cons, List.flatMap_cons, List.flatMap_cons, List.map_append,
      induction fun other member => stored other (List.mem_cons_of_mem _ member), toFile, first]

theorem foldl_max_range' (count : ℕ) : (List.range' 1 count).foldl max 1 = max 1 count := by
  induction count with
  | zero => rfl
  | succ count induction =>
    rw [List.range'_concat, List.foldl_append, induction]
    simp only [List.foldl_cons, List.foldl_nil]
    omega

theorem new_concat (codec : EntryCodec Record) (older : List WalFile) (newest : WalFile)
    (seconds : ℤ) :
    new codec (older ++ [newest]) seconds = openExisting codec (older ++ [newest]) newest := by
  rw [new, List.getLast?_concat]

/-! ### Whole logs -/

def Anchored (layout : Layout Record) : Prop :=
  ∀ segment ∈ layout.segments, segment.start ≤ 1 ∨
    ∃ entry ∈ layout.entries, segment.start ≤ entry.sequence + 1

theorem anchored_new (seconds : ℤ) : Anchored (⟨[⟨1, seconds, []⟩], true⟩ : Layout Record) := by
  intro segment member
  rw [List.mem_singleton.mp member]
  exact .inl (le_refl 1)

theorem Anchored.append (codec : EntryCodec Record) (anchored : Anchored layout)
    (linked : layout.linked = true) (nonempty : layout.segments ≠ []) (rotates : Bool) (next : ℕ)
    (seconds : ℤ) (some : records ≠ []) :
    Anchored (layout.append rotates (next + records.length) seconds
      (WalEntry.numberedFrom codec next records)) := by
  have contents := Layout.entries_append linked nonempty rotates (next + records.length) seconds
    (WalEntry.numberedFrom codec next records)
  intro segment member
  rw [contents]
  rcases layout.start_mem_append linked rotates seconds member with ⟨old, isOld, same⟩ | isNew
  · rcases anchored old isOld with first | ⟨entry, inside, behind⟩
    · exact .inl (same ▸ first)
    · exact .inr ⟨entry, List.mem_append_left _ inside, same ▸ behind⟩
  · right
    have positive : 0 < records.length := List.length_pos_of_ne_nil some
    have last : next + records.length - 1 ∈
        (WalEntry.numberedFrom codec next records).map WalEntry.sequence := by
      rw [WalEntry.sequence_numberedFrom, List.mem_range'_1]
      omega
    rcases List.mem_map.mp last with ⟨entry, isEntry, number⟩
    refine ⟨entry, List.mem_append_right _ isEntry, ?_⟩
    rw [isNew, number]
    omega

theorem foldl_max_spec (numbers : List ℕ) (least : ℕ) :
    least ≤ numbers.foldl max least ∧ ∀ number ∈ numbers, number ≤ numbers.foldl max least := by
  induction numbers generalizing least with
  | nil => simp
  | cons first rest induction =>
    rcases induction (max least first) with ⟨bound, others⟩
    rw [List.foldl_cons]
    constructor
    · exact (le_max_left _ _).trans bound
    · intro number member
      rcases List.mem_cons.mp member with rfl | member
      · exact (le_max_right _ _).trans bound
      · exact others number member

theorem Ordered.reopen (roundTrip : codec.RoundTrip)
    (ordered : Ordered codec manager layout [] appended) (anchored : Anchored layout)
    (seconds : ℤ) : Ordered codec (new codec manager.files seconds) layout [] appended := by
  rcases ordered.stores.live ordered.linked with ⟨init, last, isConcat, _, _⟩
  have files : manager.files = init.map (toFile codec) ++ [last.toFile codec] := by
    rw [ordered.stores.files, isConcat]
    simp
  have reopened : new codec manager.files seconds =
      openExisting codec manager.files (last.toFile codec) := by
    rw [files, new_concat]
  have sequence : (openExisting codec manager.files (last.toFile codec)).currentSequence =
      (layout.entries.map WalEntry.sequence).foldl max 1 + 1 := by
    rw [openExisting, ordered.stores.files, scanFiles roundTrip ordered.stores.stored]
    rfl
  rcases foldl_max_spec (layout.entries.map WalEntry.sequence) 1 with ⟨positive, bounds⟩
  rw [reopened]
  refine ⟨⟨ordered.stores.files, ?_, ordered.stores.nonempty, ordered.stores.sorted, ?_,
    ordered.stores.stored⟩, ordered.linked, rfl, by simp, ordered.increasing, ?_, by simp,
    ordered.appended_eq⟩
  · rw [if_pos ordered.linked, isConcat, List.getLast?_concat]
    rfl
  · intro segment member
    rw [sequence]
    rcases anchored segment member with first | ⟨entry, inside, behind⟩
    · omega
    · have bound := bounds entry.sequence (List.mem_map_of_mem inside)
      omega
  · intro entry member
    rw [List.append_nil] at member
    rw [sequence]
    exact Nat.lt_succ_of_le (bounds entry.sequence (List.mem_map_of_mem member))

/-! ## Going on behind any bytes -/

/-- The directory of a manager that went on behind `content`: older files, the file
that it found last with entries of the first segment behind `content`, and the
files of the other segments. -/
def resumedFiles (codec : EntryCodec Record) (older : List WalFile) (content : List UInt8) :
    List (Segment Record) → List WalFile
  | [] => older
  | first :: newer =>
    older ++ ⟨first.start, content ++ body codec first.entries⟩ :: newer.map (toFile codec)

/-- The manager went on behind `content` and has written the layout since. -/
structure Continues (codec : EntryCodec Record) (older : List WalFile) (content : List UInt8)
    (manager : WalManager) (layout : Layout Record) : Prop where
  files : manager.files = resumedFiles codec older content layout.segments
  linked : layout.linked = true
  nonempty : layout.segments ≠ []
  currentFile : manager.currentFile = layout.segments.getLast?.map Segment.start
  apart : ∀ file ∈ older, ∀ segment ∈ layout.segments, file.number < segment.start
  sorted : layout.segments.Pairwise fun left right => left.start < right.start

theorem resumedFiles_concat (codec : EntryCodec Record) (older : List WalFile)
    (content : List UInt8) (some : segments ≠ []) (last : Segment Record) :
    resumedFiles codec older content (segments ++ [last]) =
      resumedFiles codec older content segments ++ [last.toFile codec] := by
  cases segments with
  | nil => exact absurd rfl some
  | cons first newer => simp [resumedFiles]

theorem resumedFiles_add (codec : EntryCodec Record) (older : List WalFile)
    (content : List UInt8) (init : List (Segment Record)) (last : Segment Record)
    (entries : List (WalEntry Record)) :
    ∃ front bytes, resumedFiles codec older content (init ++ [last]) =
        front ++ [⟨last.start, bytes⟩] ∧
      resumedFiles codec older content (init ++ [last.add entries]) =
        front ++ [⟨last.start, bytes ++ body codec entries⟩] ∧
      ∀ file ∈ front, file ∈ older ∨ ∃ segment ∈ init, segment.start = file.number := by
  cases init with
  | nil =>
    refine ⟨older, content ++ body codec last.entries, rfl, ?_, fun file member => .inl member⟩
    simp [resumedFiles]
  | cons first newer =>
    refine ⟨resumedFiles codec older content (first :: newer),
      last.header ++ body codec last.entries, ?_, ?_, ?_⟩
    · rw [resumedFiles_concat _ _ _ (List.cons_ne_nil _ _), toFile]
    · rw [resumedFiles_concat _ _ _ (List.cons_ne_nil _ _), toFile]
      simp [header, Segment.add]
    · intro file member
      rcases List.mem_append.mp member with isOld | member
      · exact .inl isOld
      · rcases List.mem_cons.mp member with rfl | member
        · exact .inr ⟨first, by simp, rfl⟩
        · rcases List.mem_map.mp member with ⟨segment, inside, rfl⟩
          exact .inr ⟨segment, List.mem_cons_of_mem _ inside, rfl⟩

theorem mem_resumedFiles (member : file ∈ resumedFiles codec older content segments) :
    file ∈ older ∨ ∃ segment ∈ segments, segment.start = file.number := by
  rcases List.eq_nil_or_concat segments with rfl | ⟨init, last, isConcat⟩
  · exact .inl member
  · have isConcat : segments = init ++ [last] := by simpa using isConcat
    rcases resumedFiles_add codec older content init last [] with ⟨front, bytes, files, _, known⟩
    rw [isConcat, files] at member
    rcases List.mem_append.mp member with inFront | isLast
    · rcases known file inFront with isOld | ⟨segment, inside, same⟩
      · exact .inl isOld
      · exact .inr ⟨segment, by simp [isConcat, inside], same⟩
    · rw [List.mem_singleton.mp isLast]
      exact .inr ⟨last, by simp [isConcat], rfl⟩

section Continues

variable {codec : EntryCodec Record} {older : List WalFile} {content : List UInt8}
  {manager : WalManager} {layout : Layout Record}

section

variable (continues : Continues codec older content manager layout)
include continues

theorem Continues.write (entries : List (WalEntry Record)) :
    Continues codec older content (manager.written (body codec entries))
      (layout.write entries) := by
  rcases List.eq_nil_or_concat layout.segments with none | ⟨init, last, isConcat⟩
  · exact absurd none continues.nonempty
  · have isConcat : layout.segments = init ++ [last] := by simpa using isConcat
    have isLive : manager.currentFile = some last.start := by
      rw [continues.currentFile, isConcat, List.getLast?_concat]
      rfl
    have ends : (layout.write entries).segments = init ++ [last.add entries] := by
      rw [Layout.write, isConcat]
      simp [continues.linked]
    have apart := continues.apart
    have sorted := continues.sorted
    rw [isConcat] at apart sorted
    rw [List.pairwise_append] at sorted
    rcases resumedFiles_add codec older content init last entries with
      ⟨front, bytes, before, after, known⟩
    have others : ∀ file ∈ front, file.number ≠ last.start := by
      intro file member
      rcases known file member with isOld | ⟨segment, inside, same⟩
      · exact ne_of_lt (apart file isOld last (by simp))
      · rw [← same]
        exact ne_of_lt (sorted.2.2 segment inside last (by simp))
    refine ⟨?_, continues.linked, ?_, ?_, ?_, ?_⟩
    · rw [ends, after, WalManager.written, isLive]
      change appendBytes _ _ manager.files = _
      rw [continues.files, isConcat, before, appendBytes_newest others]
    · rw [ends]
      simp
    · rw [ends, written_currentFile, isLive]
      simp
    · rw [ends]
      intro file member segment inside
      rcases List.mem_append.mp inside with inside | isLast
      · exact apart file member segment (by simp [inside])
      · rw [List.mem_singleton.mp isLast]
        exact apart file member last (by simp)
    · rw [ends, List.pairwise_append]
      refine ⟨sorted.1, List.pairwise_singleton _ _, ?_⟩
      intro segment inside other isLast
      rw [List.mem_singleton.mp isLast]
      exact sorted.2.2 segment inside last (by simp)

theorem Continues.rotate (seconds : ℤ)
    (fresh : ∀ segment ∈ layout.segments, segment.start < manager.currentSequence) :
    Continues codec older content (manager.rotated seconds)
      (layout.rotate manager.currentSequence seconds) := by
  rcases List.exists_mem_of_ne_nil _ continues.nonempty with ⟨some, isSome⟩
  have earlier : ∀ file ∈ resumedFiles codec older content layout.segments,
      file.number < manager.currentSequence := by
    intro file member
    rcases mem_resumedFiles member with isOld | ⟨segment, inside, same⟩
    · exact (continues.apart file isOld some isSome).trans (fresh some isSome)
    · rw [← same]
      exact fresh segment inside
  refine ⟨?_, rfl, ?_, ?_, ?_, ?_⟩
  · change appendBytes _ _ (openFile _ manager.files) = _
    rw [continues.files, openFile_of_lt earlier,
      appendBytes_newest (fun file member => ne_of_lt (earlier file member)), Layout.rotate,
      resumedFiles_concat _ _ _ continues.nonempty]
    simp [toFile, header, body]
  · simp [Layout.rotate]
  · simp [Layout.rotate, rotated]
  · intro file member segment inside
    rcases List.mem_append.mp inside with inside | isNew
    · exact continues.apart file member segment inside
    · rw [List.mem_singleton.mp isNew]
      exact (continues.apart file member some isSome).trans (fresh some isSome)
  · rw [Layout.rotate, List.pairwise_append]
    refine ⟨continues.sorted, List.pairwise_singleton _ _, ?_⟩
    intro segment inside other isNew
    rw [List.mem_singleton.mp isNew]
    exact fresh segment inside

theorem Continues.congr {other : WalManager} (files : other.files = manager.files)
    (currentFile : other.currentFile = manager.currentFile) :
    Continues codec older content other layout :=
  { continues with
    files := files.trans continues.files
    currentFile := currentFile.trans continues.currentFile }

theorem Continues.wrote (entries : List (WalEntry Record)) (seconds : ℤ)
    (fresh : manager.full (entries.map (WalEntry.preSerialized codec)) = true →
      ∀ segment ∈ layout.segments, segment.start < manager.currentSequence) :
    Continues codec older content
      (manager.wrote seconds (entries.map (WalEntry.preSerialized codec)))
      (layout.append (manager.full (entries.map (WalEntry.preSerialized codec)))
        manager.currentSequence seconds entries) := by
  have bytes : ((entries.map (WalEntry.preSerialized codec)).flatMap fun entry =>
      frame entry.bytes) = body codec entries := by
    rw [List.flatMap_map]
    rfl
  rw [WalManager.wrote, bytes]
  cases isFull : manager.full (entries.map (WalEntry.preSerialized codec)) with
  | true => exact ((continues.rotate seconds (fresh isFull)).write entries).congr rfl rfl
  | false => exact (continues.write entries).congr rfl rfl

end

end Continues

/-- A new file needs a number that no file has. Right after the opening the newest
file may be one number ahead, but it has room for an entry then. -/
def Room (manager : WalManager) (layout : Layout Record) : Prop :=
  (∀ segment ∈ layout.segments, segment.start ≤ manager.currentSequence) ∨
    (∀ segment ∈ layout.segments, segment.start ≤ manager.currentSequence + 1) ∧
      manager.currentFileSize + 65540 ≤ manager.maxFileSize

/-- The entries that were written since the opening have their own numbers from
`next` on. -/
structure Resumed (codec : EntryCodec Record) (older : List WalFile) (content : List UInt8)
    (next : ℕ) (manager : WalManager) (layout : Layout Record) : Prop
    extends Continues codec older content manager layout where
  stored : ∀ entry ∈ layout.entries, entry.Stored codec
  room : Room manager layout
  positive : next ≤ manager.currentSequence
  numbers : layout.entries.map WalEntry.sequence =
    List.range' next (manager.currentSequence - next)

section Resumed

variable {codec : EntryCodec Record} {manager : WalManager} {layout : Layout Record}

theorem Resumed.wrote (fixed : codec.FixedSize size)
    (resumed : Resumed codec older content next manager layout) (seconds : ℤ)
    {records : List (Stamped Record)} (some : records ≠ [])
    (stored : ∀ entry ∈ WalEntry.numberedFrom codec manager.currentSequence records,
      entry.Stored codec) :
    let entries := WalEntry.numberedFrom codec manager.currentSequence records
    let after := manager.advanced records.length
    Resumed codec older content next
      (wrote seconds (entries.map (WalEntry.preSerialized codec)) after)
      (layout.append (after.full (entries.map (WalEntry.preSerialized codec)))
        after.currentSequence seconds entries) := by
  intro entries after
  have positive : 0 < records.length := List.length_pos_of_ne_nil some
  have count : entries.length = records.length := by
    have numbers := congrArg List.length
      (WalEntry.sequence_numberedFrom codec manager.currentSequence records)
    simpa using numbers
  have isFull := full_preSerialized fixed stored after
  have small := fixed.small
  -- one entry fits where the newest file is ahead
  have fresh : after.full (entries.map (WalEntry.preSerialized codec)) = true →
      ∀ segment ∈ layout.segments, segment.start < after.currentSequence := by
    intro full segment member
    change segment.start < manager.currentSequence + records.length
    rcases resumed.room with behind | ⟨ahead, fits⟩
    · have bound := behind segment member
      omega
    · have bound := ahead segment member
      have several : records.length ≠ 1 := by
        intro one
        rw [isFull, count, one] at full
        have exceeds : manager.maxFileSize < manager.currentFileSize + 1 * (size + 4) :=
          of_decide_eq_true full
        omega
      omega
  have continues : Continues codec older content after layout :=
    resumed.toContinues.congr rfl rfl
  have contents := Layout.entries_append resumed.linked resumed.nonempty
    (after.full (entries.map (WalEntry.preSerialized codec))) after.currentSequence seconds entries
  refine ⟨continues.wrote entries seconds fresh, ?_, ?_, ?_, ?_⟩
  · rw [contents]
    intro entry member
    rcases List.mem_append.mp member with old | isNew
    · exact resumed.stored entry old
    · exact stored entry isNew
  · left
    rw [wrote_currentSequence]
    have starts : ∀ segment ∈ layout.segments, segment.start ≤ after.currentSequence := by
      intro segment member
      change segment.start ≤ manager.currentSequence + records.length
      rcases resumed.room with behind | ⟨ahead, _⟩
      · have bound := behind segment member
        omega
      · have bound := ahead segment member
        omega
    exact layout.start_append_le resumed.linked starts _ seconds entries
  · rw [wrote_currentSequence]
    exact resumed.positive.trans (Nat.le_add_right _ _)
  · rw [contents, List.map_append, resumed.numbers, WalEntry.sequence_numberedFrom,
      wrote_currentSequence]
    change _ = List.range' next (manager.currentSequence + records.length - next)
    have joined := List.range'_append_1 (s := next) (m := manager.currentSequence - next)
      (n := records.length)
    have atLeast := resumed.positive
    rw [show next + (manager.currentSequence - next) = manager.currentSequence by omega] at joined
    rw [joined]
    congr 1
    omega

theorem Resumed.perform (fixed : codec.FixedSize size)
    (resumed : Resumed codec older content next manager layout) {call : WalCall Record}
    (sync : call.IsSync) (ran : exec (WalManager.perform codec call) manager = (.ok more, after)) :
    (call.records = [] ∧ after = manager ∧ more = []) ∨
      (call.records ≠ [] ∧ ∃ start seconds entries, entries ≠ [] ∧
        more = entries.map WalEntry.numberedRecord ∧
        Resumed codec older content next after (layout.append (decide (manager.maxFileSize <
          manager.currentFileSize + call.records.length * (size + 4))) start seconds entries)) := by
  rcases exec_perform_sync sync ran with none | ⟨some, stored, rfl, seconds, rfl⟩
  · exact .inl none
  · have count := congrArg List.length
      (WalEntry.sequence_numberedFrom codec manager.currentSequence call.records)
    rw [List.length_map, List.length_range'] at count
    have isFull := full_preSerialized fixed stored (manager.advanced call.records.length)
    rw [count] at isFull
    have wrote := resumed.wrote fixed seconds some stored
    simp only [isFull] at wrote
    exact .inr ⟨some, _, seconds, _, WalEntry.numberedFrom_ne_nil codec _ some, rfl, wrote⟩

theorem Resumed.performAll (fixed : codec.FixedSize size) (invariant : Layout Record → Prop)
    (step : ∀ (layout : Layout Record) (rotates : Bool) (start : ℕ) (seconds : ℤ)
      (entries : List (WalEntry Record)), layout.linked = true → invariant layout →
      invariant (layout.append rotates start seconds entries)) :
    ∀ {calls : List (WalCall Record)} {manager : WalManager} {layout : Layout Record}
      {more : List (ℕ × Record)} {after : WalManager}, (∀ call ∈ calls, call.IsSync) →
      Resumed codec older content next manager layout → invariant layout →
      exec (WalManager.performAll codec calls) manager = (.ok more, after) →
      ∃ layout', Resumed codec older content next after layout' ∧ invariant layout' ∧
        layout'.entries.map WalEntry.numberedRecord =
          layout.entries.map WalEntry.numberedRecord ++ more
  | [], _, layout, _, _, _, resumed, holds, ran => by
    cases ran
    exact ⟨layout, resumed, holds, by rw [List.append_nil]⟩
  | call :: calls, manager, layout, _, _, sync, resumed, holds, ran => by
    rcases exec_bind_eq_ok ran with ⟨_, _, first, ran⟩
    rcases exec_bind_eq_ok ran with ⟨_, _, second, ran⟩
    cases ran
    have rest : ∀ call ∈ calls, call.IsSync := fun call member =>
      sync call (List.mem_cons_of_mem _ member)
    rcases resumed.perform fixed (sync call (by simp)) first with
      ⟨_, rfl, rfl⟩ | ⟨_, start, seconds, entries, _, rfl, wrote⟩
    · exact performAll fixed invariant step rest resumed holds second
    · rcases performAll fixed invariant step rest wrote
        (step _ _ _ _ _ resumed.linked holds) second with ⟨layout', kept, still, records⟩
      refine ⟨layout', kept, still, ?_⟩
      rw [records, Layout.entries_append resumed.linked resumed.nonempty, List.map_append,
        List.append_assoc]

end Resumed

/-! ## The file that was found -/

/-- The first call with records, if there is one, begins a new file. -/
def BeginsFile (size : ℕ) : List (WalCall Record) → WalManager → Prop
  | [], _ => True
  | call :: calls, manager =>
    match call.records with
    | [] => BeginsFile size calls manager
    | records => manager.maxFileSize < manager.currentFileSize + records.length * (size + 4)

instance decidableBeginsFile (size : ℕ) : ∀ (calls : List (WalCall Record)) (manager : WalManager),
    Decidable (BeginsFile size calls manager)
  | [], _ => .isTrue trivial
  | call :: calls, manager => by
    unfold BeginsFile
    cases call.records with
    | nil => exact decidableBeginsFile size calls manager
    | cons stamped records => exact inferInstanceAs (Decidable (_ < _))

/-- The first file is full: it has no entries and is not the newest one. -/
def FirstPassed (layout : Layout Record) : Prop :=
  ∃ first second newer, layout.segments = first :: second :: newer ∧ first.entries = []

def FirstFilled (layout : Layout Record) : Prop :=
  ∃ first newer, layout.segments = first :: newer ∧ first.entries ≠ []

theorem firstPassed_append (layout : Layout Record) (rotates : Bool) (start : ℕ) (seconds : ℤ)
    (entries : List (WalEntry Record)) (linked : layout.linked = true)
    (passed : FirstPassed layout) : FirstPassed (layout.append rotates start seconds entries) := by
  have write : ∀ {layout : Layout Record}, layout.linked = true → FirstPassed layout →
      FirstPassed (layout.write entries) := by
    intro layout linked passed
    rcases passed with ⟨first, second, newer, isSegments, none⟩
    cases newer with
    | nil => exact ⟨first, second.add entries, [], by
        simp [Layout.write, linked, isSegments, Layout.addToLast], none⟩
    | cons third newer => exact ⟨first, second, Layout.addToLast entries (third :: newer), by
        simp [Layout.write, linked, isSegments, Layout.addToLast], none⟩
  cases rotates with
  | false => exact write linked passed
  | true =>
    apply write rfl
    rcases passed with ⟨first, second, newer, isSegments, none⟩
    exact ⟨first, second, newer ++ [⟨start, seconds, []⟩], by
      simp [Layout.rotate, isSegments], none⟩

theorem firstFilled_append (layout : Layout Record) (rotates : Bool) (start : ℕ) (seconds : ℤ)
    (entries : List (WalEntry Record)) (linked : layout.linked = true)
    (filled : FirstFilled layout) : FirstFilled (layout.append rotates start seconds entries) := by
  have write : ∀ {layout : Layout Record}, layout.linked = true → FirstFilled layout →
      FirstFilled (layout.write entries) := by
    intro layout linked filled
    rcases filled with ⟨first, newer, isSegments, some⟩
    cases newer with
    | nil => exact ⟨first.add entries, [], by
        simp [Layout.write, linked, isSegments, Layout.addToLast], by simp [some]⟩
    | cons second newer => exact ⟨first, Layout.addToLast entries (second :: newer), by
        simp [Layout.write, linked, isSegments, Layout.addToLast], some⟩
  cases rotates with
  | false => exact write linked filled
  | true =>
    apply write rfl
    rcases filled with ⟨first, newer, isSegments, some⟩
    exact ⟨first, newer ++ [⟨start, seconds, []⟩], by simp [Layout.rotate, isSegments], some⟩

/-- Right after the opening nothing is written. -/
def found (number : ℕ) : Layout Record := ⟨[⟨number, 0, []⟩], true⟩

/-- A run from the opening on: the file that was found gets entries unless the first
records begin a new file. -/
theorem Resumed.performAll_found (fixed : codec.FixedSize size) :
    ∀ {calls : List (WalCall Record)} {manager : WalManager} {more : List (ℕ × Record)}
      {after : WalManager}, (∀ call ∈ calls, call.IsSync) →
      Resumed codec older content next manager (found number) →
      exec (WalManager.performAll codec calls) manager = (.ok more, after) →
      ∃ layout first newer, Resumed codec older content next after layout ∧
        layout.segments = first :: newer ∧ layout.entries.map WalEntry.numberedRecord = more ∧
        (first.entries = [] ↔ BeginsFile size calls manager)
  | [], _, _, _, _, resumed, ran => by
    cases ran
    refine ⟨found number, _, [], resumed, rfl, rfl, ?_⟩
    exact iff_of_true rfl trivial
  | call :: calls, manager, _, _, sync, resumed, ran => by
    rcases exec_bind_eq_ok ran with ⟨_, _, first, ran⟩
    rcases exec_bind_eq_ok ran with ⟨_, _, second, ran⟩
    cases ran
    have rest : ∀ call ∈ calls, call.IsSync := fun call member =>
      sync call (List.mem_cons_of_mem _ member)
    rcases resumed.perform fixed (sync call (by simp)) first with
      ⟨none, rfl, rfl⟩ | ⟨some, start, seconds, entries, isNew, rfl, wrote⟩
    · rcases performAll_found fixed rest resumed second with
        ⟨layout, first, newer, kept, isSegments, records, begins⟩
      refine ⟨layout, first, newer, kept, isSegments, records, ?_⟩
      rw [begins]
      simp only [BeginsFile, none]
    · have begins : BeginsFile size (call :: calls) manager ↔ manager.maxFileSize <
          manager.currentFileSize + call.records.length * (size + 4) := by
        cases records : call.records with
        | nil => exact absurd records some
        | cons stamped others => simp only [BeginsFile, records]
      have contents : ∀ rotates, ((found number : Layout Record).append rotates start seconds
          entries).entries = entries := by
        intro rotates
        rw [Layout.entries_append rfl (by simp [found])]
        rfl
      cases full : decide (manager.maxFileSize <
          manager.currentFileSize + call.records.length * (size + 4)) with
      | true =>
        rw [full] at wrote
        have passed : FirstPassed ((found number).append true start seconds entries) :=
          ⟨⟨number, 0, []⟩, _, [], rfl, rfl⟩
        rcases performAll fixed FirstPassed firstPassed_append rest wrote passed second with
          ⟨layout, kept, ⟨first, other, newer, isSegments, isEmpty⟩, records⟩
        refine ⟨layout, first, _, kept, isSegments, ?_, ?_⟩
        · rw [records, contents]
        · exact iff_of_true isEmpty (begins.mpr (of_decide_eq_true full))
      | false =>
        rw [full] at wrote
        have filled : FirstFilled ((found number).append false start seconds entries) :=
          ⟨_, [], rfl, isNew⟩
        rcases performAll fixed FirstFilled firstFilled_append rest wrote filled second with
          ⟨layout, kept, ⟨first, newer, isSegments, isFilled⟩, records⟩
        refine ⟨layout, first, _, kept, isSegments, ?_, ?_⟩
        · rw [records, contents]
        · exact iff_of_false isFilled fun begun =>
            of_decide_eq_false full (begins.mp begun)

end WalManager

end QAExchange
