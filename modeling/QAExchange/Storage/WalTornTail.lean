import QAExchange.Storage.WalResumed

/-! # Reading behind torn bytes

The reader does not know where a write was torn. It takes the bytes behind the torn
ones for their continuation, so that one frame too few is left for the entries that
were written later.
-/

namespace QAExchange.WalManager

open Foundation Action Framing Segment

variable {Record : Type}

def stoppedContent (codec : EntryCodec Record) (last : Segment Record) (tail : List UInt8) :
    List UInt8 :=
  last.header ++ (body codec last.entries ++ tail)

section Reading

variable {codec : EntryCodec Record} {size : ℕ}

variable {content : List UInt8} {collected : List (WalEntry Record)}

/-- Replay of the directory reads the older files, the file that went on and the
newer files. -/
theorem replay_resumed (roundTrip : codec.RoundTrip) {init newer : List (Segment Record)}
    {first : Segment Record}
    (initStored : ∀ segment ∈ init, ∀ entry ∈ segment.entries, entry.Stored codec)
    (newerStored : ∀ segment ∈ newer, ∀ entry ∈ segment.entries, entry.Stored codec)
    (read : exec (replayFile codec collect ⟨first.start, content ++ body codec first.entries⟩)
      (init.flatMap Segment.entries) = (.ok (), collected)) :
    delivered codec (resumedFiles codec (init.map (toFile codec)) content (first :: newer)) =
      (.ok (), collected ++ newer.flatMap Segment.entries) := by
  have older := replay_segments roundTrip collect initStored
  have behind := replay_segments roundTrip collect newerStored
  rw [replay] at older behind
  rw [delivered, replay, resumedFiles, List.forM_append, older,
    exec_bind_ok (exec_forM_collect _ _), List.nil_append, List.forM_cons, exec_bind_ok read,
    behind, exec_forM_collect]

theorem read_of_delivered (roundTrip : codec.RoundTrip) {init newer : List (Segment Record)}
    {first : Segment Record}
    (initStored : ∀ segment ∈ init, ∀ entry ∈ segment.entries, entry.Stored codec)
    (succeeds : (delivered codec (resumedFiles codec (init.map (toFile codec)) content
      (first :: newer))).1 = .ok ()) :
    ∃ collected, exec (replayFile codec collect
      ⟨first.start, content ++ body codec first.entries⟩) (init.flatMap Segment.entries) =
        (.ok (), collected) := by
  have older := replay_segments roundTrip collect initStored
  rw [replay] at older
  have ran := exec_eq_of_outcome succeeds
  rw [replay, resumedFiles, List.forM_append, older, exec_bind_ok (exec_forM_collect _ _),
    List.nil_append, List.forM_cons] at ran
  rcases exec_bind_eq_ok ran with ⟨⟨⟩, collected, read, _⟩
  exact ⟨collected, read⟩

def accepts (codec : EntryCodec Record) (buffer : List UInt8) : Bool :=
  match WalEntry.fromBytes codec buffer with
  | .ok entry => entry.verifyCrc32 codec
  | .error _ => false

variable {after : List (WalEntry Record)}

theorem length_of_replayed {buffers : List (List UInt8)}
    (ran : exec (forM buffers (replayEntry codec collect)) collected = (.ok (), after)) :
    after.length = collected.length + (buffers.filter (accepts codec)).length := by
  induction buffers generalizing collected with
  | nil =>
    cases ran
    rfl
  | cons buffer buffers induction =>
    rw [List.forM_cons] at ran
    rcases exec_bind_eq_ok ran with ⟨_, middle, first, ran⟩
    have rest := induction ran
    rw [replayEntry] at first
    rcases exec_bind_eq_ok first with ⟨entry, _, isRead, first⟩
    rw [exec_result] at isRead
    injection isRead with isRead same
    subst same
    cases verified : entry.verifyCrc32 codec with
    | true =>
      rw [verified] at first
      cases first
      have accepted : accepts codec buffer = true := by
        rw [accepts, isRead]
        exact verified
      rw [rest, List.filter_cons_of_pos accepted]
      simp only [List.length_append, List.length_cons, List.length_nil]
      omega
    | false =>
      rw [verified] at first
      cases first
      have rejected : ¬ accepts codec buffer = true := by
        rw [accepts, isRead]
        simp [verified]
      rw [rest, List.filter_cons_of_neg rejected]

theorem accepts_length (fixed : codec.FixedSize size) (accepted : accepts codec buffer = true) :
    size ≤ buffer.length := by
  rw [accepts, WalEntry.fromBytes] at accepted
  cases outcome : codec.checkArchivedRoot buffer with
  | error text =>
    rw [outcome] at accepted
    cases accepted
  | ok entry => exact fixed.enough _ _ outcome

theorem accepted_le_sum (fixed : codec.FixedSize size) (buffers : List (List UInt8)) :
    (buffers.filter (accepts codec)).length * (size + 4) ≤
      (buffers.map fun data => data.length + 4).sum := by
  induction buffers with
  | nil => simp
  | cons buffer buffers induction =>
    cases accepted : accepts codec buffer with
    | true =>
      have enough := accepts_length fixed accepted
      rw [List.filter_cons_of_pos accepted, List.length_cons, Nat.succ_mul, List.map_cons,
        List.sum_cons]
      omega
    | false =>
      rw [List.filter_cons_of_neg (by simp [accepted]), List.map_cons, List.sum_cons]
      omega

theorem accepted_le (fixed : codec.FixedSize size) (bytes : List UInt8) :
    ((frames bytes).1.filter (accepts codec)).length * (size + 4) ≤ bytes.length :=
  (accepted_le_sum fixed _).trans (sum_frames_le bytes)

variable {entries : List (WalEntry Record)}

theorem fewer_behind_header (fixed : codec.FixedSize size) (short : content.length < 128)
    (stored : ∀ entry ∈ entries, entry.Stored codec)
    (ran : exec (replayFile codec collect ⟨number, content ++ body codec entries⟩) collected =
      (.ok (), after)) : after.length < collected.length + entries.length := by
  rw [replayFile] at ran
  split_ifs at ran with isShort
  · cases ran
  · rcases exec_bind_eq_ok ran with ⟨_, _, header, ran⟩
    rw [exec_result] at header
    injection header with _ same
    subst same
    rcases exec_bind_eq_ok ran with ⟨_, middle, read, ran⟩
    have count := length_of_replayed read
    dsimp only at count
    have bytes := accepted_le fixed ((content ++ body codec entries).drop 128)
    have behind : after = middle := by
      cases ending : (frames ((content ++ body codec entries).drop 128)).2 with
      | eof =>
        rw [ending] at ran
        cases ran
        rfl
      | cut =>
        rw [ending] at ran
        cases ran
    have length := length_body fixed stored
    simp only [List.length_drop, List.length_append, length] at bytes isShort
    have fewer : ((frames ((content ++ body codec entries).drop 128)).1.filter
        (accepts codec)).length < entries.length := by
      by_contra many
      have product := Nat.mul_le_mul_right (size + 4) (Nat.le_of_not_lt many)
      omega
    rw [behind, count]
    omega

variable {cut : ℕ}

theorem fewer_behind_entry (fixed : codec.FixedSize size) {torn : WalEntry Record}
    (tornStored : torn.Stored codec) (begun : 4 ≤ cut) (isCut : cut < size + 4)
    (stored : ∀ entry ∈ entries, entry.Stored codec)
    (whole : (frames ((frame (torn.data codec)).take cut ++ body codec entries)).2 = .eof) :
    ((frames ((frame (torn.data codec)).take cut ++ body codec entries)).1.filter
      (accepts codec)).length < entries.length := by
  have small := fixed.small
  have size_eq := tornStored.length_data fixed
  have length : ((frame (torn.data codec)).take cut).length = cut := by
    simp only [List.length_take, length_frame, size_eq]
    omega
  have total := length_body fixed stored
  have tornBytes : (frame (torn.data codec)).take cut =
      leBytes 4 size ++ (torn.data codec).take (cut - 4) := by
    rw [frame, size_eq, List.take_append, length_leBytes,
      List.take_of_length_le (by simpa using begun)]
  have prefixBytes : ((frame (torn.data codec)).take cut ++ body codec entries).take 4 =
      leBytes 4 size := by
    rw [tornBytes, List.append_assoc]
    exact List.take_left' (length_leBytes 4 _)
  have dataBytes : ((frame (torn.data codec)).take cut ++ body codec entries).drop 4 =
      (torn.data codec).take (cut - 4) ++ body codec entries := by
    rw [tornBytes, List.append_assoc]
    exact List.drop_left' (length_leBytes 4 _)
  have tornLength : ((torn.data codec).take (cut - 4)).length = cut - 4 := by
    simp only [List.length_take, size_eq]
    omega
  rw [frames_step (by simp only [List.length_append, length]; omega), prefixBytes, dataBytes,
    ofLeBytes_length (by omega)] at whole ⊢
  split_ifs at whole ⊢ with isShort
  simp only [List.length_append, tornLength, total] at isShort
  cases entries with
  | nil =>
    simp only [List.length_nil, Nat.zero_mul] at isShort
    omega
  | cons next entries =>
    have nextStored := stored next (by simp)
    -- the first buffer is the torn entry, filled up from the next frame
    have buffer : ((torn.data codec).take (cut - 4) ++ body codec (next :: entries)).take size =
        (torn.data codec).take (cut - 4) ++
          (frame (next.data codec)).take (size - (cut - 4)) := by
      rw [List.take_append, tornLength, List.take_of_length_le (by omega), body,
        List.flatMap_cons, List.take_append_of_le_length]
      rw [length_frame, nextStored.length_data fixed]
      omega
    have rejected : ¬ accepts codec ((torn.data codec).take (cut - 4) ++
        (frame (next.data codec)).take (size - (cut - 4))) = true := by
      rw [accepts, WalEntry.fromBytes]
      cases outcome : codec.checkArchivedRoot ((torn.data codec).take (cut - 4) ++
          (frame (next.data codec)).take (size - (cut - 4))) with
      | error text => simp
      | ok entry =>
        have fails := fixed.torn _ _ _ _ _ _ tornStored.serialize_eq nextStored.serialize_eq
          (by omega) outcome
        simp [fails]
    rw [buffer, List.filter_cons_of_neg rejected]
    have bytes := accepted_le fixed
      (((torn.data codec).take (cut - 4) ++ body codec (next :: entries)).drop size)
    simp only [List.length_drop, List.length_append, tornLength, total, List.length_cons,
      Nat.succ_mul] at bytes ⊢
    by_contra many
    have product := Nat.mul_le_mul_right (size + 4) (Nat.le_of_not_lt many)
    rw [Nat.succ_mul] at product
    omega

theorem lt_tornLength (small : size < 65536) (lowByte : size % 256 ≠ 0) (some : 0 < cut)
    (isCut : cut < 4) :
    size + cut < ofLeBytes ((leBytes 4 size).take cut ++ (leBytes 4 size).take (4 - cut)) := by
  have low : (UInt8.ofNat size).toNat = size % 256 := by simp
  have high : (UInt8.ofNat (size / 256)).toNat = size / 256 := by
    simp only [UInt8.toNat_ofNat']
    omega
  have zero : size / 256 / 256 = 0 := by omega
  have none : size / 256 / 256 / 256 = 0 := by omega
  rcases (by omega : cut = 1 ∨ cut = 2 ∨ cut = 3) with rfl | rfl | rfl
  · simp only [leBytes, List.take_succ_cons, List.take_zero, List.cons_append, List.nil_append,
      ofLeBytes, low, high, zero]
    omega
  · simp only [leBytes, List.take_succ_cons, List.take_zero, List.cons_append, List.nil_append,
      ofLeBytes, low, high]
    omega
  · simp only [leBytes, List.take_succ_cons, List.take_zero, List.cons_append, List.nil_append,
      ofLeBytes, low, high, zero]
    simp
    omega

theorem accepted_lt_of_long (fixed : codec.FixedSize size) {bytes : List UInt8}
    (some : 4 ≤ bytes.length) (whole : (frames bytes).2 = .eof)
    (long : bytes.length + size < count * (size + 4) + ofLeBytes (bytes.take 4)) :
    ((frames bytes).1.filter (accepts codec)).length < count := by
  rw [frames_step some] at whole ⊢
  split_ifs at whole ⊢ with isShort
  have rest := accepted_le fixed ((bytes.drop 4).drop (ofLeBytes (bytes.take 4)))
  have fewer : (((bytes.drop 4).take (ofLeBytes (bytes.take 4)) ::
      (frames ((bytes.drop 4).drop (ofLeBytes (bytes.take 4)))).1).filter (accepts codec)).length ≤
        1 + ((frames ((bytes.drop 4).drop (ofLeBytes (bytes.take 4)))).1.filter
          (accepts codec)).length := by
    rw [List.filter_cons]
    split_ifs
    · rw [List.length_cons]
      omega
    · omega
  apply lt_of_le_of_lt fewer
  simp only [List.length_drop] at rest isShort
  by_contra many
  have product := Nat.mul_le_mul_right (size + 4) (Nat.le_of_not_lt many)
  rw [Nat.add_mul, Nat.one_mul] at product
  omega

/-- A length that is not whole makes a frame with the length behind it, and that frame
takes more bytes than an entry has. -/
theorem fewer_behind_length (fixed : codec.FixedSize size) {torn : WalEntry Record}
    (tornStored : torn.Stored codec) (begun : 0 < cut) (isCut : cut < 4)
    (stored : ∀ entry ∈ entries, entry.Stored codec) (some : entries ≠ [])
    (whole : (frames ((frame (torn.data codec)).take cut ++ body codec entries)).2 = .eof) :
    ((frames ((frame (torn.data codec)).take cut ++ body codec entries)).1.filter
      (accepts codec)).length < entries.length := by
  have total := length_body fixed stored
  have larger := lt_tornLength fixed.small fixed.lowByte begun isCut
  have length : ((frame (torn.data codec)).take cut).length = cut := by
    simp only [List.length_take, length_frame]
    omega
  have positive := Nat.mul_le_mul_right (size + 4) (List.length_pos_of_ne_nil some)
  have prefixBytes : ((frame (torn.data codec)).take cut ++ body codec entries).take 4 =
      (leBytes 4 size).take cut ++ (leBytes 4 size).take (4 - cut) := by
    cases entries with
    | nil => exact absurd rfl some
    | cons next entries =>
      rw [List.take_append, length, List.take_of_length_le (by omega), body, List.flatMap_cons,
        frame, frame, tornStored.length_data fixed, (stored next (by simp)).length_data fixed,
        List.append_assoc, List.take_append_of_le_length (by simp; omega),
        List.take_append_of_le_length (by simp)]
  apply accepted_lt_of_long fixed _ whole
  · rw [prefixBytes, List.length_append, length, total]
    omega
  · rw [List.length_append, length, total]
    omega

/-- A file that was read to its end gave its whole entries and what is accepted of
the bytes behind them. -/
theorem length_of_read (roundTrip : codec.RoundTrip) {last : Segment Record}
    (lastStored : ∀ entry ∈ last.entries, entry.Stored codec) {number : ℕ} {tail : List UInt8}
    (ran : exec (replayFile codec collect
      ⟨number, stoppedContent codec last tail ++ body codec entries⟩) collected = (.ok (), after)) :
    (frames (tail ++ body codec entries)).2 = .eof ∧
      after.length = collected.length + last.entries.length +
        ((frames (tail ++ body codec entries)).1.filter (accepts codec)).length := by
  have sameBytes : stoppedContent codec last tail ++ body codec entries =
      last.header ++ (body codec last.entries ++ (tail ++ body codec entries)) := by
    simp [stoppedContent]
  have sameFile : exec (replayFile codec collect
      ⟨last.start, last.header ++ (body codec last.entries ++ (tail ++ body codec entries))⟩)
        collected = (.ok (), after) := by
    rw [← sameBytes]
    exact ran
  rw [replayFile_segment roundTrip _ lastStored, exec_bind_ok (exec_forM_collect _ _)] at sameFile
  rcases exec_bind_eq_ok sameFile with ⟨_, middle, read, rest⟩
  have count := length_of_replayed read
  rw [List.length_append] at count
  cases ending : (frames (tail ++ body codec entries)).2 with
  | eof =>
    rw [ending] at rest
    cases rest
    exact ⟨rfl, count⟩
  | cut =>
    rw [ending] at rest
    cases rest

/-- Behind a tail that is no part of a length the entries are read as they are, and a
part of a length does no harm at the end. -/
theorem read_clean (roundTrip : codec.RoundTrip) {last : Segment Record}
    (lastStored : ∀ entry ∈ last.entries, entry.Stored codec) (number : ℕ)
    (stored : ∀ entry ∈ entries, entry.Stored codec)
    (clean : tail = [] ∨ tail.length < 4 ∧ entries = []) (collected : List (WalEntry Record)) :
    exec (replayFile codec collect
      ⟨number, stoppedContent codec last tail ++ body codec entries⟩) collected =
        (.ok (), collected ++ (last.entries ++ entries)) := by
  rcases clean with rfl | ⟨short, rfl⟩
  · have whole : ∀ entry ∈ (last.add entries).entries, entry.Stored codec := by
      intro entry member
      rcases List.mem_append.mp member with old | isNew
      · exact lastStored entry old
      · exact stored entry isNew
    have read := replayFile_toFile roundTrip collect whole
    have sameBytes : stoppedContent codec last [] ++ body codec entries =
        (last.add entries).header ++ body codec (last.add entries).entries := by
      simp [stoppedContent, header, Segment.add]
    rw [sameBytes]
    change exec (replayFile codec collect ((last.add entries).toFile codec)) collected = _
    rw [read, exec_forM_collect]
    rfl
  · have read := replayFile_segment roundTrip collect lastStored tail
    have sameBytes : stoppedContent codec last tail ++ body codec [] =
        last.header ++ (body codec last.entries ++ tail) := by
      simp [stoppedContent, body]
    rw [sameBytes]
    change exec (replayFile codec collect
      ⟨last.start, last.header ++ (body codec last.entries ++ tail)⟩) collected = _
    rw [read, exec_bind_ok (exec_forM_collect _ _), frames_of_short short]
    simp

end Reading

end QAExchange.WalManager
