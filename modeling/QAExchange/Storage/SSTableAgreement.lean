import QAExchange.Storage.SSTableBytes

/-! # What the readers of an SSTable find

The header, the entries and the metadata of a file are found where the writer has put them.
Both readers give the entries of a range in the order in which they were written, and a look
up by key the first one.
-/

namespace QAExchange

open Foundation Framing MmapSSTableReader BloomFilter

variable {Record : Type}

/-! ## One entry -/

section Frames

variable {data : List UInt8} (small : data.length < 2 ^ 32) (rest : List UInt8)

theorem not_short_frame : ¬(frame data ++ rest).length < 4 := by
  simp only [List.length_append, length_frame]
  omega

include small

theorem lengthAt_frame : lengthAt (frame data ++ rest) = data.length := by
  rw [lengthAt, take_frame_append, ofLeBytes_length small]

theorem not_cut_frame : ¬((frame data ++ rest).drop 4).length < lengthAt (frame data ++ rest) := by
  rw [lengthAt_frame small, drop_frame_append, List.length_append]
  omega

theorem data_of_frame :
    ((frame data ++ rest).drop 4).take (lengthAt (frame data ++ rest)) = data := by
  rw [lengthAt_frame small, drop_frame_append]
  exact List.take_left' rfl

theorem behind_frame :
    ((frame data ++ rest).drop 4).drop (lengthAt (frame data ++ rest)) = rest := by
  rw [lengthAt_frame small, drop_frame_append]
  exact List.drop_left' rfl

end Frames

structure SSTableCodec.RoundTrips (codec : SSTableCodec Record) (entry : MemTableEntry Record) :
    Prop where
  key : codec.key.decode (codec.key.encode entry.key) = .ok entry.key
  keyLength : (codec.key.encode entry.key).length < 2 ^ 32
  value : codec.value.decode (codec.value.encode entry.record) = .ok entry.record
  valueLength : (codec.value.encode entry.record).length < 2 ^ 32

section Entries

variable {codec : SSTableCodec Record}

theorem entryBytes_append (entry : MemTableEntry Record) (rest : List UInt8) :
    codec.entryBytes entry ++ rest =
      frame (codec.key.encode entry.key) ++ (frame (codec.value.encode entry.record) ++ rest) :=
  List.append_assoc ..

variable {entry : MemTableEntry Record}

theorem decodeKey_eq (trips : codec.RoundTrips entry) :
    FileReader.decodeKey codec (codec.key.encode entry.key) = .ok entry.key := by
  rw [FileReader.decodeKey, trips.key]

theorem decodeValue_eq (trips : codec.RoundTrips entry) :
    FileReader.decodeValue codec (codec.value.encode entry.record) = .ok entry.record := by
  rw [FileReader.decodeValue, trips.value]

theorem FileReader.readEntries_step (keeps : MemTableKey → Bool) (count : ℕ)
    (trips : codec.RoundTrips entry) (rest : List UInt8) :
    readEntries codec keeps (count + 1) (codec.entryBytes entry ++ rest) =
      if keeps entry.key then (readEntries codec keeps count rest).map fun others => entry :: others
      else readEntries codec keeps count rest := by
  rw [entryBytes_append, readEntries, if_neg (not_short_frame _),
    if_neg (not_cut_frame trips.keyLength _), data_of_frame trips.keyLength,
    behind_frame trips.keyLength, decodeKey_eq trips]
  simp only [bind, Except.bind]
  rw [if_neg (not_short_frame _), if_neg (not_cut_frame trips.valueLength _),
    data_of_frame trips.valueLength, behind_frame trips.valueLength, decodeValue_eq trips]
  split_ifs
  · cases readEntries codec keeps count rest <;> rfl
  · rfl

theorem MmapSSTableReader.readEntries_step (keeps : MemTableKey → Bool) (count : ℕ)
    (trips : codec.RoundTrips entry) (rest : List UInt8) :
    readEntries codec keeps (count + 1) (codec.entryBytes entry ++ rest) =
      if keeps entry.key then (readEntries codec keeps count rest).map fun others => entry :: others
      else readEntries codec keeps count rest := by
  rw [entryBytes_append, readEntries, if_neg (not_short_frame _),
    if_neg (not_cut_frame trips.keyLength _), data_of_frame trips.keyLength,
    behind_frame trips.keyLength, decodeKey_eq trips]
  simp only [bind, Except.bind]
  rw [if_neg (not_short_frame _), if_neg (not_cut_frame trips.valueLength _),
    data_of_frame trips.valueLength, behind_frame trips.valueLength, decodeValue_eq trips]
  split_ifs
  · cases readEntries codec keeps count rest <;> rfl
  · rfl

theorem MmapSSTableReader.findEntry_step (target : MemTableKey) (count : ℕ)
    (trips : codec.RoundTrips entry) (rest : List UInt8) :
    findEntry codec target (count + 1) (codec.entryBytes entry ++ rest) =
      if entry.key = target then .ok (some entry.record)
      else findEntry codec target count rest := by
  have same : (entry.key.timestamp = target.timestamp ∧ entry.key.sequence = target.sequence) ↔
      entry.key = target := by
    cases entry.key
    cases target
    exact (MemTableKey.mk.injEq ..).to_iff.symm
  rw [entryBytes_append, findEntry, if_neg (not_short_frame _),
    if_neg (not_cut_frame trips.keyLength _), data_of_frame trips.keyLength,
    behind_frame trips.keyLength, decodeKey_eq trips]
  simp only [bind, Except.bind]
  rw [if_neg (not_short_frame _), if_neg (not_cut_frame trips.valueLength _),
    data_of_frame trips.valueLength, behind_frame trips.valueLength, decodeValue_eq trips]
  simp only [same]
  rfl

def SSTableCodec.entriesBytes (codec : SSTableCodec Record)
    (entries : List (MemTableEntry Record)) : List UInt8 :=
  entries.flatMap codec.entryBytes

variable (codec) in
theorem entriesBytes_cons (entry : MemTableEntry Record) (entries : List (MemTableEntry Record))
    (rest : List UInt8) :
    codec.entriesBytes (entry :: entries) ++ rest =
      codec.entryBytes entry ++ (codec.entriesBytes entries ++ rest) := by
  rw [SSTableCodec.entriesBytes, List.flatMap_cons, List.append_assoc]
  rfl

variable {entries : List (MemTableEntry Record)}

section

variable (trips : ∀ entry ∈ entries, codec.RoundTrips entry)
include trips

theorem FileReader.readEntries_eq (keeps : MemTableKey → Bool) (rest : List UInt8) :
    readEntries codec keeps entries.length (codec.entriesBytes entries ++ rest) =
      .ok (entries.filter fun entry => keeps entry.key) := by
  induction entries with
  | nil => rfl
  | cons entry entries induction =>
    rw [entriesBytes_cons, List.length_cons, readEntries_step keeps _ (trips entry (by simp)),
      induction fun other member => trips other (List.mem_cons_of_mem _ member),
      List.filter_cons]
    split_ifs <;> rfl

theorem MmapSSTableReader.readEntries_eq (keeps : MemTableKey → Bool) :
    readEntries codec keeps entries.length (codec.entriesBytes entries) =
      .ok (entries.filter fun entry => keeps entry.key) := by
  induction entries with
  | nil => rfl
  | cons entry entries induction =>
    have isCons := entriesBytes_cons codec entry entries []
    rw [List.append_nil, List.append_nil] at isCons
    rw [isCons, List.length_cons, readEntries_step keeps _ (trips entry (by simp)),
      induction fun other member => trips other (List.mem_cons_of_mem _ member),
      List.filter_cons]
    split_ifs <;> rfl

theorem MmapSSTableReader.findEntry_eq (target : MemTableKey) :
    findEntry codec target entries.length (codec.entriesBytes entries) =
      .ok ((entries.find? fun entry => entry.key = target).map MemTableEntry.record) := by
  induction entries with
  | nil => rfl
  | cons entry entries induction =>
    have isCons := entriesBytes_cons codec entry entries []
    rw [List.append_nil, List.append_nil] at isCons
    rw [isCons, List.length_cons, findEntry_step target _ (trips entry (by simp)),
      induction fun other member => trips other (List.mem_cons_of_mem _ member),
      List.find?_cons]
    split_ifs with same
    · rw [decide_eq_true same]
      rfl
    · rw [decide_eq_false same]

end

end Entries

/-! ## A finished file -/

structure SSTableWriter.Finishes (hash : List UInt8 → BitVec 64) (codec : SSTableCodec Record)
    (expectedEntries : ℕ) (entries : List (MemTableEntry Record)) (metadata : StoredMetadata)
    (file : List UInt8) : Prop where
  finishes : ∃ createdAt writer,
    (createWithCapacity expectedEntries).writeFromMemtable hash codec entries = some writer ∧
      writer.finish codec createdAt = .ok (metadata, file)

def SSTableCodec.headerOf (codec : SSTableCodec Record) (entries : List (MemTableEntry Record)) :
    StoredHeader where
  toSSTableHeader := (SSTableFile.of 0 entries).header
  version := 1
  metadataOffset := 128 + (codec.entriesBytes entries).length

def StoredMetadata.of (createdAt : ℤ) (entries : List (MemTableEntry Record))
    (filled : BloomFilter) : StoredMetadata where
  toSSTableMetadata := (SSTableFile.of 0 entries).metadata
  version := 1
  fileSize := 0
  blockOffsets := []
  bloomFilter := some filled
  createdAt := createdAt

section Finished

variable {hash : List UInt8 → BitVec 64} {codec : SSTableCodec Record}
  {entries : List (MemTableEntry Record)}

theorem length_entryBytes (entry : MemTableEntry Record) : (codec.entryBytes entry).length =
      8 + (codec.key.encode entry.key).length + (codec.value.encode entry.record).length := by
  rw [SSTableCodec.entryBytes, List.length_append, length_frame, length_frame]
  omega

theorem length_entriesBytes_cons (entry : MemTableEntry Record)
    (entries : List (MemTableEntry Record)) : (codec.entriesBytes (entry :: entries)).length =
      (codec.entryBytes entry).length + (codec.entriesBytes entries).length := by
  rw [SSTableCodec.entriesBytes, List.flatMap_cons, List.length_append]
  rfl

variable (codec) in
theorem length_le_entriesBytes (entries : List (MemTableEntry Record)) :
    entries.length ≤ (codec.entriesBytes entries).length := by
  induction entries with
  | nil => exact Nat.zero_le _
  | cons entry entries induction =>
    rw [length_entriesBytes_cons, length_entryBytes, List.length_cons]
    omega

theorem SSTableWriter.writeFromMemtable_eq (entries : List (MemTableEntry Record))
    (writer : SSTableWriter Record) :
    writer.writeFromMemtable hash codec entries =
      (writer.bloomFilter.insertAll hash (entries.map fun entry => entry.key.toBytes)).map
        fun filled =>
          { toRkyvSSTableWriter :=
              entries.foldl RkyvSSTableWriter.append writer.toRkyvSSTableWriter
            data := writer.data ++ codec.entriesBytes entries
            currentOffset := writer.currentOffset + (codec.entriesBytes entries).length
            bloomFilter := filled } := by
  induction entries generalizing writer with
  | nil => simp [writeFromMemtable, insertAll, SSTableCodec.entriesBytes]
  | cons entry entries induction =>
    rw [writeFromMemtable, append, List.map_cons, insertAll]
    cases writer.bloomFilter.insert hash entry.key.toBytes with
    | none => rfl
    | some filled =>
      rw [Option.map_some, Option.bind_some, Option.bind_some, induction]
      simp only [SSTableCodec.entriesBytes, List.flatMap_cons, List.append_assoc,
        List.foldl_cons, List.length_append, length_entryBytes]
      congr 1
      funext later
      congr 1
      omega

namespace SSTableWriter.Finishes

variable {expectedEntries : ℕ} {metadata : StoredMetadata} {file : List UInt8}

theorem file_eq (finishes : Finishes hash codec expectedEntries entries metadata file) :
    file = (codec.headerOf entries).toBytes ++
        (codec.entriesBytes entries ++ codec.metadata.encode metadata) ∧
      128 + (codec.entriesBytes entries).length < 2 ^ 63 := by
  obtain ⟨createdAt, writer, isWriter, isFile⟩ := finishes.finishes
  rw [writeFromMemtable_eq] at isWriter
  obtain ⟨filled, -, isWritten⟩ := Option.map_eq_some_iff.mp isWriter
  rw [finish] at isFile
  split_ifs at isFile with large
  cases isFile
  subst isWritten
  simp only [createWithCapacity, ofFilter, List.nil_append, List.length_append] at large ⊢
  constructor
  · rfl
  · omega

theorem filter_eq (finishes : Finishes hash codec expectedEntries entries metadata file) :
    ∃ filled, metadata.bloomFilter = some filled ∧ (new expectedEntries 0.01).insertAll hash
        (entries.map fun entry => entry.key.toBytes) = some filled := by
  obtain ⟨createdAt, writer, isWriter, isFile⟩ := finishes.finishes
  rw [writeFromMemtable_eq] at isWriter
  obtain ⟨filled, isFilled, isWritten⟩ := Option.map_eq_some_iff.mp isWriter
  rw [finish] at isFile
  split_ifs at isFile
  cases isFile
  subst isWritten
  exact ⟨filled, rfl, isFilled⟩

/-- A writer whose filter takes all keys finishes, if the file does not get too large. -/
theorem of_filled (createdAt : ℤ) (isFilled : (new expectedEntries 0.01).insertAll hash
      (entries.map fun entry => entry.key.toBytes) = some filled)
    (small : 128 + (codec.entriesBytes entries ++
      codec.metadata.encode (.of createdAt entries filled)).length < 2 ^ 63) :
    Finishes hash codec expectedEntries entries (.of createdAt entries filled)
      ((codec.headerOf entries).toBytes ++
        (codec.entriesBytes entries ++ codec.metadata.encode (.of createdAt entries filled))) where
  finishes := by
    have isWritten := @writeFromMemtable_eq Record hash codec entries
      (createWithCapacity expectedEntries)
    rw [createWithCapacity, ofFilter, isFilled, Option.map_some] at isWritten
    refine ⟨createdAt, _, isWritten, ?_⟩
    rw [finish, if_neg]
    · rfl
    · exact not_le.mpr small

end SSTableWriter.Finishes

/-- Timestamps are `i64`. -/
def MemTableKey.Timed (key : MemTableKey) : Prop :=
  -2 ^ 63 ≤ key.timestamp ∧ key.timestamp < 2 ^ 63

theorem headerOf_fits (timed : ∀ entry ∈ entries, entry.key.Timed)
    (small : 128 + (codec.entriesBytes entries).length < 2 ^ 63) :
    (codec.headerOf entries).Fits := by
  have count : (codec.headerOf entries).entryCount = entries.length := by
    have sound := (SSTableFile.sound_of 0 entries).count
    rwa [SSTableFile.of_entries] at sound
  have fewer := length_le_entriesBytes codec entries
  have bounds : (-2 ^ 63 ≤ (codec.headerOf entries).minTimestamp ∧
      (codec.headerOf entries).minTimestamp < 2 ^ 63) ∧
        -2 ^ 63 ≤ (codec.headerOf entries).maxTimestamp ∧
          (codec.headerOf entries).maxTimestamp < 2 ^ 63 := by
    cases isEntries : entries with
    | nil =>
      change (-2 ^ 63 ≤ (0 : ℤ) ∧ (0 : ℤ) < 2 ^ 63) ∧ -2 ^ 63 ≤ (0 : ℤ) ∧ (0 : ℤ) < 2 ^ 63
      decide
    | cons first others =>
      have someEntries : first :: others ≠ [] := List.cons_ne_nil _ _
      obtain ⟨range, spans, isLow, isHigh⟩ := SSTableFile.exists_timestampRange 0 someEntries
      rw [SSTableFile.timestamps, SSTableFile.of_entries] at spans
      obtain ⟨lowest, lowMember, isLowest⟩ := List.mem_map.mp spans.low
      obtain ⟨highest, highMember, isHighest⟩ := List.mem_map.mp spans.high
      rw [← isEntries] at lowMember highMember
      constructor
      · change _ ≤ (SSTableFile.of 0 (first :: others)).header.minTimestamp ∧
          (SSTableFile.of 0 (first :: others)).header.minTimestamp < _
        rw [← isLow, ← isLowest]
        exact timed lowest lowMember
      · change _ ≤ (SSTableFile.of 0 (first :: others)).header.maxTimestamp ∧
          (SSTableFile.of 0 (first :: others)).header.maxTimestamp < _
        rw [← isHigh, ← isHighest]
        exact timed highest highMember
  exact
    { version := by
        change 1 < 2 ^ 32
        decide
      entryCount := by omega
      minTimestamp := bounds.1
      maxTimestamp := bounds.2
      metadataOffset := by
        change 128 + (codec.entriesBytes entries).length < 2 ^ 64
        omega }

/-! ## What is read -/

section Readers

variable {expectedEntries : ℕ} {metadata : StoredMetadata} {file : List UInt8}
  (finishes : SSTableWriter.Finishes hash codec expectedEntries entries metadata file)
  (timed : ∀ entry ∈ entries, entry.key.Timed)
  (restores : codec.metadata.decode (codec.metadata.encode metadata) = .ok metadata)

include finishes

theorem take_header : file.take 128 = (codec.headerOf entries).toBytes := by
  rw [finishes.file_eq.1]
  exact List.take_left' (StoredHeader.length_toBytes _)

theorem drop_header :
    file.drop 128 = codec.entriesBytes entries ++ codec.metadata.encode metadata := by
  rw [finishes.file_eq.1]
  exact List.drop_left' (StoredHeader.length_toBytes _)

theorem drop_metadataOffset :
    file.drop (codec.headerOf entries).metadataOffset = codec.metadata.encode metadata := by
  change file.drop (128 + (codec.entriesBytes entries).length) = _
  rw [← List.drop_drop, drop_header finishes]
  exact List.drop_left' rfl

theorem take_metadataOffset :
    (file.take (codec.headerOf entries).metadataOffset).drop 128 = codec.entriesBytes entries := by
  change (file.take (128 + (codec.entriesBytes entries).length)).drop 128 = _
  rw [List.drop_take, drop_header finishes, Nat.add_sub_cancel_left]
  exact List.take_left' rfl

theorem length_file :
    file.length = 128 + (codec.entriesBytes entries).length +
      (codec.metadata.encode metadata).length := by
  rw [finishes.file_eq.1, List.length_append, List.length_append, StoredHeader.length_toBytes]
  omega

include timed

theorem fromBytes_header :
    StoredHeader.fromBytes (file.take 128) = .ok (codec.headerOf entries) := by
  rw [take_header finishes]
  exact StoredHeader.fromBytes_toBytes (headerOf_fits timed finishes.file_eq.2)

include restores

theorem FileReader.openFile_eq :
    openFile codec file = .ok ⟨file, codec.headerOf entries, metadata⟩ := by
  have long : ¬file.length < 128 := by
    rw [length_file finishes]
    omega
  rw [openFile, if_neg long, fromBytes_header finishes timed]
  simp only [bind, Except.bind]
  rw [drop_metadataOffset finishes, restores]
  rfl

theorem MmapSSTableReader.openFile_eq (someBytes : codec.metadata.encode metadata ≠ []) :
    openFile codec file = .ok ⟨file, codec.headerOf entries, metadata⟩ := by
  have positive := List.length_pos_of_ne_nil someBytes
  have length := length_file finishes
  have long : ¬file.length < 128 := by omega
  have behind : ¬file.length ≤ (codec.headerOf entries).metadataOffset := by
    change ¬file.length ≤ 128 + (codec.entriesBytes entries).length
    omega
  rw [openFile, if_neg long, fromBytes_header finishes timed]
  simp only [bind, Except.bind]
  rw [if_neg behind, drop_metadataOffset finishes, restores]
  rfl

end Readers

end Finished

/-- The entries of a range, in the order in which they were appended. -/
def entriesBetween (startTs endTs : ℤ) (entries : List (MemTableEntry Record)) :
    List (MemTableEntry Record) :=
  entries.filter fun entry => FileReader.inRange startTs endTs entry.key

section Queries

variable {codec : SSTableCodec Record} {entries : List (MemTableEntry Record)}

variable (codec) in
theorem headerOf_bounds (member : entry ∈ entries) :
    (codec.headerOf entries).minTimestamp ≤ entry.key.timestamp ∧
      entry.key.timestamp ≤ (codec.headerOf entries).maxTimestamp := by
  have sound := (SSTableFile.sound_of 0 entries).header
  rw [SSTableFile.of_entries] at sound
  exact sound entry member

theorem headerOf_entryCount (entries : List (MemTableEntry Record)) :
    (codec.headerOf entries).entryCount = entries.length := by
  have sound := (SSTableFile.sound_of 0 entries).count
  rwa [SSTableFile.of_entries] at sound

theorem entriesBetween_outside (outside : endTs < (codec.headerOf entries).minTimestamp ∨
      (codec.headerOf entries).maxTimestamp < startTs) :
    entriesBetween startTs endTs entries = [] := by
  apply List.filter_eq_nil_iff.mpr
  intro entry member
  have bounds := headerOf_bounds codec member
  simp only [FileReader.inRange, decide_eq_true_eq]
  omega

/-- The reader that `openFile` gives. -/
def SSTableCodec.readerOf (codec : SSTableCodec Record) (entries : List (MemTableEntry Record))
    (metadata : StoredMetadata) (file : List UInt8) : FileReader where
  bytes := file
  header := codec.headerOf entries
  metadata := metadata

variable {hash : List UInt8 → BitVec 64} {expectedEntries : ℕ} {metadata : StoredMetadata}
  {file : List UInt8}
  (finishes : SSTableWriter.Finishes hash codec expectedEntries entries metadata file)
  (trips : ∀ entry ∈ entries, codec.RoundTrips entry)

include finishes

theorem MmapSSTableReader.data_readerOf :
    data (codec.readerOf entries metadata file) = codec.entriesBytes entries :=
  take_metadataOffset finishes

section Scans

include trips

theorem FileReader.rangeQuery_readerOf (startTs endTs : ℤ) :
    (codec.readerOf entries metadata file).rangeQuery codec startTs endTs =
      .ok (entriesBetween startTs endTs entries) := by
  rw [rangeQuery]
  split_ifs with outside
  · rw [entriesBetween_outside outside]
  · change readEntries codec (inRange startTs endTs) (codec.headerOf entries).entryCount
      (file.drop 128) = _
    rw [drop_header finishes, headerOf_entryCount]
    exact readEntries_eq trips (inRange startTs endTs) _

theorem MmapSSTableReader.rangeQuery_readerOf (startTs endTs : ℤ) :
    rangeQuery codec startTs endTs (codec.readerOf entries metadata file) =
      .ok (entriesBetween startTs endTs entries) := by
  rw [rangeQuery]
  split_ifs with outside
  · rw [entriesBetween_outside outside]
  · change readEntries codec (FileReader.inRange startTs endTs)
      (codec.headerOf entries).entryCount _ = _
    rw [data_readerOf finishes, headerOf_entryCount]
    exact readEntries_eq trips (FileReader.inRange startTs endTs)

end Scans

variable (expects : expectedEntries ≠ 0)

include expects

theorem mightContain_spec (keyBytes : List UInt8) :
    ∃ might, metadata.mightContain hash keyBytes = some might ∧
      ((∃ entry ∈ entries, entry.key.toBytes = keyBytes) → might = true) := by
  have roomy : (new expectedEntries 0.01).Roomy :=
    roomy_new expects (by norm_num) (by norm_num)
  obtain ⟨filled, isFilter, isFilled⟩ := finishes.filter_eq
  obtain ⟨sameFilled, isSame, -, answers, areIn⟩ :=
    roomy.soundFor hash (entries.map fun entry => entry.key.toBytes)
  cases isFilled.symm.trans isSame
  obtain ⟨might, isMight⟩ := answers keyBytes
  apply Exists.intro might
  rw [StoredMetadata.mightContain, isFilter]
  apply And.intro isMight
  intro isKey
  obtain ⟨entry, member, isBytes⟩ := isKey
  have isIn := areIn keyBytes (List.mem_map.mpr ⟨entry, member, isBytes⟩)
  exact Option.some_inj.mp (isMight.symm.trans isIn)

include trips

theorem MmapSSTableReader.get_readerOf (target : MemTableKey) :
    get codec hash target (codec.readerOf entries metadata file) =
      some (.ok ((entries.find? fun entry => entry.key = target).map MemTableEntry.record)) := by
  obtain ⟨might, isMight, contains⟩ := mightContain_spec finishes expects target.toBytes
  have isFilter : (codec.readerOf entries metadata file).metadata.mightContain hash
      target.toBytes = some might := isMight
  have absent (none : ∀ entry ∈ entries, entry.key ≠ target) :
      (entries.find? fun entry => entry.key = target) = .none := by
    apply List.find?_eq_none.mpr
    intro entry member
    simpa using none entry member
  rw [get, isFilter, Option.map_some]
  split_ifs with isNot outside
  · rw [absent]
    · rfl
    · intro entry member same
      rw [contains ⟨entry, member, congrArg MemTableKey.toBytes same⟩] at isNot
      cases isNot
  · rw [absent]
    · rfl
    · intro entry member same
      have bounds := headerOf_bounds codec member
      rw [same] at bounds
      change target.timestamp < (codec.headerOf entries).minTimestamp ∨
        (codec.headerOf entries).maxTimestamp < target.timestamp at outside
      omega
  · rw [data_readerOf finishes]
    change some (findEntry codec target (codec.headerOf entries).entryCount _) = _
    rw [headerOf_entryCount, findEntry_eq trips]

end Queries

structure SSTableCodec.ReadsBack (codec : SSTableCodec Record)
    (entries : List (MemTableEntry Record)) (metadata : StoredMetadata) : Prop where
  trips : ∀ entry ∈ entries, codec.RoundTrips entry
  restores : codec.metadata.decode (codec.metadata.encode metadata) = .ok metadata
  someBytes : codec.metadata.encode metadata ≠ []

/-- Both readers open a file and give the entries of every range in the order in which they were
appended, and the second one finds for a key the record that was appended first. -/
structure ReadersAgree (hash : List UInt8 → BitVec 64) (codec : SSTableCodec Record)
    (entries : List (MemTableEntry Record)) (file : List UInt8) : Prop where
  scanned : ∃ reader, FileReader.openFile codec file = .ok reader ∧
    ∀ startTs endTs, reader.rangeQuery codec startTs endTs =
      .ok (entriesBetween startTs endTs entries)
  mapped : ∃ reader, openFile codec file = .ok reader ∧
    (∀ startTs endTs, rangeQuery codec startTs endTs reader =
      .ok (entriesBetween startTs endTs entries)) ∧
    (∀ key, get codec hash key reader =
      some (.ok ((entries.find? fun entry => entry.key = key).map MemTableEntry.record))) ∧
    ∀ key, get codec hash key reader = some (.ok none) ↔
      ∀ entry ∈ entries, entry.key ≠ key

theorem readersAgree_of_finishes (hash : List UInt8 → BitVec 64) (codec : SSTableCodec Record)
    (expectedEntries : ℕ) (expects : expectedEntries ≠ 0) (entries : List (MemTableEntry Record))
    (timed : ∀ entry ∈ entries, entry.key.Timed) (metadata : StoredMetadata) (file : List UInt8)
    (finishes : SSTableWriter.Finishes hash codec expectedEntries entries metadata file)
    (reads : codec.ReadsBack entries metadata) : ReadersAgree hash codec entries file where
  scanned := by
    apply Exists.intro (codec.readerOf entries metadata file)
    apply And.intro (FileReader.openFile_eq finishes timed reads.restores)
    exact FileReader.rangeQuery_readerOf finishes reads.trips
  mapped := by
    apply Exists.intro (codec.readerOf entries metadata file)
    apply And.intro (openFile_eq finishes timed reads.restores reads.someBytes)
    apply And.intro (rangeQuery_readerOf finishes reads.trips)
    apply And.intro (get_readerOf finishes reads.trips expects)
    intro key
    rw [get_readerOf finishes reads.trips expects key]
    simp only [Option.some.injEq, Except.ok.injEq, Option.map_eq_none_iff, List.find?_eq_none,
      decide_eq_true_eq, ne_eq]

/-! ## Two ticks with one key -/

def tickCodec (metadata : StoredMetadata) : SSTableCodec UInt8 where
  key :=
    { encode := fun key => StoredHeader.i64ToLeBytes key.timestamp ++ leBytes 8 key.sequence
      decode := fun bytes =>
        if bytes.length = 16 then
          .ok ⟨StoredHeader.i64FromLeBytes (bytes.take 8), ofLeBytes (bytes.drop 8)⟩
        else .error "out of bounds" }
  value :=
    { encode := fun record => [record]
      decode := fun bytes => bytes.head?.elim (.error "out of bounds") .ok }
  metadata :=
    { encode := fun _ => [0]
      decode := fun _ => .ok metadata }

def twoTicks : List (MemTableEntry UInt8) := [⟨⟨-5, 1⟩, 10⟩, ⟨⟨-5, 1⟩, 20⟩]

/-- The first byte of a key, as a hash. -/
def firstByte (keyBytes : List UInt8) : BitVec 64 := BitVec.ofNat 64 (keyBytes.headD 0).toNat

theorem tickCodec_readsBack (metadata : StoredMetadata) :
    (tickCodec metadata).ReadsBack twoTicks metadata where
  trips := by
    intro entry member
    have isSmall : (1 : ℕ) < 2 ^ 32 := by decide
    have keySmall : (16 : ℕ) < 2 ^ 32 := by decide
    simp only [twoTicks, List.mem_cons, List.not_mem_nil, or_false] at member
    cases member with
    | inl first =>
      subst first
      exact ⟨rfl, keySmall, rfl, isSmall⟩
    | inr second =>
      subst second
      exact ⟨rfl, keySmall, rfl, isSmall⟩
  restores := rfl
  someBytes := List.cons_ne_nil _ _

theorem twoTicks_timed : ∀ entry ∈ twoTicks, entry.key.Timed := by
  unfold MemTableKey.Timed
  decide

/-- A file of two records with the same key. -/
theorem twoTicks_readersAgree :
    ∃ metadata file,
      SSTableWriter.Finishes firstByte (tickCodec metadata) 10000 twoTicks metadata file ∧
        ReadersAgree firstByte (tickCodec metadata) twoTicks file := by
  have roomy : (new 10000 0.01).Roomy :=
    roomy_new (by decide) (by norm_num) (by norm_num)
  obtain ⟨filled, isFilled, -⟩ :=
    insertAll_spec firstByte (twoTicks.map fun entry => entry.key.toBytes) roomy
  have small : 128 + ((tickCodec (.of 0 twoTicks filled)).entriesBytes twoTicks ++
      (tickCodec (.of 0 twoTicks filled)).metadata.encode (.of 0 twoTicks filled)).length <
        2 ^ 63 := by
    change 128 + 51 < 2 ^ 63
    decide
  have finishes := SSTableWriter.Finishes.of_filled 0 isFilled small
  exact ⟨_, _, finishes, readersAgree_of_finishes firstByte _ 10000 (by decide) twoTicks
    twoTicks_timed _ _ finishes (tickCodec_readsBack _)⟩

def StoredSound (hash : List UInt8 → BitVec 64) (expectedEntries : ℕ) : Prop :=
  ∀ (Record : Type) (codec : SSTableCodec Record) (entries : List (MemTableEntry Record))
    (metadata : StoredMetadata) (file : List UInt8), (∀ entry ∈ entries, entry.key.Timed) →
    SSTableWriter.Finishes hash codec expectedEntries entries metadata file →
    codec.ReadsBack entries metadata → ∀ reader, FileReader.openFile codec file = .ok reader ∨
      openFile codec file = .ok reader →
    ∀ entry ∈ entries, reader.metadata.mightContain hash entry.key.toBytes = some true

theorem storedSound (hash : List UInt8 → BitVec 64) (expects : expectedEntries ≠ 0) :
    StoredSound hash expectedEntries := by
  intro Record codec entries metadata file timed finishes reads reader opened entry member
  have isReader : reader = codec.readerOf entries metadata file := by
    cases opened with
    | inl scanned =>
      rw [FileReader.openFile_eq finishes timed reads.restores] at scanned
      exact (Except.ok.inj scanned).symm
    | inr mapped =>
      rw [openFile_eq finishes timed reads.restores reads.someBytes] at mapped
      exact (Except.ok.inj mapped).symm
  obtain ⟨might, isMight, contains⟩ := mightContain_spec finishes expects entry.key.toBytes
  rw [isReader]
  exact isMight.trans (congrArg some (contains ⟨entry, member, rfl⟩))

/-- A filter works, in memory and in a file, exactly if it expects any items. -/
theorem BloomFilter.sound_iff_expects {Item : Type} [Inhabited Item] (hash : Item → BitVec 64)
    (keyHash : List UInt8 → BitVec 64) (expectedItems : ℕ) (falsePositiveRate : ℝ)
    (positive : 0 < falsePositiveRate) (belowOne : falsePositiveRate < 1) :
    (new expectedItems falsePositiveRate).SoundFor hash ∧ StoredSound keyHash expectedItems ↔
      expectedItems ≠ 0 := by
  constructor
  · intro sound isZero
    subst isZero
    exact not_soundFor_of_empty hash default (new_zero_m _) (new_k_pos 0 _) sound.1
  · intro expects
    exact ⟨(roomy_new expects positive belowOne).soundFor hash, storedSound keyHash expects⟩

/-- One percent of ten thousand items, as the writer has it. -/
theorem BloomFilter.tenThousand_sound :
    (new 10000 0.01).SoundFor firstByte ∧ StoredSound firstByte 10000 :=
  (sound_iff_expects firstByte firstByte 10000 0.01 (by norm_num) (by norm_num)).mpr (by decide)

/-- A filter that expects nothing panics with its first item. -/
theorem BloomFilter.nothingExpected_not_sound :
    ¬((new 0 0.01).SoundFor firstByte ∧ StoredSound firstByte 0) := by
  intro sound
  exact not_soundFor_of_empty firstByte [7] (new_zero_m _) (new_k_pos 0 _) sound.1

end QAExchange
