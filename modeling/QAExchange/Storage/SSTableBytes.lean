import QAExchange.Storage.BloomFilter
import QAExchange.Storage.RkyvSSTable

/-! # The bytes of an SSTable

A header of 128 bytes, which is written last, the entries with the lengths of their keys and
values before them, and the metadata with the Bloom filter. One reader reads the file, the
other one a mapping of it.
-/

namespace QAExchange

open Foundation Framing

variable {Record : Type}

structure RkyvCodec (Value : Type) where
  encode : Value → List UInt8
  decode : List UInt8 → Except String Value

/-- All fields of `SSTableMetadata`. -/
structure StoredMetadata extends SSTableMetadata where
  version : ℕ
  fileSize : ℕ
  blockOffsets : List ℕ
  bloomFilter : Option BloomFilter
  createdAt : ℤ

structure SSTableCodec (Record : Type) where
  key : RkyvCodec MemTableKey
  value : RkyvCodec Record
  metadata : RkyvCodec StoredMetadata

/-! ## The header -/

structure StoredHeader extends SSTableHeader where
  version : ℕ
  metadataOffset : ℕ

namespace StoredHeader

/-- `QAXSS01` and a zero. -/
def magic : List UInt8 := [81, 65, 88, 83, 83, 48, 49, 0]

def i64ToLeBytes (number : ℤ) : List UInt8 := leBytes 8 (number % 2 ^ 64).toNat

def i64FromLeBytes (bytes : List UInt8) : ℤ :=
  let number := ofLeBytes bytes
  if number < 2 ^ 63 then number else number - 2 ^ 64

def toBytes (header : StoredHeader) : List UInt8 :=
  magic ++ leBytes 4 header.version ++ leBytes 8 header.entryCount ++
    i64ToLeBytes header.minTimestamp ++ i64ToLeBytes header.maxTimestamp ++
      leBytes 8 header.metadataOffset ++ List.replicate 84 0

/-- `bytes[start..stop]` -/
def slice (start stop : ℕ) (bytes : List UInt8) : List UInt8 :=
  (bytes.drop start).take (stop - start)

def fromBytes (bytes : List UInt8) : Except String StoredHeader :=
  if bytes.length < 128 then .error "Invalid header size"
  else if slice 0 8 bytes ≠ magic then .error "Invalid magic"
  else .ok
    { version := ofLeBytes (slice 8 12 bytes)
      entryCount := ofLeBytes (slice 12 20 bytes)
      minTimestamp := i64FromLeBytes (slice 20 28 bytes)
      maxTimestamp := i64FromLeBytes (slice 28 36 bytes)
      metadataOffset := ofLeBytes (slice 36 44 bytes) }

theorem i64FromLeBytes_i64ToLeBytes (low : -2 ^ 63 ≤ number) (high : number < 2 ^ 63) :
    i64FromLeBytes (i64ToLeBytes number) = number := by
  rw [i64FromLeBytes, i64ToLeBytes, ofLeBytes_leBytes]
  split_ifs <;> omega

theorem length_magic : magic.length = 8 := rfl

@[simp] theorem length_i64ToLeBytes (number : ℤ) : (i64ToLeBytes number).length = 8 :=
  length_leBytes ..

@[simp] theorem length_toBytes (header : StoredHeader) : header.toBytes.length = 128 := by
  simp [toBytes, magic]

structure Fits (header : StoredHeader) : Prop where
  version : header.version < 2 ^ 32
  entryCount : header.entryCount < 2 ^ 64
  minTimestamp : -2 ^ 63 ≤ header.minTimestamp ∧ header.minTimestamp < 2 ^ 63
  maxTimestamp : -2 ^ 63 ≤ header.maxTimestamp ∧ header.maxTimestamp < 2 ^ 63
  metadataOffset : header.metadataOffset < 2 ^ 64

theorem slice_of_head {part : List UInt8} (ends : part.length = stop) :
    slice 0 stop (part ++ after) = part :=
  List.take_left' ends

theorem slice_behind {before : List UInt8} (isWidth : before.length = width) (start stop : ℕ)
    (after : List UInt8) :
    slice (start + width) (stop + width) (before ++ after) = slice start stop after := by
  rw [slice, slice, List.drop_append, List.drop_eq_nil_of_le (by omega), List.nil_append,
    isWidth, Nat.add_sub_cancel, Nat.add_sub_add_right]

theorem fromBytes_toBytes {header : StoredHeader} (fits : header.Fits) :
    fromBytes header.toBytes = .ok header := by
  have isMagic : slice 0 8 header.toBytes = magic := by
    simp only [toBytes, List.append_assoc]
    exact slice_of_head rfl
  have version : slice 8 12 header.toBytes = leBytes 4 header.version := by
    simp only [toBytes, List.append_assoc]
    rw [slice_behind length_magic 0 4]
    exact slice_of_head (length_leBytes ..)
  have entryCount : slice 12 20 header.toBytes = leBytes 8 header.entryCount := by
    simp only [toBytes, List.append_assoc]
    rw [slice_behind length_magic 4 12, slice_behind (length_leBytes 4 _) 0 8]
    exact slice_of_head (length_leBytes ..)
  have minTimestamp : slice 20 28 header.toBytes = i64ToLeBytes header.minTimestamp := by
    simp only [toBytes, List.append_assoc]
    rw [slice_behind length_magic 12 20, slice_behind (length_leBytes 4 _) 8 16,
      slice_behind (length_leBytes 8 _) 0 8]
    exact slice_of_head (length_i64ToLeBytes _)
  have maxTimestamp : slice 28 36 header.toBytes = i64ToLeBytes header.maxTimestamp := by
    simp only [toBytes, List.append_assoc]
    rw [slice_behind length_magic 20 28, slice_behind (length_leBytes 4 _) 16 24,
      slice_behind (length_leBytes 8 _) 8 16, slice_behind (length_i64ToLeBytes _) 0 8]
    exact slice_of_head (length_i64ToLeBytes _)
  have metadataOffset : slice 36 44 header.toBytes = leBytes 8 header.metadataOffset := by
    simp only [toBytes, List.append_assoc]
    rw [slice_behind length_magic 28 36, slice_behind (length_leBytes 4 _) 24 32,
      slice_behind (length_leBytes 8 _) 16 24, slice_behind (length_i64ToLeBytes _) 8 16,
      slice_behind (length_i64ToLeBytes _) 0 8]
    exact slice_of_head (length_leBytes ..)
  rw [fromBytes, if_neg (by simp), if_neg fun other => other isMagic, version, entryCount,
    minTimestamp, maxTimestamp, metadataOffset, ofLeBytes_length fits.version, ofLeBytes_leBytes,
    ofLeBytes_leBytes, i64FromLeBytes_i64ToLeBytes fits.minTimestamp.1 fits.minTimestamp.2,
    i64FromLeBytes_i64ToLeBytes fits.maxTimestamp.1 fits.maxTimestamp.2,
    Nat.mod_eq_of_lt (by simpa using fits.entryCount),
    Nat.mod_eq_of_lt (by simpa using fits.metadataOffset)]

end StoredHeader

/-! ## The writer -/

structure SSTableWriter (Record : Type) extends RkyvSSTableWriter Record where
  data : List UInt8
  currentOffset : ℕ
  bloomFilter : BloomFilter

def SSTableCodec.entryBytes (codec : SSTableCodec Record) (entry : MemTableEntry Record) :
    List UInt8 :=
  frame (codec.key.encode entry.key) ++ frame (codec.value.encode entry.record)

namespace SSTableWriter

def ofFilter (bloomFilter : BloomFilter) : SSTableWriter Record where
  toRkyvSSTableWriter := .create
  data := []
  currentOffset := 128
  bloomFilter := bloomFilter

noncomputable def createWithCapacity (expectedEntries : ℕ) : SSTableWriter Record :=
  ofFilter (BloomFilter.new expectedEntries 0.01)

noncomputable def create : SSTableWriter Record := createWithCapacity 10000

variable (hash : List UInt8 → BitVec 64) (codec : SSTableCodec Record)

def append (entry : MemTableEntry Record) (writer : SSTableWriter Record) :
    Option (SSTableWriter Record) :=
  (writer.bloomFilter.insert hash entry.key.toBytes).map fun filled =>
    { toRkyvSSTableWriter := writer.toRkyvSSTableWriter.append entry
      data := writer.data ++ codec.entryBytes entry
      currentOffset := writer.currentOffset + 8 + (codec.key.encode entry.key).length +
        (codec.value.encode entry.record).length
      bloomFilter := filled }

def writeFromMemtable : List (MemTableEntry Record) → SSTableWriter Record →
    Option (SSTableWriter Record)
  | [], writer => some writer
  | entry :: entries, writer =>
    (writer.append hash codec entry).bind (writeFromMemtable entries)

def metadata (createdAt : ℤ) (writer : SSTableWriter Record) : StoredMetadata where
  version := 1
  entryCount := writer.entryCount
  minTimestamp := writer.minTimestamp.getD 0
  maxTimestamp := writer.maxTimestamp.getD 0
  minKey := writer.minKey.getD []
  maxKey := writer.maxKey.getD []
  fileSize := 0
  blockOffsets := []
  bloomFilter := some writer.bloomFilter
  createdAt := createdAt

def header (writer : SSTableWriter Record) : StoredHeader where
  version := 1
  entryCount := writer.entryCount
  minTimestamp := writer.minTimestamp.getD 0
  maxTimestamp := writer.maxTimestamp.getD 0
  metadataOffset := writer.currentOffset

/-- The file with its header filled in. Offsets in a file are below `i64::MAX`. -/
def finish (createdAt : ℤ) (writer : SSTableWriter Record) :
    Except String (StoredMetadata × List UInt8) :=
  let metadata := writer.metadata createdAt
  let behind := writer.data ++ codec.metadata.encode metadata
  if 2 ^ 63 ≤ 128 + behind.length then
    .error "Write metadata failed: File too large (os error 27)"
  else .ok (metadata, writer.header.toBytes ++ behind)

end SSTableWriter

/-! ## The reader of a file -/

structure FileReader where
  bytes : List UInt8
  header : StoredHeader
  metadata : StoredMetadata

/-- `if let Some(ref bloom) = self.metadata.bloom_filter` -/
def StoredMetadata.mightContain (hash : List UInt8 → BitVec 64) (keyBytes : List UInt8)
    (metadata : StoredMetadata) : Option Bool :=
  match metadata.bloomFilter with
  | some bloom => bloom.contains hash keyBytes
  | none => some true

def lengthAt (bytes : List UInt8) : ℕ := ofLeBytes (bytes.take 4)

namespace FileReader

variable (codec : SSTableCodec Record)

def openFile (bytes : List UInt8) : Except String FileReader :=
  if bytes.length < 128 then .error "Read header failed: failed to fill whole buffer"
  else do
    let header ← StoredHeader.fromBytes (bytes.take 128)
    match codec.metadata.decode (bytes.drop header.metadataOffset) with
    | .ok metadata => pure ⟨bytes, header, metadata⟩
    | .error message => throw ("Deserialize metadata failed: " ++ message)

def decodeKey (bytes : List UInt8) : Except String MemTableKey :=
  match codec.key.decode bytes with
  | .ok key => .ok key
  | .error message => .error ("Deserialize key failed: " ++ message)

def decodeValue (bytes : List UInt8) : Except String Record :=
  match codec.value.decode bytes with
  | .ok record => .ok record
  | .error message => .error ("Deserialize value failed: " ++ message)

/-- The next entries of a file, of which those with a timestamp of the range are decoded. -/
def readEntries (keeps : MemTableKey → Bool) :
    ℕ → List UInt8 → Except String (List (MemTableEntry Record))
  | 0, _ => .ok []
  | count + 1, bytes =>
    if bytes.length < 4 then .ok []
    else if (bytes.drop 4).length < lengthAt bytes then
      .error "Read key failed: failed to fill whole buffer"
    else do
      let key ← decodeKey codec ((bytes.drop 4).take (lengthAt bytes))
      let rest := (bytes.drop 4).drop (lengthAt bytes)
      if rest.length < 4 then
        .error "Read value length failed: failed to fill whole buffer"
      else if (rest.drop 4).length < lengthAt rest then
        .error "Read value failed: failed to fill whole buffer"
      else if keeps key then do
        let record ← decodeValue codec ((rest.drop 4).take (lengthAt rest))
        let others ← readEntries keeps count ((rest.drop 4).drop (lengthAt rest))
        pure (⟨key, record⟩ :: others)
      else readEntries keeps count ((rest.drop 4).drop (lengthAt rest))

def inRange (startTs endTs : ℤ) (key : MemTableKey) : Bool :=
  startTs ≤ key.timestamp ∧ key.timestamp ≤ endTs

def rangeQuery (startTs endTs : ℤ) (reader : FileReader) :
    Except String (List (MemTableEntry Record)) :=
  if endTs < reader.header.minTimestamp ∨ reader.header.maxTimestamp < startTs then .ok []
  else readEntries codec (inRange startTs endTs) reader.header.entryCount (reader.bytes.drop 128)

end FileReader

namespace MmapSSTableReader

variable (codec : SSTableCodec Record)

def openFile (bytes : List UInt8) : Except String FileReader :=
  if bytes.length < 128 then .error "File too small"
  else do
    let header ← StoredHeader.fromBytes (bytes.take 128)
    if bytes.length ≤ header.metadataOffset then throw "Invalid metadata offset"
    else
      match codec.metadata.decode (bytes.drop header.metadataOffset) with
      | .ok metadata => pure ⟨bytes, header, metadata⟩
      | .error message => throw ("Deserialize metadata failed: " ++ message)

/-- `&self.mmap[128..data_end]` -/
def data (reader : FileReader) : List UInt8 :=
  (reader.bytes.take reader.header.metadataOffset).drop 128

/-- What is not whole ends the entries without an error. -/
def readEntries (keeps : MemTableKey → Bool) :
    ℕ → List UInt8 → Except String (List (MemTableEntry Record))
  | 0, _ => .ok []
  | count + 1, bytes =>
    if bytes.length < 4 then .ok []
    else if (bytes.drop 4).length < lengthAt bytes then .ok []
    else do
      let key ← FileReader.decodeKey codec ((bytes.drop 4).take (lengthAt bytes))
      let rest := (bytes.drop 4).drop (lengthAt bytes)
      if rest.length < 4 then .ok []
      else if (rest.drop 4).length < lengthAt rest then .ok []
      else if keeps key then do
        let record ← FileReader.decodeValue codec ((rest.drop 4).take (lengthAt rest))
        let others ← readEntries keeps count ((rest.drop 4).drop (lengthAt rest))
        pure (⟨key, record⟩ :: others)
      else readEntries keeps count ((rest.drop 4).drop (lengthAt rest))

def rangeQuery (startTs endTs : ℤ) (reader : FileReader) :
    Except String (List (MemTableEntry Record)) :=
  if endTs < reader.header.minTimestamp ∨ reader.header.maxTimestamp < startTs then .ok []
  else readEntries codec (FileReader.inRange startTs endTs) reader.header.entryCount (data reader)

def findEntry (target : MemTableKey) : ℕ → List UInt8 → Except String (Option Record)
  | 0, _ => .ok none
  | count + 1, bytes =>
    if bytes.length < 4 then .ok none
    else if (bytes.drop 4).length < lengthAt bytes then .ok none
    else do
      let key ← FileReader.decodeKey codec ((bytes.drop 4).take (lengthAt bytes))
      let rest := (bytes.drop 4).drop (lengthAt bytes)
      if rest.length < 4 then .ok none
      else if (rest.drop 4).length < lengthAt rest then .ok none
      else if key.timestamp = target.timestamp ∧ key.sequence = target.sequence then do
        let record ← FileReader.decodeValue codec ((rest.drop 4).take (lengthAt rest))
        pure (some record)
      else findEntry target count ((rest.drop 4).drop (lengthAt rest))

/-- The filter, the range of the timestamps and then the entries. A filter without bits
panics. -/
def get (hash : List UInt8 → BitVec 64) (target : MemTableKey) (reader : FileReader) :
    Option (Except String (Option Record)) :=
  (reader.metadata.mightContain hash target.toBytes).map fun might =>
    if might = false then .ok none
    else if target.timestamp < reader.header.minTimestamp ∨
        reader.header.maxTimestamp < target.timestamp then .ok none
    else findEntry codec target reader.header.entryCount (data reader)

end MmapSSTableReader

end QAExchange
