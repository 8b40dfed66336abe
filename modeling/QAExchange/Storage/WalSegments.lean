import QAExchange.Storage.WalManager

/-! # The log as segments

Above the bytes a log is a list of segments, each with the number it was begun
with and its entries. Replay delivers the entries of the segments one after the
other, and the manager's writes add entries to the last segment or begin another.
-/

namespace QAExchange

open Foundation Action Framing WalFileHeader

variable {Record : Type}

/-- What rkyv does for the log: an entry is read back from its bytes, and they
fit into a frame. -/
structure EntryCodec.RoundTrip (codec : EntryCodec Record) : Prop where
  read_back : ∀ entry bytes, codec.serialize entry = .ok bytes →
    codec.checkArchivedRoot bytes = .ok entry
  small : ∀ entry bytes, codec.serialize entry = .ok bytes → bytes.length + 4 < 2 ^ 32

namespace WalEntry

structure Stored (codec : EntryCodec Record) (entry : WalEntry Record) : Prop where
  serialized : ∃ bytes, codec.serialize entry = .ok bytes
  verified : entry.verifyCrc32 codec = true

def data (codec : EntryCodec Record) (entry : WalEntry Record) : List UInt8 :=
  match codec.serialize entry with
  | .ok bytes => bytes
  | .error _ => []

variable {codec : EntryCodec Record} {entry : WalEntry Record}

theorem Stored.serialize_eq (stored : entry.Stored codec) :
    codec.serialize entry = .ok (entry.data codec) := by
  rcases stored.serialized with ⟨bytes, same⟩
  rw [same, data, same]

theorem toBytes_eq_ok {bytes : List UInt8} (made : entry.toBytes codec = .ok bytes) :
    codec.serialize entry = .ok bytes ∧ entry.data codec = bytes := by
  unfold toBytes at made
  unfold data
  cases outcome : codec.serialize entry with
  | error text => rw [outcome] at made; cases made
  | ok found => rw [outcome] at made; cases made; exact ⟨rfl, rfl⟩

theorem Stored.fromBytes (roundTrip : codec.RoundTrip) (stored : entry.Stored codec) :
    WalEntry.fromBytes codec (entry.data codec) = .ok entry := by
  rw [WalEntry.fromBytes, roundTrip.read_back _ _ stored.serialize_eq]

theorem Stored.small (roundTrip : codec.RoundTrip) (stored : entry.Stored codec) :
    (entry.data codec).length + 4 < 2 ^ 32 :=
  roundTrip.small _ _ stored.serialize_eq

end WalEntry

/-- A file of the log: the number it was begun with and its entries. -/
structure Segment (Record : Type) where
  start : ℕ
  seconds : ℤ
  entries : List (WalEntry Record)

namespace Segment

def header (segment : Segment Record) : List UInt8 :=
  (new segment.start segment.seconds).toBytes

def body (codec : EntryCodec Record) (entries : List (WalEntry Record)) : List UInt8 :=
  entries.flatMap fun entry => frame (entry.data codec)

def toFile (codec : EntryCodec Record) (segment : Segment Record) : WalFile where
  number := segment.start
  bytes := segment.header ++ body codec segment.entries

@[simp] theorem length_header (segment : Segment Record) : segment.header.length = 128 := by
  simp [header]

@[simp] theorem body_append (codec : EntryCodec Record) (first rest : List (WalEntry Record)) :
    body codec (first ++ rest) = body codec first ++ body codec rest := List.flatMap_append

theorem fromBytes_header (segment : Segment Record) :
    ∃ header, fromBytes segment.header = .ok header ∧
      header.startSequence = segment.start % 2 ^ 64 := by
  have long : ¬ segment.header.length < 128 := by simp
  have magic : segment.header.take 8 = magicBytes := by
    simp [header, new, toBytes, magicBytes]
  have start : (segment.header.drop 12).take 8 = leBytes 8 segment.start := by
    simp [header, new, toBytes, magicBytes, leBytes]
  simp only [fromBytes, if_neg long, if_neg (not_not.mpr magic), start,
    ofLeBytes_leBytes]
  exact ⟨_, rfl, by norm_num⟩

end Segment

open Segment

section Reading

variable {codec : EntryCodec Record} (roundTrip : codec.RoundTrip)
include roundTrip

theorem frames_toFile {entries : List (WalEntry Record)}
    (stored : ∀ entry ∈ entries, entry.Stored codec) (rest : List UInt8) :
    frames (body codec entries ++ rest) =
      (entries.map (WalEntry.data codec) ++ (frames rest).1, (frames rest).2) := by
  have asDatas : body codec entries = (entries.map (WalEntry.data codec)).flatMap frame := by
    rw [body, List.flatMap_map]
  rw [asDatas]
  apply frames_flatMap_append
  intro data member
  rcases List.mem_map.mp member with ⟨entry, isEntry, rfl⟩
  have small := (stored entry isEntry).small roundTrip
  omega

variable {State : Type} (callback : WalEntry Record → Action String State Unit)

theorem forM_replayEntry {entries : List (WalEntry Record)}
    (stored : ∀ entry ∈ entries, entry.Stored codec) :
    forM (entries.map (WalEntry.data codec)) (WalManager.replayEntry codec callback) =
      forM entries callback := by
  induction entries with
  | nil => rfl
  | cons entry entries induction =>
    have isStored := stored entry (by simp)
    have read : WalManager.replayEntry codec callback (entry.data codec) = callback entry := by
      funext state
      change exec (WalManager.replayEntry codec callback (entry.data codec)) state = _
      rw [WalManager.replayEntry, isStored.fromBytes roundTrip, exec_bind, exec_result]
      change exec (runIf (entry.verifyCrc32 codec) (callback entry)) state = _
      rw [isStored.verified]
      rfl
    simp only [List.map_cons, List.forM_cons, read,
      induction fun other member => stored other (List.mem_cons_of_mem _ member)]

/-- Replay of a file that begins like a segment: its entries are delivered, and
reading goes on behind them. -/
theorem replayFile_segment {segment : Segment Record}
    (stored : ∀ entry ∈ segment.entries, entry.Stored codec) (rest : List UInt8) :
    WalManager.replayFile codec callback
        ⟨segment.start, segment.header ++ (body codec segment.entries ++ rest)⟩ = (do
      forM segment.entries callback
      forM (frames rest).1 (WalManager.replayEntry codec callback)
      match (frames rest).2 with
      | .eof => pure ()
      | .cut => fail "Read entry data failed: failed to fill whole buffer") := by
  rcases segment.fromBytes_header with ⟨header, readable, _⟩
  have long : ¬ (segment.header ++ (body codec segment.entries ++ rest)).length < 128 := by
    simp
  have first : (segment.header ++ (body codec segment.entries ++ rest)).take 128 =
      segment.header := List.take_left' segment.length_header
  have behind : (segment.header ++ (body codec segment.entries ++ rest)).drop 128 =
      body codec segment.entries ++ rest := List.drop_left' segment.length_header
  funext state
  simp only [WalManager.replayFile, if_neg long, first, behind, readable,
    frames_toFile roundTrip stored, List.forM_append, forM_replayEntry roundTrip callback stored,
    bind_assoc]
  rfl

theorem replayFile_toFile {segment : Segment Record}
    (stored : ∀ entry ∈ segment.entries, entry.Stored codec) :
    WalManager.replayFile codec callback (segment.toFile codec) =
      forM segment.entries callback := by
  have whole := replayFile_segment roundTrip callback stored []
  rw [List.append_nil] at whole
  have none : frames [] = ([], .eof) := frames_of_short (by decide)
  rw [toFile, whole, none]
  simp

theorem replay_segments {segments : List (Segment Record)}
    (stored : ∀ segment ∈ segments, ∀ entry ∈ segment.entries, entry.Stored codec) :
    WalManager.replay codec callback (segments.map (toFile codec)) =
      forM (segments.flatMap Segment.entries) callback := by
  induction segments with
  | nil => rfl
  | cons segment segments induction =>
    have tail := induction fun other member => stored other (List.mem_cons_of_mem _ member)
    rw [WalManager.replay] at tail ⊢
    rw [List.map_cons, List.forM_cons, tail, List.flatMap_cons, List.forM_append,
      replayFile_toFile roundTrip callback (stored segment (by simp))]

end Reading

end QAExchange
