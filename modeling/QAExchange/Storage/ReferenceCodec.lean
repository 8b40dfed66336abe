import QAExchange.Storage.WalSegments

/-! # Small codecs

They stand in for rkyv and crc32fast where a log is to be computed. One has entries of four
bytes, of which the last marks a whole entry; the other knows the entries of a table.
-/

namespace QAExchange

def referenceCodec : EntryCodec UInt8 where
  serialize entry :=
    if entry.sequence < 128 ∧ entry.crc32 < 128 ∧ entry.timestamp = 0 ∧ entry.record < 128 then
      .ok [UInt8.ofNat entry.sequence, UInt8.ofNat entry.crc32, entry.record, 255]
    else .error "out of range"
  checkArchivedRoot bytes :=
    match bytes with
    | [sequence, crc32, record, mark] =>
      if mark = 255 then .ok ⟨sequence.toNat, crc32.toNat, 0, record⟩ else .error "no mark"
    | _ => .error "no entry"
  serializeRecord record := .ok [record]
  hash bytes := (bytes.foldl (fun sum byte => 3 * sum + byte.toNat + 1) 0) % 128

namespace ReferenceCodec

theorem serialize_eq_ok (serialized : referenceCodec.serialize entry = .ok bytes) :
    entry.sequence < 128 ∧ entry.crc32 < 128 ∧ entry.timestamp = 0 ∧
      bytes = [UInt8.ofNat entry.sequence, UInt8.ofNat entry.crc32, entry.record, 255] := by
  simp only [referenceCodec] at serialized
  split_ifs at serialized with inRange
  cases serialized
  exact ⟨inRange.1, inRange.2.1, inRange.2.2.1, rfl⟩

theorem roundTrip : referenceCodec.RoundTrip where
  read_back entry bytes serialized := by
    rcases serialize_eq_ok serialized with ⟨sequence, crc32, timestamp, rfl⟩
    rcases entry with ⟨_, _, _, _⟩
    simp only at sequence crc32 timestamp
    subst timestamp
    simp [referenceCodec]
    omega
  small entry bytes serialized := by
    rcases serialize_eq_ok serialized with ⟨_, _, _, rfl⟩
    simp

end ReferenceCodec

def tableCodec {Record : Type} [DecidableEq Record] (table : List (WalEntry Record)) :
    EntryCodec Record where
  serialize entry :=
    match (table.take 256).idxOf? entry with
    | some index => .ok [UInt8.ofNat index]
    | none => .error "not in the table"
  checkArchivedRoot bytes :=
    match bytes with
    | [index] =>
      match table[index.toNat]? with
      | some entry => .ok entry
      | none => .error "not in the table"
    | _ => .error "no entry"
  serializeRecord _ := .ok []
  hash _ := 0

theorem tableCodec_roundTrip {Record : Type} [DecidableEq Record]
    (table : List (WalEntry Record)) : (tableCodec table).RoundTrip where
  read_back entry bytes serialized := by
    simp only [tableCodec] at serialized ⊢
    cases found : (table.take 256).idxOf? entry with
    | none =>
      rw [found] at serialized
      cases serialized
    | some index =>
      rw [found] at serialized
      cases serialized
      rcases List.idxOf?_eq_some_iff.mp found with ⟨bound, isEntry, _⟩
      rw [List.length_take] at bound
      rw [List.getElem_take] at isEntry
      have byte : (UInt8.ofNat index).toNat = index := by
        rw [UInt8.toNat_ofNat']
        omega
      have inTable : table[index]? = some entry := by
        rw [List.getElem?_eq_getElem (by omega), isEntry]
      simp only [byte, inTable]
  small entry bytes serialized := by
    simp only [tableCodec] at serialized
    cases found : (table.take 256).idxOf? entry with
    | none =>
      rw [found] at serialized
      cases serialized
    | some index =>
      rw [found] at serialized
      cases serialized
      simp

end QAExchange
