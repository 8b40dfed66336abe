import QAExchange.Protocol.IpcMessages
import QAExchange.Storage.WalRecord

/-! # Texts in fixed arrays

A record keeps its texts in arrays of fixed length that are filled up with zeros.
-/

namespace QAExchange

/-- The ranges of the bytes that may follow the first byte of a character. -/
def utf8Tail (first : UInt8) : List (UInt8 × UInt8) :=
  if 0xC2 ≤ first ∧ first ≤ 0xDF then [(0x80, 0xBF)]
  else if first = 0xE0 then [(0xA0, 0xBF), (0x80, 0xBF)]
  else if first = 0xED then [(0x80, 0x9F), (0x80, 0xBF)]
  else if 0xE1 ≤ first ∧ first ≤ 0xEF then [(0x80, 0xBF), (0x80, 0xBF)]
  else if first = 0xF0 then [(0x90, 0xBF), (0x80, 0xBF), (0x80, 0xBF)]
  else if 0xF1 ≤ first ∧ first ≤ 0xF3 then [(0x80, 0xBF), (0x80, 0xBF), (0x80, 0xBF)]
  else if first = 0xF4 then [(0x80, 0x8F), (0x80, 0xBF), (0x80, 0xBF)]
  else []

def withinRanges : List (UInt8 × UInt8) → List UInt8 → ℕ
  | (low, high) :: ranges, byte :: bytes =>
    if low ≤ byte ∧ byte ≤ high then withinRanges ranges bytes + 1 else 0
  | _, _ => 0

/-- The number of bytes that one replacement character stands for, where no character
begins. -/
def brokenLength : List UInt8 → ℕ
  | [] => 0
  | first :: bytes => withinRanges (utf8Tail first) bytes + 1

/-- `fuel` is at least the number of bytes. -/
def lossyChars : ℕ → List UInt8 → List Char
  | fuel + 1, byte :: bytes =>
    match ByteArray.utf8DecodeChar? ⟨(byte :: bytes).toArray⟩ 0 with
    | some char => char :: lossyChars fuel ((byte :: bytes).drop char.utf8Size)
    | none =>
      Char.ofNat 0xFFFD :: lossyChars fuel ((byte :: bytes).drop (brokenLength (byte :: bytes)))
  | _, _ => []

/-- `String::from_utf8_lossy` -/
def fromUtf8Lossy (bytes : List UInt8) : String :=
  match String.fromUTF8? ⟨bytes.toArray⟩ with
  | some text => text
  | none => String.ofList (lossyChars bytes.length bytes)

example : fromUtf8Lossy [0x61, 0xE4, 0xBD, 0x00, 0x62] =
    String.ofList ['a', Char.ofNat 0xFFFD, Char.ofNat 0, 'b'] := by
  decide +kernel

namespace WalRecord

def fromFixedArray {length : ℕ} (array : FixedArray length) : String :=
  Ipc.trimEndZeros (fromUtf8Lossy array.bytes)

/-- The bytes of the text have room, and it does not end like the filling. -/
def Fits (length : ℕ) (text : String) : Prop :=
  text.utf8ByteSize ≤ length ∧ text.toList.getLast? ≠ some (Char.ofNat 0)

instance (length : ℕ) (text : String) : Decidable (Fits length text) :=
  inferInstanceAs (Decidable (_ ∧ _))

/-- `count` zeros as a text. -/
def filling (count : ℕ) : String := String.ofList (List.replicate count (Char.ofNat 0))

theorem filling_bytes (count : ℕ) :
    (filling count).toUTF8.data.toList = List.replicate count 0 := by
  induction count with
  | zero => rfl
  | succ count induction =>
    have first : filling (count + 1) = String.singleton (Char.ofNat 0) ++ filling count := by
      apply String.toList_injective
      simp [filling, List.replicate_succ]
    rw [first, String.toUTF8_eq_toByteArray, String.toByteArray_append]
    rw [String.toUTF8_eq_toByteArray] at induction
    simp only [ByteArray.data_append, Array.toList_append, induction, List.replicate_succ]
    rfl

theorem trimEndZeros_filled {text : String} (count : ℕ)
    (marked : text.toList.getLast? ≠ some (Char.ofNat 0)) :
    Ipc.trimEndZeros (text ++ filling count) = text := by
  have dropped : (List.replicate count (Char.ofNat 0) ++ text.toList.reverse).dropWhile
      (fun char => char = Char.ofNat 0) = text.toList.reverse := by
    induction count with
    | zero =>
      cases reversed : text.toList.reverse with
      | nil => rfl
      | cons last front =>
        have isLast : text.toList.getLast? = some last := by
          rw [← List.head?_reverse, reversed, List.head?_cons]
        have different : last ≠ Char.ofNat 0 := fun same => marked (same ▸ isLast)
        simp [different]
    | succ count induction => simpa [List.replicate_succ] using induction
  rw [Ipc.trimEndZeros, String.toList_append, List.reverse_append, filling, String.toList_ofList,
    List.reverse_replicate, dropped, List.reverse_reverse, String.ofList_toList]

theorem fromFixedArray_toFixedArray {length : ℕ} {text : String} (fits : Fits length text) :
    fromFixedArray (toFixedArray length text) = text := by
  have size : text.toUTF8.data.toList.length = text.utf8ByteSize := rfl
  have bytes : (toFixedArray length text).bytes =
      (text ++ filling (length - text.utf8ByteSize)).toUTF8.data.toList := by
    have room := fits.1
    rw [String.toUTF8_eq_toByteArray, String.toByteArray_append, ByteArray.data_append,
      Array.toList_append, ← String.toUTF8_eq_toByteArray, ← String.toUTF8_eq_toByteArray,
      filling_bytes]
    change (text.toUTF8.data.toList ++ List.replicate length 0).take length = _
    rw [List.take_append, List.take_of_length_le (size ▸ room), List.take_replicate, size,
      Nat.min_eq_left (Nat.sub_le _ _)]
  have read : ∀ content : String, fromUtf8Lossy content.toUTF8.data.toList = content := by
    intro content
    have same : String.fromUTF8? ⟨content.toUTF8.data.toList.toArray⟩ = some content := by
      rw [String.fromUTF8?]
      exact dif_pos content.isValidUTF8
    rw [fromUtf8Lossy, same]
  rw [fromFixedArray, bytes, read, trimEndZeros_filled _ fits.2]

end WalRecord

end QAExchange
