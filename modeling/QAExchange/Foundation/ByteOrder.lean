import Mathlib.Data.List.Lex
import Mathlib.Data.UInt
import QAExchange.Foundation.Framing

/-! # Bits in words

A row of bits that is kept in words of 64 bits. A bit behind the last word is not set and
cannot be set.
-/

namespace QAExchange.Foundation.BitWords

def mask (index : ℕ) : BitVec 64 := 1#64 <<< (index % 64)

def getBit (index : ℕ) (words : List (BitVec 64)) : Bool :=
  match words[index / 64]? with
  | some word => word &&& mask index != 0#64
  | none => false

def setBit (index : ℕ) (words : List (BitVec 64)) : List (BitVec 64) :=
  words.modify (index / 64) fun word => word ||| mask index

@[simp] theorem length_setBit (index : ℕ) (words : List (BitVec 64)) :
    (setBit index words).length = words.length :=
  List.length_modify ..

theorem mask_ne_zero (index : ℕ) : mask index ≠ 0#64 := by
  intro isZero
  have bit := congrArg (fun word => word.getLsbD (index % 64)) isZero
  have inside : index % 64 < 64 := Nat.mod_lt index (by decide)
  simp [mask, inside] at bit

theorem and_mask_ne_zero (word : BitVec 64) (index : ℕ) :
    (word &&& mask index != 0#64) = word.getLsbD (index % 64) := by
  have isPower : mask index = BitVec.twoPow 64 (index % 64) := (BitVec.twoPow_eq ..).symm
  have nonzero := mask_ne_zero index
  rw [isPower] at nonzero ⊢
  rw [BitVec.and_twoPow]
  cases word.getLsbD (index % 64) with
  | false => simp
  | true => simpa using nonzero

theorem getBit_eq (index : ℕ) (words : List (BitVec 64)) :
    getBit index words = words[index / 64]?.any fun word => word.getLsbD (index % 64) := by
  rw [getBit]
  cases words[index / 64]? with
  | none => rfl
  | some word => exact and_mask_ne_zero word index

theorem getBit_setBit_of_getBit (isSet : getBit tested words = true) (index : ℕ) :
    getBit tested (setBit index words) = true := by
  rw [getBit_eq] at isSet ⊢
  rw [setBit, List.getElem?_modify]
  cases isWord : words[tested / 64]? with
  | none =>
    rw [isWord] at isSet
    cases isSet
  | some word =>
    rw [isWord, Option.any_some] at isSet
    dsimp only [Option.map_eq_map, Option.map_some]
    split_ifs
    · simp [isSet]
    · simpa using isSet

theorem getBit_setBit_self {words : List (BitVec 64)} (inside : index < 64 * words.length) :
    getBit index (setBit index words) = true := by
  have isWord : index / 64 < words.length := Nat.div_lt_of_lt_mul inside
  have offset : index % 64 < 64 := Nat.mod_lt index (by decide)
  rw [getBit_eq, setBit, List.getElem?_modify, List.getElem?_eq_getElem isWord]
  simp [mask, offset]

example : getBit 70 (setBit 70 [0, 0]) = true ∧ getBit 6 (setBit 70 [0, 0]) = false := by decide

end QAExchange.Foundation.BitWords

/-! ## Byte strings in their order

Byte strings are compared byte by byte, the first difference decides.
-/

namespace QAExchange.Foundation

instance byteOrder : LinearOrder UInt8 where
  le_refl := UInt8.le_refl
  le_trans := fun _ _ _ => UInt8.le_trans
  le_antisymm := fun _ _ => UInt8.le_antisymm
  le_total := UInt8.le_total
  lt_iff_le_not_ge := by
    intro left right
    rw [UInt8.not_le]
    exact ⟨fun less => ⟨UInt8.le_of_lt less, less⟩, And.right⟩
  toDecidableLE := inferInstance

/-- The lowest `width` bytes of a number, the highest byte first. -/
def beBytes (width number : ℕ) : List UInt8 := (leBytes width number).reverse

theorem length_beBytes (width number : ℕ) : (beBytes width number).length = width := by
  rw [beBytes, List.length_reverse, length_leBytes]

theorem beBytes_succ (width number : ℕ) :
    beBytes (width + 1) number = beBytes width (number / 256) ++ [UInt8.ofNat number] := by
  rw [beBytes, leBytes, List.reverse_cons]
  rfl

theorem append_lt_append_iff {left right : List UInt8} (same : left.length = right.length)
    (leftEnd rightEnd : List UInt8) :
    left ++ leftEnd < right ++ rightEnd ↔ left < right ∨ left = right ∧ leftEnd < rightEnd := by
  induction left generalizing right with
  | nil =>
    have isNil : right = [] := List.length_eq_zero_iff.mp same.symm
    subst isNil
    simp
  | cons byte left induction =>
    cases right with
    | nil => cases same
    | cons other right =>
      have shorter : left.length = right.length := Nat.succ.inj same
      rw [List.cons_append, List.cons_append, List.cons_lt_cons_iff, List.cons_lt_cons_iff,
        induction shorter, List.cons.injEq]
      tauto

theorem ofNat_lt_ofNat_iff (left right : ℕ) :
    UInt8.ofNat left < UInt8.ofNat right ↔ left % 256 < right % 256 := by
  rw [UInt8.lt_iff_toNat_lt, UInt8.toNat_ofNat', UInt8.toNat_ofNat']

theorem beBytes_lt_iff (leftFits : left < 256 ^ width) (rightFits : right < 256 ^ width) :
    beBytes width left < beBytes width right ↔ left < right := by
  induction width generalizing left right with
  | zero =>
    rw [pow_zero, Nat.lt_one_iff] at leftFits rightFits
    rw [leftFits, rightFits]
    simp
  | succ width induction =>
    have leftQuotient : left / 256 < 256 ^ width := by
      apply Nat.div_lt_of_lt_mul
      rwa [pow_succ'] at leftFits
    have rightQuotient : right / 256 < 256 ^ width := by
      apply Nat.div_lt_of_lt_mul
      rwa [pow_succ'] at rightFits
    have sameHead : beBytes width (left / 256) = beBytes width (right / 256) ↔
        left / 256 = right / 256 := by
      have below := induction leftQuotient rightQuotient
      have above := induction rightQuotient leftQuotient
      constructor
      · intro same
        rw [same] at below above
        have notBelow := mt below.mpr (lt_irrefl _)
        have notAbove := mt above.mpr (lt_irrefl _)
        omega
      · intro same
        rw [same]
    rw [beBytes_succ, beBytes_succ,
      append_lt_append_iff (by rw [length_beBytes, length_beBytes]),
      induction leftQuotient rightQuotient, sameHead]
    simp only [List.cons_lt_cons_iff, ofNat_lt_ofNat_iff, List.not_lt_nil, and_false, or_false]
    omega

theorem beBytes_inj (leftFits : left < 256 ^ width) (rightFits : right < 256 ^ width) :
    beBytes width left = beBytes width right ↔ left = right := by
  constructor
  · intro same
    have notBelow := mt (beBytes_lt_iff leftFits rightFits).mpr (same ▸ lt_irrefl _)
    have notAbove := mt (beBytes_lt_iff rightFits leftFits).mpr (same ▸ lt_irrefl _)
    omega
  · intro same
    rw [same]

example : beBytes 2 258 < beBytes 2 515 := by decide

end QAExchange.Foundation
