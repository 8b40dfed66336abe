import Mathlib.Data.Rat.Defs

/-! # Formatted text

Zero-padded decimal numbers, as `{:010}` prints them, and messages that keep
the numbers they print.
-/

namespace QAExchange.Foundation

/-- Decimal digits of `number`, padded with zeros on the left to `width`. -/
def padded (width number : Nat) : String :=
  String.ofList (List.replicate (width - (Nat.toDigits 10 number).length) '0' ++
    Nat.toDigits 10 number)

example : padded 10 42 = "0000000042" := by decide +kernel

theorem padded_injective (width : Nat) : Function.Injective (padded width) := by
  intro left right equal
  have digits := congrArg (fun text : String => Nat.ofDigitChars 10 text.toList 0) equal
  simpa [padded, Nat.ofDigitChars_append] using digits

/-- Two texts made of a decimal prefix of one fixed length and a padded number
agree only when both parts do. -/
theorem repr_append_padded_inj
    (sameLength : (Nat.toDigits 10 left).length = (Nat.toDigits 10 right).length)
    (equal : toString left ++ padded width first = toString right ++ padded width second) :
    left = right ∧ first = second := by
  have lists := congrArg String.toList equal
  simp only [String.toList_append, Nat.toString_eq_repr, Nat.toList_repr] at lists
  rcases List.append_inj lists sameLength with ⟨sameDigits, samePadded⟩
  constructor
  · have numbers := congrArg (fun digits => Nat.ofDigitChars 10 digits 0) sameDigits
    simpa using numbers
  · exact padded_injective width (String.toList_injective samePadded)

theorem append_mark_inj {Letter : Type} {mark : Letter} {left right first second : List Letter}
    (noFirst : mark ∉ first) (noSecond : mark ∉ second)
    (equal : left ++ mark :: first = right ++ mark :: second) : left = right ∧ first = second := by
  rcases List.append_eq_append_iff.mp equal with ⟨between, isRight, tail⟩ | ⟨between, isLeft, tail⟩
  · cases between with
    | nil => exact ⟨(isRight.trans (List.append_nil _)).symm, (List.cons.inj tail).2⟩
    | cons letter between =>
      have isFirst := (List.cons.inj tail).2
      apply absurd _ noFirst
      rw [isFirst]
      exact List.mem_append_right between List.mem_cons_self
  · cases between with
    | nil => exact ⟨isLeft.trans (List.append_nil _), (List.cons.inj tail).2.symm⟩
    | cons letter between =>
      have isSecond := (List.cons.inj tail).2
      apply absurd _ noSecond
      rw [isSecond]
      exact List.mem_append_right between List.mem_cons_self

theorem numbered_inj {mark : Char} {left right : String} {first second : ℕ}
    (notDigit : mark.isDigit = false) (equal : left.toList ++ mark :: Nat.toDigits 10 first =
      right.toList ++ mark :: Nat.toDigits 10 second) : left = right ∧ first = second := by
  have noMark : ∀ number : ℕ, mark ∉ Nat.toDigits 10 number := by
    intro number member
    have isDigit := Nat.isDigit_of_mem_toDigits (by decide) (by decide) member
    rw [notDigit] at isDigit
    cases isDigit
  have digits := append_mark_inj (noMark first) (noMark second) equal
  constructor
  · exact String.toList_injective digits.1
  · have numbers := congrArg (fun text => Nat.ofDigitChars 10 text 0) digits.2
    simpa using numbers

/-- One piece of a formatted message. Numbers stay numbers: `decimal` is `{}`
and `fixed places` is `{:.places}`. -/
inductive Fragment
  | text (text : String)
  | decimal (number : ℚ)
  | fixed (places : Nat) (number : ℚ)
  deriving DecidableEq

/-- A formatted message: its template and the values filled in. -/
abbrev Message := List Fragment

/-- A message without numbers. -/
def Message.ofString (text : String) : Message := [.text text]

end QAExchange.Foundation
