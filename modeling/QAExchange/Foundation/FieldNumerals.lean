import Mathlib.Data.Nat.Cast.Defs

/-! # Numerals of a field

The formulas over fields write 2 and 3 as numerals, and share what that rests on.
-/

namespace QAExchange.Foundation

instance atLeastTwo_two : Nat.AtLeastTwo 2 := ⟨Nat.le_refl 2⟩

instance atLeastTwo_three : Nat.AtLeastTwo 3 := ⟨Nat.le_succ 2⟩

end QAExchange.Foundation
