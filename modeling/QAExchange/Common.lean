import Mathlib.Algebra.Order.Ring.Nat
import QAExchange.Foundation.Action
import QAExchange.Foundation.Text

/-! # Errors and clock readings -/

namespace QAExchange

open Foundation

/-- The errors of the exchange that the modelled functions return. -/
inductive ExchangeError
  | UserError (message : Message)
  | PermissionDenied (message : Message)
  | AccountError (message : Message)
  | OrderError (message : Message)
  | MatchingError (message : Message)
  | RiskCheckFailed (message : Message)
  | StorageError (message : Message)
  | InvalidParameter (message : Message)
  | InsufficientBalance (message : Message)
  | InternalError (message : Message)
  deriving DecidableEq

namespace ExchangeError

/-- `Display` of an error. -/
def display : ExchangeError → Message
  | UserError message => .text "User error: " :: message
  | PermissionDenied message => .text "Permission denied: " :: message
  | AccountError message => .text "Account error: " :: message
  | OrderError message => .text "Order error: " :: message
  | MatchingError message => .text "Matching error: " :: message
  | RiskCheckFailed message => .text "Risk check failed: " :: message
  | StorageError message => .text "Storage error: " :: message
  | InvalidParameter message => .text "Invalid parameter: " :: message
  | InsufficientBalance message => .text "Insufficient balance: " :: message
  | InternalError message => .text "Internal error: " :: message

end ExchangeError

/-- The clock readings of one call. `millis` is the Unix time of the years 2001
to 2286, which has thirteen digits. -/
structure Now where
  nanos : ℤ
  millis : ℕ
  /-- `%Y-%m-%d` -/
  date : String
  /-- `%Y-%m-%d %H:%M:%S` -/
  dateTime : String
  /-- Local time in seconds after midnight. -/
  timeOfDay : ℕ
  millis_range : 10 ^ 12 ≤ millis ∧ millis < 10 ^ 13

namespace Now

theorem millis_digits (now : Now) : (Nat.toDigits 10 now.millis).length = 13 := by
  apply le_antisymm
  · exact (Nat.length_toDigits_le_iff (by decide) (by decide)).mpr now.millis_range.2
  · by_contra short
    have fits := (Nat.length_toDigits_le_iff (by decide) (by decide)).mp
      (Nat.le_of_lt_succ (not_le.mp short))
    exact absurd now.millis_range.1 (not_le.mpr fits)

end Now

end QAExchange
