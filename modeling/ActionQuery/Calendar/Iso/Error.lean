import ActionQuery.Calendar.Date
import ActionQuery.Calendar.Literal

namespace ActionQuery.Calendar.Iso

inductive Error where
  | malformed
  | offsetTooLarge (micros : Int)
  | year (year : Nat)
  | month
  | day
  | hour
  | minute
  | second
  deriving DecidableEq, Repr

/-- The wording of an error; `shown` stands for the text that was read. -/
def Error.message (shown : Text) : Error → Text
  | .malformed => "Invalid isoformat string: " ++ shown
  | .offsetTooLarge micros =>
    "offset must be a timedelta strictly between -timedelta(hours=24) and timedelta(hours=24), not "
      ++ durationLiteral micros ++ ['.']
  | .year n => "year " ++ Text.ofNat n ++ " is out of range"
  | .month => "month must be in 1..12"
  | .day => "day is out of range for month"
  | .hour => "hour must be in 0..23"
  | .minute => "minute must be in 0..59"
  | .second => "second must be in 0..59"

end ActionQuery.Calendar.Iso
