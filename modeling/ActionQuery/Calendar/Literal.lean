import ActionQuery.Calendar.Stamp
import ActionQuery.Text.Digits

namespace ActionQuery.Calendar

/-- A duration as a program writes it: in days, seconds and microseconds, the last two never
negative, zero parts left out. -/
def durationLiteral (micros : Int) : Text :=
  let part (name : Text) (n : Int) : List Text :=
    if n = 0 then [] else [name ++ ['='] ++ Text.ofInt n]
  let rest := Int.fmod micros microsPerDay
  let parts :=
    part "days" (Int.fdiv micros microsPerDay) ++ part "seconds" (rest / microsPerSecond) ++
      part "microseconds" (rest % microsPerSecond)
  "datetime.timedelta(" ++ (if parts.isEmpty then ['0'] else Text.join ", " parts) ++ [')']

def Offset.literal (o : Offset) : Text :=
  if o = Offset.utc then "datetime.timezone.utc"
  else "datetime.timezone(" ++ durationLiteral o.micros ++ [')']

/-- The parts of a wall time, the seconds and then the microseconds left out at the end when they
are zero. -/
def WallTime.parts (w : WallTime) : List Nat :=
  [w.year, w.month, w.dayOfMonth, w.hour, w.minute] ++
    if w.micro ≠ 0 then [w.second, w.micro] else if w.second ≠ 0 then [w.second] else []

def Reckoning.parts : Reckoning → List Text
  | steady offset => ["tzinfo=".toList ++ offset.literal]
  | zoned clock => (if clock.second then ["fold=1".toList] else []) ++ ["tzinfo=" ++ clock.name]

def Stamp.literal (s : Stamp) : Text :=
  let parts := s.wall.parts.map Text.ofNat ++ s.reckoning.elim [] Reckoning.parts
  "datetime.datetime(" ++ Text.join ", " parts ++ [')']

end ActionQuery.Calendar
