import ActionQuery.Calendar.Stamp
import ActionQuery.Text.Digits

namespace ActionQuery.Calendar

/-- A fraction of a second with all six digits, left out when it is zero. -/
def fractionText (micro : Nat) : Text := if micro = 0 then [] else '.' :: Text.padded 6 micro

def WallTime.dateText (w : WallTime) : Text :=
  Text.padded 4 w.year ++ ['-'] ++ Text.padded 2 w.month ++ ['-'] ++ Text.padded 2 w.dayOfMonth

def WallTime.marked (mark : Char) (w : WallTime) : Text :=
  w.dateText ++ [mark] ++ Text.padded 2 w.hour ++ [':'] ++ Text.padded 2 w.minute ++ [':'] ++
    Text.padded 2 w.second ++ fractionText w.micro

/-- Hours and minutes of an offset, and the smaller parts when they are not zero. -/
def Offset.iso (o : Offset) : Text :=
  let micros := o.micros.natAbs
  let seconds := micros / microsPerSecond
  let micro := micros % microsPerSecond
  (if o.micros < 0 then ['-'] else ['+']) ++ Text.padded 2 (seconds / 3600) ++ [':'] ++
    Text.padded 2 (seconds / 60 % 60) ++
    (if seconds % 60 = 0 ∧ micro = 0 then [] else ':' :: Text.padded 2 (seconds % 60)) ++
    fractionText micro

def Stamp.marked (mark : Char) (s : Stamp) : Text :=
  s.wall.marked mark ++
    match s.offset with
    | none => []
    | some offset => offset.iso

def Stamp.iso (s : Stamp) : Text := s.marked 'T'

def Instant.iso (i : Instant) : Text := i.toStamp.iso

end ActionQuery.Calendar
