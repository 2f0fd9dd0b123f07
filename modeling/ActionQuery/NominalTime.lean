import ActionQuery.Calendar.Iso.Reader
import ActionQuery.Calendar.Iso.Printer
import ActionQuery.Calendar.Zone
import ActionQuery.Fault
import ActionQuery.Text.Blank

namespace ActionQuery.NominalTime

open Calendar

inductive Error where
  | noTime (text : Text)
  | notIso (text : Text) (reason : Iso.Error)
  | noZone (reason : Zone.Error)
  | outOfRange
  deriving DecidableEq, Repr

def Error.toFault : Error → Fault
  | .noTime text => ⟨.unreadable, "date must include a time component: " ++ Text.quote text⟩
  | .notIso text reason => ⟨.unreadable, reason.message (Text.quote text)⟩
  | .noZone reason => ⟨.unreadable, reason.message⟩
  | .outOfRange => .timeOutOfRange

/-- A `Z` at the end of a text stands for the offset of UTC. -/
def expandZulu (t : Text) : Text :=
  if t.getLast? = some 'Z' then t.dropLast ++ "+00:00" else t

/-- Reads a date and time between white space; a `T` has to stand somewhere in it. -/
def readStamp (t : Text) : Except Error Stamp :=
  let trimmed := Text.trim t
  if 'T' ∉ trimmed then .error (.noTime t)
  else
    let text := expandZulu trimmed
    match Iso.read text with
    | .ok stamp => .ok stamp
    | .error reason => .error (.notIso text reason)

/-- Places a local stamp in the named zone, which is not looked at for a fixed one. -/
def settle (zone : Text) (s : Stamp) : Except Error Instant :=
  match s.offset with
  | some offset =>
    match s.wall.at? offset with
    | some instant => .ok instant
    | none => .error .outOfRange
  | none =>
    match Zone.resolve zone with
    | .error reason => .error (.noZone reason)
    | .ok zone =>
      match zone.instant? s.wall with
      | some instant => .ok instant
      | none => .error .outOfRange

def parse (zone t : Text) : Except Error Instant := (readStamp t).bind (settle zone)

/-- Reads nominal times as stamps, with local ones in the named zone. -/
def reader (zone : Text) (t : Text) : Except Fault Stamp :=
  match parse zone t with
  | .ok instant => .ok instant.toStamp
  | .error e => .error e.toFault

/-- The instant to the minute, with the year as short as it is. -/
def format (i : Instant) : Text :=
  let w := i.utc
  Text.ofNat w.year ++ ['-'] ++ Text.padded 2 w.month ++ ['-'] ++ Text.padded 2 w.dayOfMonth ++
    ['T'] ++ Text.padded 2 w.hour ++ [':'] ++ Text.padded 2 w.minute ++ ['Z']

/-- A stamp to the minute in UTC, a local one being taken for UTC. -/
def formatStamp (s : Stamp) : Except Error Text := s.toUtc?.elim (.error .outOfRange) (.ok ∘ format)

end ActionQuery.NominalTime
