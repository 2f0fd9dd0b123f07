import ActionQuery.Binary
import ActionQuery.Calendar.Iso.Reader

namespace ActionQuery.Calendar.Timestamp

inductive Error where
  | unreadable
  | outOfRange
  /-- The year before year 1, which has a place in the calendar but in no stamp. -/
  | yearZero
  deriving DecidableEq, Repr

/-- 1970-01-01 as a day number. -/
def epochDay : Nat := 719162

/-- Counts since the epoch that are greater in size are of milliseconds and not of seconds. -/
def maxSeconds : Nat := 20000000000

def microsPerMilli : Nat := 1000

def firstSecond : Int := -62167219200

def lastSecond : Int := 253402300799

def ofMicros (micros : Int) : Except Error Stamp :=
  let second := micros / (microsPerSecond : Int)
  if firstSecond ≤ second ∧ second ≤ lastSecond then
    match WallTime.ofMicros? (epochDay * microsPerDay + micros) with
    | some w => .ok ⟨w, some (.steady Offset.utc)⟩
    | none => .error .yearZero
  else .error .outOfRange

/-- The stamp at a count since the epoch. What it has beyond a whole number is reckoned in double
precision. -/
def ofCount (count : Binary) : Except Error Stamp :=
  let unit := if count.exceeds maxSeconds then microsPerMilli else microsPerSecond
  let whole := count.floor
  ofMicros (whole * unit + ((count.minus whole).times unit).round)

/-- Counts whose first digit has a place beyond this one are out of range. -/
def lastPlace : Int := 20

/-- Counts whose first digit has a place before this one come to zero. -/
def firstPlace : Int := -30

def ofDecimal (count : Decimal) : Except Error Stamp :=
  if count.place < firstPlace then ofCount (.ofInt 0)
  else if lastPlace < count.place then .error .outOfRange
  else ofCount (.ofDecimal count)

def readPointed (t : Text) : Except Error Decimal :=
  if t.any (· == '.') then (Decimal.read? t).elim (.error .unreadable) .ok else .error .unreadable

def expect (mark : Char) : Text → Option Text
  | [] => none
  | c :: rest => if c = mark then some rest else none

/-- The digits of a fraction, at least one of them; those after the sixth are dropped. -/
def readFraction (t : Text) : Option (Fin microsPerSecond × Text) :=
  let digits := t.takeWhile Char.isDigit
  if digits = [] then none
  else (Iso.readFraction digits).map fun (micro, _) => (micro, t.dropWhile Char.isDigit)

/-- Hours and minutes, and with a further colon the seconds and their fraction. -/
def readClock (t : Text) : Option (Iso.ClockNumbers × Text) := do
  let (hour, rest) ← Text.readDigits 2 t
  let (minute, rest) ← Text.readDigits 2 (← expect ':' rest)
  match rest with
  | ':' :: rest =>
    let (second, rest) ← Text.readDigits 2 rest
    match rest with
    | '.' :: rest | ',' :: rest =>
      let (micro, rest) ← readFraction rest
      return (⟨hour, minute, second, micro⟩, rest)
    | _ => return (⟨hour, minute, second, noFraction⟩, rest)
  | _ => return (⟨hour, minute, 0, noFraction⟩, rest)

/-- An offset of hours and minutes with or without a colon between them. -/
def readOffset (t : Text) : Option (Option Offset) := do
  match t with
  | [] => return none
  | ['Z'] | ['z'] => return some Offset.utc
  | sign :: rest =>
    let (hours, rest) ← Text.readDigits 2 rest
    let rest := (expect ':' rest).getD rest
    let (minutes, rest) ← Text.readDigits 2 rest
    let total : Int := hours * 60 + minutes
    if rest ≠ [] ∨ 60 ≤ minutes then none
    else if sign = '+' then some <$> Offset.ofMinutes? total
    else if sign = '-' ∨ sign = '−' then some <$> Offset.ofMinutes? (-total)
    else none

def readDate (t : Text) : Option ((Nat × Nat × Nat) × Text) := do
  let (year, rest) ← Text.readDigits 4 t
  let (month, rest) ← Text.readDigits 2 (← expect '-' rest)
  let (day, rest) ← Text.readDigits 2 (← expect '-' rest)
  return ((year, month, day), rest)

def isTimeMark (c : Char) : Bool := c == 'T' || c == 't' || c == ' ' || c == '_'

/-- The time of day and the offset behind a date: after a `T`, a blank or an underscore, or midnight
when nothing is there. -/
def readTime (t : Text) : Option (Clock × Option Offset) := do
  match t with
  | [] => return (Clock.midnight, none)
  | mark :: rest =>
    if isTimeMark mark then
      let (numbers, rest) ← readClock rest
      return (← (Iso.checkClock numbers).toOption, ← readOffset rest)
    else none

/-- A year with the calendar of year 0. -/
def yearLikeZero : Nat := 400

def readText (t : Text) : Except Error Stamp :=
  match readDate t with
  | none => .error .unreadable
  | some ((year, month, day), rest) =>
    match Iso.checkDate (if year = 0 then yearLikeZero else year) month day, readTime rest with
    | .ok date, some (clock, offset) =>
      if year = 0 then .error .yearZero else .ok ⟨WallTime.on date clock, offset.map .steady⟩
    | _, _ => .error .unreadable

/-- A text that is a date, a date and time, or a count since the epoch. -/
def ofText (t : Text) : Except Error Stamp :=
  match readText t with
  | .error .unreadable =>
    match Text.readSigned? t with
    | some count => ofCount (.ofInt count)
    | none => (readPointed t).bind ofDecimal
  | result => result

end ActionQuery.Calendar.Timestamp
