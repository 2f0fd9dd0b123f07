import ActionQuery.Calendar.Stamp
import ActionQuery.Text.Quoted
import ActionQuery.Text.UpperCase

namespace ActionQuery.Calendar

/-- The time zones that a nominal time can be placed in. -/
inductive Zone where
  | utc
  | etcUtc
  | newYork
  | london
  | kolkata
  | kathmandu
  | lordHowe
  deriving DecidableEq, Repr

/-- The offset of a part of the year: from the wall time `start` to before `stop`, and over the
turn of the year when `stop` is the earlier one. -/
structure Daylight where
  offset : Offset
  start : Nat → Nat
  stop : Nat → Nat

def firstSunday (year month : Nat) : Nat :=
  let first := dayNumber year month 1
  first + (6 - weekday first)

def lastSunday (year month : Nat) : Nat :=
  let last := dayNumber year month (monthLength year month)
  last - (weekday last + 1) % 7

def wallMicros (day minutes : Nat) : Nat := day * microsPerDay + minutes * 60 * microsPerSecond

def Daylight.covers (d : Daylight) (w : WallTime) : Bool :=
  let start := d.start w.year
  let stop := d.stop w.year
  if start ≤ stop then start ≤ w.micros && w.micros < stop
  else start ≤ w.micros || w.micros < stop

namespace Zone

def all : List Zone := [utc, etcUtc, newYork, london, kolkata, kathmandu, lordHowe]

def key : Zone → Text
  | utc => "UTC"
  | etcUtc => "Etc/UTC"
  | newYork => "America/New_York"
  | london => "Europe/London"
  | kolkata => "Asia/Kolkata"
  | kathmandu => "Asia/Kathmandu"
  | lordHowe => "Australia/Lord_Howe"

def standard : Zone → Offset
  | utc | etcUtc | london => .utc
  | newYork => ⟨-18000000000, by decide, by decide⟩
  | kolkata => ⟨19800000000, by decide, by decide⟩
  | kathmandu => ⟨20700000000, by decide, by decide⟩
  | lordHowe => ⟨37800000000, by decide, by decide⟩

/-- Daylight saving time by the wall clock. Its start stands after the hours that the clock skips,
which keep the offset before them, and its end after the hours that it shows twice, which are taken
the first time. -/
def daylight? : Zone → Option Daylight
  | newYork => some {
      offset := ⟨-14400000000, by decide, by decide⟩
      start := fun year => wallMicros (firstSunday year 3 + 7) 180
      stop := fun year => wallMicros (firstSunday year 11) 120 }
  | london => some {
      offset := ⟨3600000000, by decide, by decide⟩
      start := fun year => wallMicros (lastSunday year 3) 120
      stop := fun year => wallMicros (lastSunday year 10) 120 }
  | lordHowe => some {
      offset := ⟨39600000000, by decide, by decide⟩
      start := fun year => wallMicros (firstSunday year 10) 150
      stop := fun year => wallMicros (firstSunday year 4) 120 }
  | _ => none

def offsetAt (z : Zone) (w : WallTime) : Offset :=
  match z.daylight? with
  | some daylight => if daylight.covers w then daylight.offset else z.standard
  | none => z.standard

/-- The point of time at which clocks in the zone show `w`. -/
def instant? (z : Zone) (w : WallTime) : Option Instant := w.at? (z.offsetAt w)

/-- Why a name is no zone. The first three are names that are no relative path of directories
below one place. -/
inductive Error where
  | absolute (name : Text)
  | unnormalized (name : Text)
  | outside (name : Text)
  | unknown (name : Text)
  deriving DecidableEq, Repr

def Error.message : Error → Text
  | .absolute name => "ZoneInfo keys may not be absolute paths, got: " ++ name
  | .unnormalized name => "ZoneInfo keys must be normalized relative paths, got: " ++ name
  | .outside name => "ZoneInfo keys must refer to subdirectories of TZPATH, got: " ++ name
  | .unknown name => "unknown processing timezone: " ++ Text.quote name

/-- Follows the steps of a path, the last one first in `above`: empty steps and single dots are
dropped, and a double dot takes back the step before it. -/
def followSteps (above : List Text) : List Text → List Text
  | [] => above.reverse
  | step :: rest =>
    if step = [] ∨ step = ['.'] then followSteps above rest
    else if step = ['.', '.'] then
      match above with
      | last :: earlier =>
        if last = ['.', '.'] then followSteps (step :: above) rest else followSteps earlier rest
      | [] => followSteps [step] rest
    else followSteps (step :: above) rest

def pathSteps (path : Text) : List Text := followSteps [] (path.splitOn '/')

def normalPath (path : Text) : Text :=
  match pathSteps path with
  | [] => ['.']
  | steps => Text.join ['/'] steps

/-- Whether a path leads to something inside a directory `_` that it starts from. -/
def staysInside (path : Text) : Bool :=
  match pathSteps (['_', '/'] ++ path) with
  | first :: _ :: _ => first == ['_']
  | _ => false

def checkName (name : Text) : Except Error Unit :=
  if name.head? = some '/' then .error (.absolute name)
  else if (normalPath name).length ≠ name.length then .error (.unnormalized name)
  else if !staysInside name then .error (.outside name)
  else .ok ()

def utcNames : List Text := ["UTC", "GMT", ['Z']]

/-- UTC has three names in any case, the other zones one each. -/
def resolve (name : Text) : Except Error Zone :=
  if utcNames.any (· = Text.upper name) then .ok utc
  else
    match checkName name with
    | .error e => .error e
    | .ok () =>
      match all.find? (·.key = name) with
      | some zone => .ok zone
      | none => .error (.unknown name)

end Zone

end ActionQuery.Calendar
