import ActionQuery.Calendar.Iso.Error

namespace ActionQuery.Calendar.Iso

/-- Hours, minutes, seconds and microseconds as they are written, only the last in range. -/
structure ClockNumbers where
  hour : Nat
  minute : Nat
  second : Nat
  micro : Fin microsPerSecond
  deriving DecidableEq, Repr

/-- The numbers of a date and time as they are written, the offset in microseconds. -/
structure Numbers where
  year : Nat
  month : Nat
  day : Nat
  clock : ClockNumbers
  offset : Option Int
  deriving DecidableEq, Repr

/-- Up to six digits of a fraction of a second, further digits being dropped. With less than six
digits nothing may follow them. -/
def readFraction (t : Text) : Option (Fin microsPerSecond × Text) :=
  let digits := t.take 6
  if h : digits.all Char.isDigit = true then
    some (⟨Text.digitsValue digits * Text.tenTo (6 - digits.length), by
      have hlt := Text.digitsValue_lt h
      have hlength : digits.length ≤ 6 := List.length_take_le 6 t
      calc
        _ < Text.tenTo digits.length * Text.tenTo (6 - digits.length) :=
          Nat.mul_lt_mul_of_pos_right hlt (Text.tenTo_pos _)
        _ = microsPerSecond := by
          rw [← Text.tenTo_add, Nat.add_sub_cancel' hlength]
          rfl⟩, (t.drop 6).dropWhile Char.isDigit)
  else
    none

/-- Reads at most `left` groups of two digits and a fraction after them: the groups, the fraction
and what follows. All groups are set apart by colons or none is, as the first one tells. A single
ASCII character may stand after the last group. -/
def readGroups : Nat → Option Bool → Text → Option (List Nat × Fin microsPerSecond × Text)
  | 0, _, t => (readFraction t).map fun (micro, rest) => ([], micro, rest)
  | left + 1, colons?, t =>
    match Text.readDigits 2 t with
    | none => none
    | some (value, rest) =>
      let colons := colons?.getD (rest.head? == some ':')
      let following :=
        match rest with
        | [] => some ([], noFraction, [])
        | [c] => if Text.isAscii c then some ([], noFraction, [c]) else none
        | c :: more =>
          if colons && c == ':' then readGroups left (some colons) more
          else if c == '.' || c == ',' then
            (readFraction more).map fun (micro, rest) => ([], micro, rest)
          else if colons then none
          else readGroups left (some colons) rest
      following.map fun (values, micro, rest) => (value :: values, micro, rest)

def readClock (t : Text) : Option (ClockNumbers × Text) :=
  (readGroups 3 none t).map fun (values, micro, rest) =>
    (⟨values.getD 0 0, values.getD 1 0, values.getD 2 0, micro⟩, rest)

/-- A NUL counts as the end of the text. -/
def atEnd : Text → Bool
  | [] => true
  | c :: _ => c == '\x00'

def isZoneMark (c : Char) : Bool := c == '+' || c == '-' || c == 'Z'

/-- An offset in microseconds. Its microseconds count only beside whole seconds. -/
def offsetMicros (negative : Bool) (c : ClockNumbers) : Int :=
  let seconds := c.hour * 3600 + c.minute * 60 + c.second
  let micros : Int := if seconds = 0 then 0 else seconds * microsPerSecond + c.micro
  if negative then -micros else micros

/-- Reads a time of day and the offset after it. What follows the time of day is ignored when an
offset follows it. -/
def readTime (t : Text) : Option (ClockNumbers × Option Int) :=
  match readClock (t.takeWhile (!isZoneMark ·)) with
  | none => none
  | some (clock, rest) =>
    match t.dropWhile (!isZoneMark ·) with
    | [] => if atEnd rest then some (clock, none) else none
    | 'Z' :: rest => if atEnd rest then some (clock, some 0) else none
    | sign :: rest =>
      match readClock rest with
      | some (numbers, rest) =>
        if atEnd rest then some (clock, some (offsetMicros (sign == '-') numbers)) else none
      | none => none

/-- Year, month and day of a week date, `none` for a week or weekday that the year does not have.
The weeks of year 0 lie before the calendar and are in no month of it. -/
def weekDate (year week day : Nat) : Option (Nat × Nat × Nat) :=
  if year = 0 then
    if 1 ≤ week ∧ week ≤ 52 ∧ 1 ≤ day ∧ day ≤ 7 then some (1, 0, 0) else none
  else (dayOfWeekDate? year week day).map civil

/-- Year, month and day of a calendar or week date in either form. A week stands for its Monday. -/
def readDate (t : Text) : Option (Nat × Nat × Nat) :=
  match Text.readDigits 4 t with
  | none => none
  | some (year, rest) =>
    let dashes := rest.head? == some '-'
    match if dashes then rest.drop 1 else rest with
    | 'W' :: rest =>
      match Text.readDigits 2 rest with
      | none => none
      | some (week, []) => weekDate year week 1
      | some (week, c :: rest) =>
        match if dashes then (if c = '-' then some rest else none) else some (c :: rest) with
        | none => none
        | some rest =>
          match Text.readDigits 1 rest with
          | some (day, []) => weekDate year week day
          | _ => none
    | rest =>
      match Text.readDigits 2 rest with
      | none => none
      | some (month, rest) =>
        match if dashes then (if rest.head? = some '-' then some (rest.drop 1) else none)
          else some rest with
        | none => none
        | some rest =>
          match Text.readDigits 2 rest with
          | some (day, []) => some (year, month, day)
          | _ => none

def digitAt (t : Text) (place : Nat) : Bool := (t[place]?.map Char.isDigit).getD false

/-- Where the date ends and one character sets the time apart. A text that starts as a week date
is cut by what follows its week, a day being told from an hour by the number of digits. -/
def separatorPlace (t : Text) : Option Nat :=
  if t.length < 7 then none
  else if t.length = 7 then some 7
  else if t[4]? = some '-' then
    if t[5]? = some 'W' then
      if t[8]? = some '-' then
        if t.length = 9 then none else if digitAt t 10 then some 8 else some 10
      else some 8
    else some 10
  else if t[4]? = some 'W' then
    let stop := 7 + ((t.drop 7).takeWhile Char.isDigit).length
    if stop < 9 then some stop else if stop % 2 = 0 then some 7 else some 8
  else some 8

/-- The numbers of a date and time; without a time of day it is midnight. -/
def readNumbers (t : Text) : Option Numbers :=
  match separatorPlace t with
  | none => none
  | some place =>
    match readDate (t.take place) with
    | none => none
    | some (year, month, day) =>
      match t.drop place with
      | [] => some ⟨year, month, day, ⟨0, 0, 0, noFraction⟩, none⟩
      | _ :: time => (readTime time).map fun (clock, offset) => ⟨year, month, day, clock, offset⟩

def checkOffset : Option Int → Except Error (Option Offset)
  | none => .ok none
  | some micros =>
    match Offset.ofMicros? micros with
    | some offset => .ok (some offset)
    | none => .error (.offsetTooLarge micros)

def checkDate (year month day : Nat) : Except Error Date :=
  if hyear : 1 ≤ year ∧ year ≤ lastYear then
    if hmonth : 1 ≤ month ∧ month ≤ 12 then
      if hday : 1 ≤ day ∧ day ≤ monthLength year month then
        .ok ⟨year, month, day, hyear.1, hyear.2, hmonth.1, hmonth.2, hday.1, hday.2⟩
      else .error .day
    else .error .month
  else .error (.year year)

def checkClock (c : ClockNumbers) : Except Error Clock :=
  if hhour : c.hour < 24 then
    if hminute : c.minute < 60 then
      if hsecond : c.second < 60 then
        .ok ⟨c.hour, c.minute, c.second, c.micro, hhour, hminute, hsecond, c.micro.isLt⟩
      else .error .second
    else .error .minute
  else .error .hour

/-- The offset is checked before the date and the date before the time of day. -/
def Numbers.check (n : Numbers) : Except Error Stamp := do
  let offset ← checkOffset n.offset
  let date ← checkDate n.year n.month n.day
  let clock ← checkClock n.clock
  return ⟨WallTime.on date clock, offset.map .steady⟩

def read (t : Text) : Except Error Stamp :=
  match readNumbers t with
  | none => .error .malformed
  | some numbers => numbers.check

end ActionQuery.Calendar.Iso
