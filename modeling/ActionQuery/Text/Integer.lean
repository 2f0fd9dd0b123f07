import ActionQuery.Text.Blank
import ActionQuery.Text.Digits

namespace ActionQuery.Text

/-- Drops zeros and underscores behind a zero; a last one before a point or the end stays. What
follows them has to be a digit, a point or a sign. -/
def dropZerosAfter (last : Char) : Text → Option Text
  | [] => some [last]
  | c :: rest =>
    if c = '0' ∨ c = '_' then dropZerosAfter c rest
    else if c.isDigit ∨ c = '-' then some (c :: rest)
    else if c = '.' then some (last :: c :: rest)
    else none

/-- A text that starts with a digit, without its leading zeros. -/
def dropLeadingZeros : Text → Option Text
  | [] => none
  | c :: rest =>
    if c = '0' then dropZerosAfter c rest else if c.isDigit then some (c :: rest) else none

/-- Cuts off a point with zeros behind it, at least one, and nothing else. -/
def dropZeroFraction (t : Text) : Text :=
  let fraction := (t.dropWhile (· ≠ '.')).drop 1
  if fraction ≠ [] ∧ fraction.all (· == '0') then t.takeWhile (· ≠ '.') else t

/-- Takes out underscores when each of them stands alone between other characters. -/
def ungroup (t : Text) : Text :=
  if (t.splitOn '_').any List.isEmpty then t else t.filter (· ≠ '_')

/-- The digits of a number without leading zeros, behind a minus sign if there is one. -/
def splitSign : Text → Bool × Text
  | '-' :: digits => (true, digits)
  | digits => (false, digits)

/-- The integer of a text of digits, without leading zeros, after an optional minus sign. -/
def readPlainInteger? (t : Text) : Option Int :=
  let (negative, digits) := splitSign t
  if digits = [] ∨ digits.all Char.isDigit = false ∨ maxNumeralDigits < t.length ∨
      (digits.head? = some '0' ∧ digits ≠ ['0']) then none
  else if negative then some (-digitsValue digits)
  else some (digitsValue digits)

/-- The text of an integer in its plain form: without white space around it, a plus sign, leading
zeros, single underscores between digits, or a fraction of zeros. -/
def plainInteger? (t : Text) : Option Text :=
  let unsigned (t : Text) : Option Text :=
    match t with
    | '-' :: rest => (dropLeadingZeros rest).map ('-' :: ·)
    | _ => dropLeadingZeros t
  let signed :=
    match trimWhile isPlainBlank t with
    | '+' :: rest => if rest.head? = some '-' then none else unsigned rest
    | t => unsigned t
  signed.map fun t => ungroup (dropZeroFraction t)

def readInteger? (t : Text) : Option Int := (plainInteger? t).bind readPlainInteger?

/-- A text that starts with more digits than are read. -/
def startsOverlong (t : Text) : Bool :=
  let (_, digits) := splitSign t
  digits.head? != some '0' &&
    maxNumeralDigits < t.length - (digits.dropWhile Char.isDigit).length

end ActionQuery.Text
