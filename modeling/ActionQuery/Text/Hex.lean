import ActionQuery.Text.Basic

namespace ActionQuery.Text

/-- Lower-case hexadecimal digits of `n`, filled up with zeros on the left to at least `width`. -/
def hex (width n : Nat) : Text :=
  let digits := Nat.toDigits 16 n
  List.replicate (width - digits.length) '0' ++ digits

def hexDigit? (c : Char) : Option Nat :=
  if c.isDigit then some (c.toNat - '0'.toNat)
  else if 'a' ≤ c ∧ c ≤ 'f' then some (c.toNat - 'a'.toNat + 10)
  else if 'A' ≤ c ∧ c ≤ 'F' then some (c.toNat - 'A'.toNat + 10)
  else none

/-- The number that hexadecimal digits of either case denote, the empty text refused. -/
def readHex? (t : Text) : Option Nat :=
  if t.isEmpty then none
  else t.foldl (fun value c => value.bind fun v => (hexDigit? c).map (v * 16 + ·)) (some 0)

end ActionQuery.Text
