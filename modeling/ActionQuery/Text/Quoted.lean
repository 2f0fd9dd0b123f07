import ActionQuery.Text.Printable
import ActionQuery.Text.Hex

namespace ActionQuery.Text

/-- The mark around a quoted text: double only when the text has single marks and no double ones. -/
def quoteMark (t : Text) : Char := if '\'' ∈ t ∧ '"' ∉ t then '"' else '\''

def quoteChar (mark c : Char) : Text :=
  if c = mark ∨ c = '\\' then ['\\', c]
  else if c = '\n' then "\\n"
  else if c = '\r' then "\\r"
  else if c = '\t' then "\\t"
  else if isPrintable c then [c]
  else if c.toNat ≤ 0xFF then "\\x" ++ hex 2 c.toNat
  else if c.toNat ≤ 0xFFFF then "\\u" ++ hex 4 c.toNat
  else "\\U" ++ hex 8 c.toNat

/-- A text between quotation marks, with everything that has no visible form escaped. -/
def quote (t : Text) : Text :=
  let mark := quoteMark t
  mark :: t.flatMap (quoteChar mark) ++ [mark]

end ActionQuery.Text
