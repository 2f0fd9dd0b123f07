import ActionQuery.Text.Basic

namespace ActionQuery.Text

/-- White space, the separators U+001C to U+001F and the next line U+0085 among it. -/
def isBlank (c : Char) : Bool :=
  let n := c.toNat
  (0x09 ≤ n && n ≤ 0x0D) || (0x1C ≤ n && n ≤ 0x20) || n == 0x85 || n == 0xA0 || n == 0x1680 ||
    (0x2000 ≤ n && n ≤ 0x200A) || n == 0x2028 || n == 0x2029 || n == 0x202F || n == 0x205F ||
    n == 0x3000

/-- White space without the separators U+001C to U+001F. -/
def isPlainBlank (c : Char) : Bool := isBlank c && !(0x1C ≤ c.toNat && c.toNat ≤ 0x1F)

def trimLeftWhile (p : Char → Bool) (t : Text) : Text := t.dropWhile p

def trimRightWhile (p : Char → Bool) (t : Text) : Text := (t.reverse.dropWhile p).reverse

def trimWhile (p : Char → Bool) (t : Text) : Text := trimRightWhile p (trimLeftWhile p t)

def trim (t : Text) : Text := trimWhile isBlank t

/-- Nothing but white space, the empty text included. -/
def blank (t : Text) : Bool := t.all isBlank

end ActionQuery.Text
