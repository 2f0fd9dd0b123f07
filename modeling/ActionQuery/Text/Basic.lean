namespace ActionQuery

/-- A text is the list of its code points. -/
abbrev Text := List Char

instance : Coe String Text := ⟨String.toList⟩

instance : Hashable Text := ⟨fun t => t.foldl (fun h c => mixHash h c.toNat.toUInt64) 7⟩

namespace Text

/-- The pieces of a text between its separators, joined again with `separator` between them. -/
def join (separator : Text) : List Text → Text
  | [] => []
  | [piece] => piece
  | piece :: next :: rest => piece ++ separator ++ join separator (next :: rest)

/-- Cuts a text at the leftmost occurrences of `::`, none of which overlap. -/
def splitAtColons : Text → List Text
  | [] => [[]]
  | ':' :: ':' :: rest => [] :: splitAtColons rest
  | c :: rest =>
    match splitAtColons rest with
    | [] => [[c]]
    | piece :: pieces => (c :: piece) :: pieces

/-- Lower case of the ASCII letters, all other code points unchanged. -/
def asciiLower (t : Text) : Text := t.map Char.toLower

def isAscii (c : Char) : Bool := c.toNat < 128

/-- What follows the last occurrence of `mark`, the whole text when there is none. -/
def afterLast (mark : Char) (t : Text) : Text := (t.reverse.takeWhile (· ≠ mark)).reverse

end Text

end ActionQuery
