import ActionQuery.Text.Basic

namespace ActionQuery

inductive Comparator where
  | equals
  | notEquals
  | greater
  | greaterEqual
  | less
  | lessEqual
  deriving DecidableEq, Repr

namespace Comparator

def all : List Comparator := [equals, notEquals, greater, greaterEqual, less, lessEqual]

def name : Comparator → Text
  | equals => "EQUALS"
  | notEquals => "NOT_EQUALS"
  | greater => "GREATER"
  | greaterEqual => "GREATER_EQUAL"
  | less => "LESSTHAN"
  | lessEqual => "LESSTHAN_EQUAL"

def sign : Comparator → Text
  | equals => ['=']
  | notEquals => ['!', '=']
  | greater => ['>']
  | greaterEqual => ['>', '=']
  | less => ['<']
  | lessEqual => ['<', '=']

def fullName (c : Comparator) : Text := "FilterComparator." ++ c.name

def takesMany : Comparator → Bool
  | equals | notEquals => true
  | _ => false

def ofName? (t : Text) : Option Comparator := all.find? (·.name = t)

/-- The comparator of a sign, of which `notEquals` has two. -/
def ofSign? (t : Text) : Option Comparator :=
  if t = ['<', '>'] then some notEquals else all.find? (·.sign = t)

/-- Reads the longest sign that a text starts with. -/
def read : Text → Option (Comparator × Text)
  | '>' :: '=' :: rest => some (greaterEqual, rest)
  | '<' :: '=' :: rest => some (lessEqual, rest)
  | '!' :: '=' :: rest => some (notEquals, rest)
  | '<' :: '>' :: rest => some (notEquals, rest)
  | '=' :: rest => some (equals, rest)
  | '>' :: rest => some (greater, rest)
  | '<' :: rest => some (less, rest)
  | _ => none

theorem ofName?_name (c : Comparator) : ofName? c.name = some c := by cases c <;> decide

theorem ofSign?_sign (c : Comparator) : ofSign? c.sign = some c := by cases c <;> decide

end Comparator

end ActionQuery
