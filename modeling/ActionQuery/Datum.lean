import ActionQuery.Binary
import ActionQuery.Calendar.Iso.Printer
import ActionQuery.Calendar.Literal
import ActionQuery.Comparator
import ActionQuery.Fault
import ActionQuery.Text.Quoted

namespace ActionQuery

/-- A value that was submitted from outside, with no type to rely on. -/
inductive Datum where
  | null
  | bool (value : Bool)
  | int (value : Int)
  | decimal (value : Decimal)
  | text (value : Text)
  | time (value : Calendar.Stamp)
  | comparator (value : Comparator)
  | list (items : List Datum)
  | object (members : List (Text × Datum))
  deriving Repr

namespace Datum

mutual

/-- A value as it is written in a program, texts with quotation marks around them. -/
def literal : Datum → Text
  | null => "None"
  | bool value => if value then "True" else "False"
  | int value => Text.ofInt value
  | decimal value => value.text
  | text value => Text.quote value
  | time value => value.literal
  | comparator value => ['<'] ++ value.fullName ++ ": " ++ Text.quote value.sign ++ ['>']
  | list items => '[' :: Text.join ", " (literals items) ++ [']']
  | object members => '{' :: Text.join ", " (memberLiterals members) ++ ['}']

def literals : List Datum → List Text
  | [] => []
  | item :: rest => literal item :: literals rest

def memberLiterals : List (Text × Datum) → List Text
  | [] => []
  | (name, value) :: rest => (Text.quote name ++ ": " ++ literal value) :: memberLiterals rest

end

/-- A value inside a sentence, a text without quotation marks. -/
def display : Datum → Text
  | text value => value
  | time value => value.marked ' '
  | comparator value => value.fullName
  | value => value.literal

/-- The text that a value is, a comparator being its sign. -/
def text? : Datum → Option Text
  | text value => some value
  | comparator value => some value.sign
  | _ => none

/-- A number, or a truth value as 1 or 0. -/
def number? : Datum → Option Binary
  | bool value => some (.ofInt value.toInt)
  | int value => some (.ofInt value)
  | decimal value => some (.ofDecimal value)
  | _ => none

/-- Neither nothing, zero nor empty. -/
def holds (value : Datum) : Bool :=
  match value.number? with
  | some number => number.mantissa != 0
  | none =>
    match value with
    | null | text [] | list [] | object [] => false
    | _ => true

/-- Two values are one key of a table. Numbers are by what they count, truth values among them. -/
def sameKey (a b : Datum) : Bool :=
  match a.number?, b.number? with
  | some m, some n => m.same n
  | none, none =>
    match a.text?, b.text? with
    | some s, some t => s == t
    | none, none =>
      match a, b with
      | null, null => true
      | time s, time t => s.same t
      | _, _ => false
    | _, _ => false
  | _, _ => false

def checkKey : Datum → Except Fault Unit
  | list _ => .error ⟨.mistyped, "unhashable type: 'list'"⟩
  | object _ => .error ⟨.mistyped, "unhashable type: 'dict'"⟩
  | _ => .ok ()

def kindName : Datum → Text
  | null => "NoneType"
  | bool _ => "bool"
  | int _ => "int"
  | decimal _ => "float"
  | text _ => "str"
  | time _ => "datetime.datetime"
  | comparator _ => "FilterComparator"
  | list _ => "list"
  | object _ => "dict"

def characters (t : Text) : List Datum := t.map fun c => text [c]

/-- The items that a value holds: the characters of a text, the names of an object's members. -/
def items : Datum → Except Fault (List Datum)
  | list items => .ok items
  | text value => .ok (characters value)
  | comparator value => .ok (characters value.sign)
  | object members => .ok (members.map fun (name, _) => text name)
  | value => .error ⟨.mistyped, "'" ++ kindName value ++ "' object is not iterable"⟩

end Datum

end ActionQuery
