import ActionQuery.Filter.Condition
import ActionQuery.Logging.Notice
import ActionQuery.Span

namespace ActionQuery.Filter

/-- A fragment of a query with numbered placeholders, the values bound to them, and the first
number that is free after it. -/
structure Clause where
  text : Text
  params : List (Text × Datum)
  next : Int
  deriving Repr

def paramName (index : Int) : Text := 'p' :: Text.ofInt index

def bind (start : Int) : List Datum → List (Text × Datum)
  | [] => []
  | value :: rest => (paramName start, value) :: bind (start + 1) rest

def placeholders (start : Int) : Nat → List Text
  | 0 => []
  | count + 1 => (':' :: paramName start) :: placeholders (start + 1) count

namespace Condition

def operator (c : Condition) (marks : Text) : Text :=
  match c.comparator with
  | .equals => "IN (" ++ marks ++ [')']
  | .notEquals => "NOT IN (" ++ marks ++ [')']
  | comparator => comparator.sign ++ ' ' :: marks

def text (start : Int) (c : Condition) : Text :=
  " AND " ++ c.subject.column ++ ' ' ::
    c.operator (Text.join ", " (placeholders start c.values.length))

end Condition

def conditionTexts (start : Int) : List Condition → Text
  | [] => []
  | c :: rest => c.text start ++ conditionTexts (start + c.values.length) rest

def allValues (conditions : List Condition) : List Datum := conditions.flatMap Condition.values

namespace Clause

/-- The clause of conditions, whose placeholders are numbered from `start`. -/
def ofConditions (start : Int) (conditions : List Condition) : Clause where
  text := conditionTexts start conditions ++ [' ']
  params := bind start (allValues conditions)
  next := start + (allValues conditions).length

/-- Compiles a specification; its first entry that states no condition decides the error. -/
def compile (start : Int) (entries : List Entry) : Except Error Clause :=
  (entries.mapM Entry.condition).map (ofConditions start)

/-- Compiles a specification from number 1 and appends the clause to a buffer. -/
def append (buffer : List Text) (entries : List Entry) :
    Except Error (List (Text × Datum)) × List Text :=
  match compile 1 entries with
  | .ok clause => (.ok clause.params, buffer ++ [clause.text])
  | .error e => (.error e, buffer)

/-- Appends one clause after another to a buffer, with the answer to each specification. -/
def appendAll (buffer : List Text) :
    List (List Entry) → List (Except Error (List (Text × Datum))) × List Text
  | [] => ([], buffer)
  | entries :: rest =>
    let (answer, after) := append buffer entries
    let (answers, last) := appendAll after rest
    (answer :: answers, last)

def span (entries : List Entry) : Span where
  name := "coord.build_filter_clause"
  attributes := [("coord.filter_entries", .int entries.length)]

def notice (entries : List Entry) (c : Clause) : Logging.Notice where
  level := .debug
  message :=
    "compiled filter clause entries=" ++ Text.ofNat entries.length ++ " params=" ++
      Text.ofNat c.params.length

/-- What is logged about a specification: nothing unless it was compiled. -/
def notices (entries : List Entry) : Except Error Clause → List Logging.Notice
  | .ok c => [notice entries c]
  | .error _ => []

end Clause

end ActionQuery.Filter
