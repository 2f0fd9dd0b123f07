import ActionQuery.Action.Status
import ActionQuery.Filter.Clause
import ActionQuery.Scope.Token
import ActionQuery.Text.UpperCase

namespace ActionQuery.Filter

open Scope (TimeReader)

def isNameChar (c : Char) : Bool := c.isAlpha || c == '_'

/-- Splits an entry without white space around it into name, comparator and value. -/
def splitEntry (entry : Text) : Option (Text × Comparator × Text) :=
  let name := entry.takeWhile isNameChar
  if name = [] then none
  else
    match Comparator.read ((entry.dropWhile isNameChar).dropWhile Text.isBlank) with
    | none => none
    | some (comparator, rest) =>
      let value := Text.trim rest
      if '\n' ∈ value then none else some (name, comparator, value)

/-- Names count without their case, and one of them has a second spelling. -/
def fieldName (name : Text) : Text :=
  let lower := Text.asciiLower name
  if lower = "nominaltime".toList then Subject.nominalTime.name else lower

def readValue (reader : TimeReader) (entry value : Text) : Subject → Except Error Datum
  | .status =>
    match Status.ofName? (Text.upper value) with
    | some status => .ok (.text status.name)
    | none => .error (.entry entry (.unknownStatus value))
  | .nominalTime =>
    match reader value with
    | .ok time => .ok (.time time)
    | .error reason =>
      .error (if reason.kind = .unreadable then .entry entry (.unreadableTime value reason)
        else .fault reason)

structure Term where
  subject : Subject
  comparator : Comparator
  value : Datum
  deriving Repr

def Term.ofText (reader : TimeReader) (entry : Text) : Except Error Term :=
  match splitEntry entry with
  | none => .error (.entry entry .notAnEntry)
  | some (name, comparator, value) =>
    if value = [] then .error (.entry entry .emptyValue)
    else do
      let subject ← Subject.ofField (.text (fieldName name))
      let value ← readValue reader entry value subject
      return ⟨subject, comparator, value⟩

/-- Adds a value to the condition with its subject and comparator, or a condition for it. -/
def addTerm : List Condition → Term → List Condition
  | [], t => [⟨t.subject, t.comparator, [t.value]⟩]
  | c :: rest, t =>
    if c.subject = t.subject ∧ c.comparator = t.comparator then
      { c with values := c.values ++ [t.value] } :: rest
    else c :: addTerm rest t

def gather (terms : List Term) : List Condition := terms.foldl addTerm []

/-- The entries of a filter text, those of nothing but white space left out. -/
def entryTexts (t : Text) : List Text := ((t.splitOn ';').map Text.trim).filter (· ≠ [])

/-- Reads a filter text; no text is a filter without conditions. -/
def parse (reader : TimeReader) (t : Option Text) : Except Error (List Condition) :=
  ((entryTexts (t.getD [])).mapM (Term.ofText reader)).map gather

/-- Compiles filter texts one after another, each numbered on from the one before it, up to the
first that fails. -/
def compileAll (reader : TimeReader) (start : Int) :
    List (Option Text) → List Clause × Option Error
  | [] => ([], none)
  | t :: rest =>
    match (parse reader t).bind fun conditions => Clause.compile start (conditions.map (·.entry)) with
    | .error e => ([], some e)
    | .ok clause =>
      let (clauses, failure) := compileAll reader clause.next rest
      (clause :: clauses, failure)

end ActionQuery.Filter
