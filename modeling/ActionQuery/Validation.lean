import ActionQuery.Datum

namespace ActionQuery

inductive Problem where
  | missing
  | notText
  | notInteger
  | badInteger
  | longInteger
  | fraction
  | notAChoice
  | notATime
  | badTime
  | timeOutOfRange
  | notATruthValue
  | badTruthValue
  | notAnObject
  | frozen
  | mismatch (message : Text)
  deriving DecidableEq, Repr

def Problem.label : Problem → Text
  | missing => "missing"
  | notText => "string_type"
  | notInteger => "int_type"
  | badInteger => "int_parsing"
  | longInteger => "int_parsing_size"
  | fraction => "int_from_float"
  | notAChoice => "literal_error"
  | notATime => "datetime_type"
  | badTime => "datetime_from_date_parsing"
  | timeOutOfRange => "datetime_parsing"
  | notATruthValue => "bool_type"
  | badTruthValue => "bool_parsing"
  | notAnObject => "model_type"
  | frozen => "frozen_instance"
  | mismatch _ => "value_error"

/-- A problem with a field, or with the data as a whole. -/
structure Finding where
  field : Option Text
  problem : Problem
  deriving DecidableEq, Repr

/-- Why data was not taken: for what is wrong with it, or because its validation failed. -/
inductive Rejection where
  | invalid (findings : List Finding)
  | fault (failure : Fault)
  deriving DecidableEq, Repr

def Rejection.message : Rejection → Text
  | invalid findings => Text.ofNat findings.length ++ " validation errors"
  | fault failure => failure.message

/-- The failure that a rejection is where only the data as a whole counts: data with something wrong
in it cannot be read. -/
def Rejection.toFault : Rejection → Fault
  | invalid findings => ⟨.unreadable, (invalid findings).message⟩
  | fault failure => failure

/-- The value of one field, or what is wrong with it. -/
abbrev Field (α : Type) := Except Finding α

namespace Field

variable {α : Type}

def finding? : Field α → Option Finding
  | .ok _ => none
  | .error finding => some finding

/-- Reads the value of a field with a reader of values. -/
def read (name : Text) (reader : Datum → Except Problem α) (value : Datum) : Field α :=
  (reader value).mapError (⟨some name, ·⟩)

def required (members : List (Text × Datum)) (name : Text) (reader : Datum → Except Problem α) :
    Field α :=
  match members.lookup name with
  | none => .error ⟨some name, .missing⟩
  | some value => read name reader value

def optional (members : List (Text × Datum)) (name : Text) (reader : Datum → Except Problem α) :
    Field (Option α) :=
  match members.lookup name with
  | none | some .null => .ok none
  | some value => (read name reader value).map some

/-- Reads a field that has a value of its own when it is missing. -/
def withDefault (members : List (Text × Datum)) (name : Text) (default : α)
    (reader : Datum → Except Problem α) : Field α :=
  match members.lookup name with
  | none => .ok default
  | some value => read name reader value

end Field

/-- Integers of this size need more than 64 bits, but for the least one. -/
def wordLimit : Nat := 9223372036854775808

def isWord (n : Int) : Bool := -wordLimit ≤ n && n < wordLimit

/-- The integer that a decimal number is, taken below the limit only. -/
def Decimal.asInteger (value : Decimal) : Except Problem Int :=
  match (Binary.ofDecimal value).integer? with
  | none => .error .fraction
  | some n => if n.natAbs < wordLimit then .ok n else .error .longInteger

def Datum.asText (value : Datum) : Except Problem Text := value.text?.elim (.error .notText) .ok

end ActionQuery
