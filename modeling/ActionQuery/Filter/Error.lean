import ActionQuery.Datum

namespace ActionQuery.Filter

inductive Reason where
  | notAnEntry
  | emptyValue
  | unknownStatus (value : Text)
  | unreadableTime (value : Text) (reason : Fault)
  | unknownComparator (spelling : Text)
  deriving DecidableEq, Repr

def Reason.message : Reason → Text
  | notAnEntry => "expected <field><operator><value>"
  | emptyValue => "value cannot be empty"
  | unknownStatus value => "unknown status '" ++ value ++ ['\'']
  | unreadableTime value _ => "could not parse '" ++ value ++ "' as a date"
  | unknownComparator spelling => "unsupported comparator '" ++ spelling ++ ['\'']

inductive Error where
  | unknownField (field : Datum)
  | valueCount (field : Datum) (comparator : Comparator) (count : Nat)
  | entry (entry : Text) (reason : Reason)
  /-- A failure that is handed on as it is. -/
  | fault (failure : Fault)
  deriving Repr

namespace Error

def code? : Error → Option Text
  | fault _ => none
  | _ => some "E0420"

def cause? : Error → Option Fault
  | entry _ (.unreadableTime _ reason) => some reason
  | _ => none

def fieldMessage (field : Text) : Text := "invalid filter field '" ++ field ++ ['\'']

/-- The wording of an error about a number of values, `count` being missing when it is zero. -/
def countMessage (field sign : Text) (count : Option Text) : Text :=
  "filter '" ++ field ++ sign ++
    match count with
    | none => "' requires at least 1 value".toList
    | some count => "' can't have more than 1 value, got " ++ count

def entryMessage (entry reason : Text) : Text :=
  "invalid filter entry '" ++ entry ++ "', " ++ reason

def message : Error → Text
  | unknownField field => fieldMessage field.display
  | valueCount field comparator count =>
    countMessage field.display comparator.sign (if count = 0 then none else some (Text.ofNat count))
  | entry text reason => entryMessage text reason.message
  | fault failure => failure.message

end Error

end ActionQuery.Filter
