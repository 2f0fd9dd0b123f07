import ActionQuery.Calendar.Iso.Printer
import ActionQuery.Fault
import ActionQuery.Text.Digits

namespace ActionQuery.Scope

/-- The greatest number that an action can be asked for by. -/
def maxActionNumber : Nat := 2147483647

inductive FormatError where
  | emptyScope
  | emptyElement (scope : Text)
  | emptyJob
  | unknownRoute (route : Option Text)
  | unreadableTime (text : Text) (reason : Fault)
  | timeRangeShape (token : Text)
  | timeRangeOrder (token : Text)
  | timeRangeAmongIds (token : Text)
  | idShape (token : Text)
  | idRangeShape (token : Text)
  | idRangeOrder (token : Text)
  | notANumber (text : Text)
  | numberTooLarge (text : Text)
  deriving DecidableEq, Repr

namespace FormatError

def token : FormatError → Option Text
  | emptyScope | emptyJob => some []
  | emptyElement scope => some scope
  | unknownRoute route => route
  | unreadableTime text _ | notANumber text | numberTooLarge text => some text
  | timeRangeShape token | timeRangeOrder token | timeRangeAmongIds token | idShape token
  | idRangeShape token | idRangeOrder token => some token

def code : FormatError → Text
  | timeRangeOrder _ => "E0308"
  | _ => "E0302"

def cause? : FormatError → Option Fault
  | unreadableTime _ reason => some reason
  | _ => none

/-- A text that may be missing, inside a sentence. -/
def shown (t : Option Text) : Text := t.getD "None"

def message : FormatError → Text
  | emptyScope => "scope cannot be empty"
  | emptyElement scope => "scope '" ++ scope ++ "' contains an empty element"
  | emptyJob => "jobId cannot be empty"
  | unknownRoute route =>
    "scope type must be one of: date, action; got '" ++ shown route ++ ['\'']
  | unreadableTime text _ => "could not parse '" ++ text ++ "' as a date"
  | timeRangeShape token =>
    "format is wrong for date range '" ++ token ++
      "', an example of correct format is 2009-01-01T01:00Z::2009-05-31T23:59Z"
  | timeRangeOrder token =>
    "start date of range '" ++ token ++ "' should be before its end date"
  | timeRangeAmongIds token =>
    "date range '" ++ token ++ "' is not allowed in an action id scope"
  | idShape token => "format is wrong for action id '" ++ token ++ "'. Integer only."
  | idRangeShape token =>
    "format is wrong for action's range '" ++ token ++
      "', an example of correct format is 1-5"
  | idRangeOrder token =>
    "format is wrong for action's range '" ++ token ++
      "', starting action number of the range should be less than ending action number, " ++
      "an example will be 1-4"
  | notANumber text => "could not parse '" ++ text ++ "' into an integer"
  | numberTooLarge text =>
    "action number '" ++ text ++ "' is out of range, maximum is " ++ Text.ofNat maxActionNumber

end FormatError

inductive Error where
  | format (reason : FormatError)
  | lookupFailed (target : Text) (cause : Fault)
  /-- No action of the job stands at a time that was asked for alone. -/
  | missing (job : Text) (time : Calendar.Stamp)
  /-- A failure that is handed on as it is. -/
  | fault (failure : Fault)
  deriving DecidableEq, Repr

namespace Error

def code? : Error → Option Text
  | format reason => some reason.code
  | lookupFailed .. | missing .. => some "E0603"
  | fault _ => none

def lookupMessage (target cause : Text) : Text :=
  "action lookup failed for '" ++ target ++ "': " ++ cause

def missingMessage (job : Text) (time : Calendar.Stamp) : Text :=
  "coordinator action for job '" ++ job ++ "' at nominal time " ++ time.iso ++ " is missing"

def message : Error → Text
  | format reason => reason.message
  | lookupFailed target cause => lookupMessage target cause.message
  | missing job time => missingMessage job time
  | fault failure => failure.message

def cause? : Error → Option Fault
  | format reason => reason.cause?
  | lookupFailed _ cause => some cause
  | _ => none

end Error

end ActionQuery.Scope
