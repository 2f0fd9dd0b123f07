import ActionQuery.Action.Record
import ActionQuery.Distinct
import ActionQuery.Scope.Token

namespace ActionQuery.Scope

/-- A scope needs a job with something but white space in its name. -/
def checkJob (job : Option Text) : Except FormatError Text :=
  match job with
  | some job => if Text.blank job then .error .emptyJob else .ok job
  | none => .error .emptyJob

def IdToken.numberTexts : IdToken → List Text
  | range r => r.numbers.map Text.ofInt
  | single _ text => [text]

/-- The ids that the elements of a scope name, each once, in order of first mention. -/
def expandIds (job : Text) (tokens : List IdToken) : List Text :=
  (distinct (tokens.flatMap IdToken.numberTexts)).map (actionId job)

def readIdTokens (scope : Option Text) : Except Error (List IdToken) :=
  match split scope with
  | .error e => .error (.format e)
  | .ok elements => elements.mapM IdToken.ofText

def actionIds (job scope : Option Text) : Except Error (List Text) :=
  match checkJob job with
  | .error e => .error (.format e)
  | .ok job => (readIdTokens scope).map (expandIds job)

end ActionQuery.Scope
