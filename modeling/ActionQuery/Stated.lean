import ActionQuery.Filter.Error
import ActionQuery.Scope.Error

namespace ActionQuery

/-- Something that an error is stated with: data, or a failure that came before. -/
inductive Stated.Argument where
  | datum (value : Datum)
  | failure (value : Fault)

inductive Stated.Kind where
  | query
  | storage
  | notFound
  | scopeFormat
  | filterField
  | valueCount
  | filterEntry
  | lookupFailed
  | missingAction
  deriving DecidableEq, Repr

structure Stated where
  kind : Stated.Kind
  message : Text
  code : Datum
  about : List (Text × Datum)

namespace Stated

namespace Argument

def display : Argument → Text
  | datum value => value.display
  | failure value => value.message

def datum? : Argument → Option Datum
  | datum value => some value
  | failure _ => none

def literal? (a : Argument) : Option Text := a.datum?.map Datum.literal

end Argument

structure Arguments where
  inOrder : List Argument
  byName : List (Text × Argument)

namespace Arguments

/-- The argument at a place, which may be given by its name instead. -/
def find (a : Arguments) (place : Nat) (name : Text) : Option Argument :=
  a.inOrder[place]?.or (a.byName.lookup name)

def findDatum (a : Arguments) (place : Nat) (name : Text) : Option Datum :=
  (a.find place name).bind Argument.datum?

/-- The arguments of an error with no wording of its own: one is its message, several are listed. -/
def plainMessage (a : Arguments) : Option Text :=
  match a.inOrder with
  | [] => some []
  | [argument] => some argument.display
  | arguments => (arguments.mapM Argument.literal?).map fun literals =>
      ['('] ++ Text.join ", " literals ++ [')']

end Arguments

def Kind.code : Kind → Text
  | query | scopeFormat => "E0302"
  | storage | lookupFailed | missingAction => "E0603"
  | notFound => "E0605"
  | filterField | valueCount | filterEntry => "E0420"

def plain (kind : Kind) (a : Arguments) : Option Stated :=
  a.plainMessage.map fun message => ⟨kind, message, .text kind.code, []⟩

/-- An error about a scope may have a message and a code of its own. -/
def scopeFormat (a : Arguments) : Option Stated := do
  let token ← a.findDatum 0 "token"
  let message := (a.findDatum 1 "message").getD .null
  let code := ((a.byName.lookup "code".toList).bind Argument.datum?).getD
    (.text Kind.scopeFormat.code)
  let shown := if message.holds then message.display else "invalid scope '" ++ token.display ++ ['\'']
  return ⟨.scopeFormat, shown, code, [("token", token)]⟩

def filterField (a : Arguments) : Option Stated := do
  let field ← a.findDatum 0 "field"
  return {
    kind := .filterField
    message := Filter.Error.fieldMessage field.display
    code := .text Kind.filterField.code
    about := [("field", field)] }

def signOf : Datum → Text
  | .comparator value => value.sign
  | value => value.display

def valueCount (a : Arguments) : Option Stated := do
  let field ← a.findDatum 0 "field"
  let comparator ← a.findDatum 1 "comparator"
  let count ← a.findDatum 2 "count"
  let isZero := count.number?.any (·.mantissa = 0)
  return {
    kind := .valueCount
    message := Filter.Error.countMessage field.display (signOf comparator)
      (if isZero then none else some count.display)
    code := .text Kind.valueCount.code
    about := [("field", field), ("comparator", comparator), ("count", count)] }

def filterEntry (a : Arguments) : Option Stated := do
  let entry ← a.findDatum 0 "entry"
  let reason ← a.find 1 "reason"
  return {
    kind := .filterEntry
    message := Filter.Error.entryMessage entry.display reason.display
    code := .text Kind.filterEntry.code
    about := [("entry", entry)] }

def lookupFailed (a : Arguments) : Option Stated := do
  let target ← a.findDatum 0 "target"
  let cause ← a.find 1 "cause"
  return {
    kind := .lookupFailed
    message := Scope.Error.lookupMessage target.display cause.display
    code := .text Kind.lookupFailed.code
    about := [("target", target)] }

def missingAction (a : Arguments) : Option Stated := do
  let job ← a.findDatum 0 "job_id"
  let time ← a.findDatum 1 "nominal_time"
  match time with
  | .time stamp =>
    return {
      kind := .missingAction
      message := Scope.Error.missingMessage job.display stamp
      code := .text Kind.missingAction.code
      about := [("job_id", job), ("nominal_time", time)] }
  | _ => none

/-- The error of a kind, unless an argument for it is missing or unfit. -/
def ofArguments (a : Arguments) : Kind → Option Stated
  | .query => plain .query a
  | .storage => plain .storage a
  | .notFound => plain .notFound a
  | .scopeFormat => scopeFormat a
  | .filterField => filterField a
  | .valueCount => valueCount a
  | .filterEntry => filterEntry a
  | .lookupFailed => lookupFailed a
  | .missingAction => missingAction a

end Stated

end ActionQuery
