import ActionQuery.Keyed
import ActionQuery.Validation

namespace ActionQuery

/-- Variables with their values, in the order in which their names came up. -/
abbrev Environment := List (Text × Text)

namespace Environment

def set (env : Environment) (name value : Text) : Environment := Keyed.put Prod.fst (name, value) env

def unset (env : Environment) (name : Text) : Environment := Keyed.erase Prod.fst name env

/-- The mark at the start of the variables that count, in lower case. -/
def mark : Text := "coord_"

/-- The fields that variables stand for. The case of names does not count, and of variables with
one name the last is first. -/
def members (env : Environment) : List (Text × Datum) :=
  env.reverse.filterMap fun (name, value) =>
    let lower := Text.asciiLower name
    if mark.isPrefixOf lower then some (lower.drop mark.length, .text value) else none

end Environment

structure Settings where
  zone : Text
  logLevel : Text
  correlation : Bool
  deriving DecidableEq, Repr

namespace Settings

def usual : Settings := ⟨"UTC", "INFO", true⟩

def trueWords : List Text := [['1'], ['t'], "true", ['y'], "yes", "on"]

def falseWords : List Text := [['0'], ['f'], "false", ['n'], "no", "off"]

/-- A truth value, by one of its words in any case or by 1 and 0. -/
def readTruth : Datum → Except Problem Bool
  | .bool value => .ok value
  | .int value => ofInt value
  | .decimal value =>
    match value.asInteger with
    | .ok n => ofInt n
    | .error _ => .error .notATruthValue
  | value => value.text?.elim (.error .notATruthValue) ofText
where
  ofInt (n : Int) : Except Problem Bool :=
    if n = 1 then .ok true
    else if n = 0 then .ok false
    else if isWord n then .error .badTruthValue
    else .error .notATruthValue
  ofText (t : Text) : Except Problem Bool :=
    let word := Text.asciiLower t
    if trueWords.any (· = word) then .ok true
    else if falseWords.any (· = word) then .ok false
    else .error .badTruthValue

/-- The case of names does not count, but one that is written as it is defined comes first. -/
def foldNames (arguments : List (Text × Datum)) : List (Text × Datum) :=
  arguments.map fun (name, value) => (Text.asciiLower name, value)

/-- The settings that arguments give, that variables give for want of an argument, or that are
usual for want of both. -/
def load (arguments : List (Text × Datum)) (env : Environment) : Except Rejection Settings :=
  let members := arguments ++ foldNames arguments ++ env.members
  let zone := Field.withDefault members "processing_timezone" usual.zone Datum.asText
  let logLevel := Field.withDefault members "log_level" usual.logLevel Datum.asText
  let correlation := Field.withDefault members "otel_log_correlation" usual.correlation readTruth
  match zone, logLevel, correlation with
  | .ok zone, .ok logLevel, .ok correlation => .ok ⟨zone, logLevel, correlation⟩
  | _, _, _ =>
    .error (.invalid [zone.finding?, logLevel.finding?, correlation.finding?].reduceOption)

end Settings

end ActionQuery
