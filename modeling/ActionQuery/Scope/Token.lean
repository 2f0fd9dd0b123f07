import ActionQuery.Scope.Error
import ActionQuery.Text.Blank

namespace ActionQuery.Scope

open Calendar (Stamp)

/-- The elements of a scope, without the white space around them. -/
def split (scope : Option Text) : Except FormatError (List Text) :=
  match scope with
  | none => .error .emptyScope
  | some scope =>
    if Text.blank scope then .error .emptyScope
    else
      let elements := (scope.splitOn ',').map Text.trim
      if [] ∈ elements then .error (.emptyElement scope) else .ok elements

/-- The numbers from `start` to `stop`, both included. -/
structure IdRange where
  start : Int
  stop : Int
  deriving DecidableEq, Repr

def IdRange.numbers (r : IdRange) : List Int :=
  (List.range (r.stop - r.start + 1).toNat).map fun (i : Nat) => r.start + (i : Int)

/-- An element of a scope of actions. A single number stands for its id as it is written. -/
inductive IdToken where
  | range (range : IdRange)
  | single (number : Int) (text : Text)
  deriving DecidableEq, Repr

/-- Reads ASCII digits after an optional plus sign. `otherwise` tells what any other text is. -/
def readActionNumber (t : Text) (otherwise : FormatError) : Except Error Nat :=
  let digits := Text.dropPlus t
  if digits.isEmpty || !digits.all Char.isDigit then .error (.format otherwise)
  else
    match Text.readNumeral digits with
    | .error e => .error (.fault ⟨.unreadable, e.message⟩)
    | .ok n => if maxActionNumber < n then .error (.format (.numberTooLarge t)) else .ok n

def IdToken.ofText (token : Text) : Except Error IdToken :=
  if 1 < (Text.splitAtColons token).length then .error (.format (.timeRangeAmongIds token))
  else
    match token.splitOn '-' with
    | [_] => do
      let number ← readActionNumber token (.idShape token)
      return .single number token
    | [first, second] => do
      let first := Text.trim first
      let second := Text.trim second
      let start ← readActionNumber first (.notANumber first)
      let stop ← readActionNumber second (.notANumber second)
      if stop < start then .error (.format (.idRangeOrder token))
      else return .range ⟨start, stop⟩
    | _ => .error (.format (.idRangeShape token))

/-- The times from `start` to `stop`, both included, as they were asked for by `text`. -/
structure TimeRange where
  start : Stamp
  stop : Stamp
  text : Text
  deriving DecidableEq, Repr

/-- The end of the range is looked at only for a time that is not before its start. -/
def TimeRange.contains (r : TimeRange) (time : Stamp) : Except Fault Bool :=
  match r.start.le? time with
  | none => .error .incomparable
  | some false => .ok false
  | some true =>
    match time.le? r.stop with
    | none => .error .incomparable
    | some inside => .ok inside

inductive TimeToken where
  | range (range : TimeRange)
  | single (time : Stamp) (text : Text)
  deriving DecidableEq, Repr

/-- Reads a text as a time. Only `Fault.Kind.unreadable` says that the text is no time. -/
abbrev TimeReader := Text → Except Fault Stamp

def readTime (reader : TimeReader) (t : Text) : Except Error Stamp :=
  match reader t with
  | .ok time => .ok time
  | .error reason =>
    .error (if reason.kind = .unreadable then .format (.unreadableTime t reason) else .fault reason)

def TimeToken.ofEnds (token : Text) (start stop : Stamp) : Except Error TimeToken :=
  match start.le? stop with
  | none => .error (.fault .incomparable)
  | some false => .error (.format (.timeRangeOrder token))
  | some true => .ok (.range ⟨start, stop, token⟩)

/-- Reads an element: the token, and the texts that were given to `reader` for it in order. -/
def TimeToken.ofText (reader : TimeReader) (token : Text) : Except Error TimeToken × List Text :=
  match Text.splitAtColons token with
  | [_] => ((readTime reader token).map (.single · token), [token])
  | [first, second] =>
    let first := Text.trim first
    let second := Text.trim second
    if first = [] ∨ second = [] then (.error (.format (.timeRangeShape token)), [])
    else
      match readTime reader first with
      | .error e => (.error e, [first])
      | .ok start => ((readTime reader second).bind (TimeToken.ofEnds token start), [first, second])
  | _ => (.error (.format (.timeRangeShape token)), [])

end ActionQuery.Scope
