import ActionQuery.Keyed
import ActionQuery.Logging.Notice
import ActionQuery.Scope.Ids
import ActionQuery.Scope.Lookup
import ActionQuery.Span

namespace ActionQuery.Scope

/-- What a scope stands for, or why it has no answer, and what was done to find out: the questions
to the lookup, the texts that were read as times, and the ids that were passed over. -/
structure Resolution where
  result : Except Error (List (Option Record))
  lookups : List LookupCall
  reads : List Text
  skipped : List Text

namespace Resolution

def ofError (e : Error) : Resolution := ⟨.error e, [], [], []⟩

end Resolution

/-- Reads the elements of a scope of times up to the first that is none, with the texts that were
given to `reader`. -/
def readTimeTokens (reader : TimeReader) : List Text → Except Error (List TimeToken) × List Text
  | [] => (.ok [], [])
  | element :: rest =>
    match TimeToken.ofText reader element with
    | (.error e, reads) => (.error e, reads)
    | (.ok token, reads) =>
      let (tokens, more) := readTimeTokens reader rest
      (tokens.map (token :: ·), reads ++ more)

def TimeToken.call (job : Text) (active : Bool) : TimeToken → LookupCall
  | range r => .inRange job r active
  | single time _ => .atTime job time

/-- What a failed lookup of times makes of a scope. -/
def timeLookupError (job : Text) (reason : Fault) : Error :=
  if reason.isStorage then .lookupFailed job reason else .fault reason

/-- The actions that an element stands for. An action has to be there at a time that stands alone,
and whether it is active does not count. -/
def TimeToken.select (lookup : Lookup) (job : Text) (active : Bool) :
    TimeToken → Except Error (List Record)
  | range r => (lookup.inRange job r active).mapError (timeLookupError job)
  | single time _ =>
    match lookup.atTime job time with
    | .error reason => .error (timeLookupError job reason)
    | .ok none => .error (.missing job time)
    | .ok (some record) => .ok [record]

/-- Adds the actions of one element after another to `known`, each id once. -/
def collect (lookup : Lookup) (job : Text) (active : Bool) :
    List TimeToken → List Record → Except Error (List Record) × List LookupCall
  | [], known => (.ok known, [])
  | token :: rest, known =>
    match token.select lookup job active with
    | .error e => (.error e, [token.call job active])
    | .ok records =>
      let known := Keyed.addNew Record.id known records
      let (result, calls) := collect lookup job active rest known
      (result, token.call job active :: calls)

/-- The actions at the times of a scope, in the order of its elements. Nothing is looked up before
every element is understood. -/
def resolveTimes (lookup : Lookup) (reader : TimeReader) (active : Bool) (job scope : Option Text) :
    Resolution :=
  match checkJob job, split scope with
  | .error e, _ => .ofError (.format e)
  | _, .error e => .ofError (.format e)
  | .ok job, .ok elements =>
    match readTimeTokens reader elements with
    | (.error e, reads) => ⟨.error e, [], reads, []⟩
    | (.ok tokens, reads) =>
      let (result, lookups) := collect lookup job active tokens []
      ⟨result.map (·.map some), lookups, reads, []⟩

/-- Looks up one id after another. An id without an action is passed over, any other failure ends
the search. -/
def follow (lookup : Lookup) : List Text → Resolution
  | [] => ⟨.ok [], [], [], []⟩
  | id :: rest =>
    match lookup.find id with
    | .failed reason => ⟨.error (.lookupFailed id reason), [.byId id], [], []⟩
    | .notFound _ =>
      let found := follow lookup rest
      { found with lookups := .byId id :: found.lookups, skipped := id :: found.skipped }
    | .found record =>
      let found := follow lookup rest
      { found with
        result := found.result.map (record :: ·)
        lookups := .byId id :: found.lookups }

/-- The actions with the numbers of a scope. The order in which ids are looked up is free, and
`arrange` is that order. -/
def resolveIds (lookup : Lookup) (arrange : List Text → List Text) (job scope : Option Text) :
    Resolution :=
  match actionIds job scope with
  | .error e => .ofError e
  | .ok ids => follow lookup (arrange ids)

/-- What the elements of a scope are: nominal times or action numbers. -/
inductive Route where
  | times
  | ids
  deriving DecidableEq, Repr

def Route.name : Route → Text
  | times => "date"
  | ids => "action"

def Route.ofName? (name : Option Text) : Option Route :=
  [Route.times, Route.ids].find? (some ·.name = name)

structure Resolver where
  lookup : Lookup
  reader : TimeReader
  arrange : List Text → List Text := id

/-- The actions of a job that a scope selects; `active` limits the ranges of times only. -/
def Resolver.resolve (r : Resolver) (route : Option Text) (active : Bool)
    (job scope : Option Text) : Resolution :=
  match Route.ofName? route with
  | some .times => resolveTimes r.lookup r.reader active job scope
  | some .ids => resolveIds r.lookup r.arrange job scope
  | none => .ofError (.format (.unknownRoute route))

namespace Resolution

/-- The notice about an id that was passed over names the number in it. -/
def skipNotice (job : Option Text) (id : Text) : Logging.Notice where
  level := .warning
  message :=
    "coord action num=" ++ Text.afterLast '@' id ++ " of job=" ++ FormatError.shown job ++
      " not yet materialized; skipping"

def notices (r : Resolution) (job : Option Text) : List Logging.Notice :=
  r.skipped.map (skipNotice job)

/-- The number of actions is known only of a scope with an answer. -/
def countAttribute (r : Resolution) : List (Text × Datum) :=
  match r.result with
  | .ok actions => [("coord.action_count", .int actions.length)]
  | .error _ => []

def span (r : Resolution) (route job : Option Text) : Span where
  name := "coord.resolve_scope"
  attributes :=
    ("coord.job_id", .text (job.getD [])) :: ("coord.scope_type", route.elim .null .text) ::
      r.countAttribute

end Resolution

end ActionQuery.Scope
