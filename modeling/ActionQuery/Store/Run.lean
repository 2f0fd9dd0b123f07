import ActionQuery.Scope.Resolution
import ActionQuery.Store

namespace ActionQuery.Store

open Calendar (Instant)

/-- A question to a store: a single lookup, or a scope of one of its jobs. -/
inductive Query where
  | lookup (call : Scope.LookupCall)
  | resolve (reader : Scope.TimeReader) (arrange : List Text → List Text) (route : Option Text)
      (active : Bool) (job scope : Option Text)

inductive Step where
  | add (r : Record)
  | submit (data : Datum)
  | materialize (now : Instant) (job number nominalTime status : Datum)
  | ask (query : Query)

inductive Answer where
  | added (r : Record)
  | found (r : Record)
  | first (r : Option Record)
  | within (records : List Record)
  | selected (actions : List (Option Record))

inductive Failure where
  | rejected (reason : Rejection)
  | fault (reason : Fault)
  | scope (reason : Scope.Error)

def Query.answer (s : Store) : Query → Except Failure Answer
  | .lookup (.byId id) => ((s.byId id).map .found).mapError .fault
  | .lookup (.atTime job time) => .ok (.first (s.atTime job time))
  | .lookup (.inRange job range active) => ((s.inRange job range active).map .within).mapError .fault
  | .resolve reader arrange route active job scope =>
    let resolver : Scope.Resolver := ⟨s.lookup, reader, arrange⟩
    ((resolver.resolve route active job scope).result.map .selected).mapError .scope

/-- What comes of data that was submitted. Data that is no record leaves the store as it is. -/
def settle (s : Store) : Except Rejection (Record × Store) → Except Failure Answer × Store
  | .ok (r, after) => (.ok (.added r), after)
  | .error reason => (.error (.rejected reason), s)

def step (s : Store) : Step → Except Failure Answer × Store
  | .add r => (.ok (.added r), s.add r)
  | .submit data => s.settle (s.submit data)
  | .materialize now job number nominalTime status =>
    s.settle (s.materialize now job number nominalTime status)
  | .ask query => (query.answer s, s)

/-- Takes one step after another, with the answer to each. -/
def run (s : Store) : List Step → List (Except Failure Answer) × Store
  | [] => ([], s)
  | first :: rest =>
    let (answer, after) := s.step first
    let (answers, last) := run after rest
    (answer :: answers, last)

end ActionQuery.Store
