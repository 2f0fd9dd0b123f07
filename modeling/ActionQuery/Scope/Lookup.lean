import ActionQuery.Action.Record
import ActionQuery.Scope.Token

namespace ActionQuery.Scope

open Calendar (Stamp)

/-- Answers questions about the actions that exist. Asked by id it may have no record to show. -/
structure Lookup where
  byId : Text → Except Fault (Option Record)
  atTime : Text → Stamp → Except Fault (Option Record)
  inRange : Text → TimeRange → Bool → Except Fault (List Record)

inductive LookupCall where
  | byId (id : Text)
  | atTime (job : Text) (time : Stamp)
  | inRange (job : Text) (range : TimeRange) (active : Bool)
  deriving DecidableEq, Repr

inductive LookupOutcome where
  | found (record : Option Record)
  | notFound (reason : Fault)
  | failed (reason : Fault)
  deriving DecidableEq, Repr

/-- Asks for an action. That there is none is an answer, any other failure is not. -/
def Lookup.find (l : Lookup) (id : Text) : LookupOutcome :=
  match l.byId id with
  | .ok record => .found record
  | .error reason => if reason.kind = .notFound then .notFound reason else .failed reason

end ActionQuery.Scope
