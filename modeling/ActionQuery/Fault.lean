import ActionQuery.Text.Basic

namespace ActionQuery

/-- What kind of failure stopped an operation. A failure of a narrower sort is of the kind that it
belongs to. -/
inductive Fault.Kind where
  | unreadable
  | outOfRange
  | mistyped
  | storage
  | notFound
  | other (name : Text)
  deriving DecidableEq, Repr

/-- A failure that is not a verdict on the query. -/
structure Fault where
  kind : Fault.Kind
  message : Text
  deriving DecidableEq, Repr

namespace Fault

/-- A failure of the store, a missing action being one. -/
def isStorage (f : Fault) : Bool :=
  match f.kind with
  | .storage | .notFound => true
  | _ => false

def timeOutOfRange : Fault := ⟨.outOfRange, "date value out of range"⟩

/-- A local stamp and a fixed one have no order. -/
def incomparable : Fault := ⟨.mistyped, "can't compare offset-naive and offset-aware datetimes"⟩

end Fault

end ActionQuery
