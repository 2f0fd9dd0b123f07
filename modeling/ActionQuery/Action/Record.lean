import ActionQuery.Action.Status
import ActionQuery.Calendar.Stamp
import ActionQuery.Text.Digits

namespace ActionQuery

/-- The id of an action: its job and its number, as a text. -/
def actionId (job number : Text) : Text := job ++ '@' :: number

structure Record where
  job : Text
  number : Int
  nominalTime : Calendar.Instant
  status : Status
  externalId : Option Text
  createdAt : Option Calendar.Instant
  modifiedAt : Option Calendar.Instant
  deriving DecidableEq, Repr

namespace Record

def id (r : Record) : Text := actionId r.job (Text.ofInt r.number)

def isActive (r : Record) : Bool := r.status.isActive

end Record

end ActionQuery
