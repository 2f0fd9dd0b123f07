import ActionQuery.Action.Submission
import ActionQuery.Keyed
import ActionQuery.Scope.Lookup

namespace ActionQuery

open Calendar (Instant Stamp)

/-- The actions that exist, in the order in which their ids were first added. -/
structure Store where
  records : List Record
  distinct : (records.map Record.id).Nodup

namespace Store

def empty : Store := ⟨[], List.nodup_nil⟩

/-- Adds a record, in the place of the one with its id if there is one. -/
def add (s : Store) (r : Record) : Store :=
  ⟨Keyed.put Record.id r s.records, Keyed.nodup_keys_put Record.id r s.distinct⟩

def ofList (records : List Record) : Store := records.foldl add empty

def ids (s : Store) : List Text := s.records.map Record.id

def get? (s : Store) (id : Text) : Option Record := Keyed.get? Record.id id s.records

/-- Adds what the data says, unless it is no record. -/
def submit (s : Store) (data : Datum) : Except Rejection (Record × Store) :=
  (Record.ofDatum data).map fun r => (r, s.add r)

/-- Adds an action that came into being at `now`. -/
def materialize (s : Store) (now : Instant) (job number nominalTime status : Datum) :
    Except Rejection (Record × Store) :=
  s.submit (.object
    [("id", .text (actionId job.display number.display)), ("job_id", job),
      ("action_number", number), ("nominal_time", nominalTime), ("status", status),
      ("created_at", .time now.toStamp), ("last_modified_at", .time now.toStamp)])

def ofJob (s : Store) (job : Text) : List Record :=
  (s.records.filter (·.job = job)).mergeSort fun a b => a.number ≤ b.number

def missing (id : Text) : Fault := ⟨.notFound, "coordinator action '" ++ id ++ "' not found"⟩

def byId (s : Store) (id : Text) : Except Fault Record := (s.get? id).elim (.error (missing id)) .ok

/-- The action of a job at a nominal time, the one with the least number if there are several. -/
def atTime (s : Store) (job : Text) (time : Stamp) : Option Record :=
  (s.ofJob job).find? fun r => r.nominalTime.toStamp.same time

/-- The records within a range, up to the first that cannot be compared with its ends. -/
def within (range : Scope.TimeRange) : List Record → Except Fault (List Record)
  | [] => .ok []
  | r :: rest =>
    match range.contains r.nominalTime.toStamp with
    | .error failure => .error failure
    | .ok inside => (within range rest).map fun records => if inside then r :: records else records

/-- The actions of a job within a range, on demand only those that have not come to an end. -/
def inRange (s : Store) (job : Text) (range : Scope.TimeRange) (active : Bool) :
    Except Fault (List Record) :=
  (within range (s.ofJob job)).map fun records =>
    if active then records.filter Record.isActive else records

def lookup (s : Store) : Scope.Lookup where
  byId id := (s.byId id).map some
  atTime job time := .ok (s.atTime job time)
  inRange := s.inRange

end Store

end ActionQuery
