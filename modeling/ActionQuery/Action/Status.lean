import ActionQuery.Text.Basic

namespace ActionQuery

inductive Status where
  | waiting
  | ready
  | submitted
  | running
  | suspended
  | timedOut
  | succeeded
  | killed
  | failed
  | ignored
  | skipped
  deriving DecidableEq, Repr

namespace Status

def all : List Status :=
  [waiting, ready, submitted, running, suspended, timedOut, succeeded, killed, failed, ignored,
    skipped]

def name : Status → Text
  | waiting => "WAITING"
  | ready => "READY"
  | submitted => "SUBMITTED"
  | running => "RUNNING"
  | suspended => "SUSPENDED"
  | timedOut => "TIMEDOUT"
  | succeeded => "SUCCEEDED"
  | killed => "KILLED"
  | failed => "FAILED"
  | ignored => "IGNORED"
  | skipped => "SKIPPED"

/-- The action has not come to an end. -/
def isActive : Status → Bool
  | waiting | ready | submitted | running | suspended => true
  | _ => false

def ofName? (name : Text) : Option Status := all.find? (·.name = name)

theorem mem_all (s : Status) : s ∈ all := by cases s <;> decide

theorem ofName?_name (s : Status) : ofName? s.name = some s := by cases s <;> decide

theorem ofName?_eq_some_iff {name : Text} {s : Status} : ofName? name = some s ↔ name = s.name := by
  constructor
  · intro h
    have := List.find?_some h
    simpa using (of_decide_eq_true this).symm
  · rintro rfl
    exact ofName?_name s

end Status

end ActionQuery
