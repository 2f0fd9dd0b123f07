import ActionQuery.Action.Record
import ActionQuery.Calendar.Timestamp
import ActionQuery.Text.Integer
import ActionQuery.Validation

namespace ActionQuery.Record

open Calendar (Instant Stamp)

def readNumberText (t : Text) : Except Problem Int :=
  if Text.startsOverlong t then .error .longInteger
  else (Text.readInteger? t).elim (.error .badInteger) .ok

def readNumber : Datum → Except Problem Int
  | .bool value => .ok value.toInt
  | .int value => .ok value
  | .decimal value => value.asInteger
  | value => value.text?.elim (.error .notInteger) readNumberText

def readStatus (value : Datum) : Except Problem Status :=
  (value.text?.bind Status.ofName?).elim (.error .notAChoice) .ok

def textProblem : Calendar.Timestamp.Error → Problem
  | .yearZero => .timeOutOfRange
  | _ => .badTime

def readStamp : Datum → Except Problem Stamp
  | .time value => .ok value
  | .int value =>
    if Binary.holdsInt value then
      (Calendar.Timestamp.ofCount (.ofInt value)).mapError fun _ => .timeOutOfRange
    else .error .notATime
  | .decimal value => (Calendar.Timestamp.ofDecimal value).mapError fun _ => .timeOutOfRange
  | value =>
    value.text?.elim (.error .notATime) fun t =>
      (Calendar.Timestamp.ofText t).mapError textProblem

/-- Takes a stamp to UTC, a local one being in UTC already. -/
def toUtc (s : Stamp) : Except Fault Instant := s.toUtc?.elim (.error .timeOutOfRange) .ok

def fieldToUtc : Field Stamp → Except Fault (Field Instant)
  | .ok stamp => (toUtc stamp).map .ok
  | .error finding => .ok (.error finding)

def optionalToUtc : Field (Option Stamp) → Except Fault (Field (Option Instant))
  | .ok none => .ok (.ok none)
  | .ok (some stamp) => (toUtc stamp).map fun instant => .ok (some instant)
  | .error finding => .ok (.error finding)

/-- The fields of a record, each read on its own. -/
structure Fields where
  id : Field Text
  job : Field Text
  number : Field Int
  nominalTime : Field Instant
  status : Field Status
  externalId : Field (Option Text)
  createdAt : Field (Option Instant)
  modifiedAt : Field (Option Instant)

def Fields.findings (f : Fields) : List Finding :=
  [f.id.finding?, f.job.finding?, f.number.finding?, f.nominalTime.finding?, f.status.finding?,
    f.externalId.finding?, f.createdAt.finding?, f.modifiedAt.finding?].reduceOption

/-- Reads the fields. A time that UTC cannot express stops it, whatever is wrong elsewhere. -/
def Fields.read (members : List (Text × Datum)) : Except Fault Fields := do
  let nominalTime ← fieldToUtc (Field.required members "nominal_time" readStamp)
  let createdAt ← optionalToUtc (Field.optional members "created_at" readStamp)
  let modifiedAt ← optionalToUtc (Field.optional members "last_modified_at" readStamp)
  return {
    id := Field.required members "id" Datum.asText
    job := Field.required members "job_id" Datum.asText
    number := Field.required members "action_number" readNumber
    nominalTime
    status := Field.required members "status" readStatus
    externalId := Field.optional members "external_id" Datum.asText
    createdAt
    modifiedAt }

/-- The record of fields without a finding, and the id that was submitted for it. -/
def Fields.record? (f : Fields) : Except Finding (Text × Record) := do
  let id ← f.id
  return (id, {
    job := ← f.job
    number := ← f.number
    nominalTime := ← f.nominalTime
    status := ← f.status
    externalId := ← f.externalId
    createdAt := ← f.createdAt
    modifiedAt := ← f.modifiedAt })

def mismatch (id : Text) (r : Record) : Problem :=
  .mismatch ("action id " ++ Text.quote id ++ " does not match " ++ r.id)

/-- Takes submitted data for a record. Its id is looked at when every field is valid. -/
def ofMembers (members : List (Text × Datum)) : Except Rejection Record :=
  match Fields.read members with
  | .error failure => .error (.fault failure)
  | .ok fields =>
    match fields.record? with
    | .error _ => .error (.invalid fields.findings)
    | .ok (id, record) =>
      if id = record.id then .ok record
      else .error (.invalid [⟨none, mismatch id record⟩])

def ofDatum : Datum → Except Rejection Record
  | .object members => ofMembers members
  | _ => .error (.invalid [⟨none, .notAnObject⟩])

/-- A record does not change: this is the answer to setting one of its fields. Names that start
with an underscore are no fields, and what is set by them does not show. -/
def setField (name : Text) : Except Rejection Unit :=
  if name.head? = some '_' then .ok () else .error (.invalid [⟨some name, .frozen⟩])

end ActionQuery.Record
