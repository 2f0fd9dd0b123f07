import ActionQuery.Filter.Error

namespace ActionQuery.Filter

inductive Subject where
  | status
  | nominalTime
  deriving DecidableEq, Repr

namespace Subject

def all : List Subject := [status, nominalTime]

def name : Subject → Text
  | status => "status"
  | nominalTime => "nominal_time"

def column : Subject → Text
  | status => "a.statusStr"
  | nominalTime => "a.nominalTimestamp"

def ofName? (t : Text) : Option Subject := all.find? (·.name = t)

def ofField (field : Datum) : Except Error Subject :=
  match field.checkKey with
  | .error failure => .error (.fault failure)
  | .ok () => (field.text?.bind ofName?).elim (.error (.unknownField field)) .ok

theorem ofName?_name (a : Subject) : ofName? a.name = some a := by cases a <;> decide

end Subject

structure Condition where
  subject : Subject
  comparator : Comparator
  values : List Datum
  deriving Repr

def Condition.wellSized (c : Condition) : Bool :=
  !c.values.isEmpty && (c.comparator.takesMany || c.values.length == 1)

/-- An entry of a filter as it is submitted. -/
structure Entry where
  field : Datum
  comparator : Datum
  values : Datum
  deriving Repr

namespace Entry

/-- A comparator and its sign are one key, its name and other signs are keys of their own. -/
def sameKey (a b : Entry) : Bool :=
  a.field.sameKey b.field && a.comparator.sameKey b.comparator

def checkKey (e : Entry) : Except Fault Unit := do
  e.field.checkKey
  e.comparator.checkKey

/-- Gives the entry with the key of `e` the values of `e`, or appends `e`. -/
def put (e : Entry) : List Entry → List Entry
  | [] => [e]
  | first :: rest =>
    if first.sameKey e then { first with values := e.values } :: rest else first :: put e rest

/-- A filter specification has one entry for each key, in the order of first mention. -/
def specification (entries : List Entry) : Except Fault (List Entry) :=
  entries.foldlM (fun spec e => e.checkKey.map fun () => put e spec) []

/-- The comparator of an entry, by itself, by its name or by a sign. -/
def readComparator (e : Entry) : Except Error Comparator :=
  match e.comparator with
  | .comparator c => .ok c
  | value =>
    match value.text?.bind fun t => (Comparator.ofName? t).or (Comparator.ofSign? t) with
    | some c => .ok c
    | none =>
      .error (.entry (e.field.display ++ value.display) (.unknownComparator value.display))

def condition (e : Entry) : Except Error Condition := do
  let subject ← Subject.ofField e.field
  let comparator ← e.readComparator
  let values ← e.values.items.mapError .fault
  let c : Condition := ⟨subject, comparator, values⟩
  if c.wellSized then return c
  else .error (.valueCount e.field comparator values.length)

end Entry

def Condition.entry (c : Condition) : Entry :=
  ⟨.text c.subject.name, .comparator c.comparator, .list c.values⟩

end ActionQuery.Filter
