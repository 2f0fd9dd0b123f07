import ActionQuery.Action.Submission
import ActionQuery.Proofs.CivilDays
import ActionQuery.Proofs.Elements

/-!
# Records in normal form

Data for a record is read field by field. What is read is put in normal form by taking its times to
UTC, and the record stands for it if the id that was submitted is the one that the job and the number
make. The number is written anew for this, so how it was submitted does not count. A record is in
normal form itself: data that is made of its values is taken for it again.
-/

namespace ActionQuery

open Calendar (Instant Stamp)

namespace Calendar.Stamp

variable {s : Stamp} {i : Instant}

/-- Clocks in UTC show the stamp in the years 1 to 9999. -/
def HasUtc (s : Stamp) : Prop := 0 ≤ s.position ∧ s.position < spanMicros

instance (s : Stamp) : Decidable s.HasUtc :=
  inferInstanceAs (Decidable (_ ∧ _))

theorem toUtc?_eq_some_iff : s.toUtc? = some i ↔ i.toStamp.position = s.position := by
  rw [toUtc?, WallTime.at?_eq_some_iff, i.position_toStamp, position]

theorem exists_toUtc?_iff : (∃ i, s.toUtc? = some i) ↔ s.HasUtc := by
  constructor
  · rintro ⟨i, hi⟩
    have hplace : (i.utc.micros : Int) = s.position := WallTime.at?_eq_some_iff.1 hi
    have hlt := i.utc.micros_lt
    constructor <;> omega
  · rintro ⟨hlower, hupper⟩
    have hlt : s.position.toNat < spanMicros := by omega
    refine ⟨⟨⟨s.position.toNat, hlt⟩⟩, WallTime.at?_eq_some_iff.2 ?_⟩
    exact Int.toNat_of_nonneg hlower

end Calendar.Stamp

theorem Datum.asText_eq_ok_iff {value : Datum} {t : Text} :
    value.asText = .ok t ↔ value.text? = some t := by
  rw [asText]
  cases value.text? <;> simp

theorem Record.readStatus_eq_ok_iff {value : Datum} {s : Status} :
    readStatus value = .ok s ↔ value.text? = some s.name := by
  rw [readStatus]
  cases value.text? with
  | none => simp
  | some name =>
      rw [Option.bind_some, Option.some.injEq, ← Status.ofName?_eq_some_iff]
      cases Status.ofName? name <;> simp

namespace Field

variable {α : Type} {members : List (Text × Datum)} {name : Text}
  {reader : Datum → Except Problem α}

theorem required_eq_ok_iff {a : α} :
    required members name reader = .ok a ↔
      ∃ value, members.lookup name = some value ∧ reader value = .ok a := by
  rw [required]
  cases members.lookup name with
  | none => simp
  | some value => simp [read, mapError_eq_ok_iff]

theorem optional_of_ok {value : Datum} {a : α} (hlookup : members.lookup name = some value)
    (hnull : value ≠ .null) (hread : reader value = .ok a) :
    optional members name reader = .ok (some a) := by
  rw [optional, hlookup]
  split
  · contradiction
  · rename_i heq
    exact absurd (Option.some.inj heq) hnull
  · rename_i heq
    rw [← Option.some.inj heq, read, hread]
    rfl

theorem optional_of_lookup {write : α → Datum} {value : Option α}
    (hlookup : members.lookup name = some (value.elim .null write))
    (hread : ∀ a, reader (write a) = .ok a) (hnull : ∀ a, write a ≠ .null) :
    optional members name reader = .ok value := by
  cases value with
  | none => rw [optional, hlookup, Option.elim_none]
  | some a => exact optional_of_ok hlookup (hnull a) (hread a)

end Field

namespace Record

/-- The values of the fields of submitted data, with times as they were written. -/
structure Reading where
  id : Text
  job : Text
  number : Int
  nominalTime : Stamp
  status : Status
  externalId : Option Text
  createdAt : Option Stamp
  modifiedAt : Option Stamp

/-- Every field of the data is valid on its own, and these are the values of the fields. -/
structure Reads (members : List (Text × Datum)) (v : Reading) : Prop where
  id : Field.required members "id" Datum.asText = .ok v.id
  job : Field.required members "job_id" Datum.asText = .ok v.job
  number : Field.required members "action_number" readNumber = .ok v.number
  nominalTime : Field.required members "nominal_time" readStamp = .ok v.nominalTime
  status : Field.required members "status" readStatus = .ok v.status
  externalId : Field.optional members "external_id" Datum.asText = .ok v.externalId
  createdAt : Field.optional members "created_at" readStamp = .ok v.createdAt
  modifiedAt : Field.optional members "last_modified_at" readStamp = .ok v.modifiedAt

def Reading.canonicalId (v : Reading) : Text := actionId v.job (Text.ofInt v.number)

structure Reading.HasUtc (v : Reading) : Prop where
  nominalTime : v.nominalTime.HasUtc
  createdAt : ∀ s ∈ v.createdAt, s.HasUtc
  modifiedAt : ∀ s ∈ v.modifiedAt, s.HasUtc

/-- A record has the values that were read, with its times at the same places of the time line but
in UTC. A local time is placed as if it were in UTC. -/
structure Reading.Settles (v : Reading) (r : Record) : Prop where
  job : r.job = v.job
  number : r.number = v.number
  nominalTime : r.nominalTime.toStamp.position = v.nominalTime.position
  status : r.status = v.status
  externalId : r.externalId = v.externalId
  createdAt : r.createdAt.map (·.toStamp.position) = v.createdAt.map Stamp.position
  modifiedAt : r.modifiedAt.map (·.toStamp.position) = v.modifiedAt.map Stamp.position

theorem Reading.Settles.id_eq {v : Reading} {r : Record} (h : v.Settles r) :
    r.id = v.canonicalId := by
  rw [Record.id, canonicalId, h.job, h.number]

def toReading (r : Record) : Reading where
  id := r.id
  job := r.job
  number := r.number
  nominalTime := r.nominalTime.toStamp
  status := r.status
  externalId := r.externalId
  createdAt := r.createdAt.map Instant.toStamp
  modifiedAt := r.modifiedAt.map Instant.toStamp

theorem settles_toReading (r : Record) : r.toReading.Settles r where
  job := rfl
  number := rfl
  nominalTime := rfl
  status := rfl
  externalId := rfl
  createdAt := by rw [toReading, Option.map_map]; rfl
  modifiedAt := by rw [toReading, Option.map_map]; rfl

theorem toUtc_eq_ok_iff {s : Stamp} {i : Instant} :
    toUtc s = .ok i ↔ i.toStamp.position = s.position := by
  rw [← Stamp.toUtc?_eq_some_iff, toUtc]
  cases s.toUtc? <;> simp

theorem fieldToUtc_eq_ok_iff {field : Field Stamp} {time : Instant} :
    fieldToUtc field = .ok (.ok time) ↔
      ∃ s, field = .ok s ∧ time.toStamp.position = s.position := by
  cases field with
  | error finding => simp [fieldToUtc]
  | ok s => simp [fieldToUtc, map_eq_ok_iff, toUtc_eq_ok_iff]

theorem optionalToUtc_eq_ok_iff {field : Field (Option Stamp)} {time : Option Instant} :
    optionalToUtc field = .ok (.ok time) ↔
      ∃ s, field = .ok s ∧ time.map (·.toStamp.position) = s.map Stamp.position := by
  cases field with
  | error finding => simp [optionalToUtc]
  | ok s =>
      cases s with
      | none => cases time <;> simp [optionalToUtc]
      | some s =>
          simp only [optionalToUtc, map_eq_ok_iff, toUtc_eq_ok_iff, Except.ok.injEq,
            exists_eq_left']
          constructor
          · rintro ⟨i, hplace, rfl⟩
            exact congrArg some hplace
          · intro h
            obtain ⟨i, rfl, hplace⟩ := Option.map_eq_some_iff.1 h
            exact ⟨i, hplace, rfl⟩

/-- The fields of data that was read as this id and this record. -/
def Fields.ofRecord (id : Text) (r : Record) : Fields where
  id := .ok id
  job := .ok r.job
  number := .ok r.number
  nominalTime := .ok r.nominalTime
  status := .ok r.status
  externalId := .ok r.externalId
  createdAt := .ok r.createdAt
  modifiedAt := .ok r.modifiedAt

theorem Fields.record?_eq_ok_iff {fields : Fields} {id : Text} {r : Record} :
    fields.record? = .ok (id, r) ↔ fields = ofRecord id r := by
  constructor
  · intro h
    simp only [record?, bind_eq_ok_iff] at h
    obtain ⟨_, hid, _, hjob, _, hnumber, _, htime, _, hstatus, _, hexternal, _, hcreated, _,
      hmodified, hpair⟩ := h
    cases fields
    cases hpair
    simp only [ofRecord, mk.injEq]
    exact ⟨hid, hjob, hnumber, htime, hstatus, hexternal, hcreated, hmodified⟩
  · rintro rfl
    rfl

theorem Fields.read_eq_ok_iff {members : List (Text × Datum)} {id : Text} {r : Record} :
    Fields.read members = .ok (ofRecord id r) ↔
      ∃ v, Reads members v ∧ v.Settles r ∧ v.id = id := by
  simp only [Fields.read, bind_eq_ok_iff]
  constructor
  · -- the times are read and then settled, the other fields are as they are read
    rintro ⟨_, htime, _, hcreated, _, hmodified, hfields⟩
    simp only [pure, Except.pure, ofRecord, Except.ok.injEq, mk.injEq] at hfields
    obtain ⟨hid, hjob, hnumber, rfl, hstatus, hexternal, rfl, rfl⟩ := hfields
    obtain ⟨time, hread, hplace⟩ := fieldToUtc_eq_ok_iff.1 htime
    obtain ⟨created, hread_created, hplace_created⟩ := optionalToUtc_eq_ok_iff.1 hcreated
    obtain ⟨modified, hread_modified, hplace_modified⟩ := optionalToUtc_eq_ok_iff.1 hmodified
    exact ⟨⟨id, r.job, r.number, time, r.status, r.externalId, created, modified⟩,
      ⟨hid, hjob, hnumber, hread, hstatus, hexternal, hread_created, hread_modified⟩,
      ⟨rfl, rfl, hplace, rfl, rfl, hplace_created, hplace_modified⟩, rfl⟩
  · rintro ⟨v, hreads, hsettles, rfl⟩
    refine ⟨_, fieldToUtc_eq_ok_iff.2 ⟨_, hreads.nominalTime, hsettles.nominalTime⟩, _,
      optionalToUtc_eq_ok_iff.2 ⟨_, hreads.createdAt, hsettles.createdAt⟩, _,
      optionalToUtc_eq_ok_iff.2 ⟨_, hreads.modifiedAt, hsettles.modifiedAt⟩, ?_⟩
    rw [hreads.id, hreads.job, hreads.number, hreads.status, hreads.externalId, ofRecord,
      hsettles.job, hsettles.number, hsettles.status, hsettles.externalId]
    rfl

/-- Data whose fields are valid and have a place in UTC is decided by its id alone. -/
theorem ofMembers_of_settles {members : List (Text × Datum)} {v : Reading} {r : Record}
    (hreads : Reads members v) (hsettles : v.Settles r) :
    ofMembers members =
      if v.id = r.id then .ok r else .error (.invalid [⟨none, mismatch v.id r⟩]) := by
  have hfields : Fields.read members = .ok (Fields.ofRecord v.id r) :=
    Fields.read_eq_ok_iff.2 ⟨v, hreads, hsettles, rfl⟩
  have hrecord : (Fields.ofRecord v.id r).record? = .ok (v.id, r) :=
    Fields.record?_eq_ok_iff.2 rfl
  simp only [ofMembers, hfields, hrecord]

theorem ofMembers_eq_ok_iff {members : List (Text × Datum)} {r : Record} :
    ofMembers members = .ok r ↔
      ∃ v, Reads members v ∧ v.Settles r ∧ v.id = v.canonicalId := by
  constructor
  · intro h
    unfold ofMembers at h
    split at h
    · cases h
    · rename_i fields hfields
      split at h
      · cases h
      · rename_i id record hrecord
        split at h
        · rename_i hid
          cases h
          rw [Fields.record?_eq_ok_iff.1 hrecord] at hfields
          obtain ⟨v, hreads, hsettles, hgiven⟩ := Fields.read_eq_ok_iff.1 hfields
          exact ⟨v, hreads, hsettles, (hgiven.trans hid).trans hsettles.id_eq⟩
        · cases h
  · rintro ⟨v, hreads, hsettles, hid⟩
    rw [ofMembers_of_settles hreads hsettles, if_pos (hid.trans hsettles.id_eq.symm)]

/-- Data that is read this way: the values under the names of their fields. -/
def Reading.members (v : Reading) : List (Text × Datum) :=
  [("id", .text v.id), ("job_id", .text v.job), ("action_number", .int v.number),
    ("nominal_time", .time v.nominalTime), ("status", .text v.status.name),
    ("external_id", v.externalId.elim .null .text), ("created_at", v.createdAt.elim .null .time),
    ("last_modified_at", v.modifiedAt.elim .null .time)]

theorem Reading.reads_members (v : Reading) : Reads v.members v where
  id := rfl
  job := rfl
  number := rfl
  nominalTime := rfl
  status := Field.required_eq_ok_iff.2 ⟨_, rfl, readStatus_eq_ok_iff.2 rfl⟩
  externalId := Field.optional_of_lookup rfl (fun _ => rfl) (by simp)
  createdAt := Field.optional_of_lookup rfl (fun _ => rfl) (by simp)
  modifiedAt := Field.optional_of_lookup rfl (fun _ => rfl) (by simp)

def data (r : Record) : Datum := .object r.toReading.members

theorem ofDatum_data (r : Record) : ofDatum r.data = .ok r := by
  rw [data, ofDatum, ofMembers_eq_ok_iff]
  exact ⟨r.toReading, r.toReading.reads_members, r.settles_toReading, r.settles_toReading.id_eq⟩

theorem exists_position_eq {stamp : Option Stamp} (h : ∀ s ∈ stamp, s.HasUtc) :
    ∃ time : Option Instant, time.map (·.toStamp.position) = stamp.map Stamp.position := by
  cases stamp with
  | none => exact ⟨none, rfl⟩
  | some s =>
      obtain ⟨i, hi⟩ := Stamp.exists_toUtc?_iff.2 (h s rfl)
      exact ⟨some i, congrArg some (Stamp.toUtc?_eq_some_iff.1 hi)⟩

theorem Reading.HasUtc.exists_settles {v : Reading} (h : v.HasUtc) : ∃ r, v.Settles r := by
  obtain ⟨time, htime⟩ := Stamp.exists_toUtc?_iff.2 h.nominalTime
  obtain ⟨created, hcreated⟩ := exists_position_eq h.createdAt
  obtain ⟨modified, hmodified⟩ := exists_position_eq h.modifiedAt
  exact ⟨⟨v.job, v.number, time, v.status, v.externalId, created, modified⟩,
    ⟨rfl, rfl, Stamp.toUtc?_eq_some_iff.1 htime, rfl, rfl, hcreated, hmodified⟩⟩

theorem ofMembers_eq_error_iff {members : List (Text × Datum)} {v : Reading} {reason : Rejection}
    (hreads : Reads members v) (hutc : v.HasUtc) :
    ofMembers members = .error reason ↔ v.id ≠ v.canonicalId ∧
      reason = .invalid [⟨none, .mismatch ("action id " ++ Text.quote v.id ++ " does not match " ++
        v.canonicalId)⟩] := by
  obtain ⟨r, hsettles⟩ := hutc.exists_settles
  rw [ofMembers_of_settles hreads hsettles, mismatch, hsettles.id_eq]
  by_cases hid : v.id = v.canonicalId
  · simp [hid]
  · rw [if_neg hid, Except.error.injEq, eq_comm, and_iff_right hid]

theorem ofDatum_eq_ok_iff {data : Datum} {r : Record} :
    ofDatum data = .ok r ↔ ∃ members v, data = .object members ∧ Reads members v ∧ v.Settles r ∧
      v.id = v.canonicalId := by
  cases data with
  | object members => simp [ofDatum, ofMembers_eq_ok_iff]
  | _ => simp [ofDatum]

/-- A record is accepted under its own id and with its own status, as they were submitted. -/
theorem text_of_ofDatum {members : List (Text × Datum)} {r : Record}
    (h : ofDatum (.object members) = .ok r) :
    (members.lookup ("id" : Text)).bind Datum.text? = some r.id ∧
      (members.lookup ("status" : Text)).bind Datum.text? = some r.status.name := by
  obtain ⟨_, v, hmembers, hreads, hsettles, hid⟩ := ofDatum_eq_ok_iff.1 h
  cases hmembers
  obtain ⟨id, hlookup_id, hread_id⟩ := Field.required_eq_ok_iff.1 hreads.id
  obtain ⟨status, hlookup_status, hread_status⟩ := Field.required_eq_ok_iff.1 hreads.status
  rw [hlookup_id, hlookup_status, Option.bind_some, Option.bind_some,
    Datum.asText_eq_ok_iff.1 hread_id, readStatus_eq_ok_iff.1 hread_status, hsettles.id_eq, hid,
    hsettles.status]
  exact ⟨rfl, rfl⟩

/-- Data is accepted for a record exactly if every field is valid, the record has what was read with
its times in UTC, and the id is the one that the job and the number make. Its id and its status are
then the texts that were submitted. Data of a record's own values is accepted for that record. Data
whose fields are all valid, with times that UTC can express, is refused exactly if its id is not the
one that the job and the number make, and for nothing else. -/
theorem ofDatum_normal_form :
    (∀ (data : Datum) (r : Record), ofDatum data = .ok r ↔
      ∃ members v, data = .object members ∧ Reads members v ∧ v.Settles r ∧
        v.id = actionId v.job (Text.ofInt v.number)) ∧
    (∀ (members : List (Text × Datum)) (r : Record), ofDatum (.object members) = .ok r →
      (members.lookup ("id" : Text)).bind Datum.text? =
          some (actionId r.job (Text.ofInt r.number)) ∧
        (members.lookup ("status" : Text)).bind Datum.text? = some r.status.name) ∧
    (∀ r : Record, ofDatum r.data = .ok r) ∧
    ∀ (members : List (Text × Datum)) (v : Reading), Reads members v → v.HasUtc →
      ∀ reason, ofDatum (.object members) = .error reason ↔
        v.id ≠ actionId v.job (Text.ofInt v.number) ∧
          reason = .invalid [⟨none, .mismatch ("action id " ++ Text.quote v.id ++
            " does not match " ++ actionId v.job (Text.ofInt v.number))⟩] := by
  refine ⟨fun data r => ofDatum_eq_ok_iff, fun members r => text_of_ofDatum, ofDatum_data, ?_⟩
  intro members v hreads hutc reason
  exact ofMembers_eq_error_iff hreads hutc

/-- The data of an action at half past six in a zone of five and a half hours, that has been changed
at some local time. -/
def halfPastSix (id : Text) (number : Datum) : List (Text × Datum) :=
  [("id", .text id), ("job_id", .text "j"), ("action_number", number),
    ("nominal_time", .text "2009-01-01T06:30:00+05:30"), ("status", .text "WAITING"),
    ("last_modified_at", .text "2009-01-01T01:00")]

def oneOClock : Calendar.WallTime := ⟨63366368400000000, by decide⟩

def halfPastSixReading (id : Text) : Reading :=
  ⟨id, "j", 7, ⟨⟨63366388200000000, by decide⟩, (Calendar.Offset.ofMinutes? 330).map .steady⟩,
    .waiting, none, none, some ⟨oneOClock, none⟩⟩

theorem reads_halfPastSix {number : Datum} (h : readNumber number = .ok 7) (id : Text) :
    Reads (halfPastSix id number) (halfPastSixReading id) := by
  have htime : readStamp (.text "2009-01-01T06:30:00+05:30") =
      .ok (halfPastSixReading []).nominalTime := by
    decide +kernel
  have hchanged : readStamp (.text "2009-01-01T01:00") = .ok ⟨oneOClock, none⟩ := by
    decide +kernel
  exact {
    id := rfl
    job := rfl
    number := Field.required_eq_ok_iff.2 ⟨number, rfl, h⟩
    nominalTime := Field.required_eq_ok_iff.2 ⟨_, rfl, htime⟩
    status := Field.required_eq_ok_iff.2 ⟨_, rfl, readStatus_eq_ok_iff.2 rfl⟩
    externalId := rfl
    createdAt := rfl
    modifiedAt := Field.optional_of_ok rfl (by simp) hchanged }

/-- The action of that data. In UTC it is one o'clock. -/
def seventh : Record := ⟨"j", 7, ⟨oneOClock⟩, .waiting, none, none, some ⟨oneOClock⟩⟩

/-- Data with the number seven, however it is written, is accepted under the id with a 7. -/
theorem ofDatum_normal_form_of_seven :
    readNumber (.text "007") = .ok 7 ∧ readNumber (.decimal ⟨false, 70, -1⟩) = .ok 7 ∧
    ∀ number, readNumber number = .ok 7 →
      ofDatum (.object (halfPastSix "j@7" number)) = .ok seventh ∧
        ofDatum (.object (halfPastSix "j@007" number)) =
          .error (.invalid [⟨none, .mismatch "action id 'j@007' does not match j@7"⟩]) := by
  refine ⟨by decide +kernel, by decide +kernel, fun number hnumber => ?_⟩
  obtain ⟨haccepted, _, _, hrefused⟩ := ofDatum_normal_form
  have hsettles : (halfPastSixReading "j@7").Settles seventh := by
    constructor <;> decide +kernel
  have hutc : (halfPastSixReading "j@007").HasUtc := by
    constructor <;> decide +kernel
  constructor
  · exact (haccepted _ _).2 ⟨_, _, rfl, reads_halfPastSix hnumber _, hsettles, by decide +kernel⟩
  · apply (hrefused _ _ (reads_halfPastSix hnumber _) hutc _).2
    exact ⟨by decide +kernel, by decide +kernel⟩

end Record

end ActionQuery
