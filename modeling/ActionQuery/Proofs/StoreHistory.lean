import ActionQuery.Proofs.ActionId
import ActionQuery.Proofs.Keyed
import ActionQuery.Proofs.NormalForm
import ActionQuery.Proofs.Numerals
import ActionQuery.Store.Run

/-!
# The history of a store

However additions, additions that fail and questions follow one another, a store is what its history
makes it, the history being the records that were added, in order. Its ids are those of the history
in the order of first mention, and under each of them is the record that was added last. As an id
stands for one job and one number, that is the last record of the job with the number.
-/

namespace ActionQuery

theorem Record.id_eq_iff {r : Record} {job : Text} {number : Int} :
    r.id = actionId job (Text.ofInt number) ↔ r.job = job ∧ r.number = number := by
  constructor
  · intro h
    obtain ⟨hjob, hnumber⟩ := actionId_inj (Text.at_notMem_ofInt _) (Text.at_notMem_ofInt _) h
    exact ⟨hjob, Text.ofInt_injective hnumber⟩
  · rintro ⟨rfl, rfl⟩
    rfl

/-- Data is taken for a record only under the id of that record. -/
theorem Record.id_of_ofDatum {data : Datum} {r : Record} (h : ofDatum data = .ok r) :
    ∃ members, data = .object members ∧
      (members.lookup ("id" : Text)).bind Datum.text? = some r.id := by
  obtain ⟨members, _, rfl, _⟩ := ofDatum_eq_ok_iff.1 h
  exact ⟨members, rfl, (text_of_ofDatum h).1⟩

namespace Store

variable {s : Store} {r : Record}

theorem ids_add_of_mem (h : r.id ∈ s.ids) : (s.add r).ids = s.ids :=
  Keyed.map_key_put_of_mem h

theorem ids_add_of_notMem (h : r.id ∉ s.ids) : (s.add r).ids = s.ids ++ [r.id] := by
  have hput : (s.add r).records = s.records ++ [r] := Keyed.put_of_notMem h
  rw [ids, hput, List.map_append]
  rfl

theorem get?_add_self (s : Store) (r : Record) : (s.add r).get? r.id = some r :=
  Keyed.get?_put_self Record.id r s.records

theorem get?_add_of_ne {id : Text} (h : id ≠ r.id) (s : Store) :
    (s.add r).get? id = s.get? id :=
  Keyed.get?_put_of_ne Record.id h s.records

theorem ofList_concat (records : List Record) (r : Record) :
    ofList (records ++ [r]) = (ofList records).add r :=
  List.foldl_concat ..

theorem ids_ofList (records : List Record) :
    (ofList records).ids = (records.map Record.id).eraseDups := by
  induction records using List.reverseRecOn with
  | nil => rfl
  | append_singleton records r ih =>
      have hmem : r.id ∈ (ofList records).ids ↔ r.id ∈ records.map Record.id := by
        rw [ih, List.mem_eraseDups]
      rw [ofList_concat, List.map_append, List.map_singleton]
      by_cases h : r.id ∈ records.map Record.id
      · rw [ids_add_of_mem (hmem.2 h), ih, Keyed.eraseDups_concat_of_mem h]
      · rw [ids_add_of_notMem (mt hmem.1 h), ih, Keyed.eraseDups_concat_of_notMem h]

/-- The record that was added last under an id. -/
def lastWith (id : Text) (records : List Record) : Option Record :=
  (records.filter (·.id = id)).getLast?

theorem get?_ofList (records : List Record) (id : Text) :
    (ofList records).get? id = lastWith id records := by
  induction records using List.reverseRecOn with
  | nil => rfl
  | append_singleton records r ih =>
      rw [ofList_concat, lastWith, List.filter_append]
      by_cases h : r.id = id
      · subst h
        simp [get?_add_self]
      · rw [get?_add_of_ne (Ne.symm h), ih]
        simp [lastWith, h]

theorem lastWith_eq_none_iff {id : Text} {records : List Record} :
    lastWith id records = none ↔ ∀ r ∈ records, r.id ≠ id := by
  simp [lastWith]

/-! ### The history in the answers

Nothing but a record that is added changes a store, and the answer to a step says which record that
was. So the history of a run is read off its answers, and after `step_snd` no proof looks at the
kinds of steps again. -/

/-- The record that was added, as an answer tells it. -/
def added? : Except Failure Answer → Option Record
  | .ok (.added r) => some r
  | _ => none

theorem added?_answer (s : Store) (query : Query) : added? (query.answer s) = none := by
  cases query with
  | lookup call =>
      cases call with
      | byId id => cases h : s.byId id <;> simp [Query.answer, h, added?, Except.map, Except.mapError]
      | atTime job time => rfl
      | inRange job range active =>
          cases h : s.inRange job range active <;>
            simp [Query.answer, h, added?, Except.map, Except.mapError]
  | resolve reader arrange route active job scope =>
      rw [Query.answer]
      cases (Scope.Resolver.resolve ⟨s.lookup, reader, arrange⟩ route active job scope).result <;> rfl

theorem settle_submit (s : Store) (data : Datum) :
    s.settle (s.submit data) =
      match Record.ofDatum data with
      | .ok r => (.ok (.added r), s.add r)
      | .error reason => (.error (.rejected reason), s) := by
  rw [submit]
  cases Record.ofDatum data <;> rfl

/-- A store changes by the record that a step says was added, and by nothing else. -/
theorem step_snd (s : Store) (x : Step) :
    (s.step x).2 = (added? (s.step x).1).elim s s.add := by
  cases x with
  | add r => rfl
  | submit data =>
      rw [step, settle_submit]
      cases Record.ofDatum data <;> rfl
  | materialize now job number nominalTime status =>
      rw [step, materialize, settle_submit]
      split <;> rfl
  | ask query =>
      rw [step, added?_answer]
      rfl

theorem step_snd_of_error {x : Step} {reason : Failure} (h : (s.step x).1 = .error reason) :
    (s.step x).2 = s := by
  rw [step_snd, h]
  rfl

/-- The id that a step submits a record with. -/
def Step.id? : Step → Option Text
  | .add r => some r.id
  | .submit (.object members) => (members.lookup ("id" : Text)).bind Datum.text?
  | .materialize _ job number _ _ => some (actionId job.display number.display)
  | _ => none

theorem id?_of_added {x : Step} (h : added? (s.step x).1 = some r) : x.id? = some r.id := by
  cases x with
  | add r' =>
      cases h
      rfl
  | submit data =>
      rw [step, settle_submit] at h
      cases hdata : Record.ofDatum data with
      | error reason => simp [hdata, added?] at h
      | ok r' =>
          simp only [hdata, added?, Option.some.injEq] at h
          subst h
          obtain ⟨members, rfl, hid⟩ := Record.id_of_ofDatum hdata
          exact hid
  | materialize now job number nominalTime status =>
      rw [step, materialize, settle_submit] at h
      split at h
      · rename_i r' hdata
        cases h
        obtain ⟨members, hmembers, hid⟩ := Record.id_of_ofDatum hdata
        cases hmembers
        exact hid
      · cases h
  | ask query => simp [step, added?_answer] at h

theorem run_snd (s : Store) (steps : List Step) :
    (s.run steps).2 = ((s.run steps).1.filterMap added?).foldl add s := by
  induction steps generalizing s with
  | nil => rfl
  | cons first rest ih =>
      have hrun : s.run (first :: rest) =
          ((s.step first).1 :: ((s.step first).2.run rest).1, ((s.step first).2.run rest).2) := rfl
      have hstep := step_snd s first
      rw [hrun]
      cases hadded : added? (s.step first).1 with
      | none => rw [List.filterMap_cons_none hadded, ih, hstep, hadded]; rfl
      | some r => rw [List.filterMap_cons_some hadded, ih, hstep, hadded]; rfl

/-- The records that are in a store from the start and those that its steps say were added. -/
def history (initial : List Record) (steps : List Step) : List Record :=
  initial ++ ((ofList initial).run steps).1.filterMap added?

theorem run_ofList (initial : List Record) (steps : List Step) :
    ((ofList initial).run steps).2 = ofList (history initial steps) := by
  rw [run_snd, history]
  exact List.foldl_append.symm

theorem filter_id_eq (records : List Record) (job : Text) (number : Int) :
    records.filter (·.id = actionId job (Text.ofInt number)) =
      records.filter fun r => r.job = job ∧ r.number = number := by
  refine List.filter_congr fun r _ => ?_
  exact decide_eq_decide.2 Record.id_eq_iff

theorem byId_eq_ok_iff {id : Text} : s.byId id = .ok r ↔ s.get? id = some r := by
  cases h : s.get? id <;> simp [byId, h]

theorem byId_eq_missing_iff {id : Text} : s.byId id = .error (missing id) ↔ s.get? id = none := by
  cases h : s.get? id <;> simp [byId, h]

/-- A store holds what was added last: its ids stand as they were first added, and each has the last
record that was added under it, which is the last one of its job with its number. -/
structure HoldsLast (s : Store) (records : List Record) : Prop where
  ids_eq : s.ids = (records.map Record.id).eraseDups
  get?_eq : ∀ id, s.get? id = lastWith id records
  id_of_get? : ∀ id r, s.get? id = some r → r.id = id ∧ id = actionId r.job (Text.ofInt r.number)
  get?_actionId : ∀ job number, s.get? (actionId job (Text.ofInt number)) =
    (records.filter fun r => r.job = job ∧ r.number = number).getLast?
  eq_of_number : ∀ r ∈ s.records, ∀ other ∈ s.records,
    r.job = other.job → r.number = other.number → r = other
  byId_eq_ok : ∀ id r, s.byId id = .ok r ↔ lastWith id records = some r
  byId_eq_missing : ∀ id, s.byId id = .error (missing id) ↔ ∀ r ∈ records, r.id ≠ id

theorem holdsLast_ofList (records : List Record) : (ofList records).HoldsLast records where
  ids_eq := ids_ofList records
  get?_eq := get?_ofList records
  id_of_get? := by
    intro id r h
    have hid := ((Keyed.get?_eq_some_iff (ofList records).distinct).1 h).2
    exact ⟨hid, hid.symm⟩
  get?_actionId := by
    intro job number
    rw [get?_ofList, lastWith, filter_id_eq]
  eq_of_number := by
    intro r hr other hother hjob hnumber
    apply List.inj_on_of_nodup_map (ofList records).distinct hr hother
    rw [Record.id, Record.id, hjob, hnumber]
  byId_eq_ok := by
    intro id r
    rw [byId_eq_ok_iff, get?_ofList]
  byId_eq_missing := by
    intro id
    rw [byId_eq_missing_iff, get?_ofList, lastWith_eq_none_iff]

/-- After any run a store holds what was added last. A step that fails leaves the store as it was,
and so does every question. What a step adds has the id that it was submitted with. -/
theorem holdsLast_run (initial : List Record) (steps : List Step) :
    ((ofList initial).run steps).2.HoldsLast
        (initial ++ ((ofList initial).run steps).1.filterMap added?) ∧
      (∀ (s : Store) (x : Step) (reason : Failure),
        (s.step x).1 = .error reason → (s.step x).2 = s) ∧
      (∀ (s : Store) (query : Query), (s.step (.ask query)).2 = s) ∧
      (∀ (s : Store) (x : Step) (r : Record),
        (s.step x).1 = .ok (.added r) → (s.step x).2 = s.add r ∧ x.id? = some r.id) := by
  refine ⟨?_, fun s x reason => step_snd_of_error, fun s query => rfl, ?_⟩
  · rw [run_ofList]
    exact holdsLast_ofList (history initial steps)
  · intro s x r h
    have hadded : added? (s.step x).1 = some r := by rw [h, added?]
    refine ⟨?_, id?_of_added hadded⟩
    rw [step_snd, hadded]
    rfl

def morning : Calendar.Instant := ⟨⟨32400000000, by decide⟩⟩

/-- An action that is added, data without an id, a question without an answer, an action of another
job whose name has an `@`, and the first action again. -/
def mixedSteps : List Step :=
  [.materialize morning (.text "j") (.int 2) (.time morning.toStamp) (.text "WAITING"),
    .submit (.object [("job_id", .text "j")]),
    .ask (.lookup (.byId "j@2@1")),
    .add ⟨"j@2", 1, morning, .running, none, none, none⟩,
    .add ⟨"j", 2, morning, .killed, none, none, none⟩]

theorem holdsLast_run_mixedSteps :
    ((ofList []).run mixedSteps).2.ids = [("j@2" : Text), "j@2@1"] ∧
    ((ofList []).run mixedSteps).2.byId "j@2" =
      .ok ⟨"j", 2, morning, .killed, none, none, none⟩ ∧
    ((ofList []).run mixedSteps).2.byId "j@1" = .error (missing "j@1") ∧
    (((ofList []).run mixedSteps).2.step (.submit .null)).2 = ((ofList []).run mixedSteps).2 := by
  obtain ⟨hholds, hfails, _⟩ := holdsLast_run [] mixedSteps
  refine ⟨?_, ?_, ?_, hfails _ (.submit .null) _ rfl⟩
  · rw [hholds.ids_eq]
    decide
  · rw [hholds.byId_eq_ok]
    decide
  · rw [hholds.byId_eq_missing]
    decide

end Store

end ActionQuery
