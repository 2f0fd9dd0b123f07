import ActionQuery.Proofs.ParsedFilters

/-!
# Filters that are not compiled

An entry is not compiled for one of five reasons, and the reasons are checked in this order: what it
is about, how it compares, whether its values can be listed, and whether there are too few or too
many of them. The first entry that has such a reason stops a specification, whatever stands behind
it. A buffer that clauses are appended to does not show that a specification was stopped.
-/

namespace ActionQuery

theorem Datum.items_of_not_listed {value : Datum} (h : ∀ items, value.items ≠ .ok items) :
    value.items = .error ⟨.mistyped, "'" ++ value.kindName ++ "' object is not iterable"⟩ := by
  cases value with
  | text t => exact absurd rfl (h _)
  | comparator c => exact absurd rfl (h _)
  | list items => exact absurd rfl (h _)
  | object members => exact absurd rfl (h _)
  | _ => rfl

namespace Filter

theorem Subject.ofField_of_not_name {field : Datum} (hkey : field.checkKey = .ok ())
    (h : ∀ a : Subject, field ≠ .text a.name) : ofField field = .error (.unknownField field) := by
  cases hfound : field.text?.bind ofName? with
  | none => simp [ofField, hkey, hfound]
  | some a =>
      have hok : ofField field = .ok a := by simp [ofField, hkey, hfound]
      exact absurd (ofField_eq_ok_iff.1 hok) (h a)

/-- A condition has the wrong number of values if it has none, or several under a comparator of
order. -/
theorem Condition.wellSized_eq_false_iff {c : Condition} :
    c.wellSized = false ↔ c.values = [] ∨ c.comparator.IsOrder ∧ 1 < c.values.length := by
  rw [Comparator.isOrder_iff]
  rcases c with ⟨subject, comparator, values⟩
  cases values with
  | nil => simp [wellSized]
  | cons value rest => simp [wellSized, List.length_pos_iff]

namespace Entry

theorem checkKey_put {e : Entry} {spec : List Entry}
    (hspec : ∀ known ∈ spec, known.checkKey = .ok ()) (he : e.checkKey = .ok ()) :
    ∀ known ∈ put e spec, known.checkKey = .ok () := by
  induction spec with
  | nil => exact List.forall_mem_singleton.2 he
  | cons first rest ih =>
      obtain ⟨hfirst, hrest⟩ := List.forall_mem_cons.1 hspec
      rw [put]
      split
      · exact List.forall_mem_cons.2 ⟨hfirst, hrest⟩
      · exact List.forall_mem_cons.2 ⟨hfirst, ih hrest⟩

theorem checkKey_of_foldlM_put {submitted spec entries : List Entry}
    (hspec : ∀ known ∈ spec, known.checkKey = .ok ())
    (h : submitted.foldlM (fun spec (e : Entry) => e.checkKey.map fun () => put e spec) spec =
      .ok entries) : ∀ e ∈ entries, e.checkKey = .ok () := by
  induction submitted generalizing spec with
  | nil =>
      cases h
      exact hspec
  | cons e rest ih =>
      rw [List.foldlM_cons] at h
      obtain ⟨after, hput, hrest⟩ := bind_eq_ok_iff.1 h
      obtain ⟨_, he, rfl⟩ := map_eq_ok_iff.1 hput
      exact ih (checkKey_put hspec he) hrest

/-- Every key of a specification is one that a table can have. -/
theorem checkKey_of_specification {submitted entries : List Entry}
    (h : specification submitted = .ok entries) : ∀ e ∈ entries, e.checkKey = .ok () :=
  checkKey_of_foldlM_put (List.forall_mem_nil _) h

theorem checkKey_field {e : Entry} (h : e.checkKey = .ok ()) : e.field.checkKey = .ok () := by
  obtain ⟨⟨⟩, hfield, _⟩ := bind_eq_ok_iff.1 h
  exact hfield

/-- Why an entry is not compiled. Its comparator counts only if its field is known, its values only
if its comparator is known, and how many they are only if they can be listed. -/
inductive FailsWith (e : Entry) : Error → Prop where
  | field (hfield : ∀ a : Subject, e.field ≠ .text a.name) : FailsWith e (.unknownField e.field)
  | comparator {a : Subject} (hfield : e.field = .text a.name)
      (hcomparator : ∀ c : Comparator, ¬ c.Spelling e.comparator) :
      FailsWith e
        (.entry (a.name ++ e.comparator.display) (.unknownComparator e.comparator.display))
  | items {a : Subject} {c : Comparator} (hfield : e.field = .text a.name)
      (hcomparator : c.Spelling e.comparator) (hitems : ∀ items, e.values.items ≠ .ok items) :
      FailsWith e (.fault ⟨.mistyped, "'" ++ e.values.kindName ++ "' object is not iterable"⟩)
  | none {a : Subject} {c : Comparator} (hfield : e.field = .text a.name)
      (hcomparator : c.Spelling e.comparator) (hitems : e.values.items = .ok []) :
      FailsWith e (.valueCount e.field c 0)
  | several {a : Subject} {c : Comparator} {items : List Datum} (hfield : e.field = .text a.name)
      (hcomparator : c.Spelling e.comparator) (hitems : e.values.items = .ok items)
      (horder : c.IsOrder) (hmany : 1 < items.length) :
      FailsWith e (.valueCount e.field c items.length)

variable {e : Entry} {failure : Error}

theorem readComparator_of_not_spelled (h : ∀ c : Comparator, ¬ c.Spelling e.comparator) :
    e.readComparator = .error
      (.entry (e.field.display ++ e.comparator.display) (.unknownComparator e.comparator.display)) := by
  cases hread : e.readComparator with
  | ok c => exact absurd (readComparator_eq_ok_iff.1 hread) (h c)
  | error other =>
      unfold readComparator at hread
      split at hread
      · cases hread
      · split at hread
        · cases hread
        · exact hread.symm

theorem condition_of_sized {a : Subject} {c : Comparator} {items : List Datum}
    (hfield : e.field = .text a.name) (hcomparator : c.Spelling e.comparator)
    (hitems : e.values.items = .ok items) (hsized : Condition.wellSized ⟨a, c, items⟩ = false) :
    e.condition = .error (.valueCount e.field c items.length) := by
  simp only [condition, Subject.ofField_eq_ok_iff.2 hfield, readComparator_eq_ok_iff.2 hcomparator,
    mapError_eq_ok_iff.2 hitems]
  change (if Condition.wellSized ⟨a, c, items⟩ = true then _ else _) = _
  rw [hsized]
  rfl

theorem condition_of_failsWith (hkey : e.checkKey = .ok ()) (h : e.FailsWith failure) :
    e.condition = .error failure := by
  cases h with
  | field hfield =>
      rw [condition, Subject.ofField_of_not_name (checkKey_field hkey) hfield]
      rfl
  | comparator hfield hcomparator =>
      rw [condition, Subject.ofField_eq_ok_iff.2 hfield, readComparator_of_not_spelled hcomparator,
        hfield]
      rfl
  | items hfield hcomparator hitems =>
      rw [condition, Subject.ofField_eq_ok_iff.2 hfield, readComparator_eq_ok_iff.2 hcomparator,
        Datum.items_of_not_listed hitems]
      rfl
  | none hfield hcomparator hitems =>
      exact condition_of_sized hfield hcomparator hitems rfl
  | several hfield hcomparator hitems horder hmany =>
      exact condition_of_sized hfield hcomparator hitems
        (Condition.wellSized_eq_false_iff.2 (.inr ⟨horder, hmany⟩))

theorem denotes_or_failsWith (e : Entry) :
    (∃ c, e.Denotes c ∧ c.wellSized = true) ∨ ∃ failure, e.FailsWith failure := by
  by_cases hfield : ∃ a : Subject, e.field = .text a.name
  · obtain ⟨a, ha⟩ := hfield
    by_cases hcomparator : ∃ c : Comparator, c.Spelling e.comparator
    · obtain ⟨c, hc⟩ := hcomparator
      cases hitems : e.values.items with
      | error reason => exact .inr ⟨_, .items ha hc fun items hok => by cases hitems.symm.trans hok⟩
      | ok items =>
          cases hsized : Condition.wellSized ⟨a, c, items⟩ with
          | true => exact .inl ⟨⟨a, c, items⟩, ⟨ha, hc, hitems⟩, hsized⟩
          | false =>
              rcases Condition.wellSized_eq_false_iff.1 hsized with hnone | ⟨horder, hmany⟩
              · exact .inr ⟨_, .none ha hc (hitems.trans (congrArg Except.ok hnone))⟩
              · exact .inr ⟨_, .several ha hc hitems horder hmany⟩
    · exact .inr ⟨_, .comparator ha fun c hc => hcomparator ⟨c, hc⟩⟩
  · exact .inr ⟨_, .field fun a ha => hfield ⟨a, ha⟩⟩

theorem condition_eq_error_iff (hkey : e.checkKey = .ok ()) :
    e.condition = .error failure ↔ e.FailsWith failure := by
  constructor
  · intro h
    rcases denotes_or_failsWith e with ⟨c, hc⟩ | ⟨other, hother⟩
    · cases h.symm.trans (condition_eq_ok_iff.2 hc)
    · cases h.symm.trans (condition_of_failsWith hkey hother)
      exact hother
  · exact condition_of_failsWith hkey

theorem exists_condition_iff (hkey : e.checkKey = .ok ()) :
    (∃ c, e.condition = .ok c) ↔ ∀ failure, ¬ e.FailsWith failure := by
  constructor
  · rintro ⟨c, hc⟩ failure hfails
    cases hc.symm.trans (condition_of_failsWith hkey hfails)
  · intro h
    exact exists_ok_of_not_error fun failure herror =>
      h failure ((condition_eq_error_iff hkey).1 herror)

end Entry

namespace Clause

variable {entries : List Entry}

theorem compile_eq_error_iff (hkeys : ∀ e ∈ entries, e.checkKey = .ok ()) {start : Int}
    {failure : Error} :
    compile start entries = .error failure ↔
      ∃ before entry after, entries = before ++ entry :: after ∧
        (∀ earlier ∈ before, ∀ other, ¬ earlier.FailsWith other) ∧ entry.FailsWith failure := by
  rw [compile, map_eq_error_iff, mapM_eq_error_iff]
  constructor
  · rintro ⟨before, entry, after, rfl, hbefore, hentry⟩
    obtain ⟨hearlier, hrest⟩ := List.forall_mem_append.1 hkeys
    refine ⟨before, entry, after, rfl, fun earlier hmem => ?_, ?_⟩
    · exact (Entry.exists_condition_iff (hearlier earlier hmem)).1 (hbefore earlier hmem)
    · exact (Entry.condition_eq_error_iff (hrest entry List.mem_cons_self)).1 hentry
  · rintro ⟨before, entry, after, rfl, hbefore, hentry⟩
    obtain ⟨hearlier, hrest⟩ := List.forall_mem_append.1 hkeys
    refine ⟨before, entry, after, rfl, fun earlier hmem => ?_, ?_⟩
    · exact (Entry.exists_condition_iff (hearlier earlier hmem)).2 (hbefore earlier hmem)
    · exact Entry.condition_of_failsWith (hrest entry List.mem_cons_self) hentry

theorem compile_fails_iff (hkeys : ∀ e ∈ entries, e.checkKey = .ok ()) {start : Int} :
    (∃ failure, compile start entries = .error failure) ↔
      ∃ entry ∈ entries, ∃ failure, entry.FailsWith failure := by
  constructor
  · rintro ⟨failure, h⟩
    obtain ⟨before, entry, after, rfl, _, hentry⟩ := (compile_eq_error_iff hkeys).1 h
    exact ⟨entry, by simp, failure, hentry⟩
  · rintro ⟨entry, hmem, failure, hentry⟩
    cases hcompile : compile start entries with
    | error other => exact ⟨other, rfl⟩
    | ok clause =>
        obtain ⟨conditions, hread, _⟩ := map_eq_ok_iff.1 hcompile
        exact absurd (Entry.condition_of_failsWith (hkeys entry hmem) hentry)
          (ne_error_of_forall₂ (mapM_eq_ok_iff.1 hread) entry hmem failure)

theorem append_of_ok {clause : Clause} (h : compile 1 entries = .ok clause) (buffer : List Text) :
    append buffer entries = (.ok clause.params, buffer ++ [clause.text]) := by
  rw [append, h]

theorem append_of_error {failure : Error} (h : compile 1 entries = .error failure)
    (buffer : List Text) : append buffer entries = (.error failure, buffer) := by
  rw [append, h]

theorem appendAll_cons (buffer : List Text) (entries : List Entry) (rest : List (List Entry)) :
    appendAll buffer (entries :: rest) =
      ((append buffer entries).1 :: (appendAll (append buffer entries).2 rest).1,
        (appendAll (append buffer entries).2 rest).2) := rfl

theorem appendAll_append (buffer : List Text) (first second : List (List Entry)) :
    appendAll buffer (first ++ second) =
      ((appendAll buffer first).1 ++ (appendAll (appendAll buffer first).2 second).1,
        (appendAll (appendAll buffer first).2 second).2) := by
  induction first generalizing buffer with
  | nil => rfl
  | cons entries rest ih => rw [List.cons_append, appendAll_cons, appendAll_cons, ih, List.cons_append]

/-- The answer to each specification is the one to it alone, and the buffer grows by the clauses of
those that are compiled. -/
theorem appendAll_eq (buffer : List Text) (calls : List (List Entry)) :
    appendAll buffer calls =
      (calls.map fun entries => (compile 1 entries).map params,
        buffer ++ calls.filterMap fun entries => ((compile 1 entries).map text).toOption) := by
  induction calls generalizing buffer with
  | nil => exact Prod.ext rfl (List.append_nil buffer).symm
  | cons entries rest ih =>
      cases h : compile 1 entries with
      | ok clause =>
          rw [appendAll_cons, append_of_ok h, ih, List.append_assoc]
          simp [h, Except.map, Except.toOption]
      | error failure =>
          rw [appendAll_cons, append_of_error h, ih]
          simp [h, Except.map, Except.toOption]

theorem appendAll_concat_of_ok {clause : Clause} (h : compile 1 entries = .ok clause)
    (buffer : List Text) (calls : List (List Entry)) :
    appendAll buffer (calls ++ [entries]) =
      ((appendAll buffer calls).1 ++ [.ok clause.params],
        (appendAll buffer calls).2 ++ [clause.text]) := by
  rw [appendAll_append, appendAll_cons, append_of_ok h]
  rfl

theorem appendAll_concat_of_error {failure : Error} (h : compile 1 entries = .error failure)
    (buffer : List Text) (calls : List (List Entry)) :
    appendAll buffer (calls ++ [entries]) =
      ((appendAll buffer calls).1 ++ [.error failure], (appendAll buffer calls).2) := by
  rw [appendAll_append, appendAll_cons, append_of_error h]
  rfl

end Clause

/-- A specification is not compiled exactly if one of its entries has a reason not to be, and the
first such entry decides the error, whatever the numbering starts from, whatever is bound before it
and whatever stands behind it. Of specifications appended to a buffer one after another, each one
that is compiled adds exactly its own clause and answers with its own parameters, and each one that
is not leaves the buffer as it was, whatever was appended or refused before. -/
theorem compile_to_first_failure :
    (∀ submitted entries start, Entry.specification submitted = .ok entries →
      ((∃ failure, Clause.compile start entries = .error failure) ↔
        ∃ entry ∈ entries, ∃ failure, entry.FailsWith failure) ∧
      ∀ failure, Clause.compile start entries = .error failure ↔
        ∃ before entry after, entries = before ++ entry :: after ∧
          (∀ earlier ∈ before, ∀ other, ¬ earlier.FailsWith other) ∧ entry.FailsWith failure) ∧
    (∀ buffer calls entries failure, Clause.compile 1 entries = .error failure →
      Clause.appendAll buffer (calls ++ [entries]) =
        ((Clause.appendAll buffer calls).1 ++ [.error failure],
          (Clause.appendAll buffer calls).2)) ∧
    (∀ buffer calls entries clause, Clause.compile 1 entries = .ok clause →
      Clause.appendAll buffer (calls ++ [entries]) =
        ((Clause.appendAll buffer calls).1 ++ [.ok clause.params],
          (Clause.appendAll buffer calls).2 ++ [clause.text])) ∧
    ∀ buffer calls, Clause.appendAll buffer calls =
      (calls.map fun entries => (Clause.compile 1 entries).map Clause.params,
        buffer ++ calls.filterMap fun entries =>
          ((Clause.compile 1 entries).map Clause.text).toOption) := by
  refine ⟨?_, ?_, ?_, Clause.appendAll_eq⟩
  · intro submitted entries start h
    have hkeys := Entry.checkKey_of_specification h
    exact ⟨Clause.compile_fails_iff hkeys, fun _ => Clause.compile_eq_error_iff hkeys⟩
  · intro buffer calls entries failure h
    exact Clause.appendAll_concat_of_error h buffer calls
  · intro buffer calls entries clause h
    exact Clause.appendAll_concat_of_ok h buffer calls

/-- A filter whose second and third entry are not compiled. -/
def stoppedEntries : List Entry :=
  [⟨.text "status", .text "<>", .list [.text "KILLED"]⟩,
    ⟨.text "nominal_time", .comparator .greater, .text "ab"⟩,
    ⟨.text "user", .text "LIKE", .null⟩]

def stoppedError : Error := .valueCount (.text "nominal_time") .greater 2

theorem failsWith_stoppedError :
    Entry.FailsWith ⟨.text "nominal_time", .comparator .greater, .text "ab"⟩ stoppedError :=
  .several (a := .nominalTime) rfl (.self .greater) rfl (.inl rfl)
    (by decide : 1 < (Datum.characters "ab").length)

theorem not_failsWith_killed (failure : Error) :
    ¬ Entry.FailsWith ⟨.text "status", .text "<>", .list [.text "KILLED"]⟩ failure :=
  (Entry.exists_condition_iff rfl).1 ⟨_, rfl⟩ failure

theorem compile_to_first_failure_stopped :
    Clause.compile 8 stoppedEntries = .error stoppedError ∧
    (Clause.appendAll ["where true"] [[], stoppedEntries, []]).2 =
      (["where true", " ", " "] : List Text) := by
  obtain ⟨hcompile, hrefused, happended, _⟩ := compile_to_first_failure
  have herror (start : Int) : Clause.compile start stoppedEntries = .error stoppedError :=
    ((hcompile stoppedEntries _ start rfl).2 _).2 ⟨stoppedEntries.take 1, _, _, rfl,
      List.forall_mem_singleton.2 not_failsWith_killed, failsWith_stoppedError⟩
  refine ⟨herror 8, ?_⟩
  calc
    (Clause.appendAll ["where true"] [[], stoppedEntries, []]).2 =
        (Clause.appendAll ["where true"] [[], stoppedEntries]).2 ++ [[' ']] :=
      congrArg Prod.snd (happended _ [[], stoppedEntries] [] _ rfl)
    _ = (Clause.appendAll ["where true"] [[]]).2 ++ [[' ']] :=
      congrArg (·.2 ++ [[' ']]) (hrefused _ [[]] stoppedEntries _ (herror 1))
    _ = ["where true", " ", " "] := rfl

end Filter

end ActionQuery
