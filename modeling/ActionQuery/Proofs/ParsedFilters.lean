import ActionQuery.Proofs.FilterGrammar
import ActionQuery.Proofs.Placeholders
import ActionQuery.Proofs.StoreSelection

/-!
# Filter texts that are read and then compiled

What is read from a filter text names known subjects and comparators, and no condition of it is
without a value. So only one thing can stop it from being compiled: a comparator of order takes one
value, and the text may give it several for the same subject. Each entry of the text is one value of
one condition, however they are gathered, so the numbering goes up by the number of entries.
-/

namespace ActionQuery

/-- A comparator that puts a value before or behind others. -/
def Comparator.IsOrder (c : Comparator) : Prop :=
  c = greater ∨ c = greaterEqual ∨ c = less ∨ c = lessEqual

theorem Comparator.isOrder_iff {c : Comparator} : c.IsOrder ↔ c.takesMany = false := by
  cases c <;> simp [IsOrder, takesMany]

namespace Filter

theorem condition_entry (c : Condition) :
    c.entry.condition =
      if c.wellSized then .ok c
      else .error (.valueCount (.text c.subject.name) c.comparator c.values.length) := by
  have hsubject := Subject.ofField_eq_ok_iff.2 (rfl : Datum.text c.subject.name = _)
  simp only [Entry.condition, Condition.entry, hsubject]
  rfl

theorem denotes_entry (c : Condition) : c.entry.Denotes c := ⟨rfl, .self c.comparator, rfl⟩

namespace Clause

variable {conditions : List Condition}

theorem compile_map_entry_of_wellSized (start : Int)
    (h : ∀ c ∈ conditions, c.wellSized = true) :
    compile start (conditions.map Condition.entry) = .ok (ofConditions start conditions) := by
  refine compile_eq_ok_iff.2 ⟨conditions, ?_, h, rfl⟩
  rw [List.forall₂_map_left_iff, List.forall₂_same]
  exact fun c _ => denotes_entry c

theorem compile_map_entry_of_first (start : Int) {before after : List Condition} {c : Condition}
    (hbefore : ∀ earlier ∈ before, earlier.wellSized = true) (h : c.wellSized = false) :
    compile start ((before ++ c :: after).map Condition.entry) =
      .error (.valueCount (.text c.subject.name) c.comparator c.values.length) := by
  have hcondition : c.entry.condition =
      .error (.valueCount (.text c.subject.name) c.comparator c.values.length) := by
    rw [condition_entry, h]
    rfl
  rw [compile, map_eq_error_iff, List.map_append, List.map_cons]
  refine mapM_of_first_error ?_ hcondition
  intro e he
  obtain ⟨earlier, hearlier, rfl⟩ := List.mem_map.1 he
  exact ⟨earlier, by rw [condition_entry, hbefore earlier hearlier, if_pos rfl]⟩

end Clause

theorem length_allValues_addTerm (conditions : List Condition) (t : Term) :
    (allValues (addTerm conditions t)).length = (allValues conditions).length + 1 := by
  induction conditions with
  | nil => rfl
  | cons c rest ih =>
      rw [addTerm]
      split
      · simp only [allValues_cons, List.length_append, List.length_singleton]
        omega
      · simp only [allValues_cons, List.length_append, ih]
        omega

theorem length_allValues_gather (terms : List Term) :
    (allValues (gather terms)).length = terms.length := by
  induction terms using List.reverseRecOn with
  | nil => rfl
  | append_singleton terms t ih =>
      rw [gather_concat, length_allValues_addTerm, ih, List.length_append, List.length_singleton]

namespace Term

variable {terms : List Term} {k : Subject × Comparator}

/-- A subject is given several values to compare it with by one comparator of order. -/
def IsRepeated (terms : List Term) (k : Subject × Comparator) : Prop :=
  k.2.IsOrder ∧ 1 < (terms.map key).count k

theorem length_valuesAt (terms : List Term) (k : Subject × Comparator) :
    (valuesAt terms k).length = (terms.map key).count k := by
  rw [valuesAt, List.length_map, List.count_eq_length_filter, List.filter_map, List.length_map]
  congr 1
  refine List.filter_congr fun t _ => ?_
  rw [Function.comp_apply, Bool.eq_iff_iff, decide_eq_true_iff, beq_iff_eq]

/-- No key that is mentioned is without a value. -/
theorem wellSized_conditionAt_iff (h : k ∈ keys terms) :
    (conditionAt terms k).wellSized = true ↔ ¬ IsRepeated terms k := by
  have hpos : 0 < (valuesAt terms k).length := by
    rw [length_valuesAt]
    exact List.count_pos_iff.2 (mem_keys.1 h)
  have hne : valuesAt terms k ≠ [] := List.length_pos_iff.1 hpos
  rw [IsRepeated, Comparator.isOrder_iff, ← length_valuesAt]
  simp only [Condition.wellSized, conditionAt, List.isEmpty_eq_false_iff.2 hne, Bool.not_false,
    Bool.true_and, Bool.or_eq_true, beq_iff_eq, not_and, not_lt]
  cases k.2.takesMany with
  | true => simp
  | false =>
      simp only [Bool.false_eq_true, false_or, true_implies]
      omega

theorem mem_keys_of_isRepeated (h : IsRepeated terms k) : k ∈ keys terms :=
  mem_keys.2 (List.count_pos_iff.1 (Nat.lt_of_succ_lt h.2))

end Term

theorem allValues_map_conditionAt (terms : List Term) (ks : List (Subject × Comparator)) :
    allValues (ks.map (Term.conditionAt terms)) = ks.flatMap (Term.valuesAt terms) :=
  List.flatMap_map ..

variable {reader : Scope.TimeReader} {text : Option Text} {conditions : List Condition}

theorem compile_of_no_repeat {terms : List Term} (h : ∀ k, ¬ Term.IsRepeated terms k) (start : Int) :
    Clause.compile start (((Term.keys terms).map (Term.conditionAt terms)).map Condition.entry) =
      .ok (Clause.ofConditions start ((Term.keys terms).map (Term.conditionAt terms))) := by
  apply Clause.compile_map_entry_of_wellSized
  intro c hc
  obtain ⟨k, hk, rfl⟩ := List.mem_map.1 hc
  exact (Term.wellSized_conditionAt_iff hk).2 (h k)

theorem compile_of_first_repeat {terms : List Term} {before after : List (Subject × Comparator)}
    {k : Subject × Comparator} (hkeys : Term.keys terms = before ++ k :: after)
    (hbefore : ∀ earlier ∈ before, ¬ Term.IsRepeated terms earlier) (h : Term.IsRepeated terms k)
    (start : Int) :
    Clause.compile start (((Term.keys terms).map (Term.conditionAt terms)).map Condition.entry) =
      .error (.valueCount (.text k.1.name) k.2 ((terms.map Term.key).count k)) := by
  have hmem : ∀ known ∈ before ++ k :: after, known ∈ Term.keys terms := fun _ hknown =>
    hkeys ▸ hknown
  have hsized : ∀ c ∈ before.map (Term.conditionAt terms), c.wellSized = true := by
    intro c hc
    obtain ⟨earlier, hearlier, rfl⟩ := List.mem_map.1 hc
    have hknown := hmem earlier (List.mem_append_left _ hearlier)
    exact (Term.wellSized_conditionAt_iff hknown).2 (hbefore earlier hearlier)
  have hill : (Term.conditionAt terms k).wellSized = false := by
    rw [Bool.eq_false_iff]
    intro hwell
    exact (Term.wellSized_conditionAt_iff (hmem k (by simp))).1 hwell h
  rw [hkeys, List.map_append, List.map_cons, Clause.compile_map_entry_of_first start hsized hill,
    Term.conditionAt, Term.length_valuesAt]

theorem exists_first_repeat {terms : List Term} {k : Subject × Comparator}
    (h : Term.IsRepeated terms k) :
    ∃ before first after, Term.keys terms = before ++ first :: after ∧
      (∀ earlier ∈ before, ¬ Term.IsRepeated terms earlier) ∧ Term.IsRepeated terms first := by
  classical
  have hsome : ((Term.keys terms).find? (Term.IsRepeated terms ·)).isSome := by
    rw [List.find?_isSome]
    exact ⟨k, Term.mem_keys_of_isRepeated h, decide_eq_true h⟩
  obtain ⟨first, hfirst⟩ := Option.isSome_iff_exists.1 hsome
  obtain ⟨hrepeated, before, after, hkeys, hbefore⟩ := List.find?_eq_some_iff_append.1 hfirst
  refine ⟨before, first, after, hkeys, ?_, of_decide_eq_true hrepeated⟩
  intro earlier hearlier
  simpa using hbefore earlier hearlier

/-- A filter text that is read is compiled unless a comparator of order is given more than once for
the same subject; the first such pair is the error, with the number of its values. Otherwise the
numbering goes up by one for each entry, and the parameters are numbered on through the values of
one pair after another, in the order of first mention. -/
theorem compile_of_parse (h : parse reader text = .ok conditions) (start : Int) :
    ∃ terms, List.Forall₂ (Reads reader) (entries text) terms ∧
      ((∃ e, Clause.compile start (conditions.map Condition.entry) = .error e) ↔
        ∃ k, Term.IsRepeated terms k) ∧
      (∀ e, Clause.compile start (conditions.map Condition.entry) = .error e →
        ∃ before k after, (terms.map Term.key).eraseDups = before ++ k :: after ∧
          (∀ earlier ∈ before, ¬ Term.IsRepeated terms earlier) ∧ Term.IsRepeated terms k ∧
          e = .valueCount (.text k.1.name) k.2 ((terms.map Term.key).count k)) ∧
      (∀ clause, Clause.compile start (conditions.map Condition.entry) = .ok clause →
        clause.next - start = (entries text).length ∧
        clause.params.map Prod.fst =
          (List.range (entries text).length).map (fun (i : Nat) => paramName (start + i)) ∧
        clause.params.map Prod.snd = (terms.map Term.key).eraseDups.flatMap fun k =>
          (terms.filter (·.key = k)).map Term.value) := by
  obtain ⟨terms, hterms, rfl⟩ := parse_eq_ok_iff.1 h
  refine ⟨terms, hterms, ?_⟩
  by_cases hrepeat : ∃ k, Term.IsRepeated terms k
  · obtain ⟨k, hk⟩ := hrepeat
    obtain ⟨before, first, after, hkeys, hbefore, hfirst⟩ := exists_first_repeat hk
    rw [compile_of_first_repeat hkeys hbefore hfirst start]
    refine ⟨⟨fun _ => ⟨k, hk⟩, fun _ => ⟨_, rfl⟩⟩, ?_, ?_⟩
    · rintro e ⟨⟩
      exact ⟨before, first, after, hkeys, hbefore, hfirst, rfl⟩
    · rintro clause ⟨⟩
  · rw [compile_of_no_repeat (not_exists.1 hrepeat) start]
    have hcount : (allValues ((Term.keys terms).map (Term.conditionAt terms))).length =
        (entries text).length := by
      rw [← gather_eq, length_allValues_gather, hterms.length_eq]
    refine ⟨⟨?_, fun hk => absurd hk hrepeat⟩, ?_, ?_⟩
    · rintro ⟨e, ⟨⟩⟩
    · rintro e ⟨⟩
    · rintro clause ⟨⟩
      refine ⟨?_, ?_, ?_⟩
      · simp only [Clause.ofConditions, hcount]
        omega
      · rw [Clause.map_fst_params, hcount]
        rfl
      · change (Filter.bind start (allValues _)).map Prod.snd =
          (Term.keys terms).flatMap (Term.valuesAt terms)
        rw [map_snd_bind, allValues_map_conditionAt]

def repeatedText : Text := "status=RUNNING; nominal_time >= noon;Status=killed;nominalTime>=evening"

def repeatedConditions : List Condition :=
  [⟨.status, .equals, [.text "RUNNING", .text "KILLED"]⟩,
    ⟨.nominalTime, .greaterEqual, [.time Store.noon.toStamp, .time Store.evening.toStamp]⟩]

theorem compile_of_parse_repeatedText :
    parse Store.dayReader (some repeatedText) = .ok repeatedConditions ∧
    Clause.compile 5 (repeatedConditions.map Condition.entry) =
      .error (.valueCount (.text "nominal_time") .greaterEqual 2) ∧
    ∃ terms, List.Forall₂ (Reads Store.dayReader) (entries (some repeatedText)) terms ∧
      ∃ k, Term.IsRepeated terms k := by
  have hparse : parse Store.dayReader (some repeatedText) = .ok repeatedConditions := by rfl
  have hcompile : Clause.compile 5 (repeatedConditions.map Condition.entry) =
      .error (.valueCount (.text "nominal_time") .greaterEqual 2) := by rfl
  obtain ⟨terms, hterms, hiff, _⟩ := compile_of_parse hparse 5
  exact ⟨hparse, hcompile, terms, hterms, hiff.1 ⟨_, hcompile⟩⟩

end Filter

end ActionQuery
