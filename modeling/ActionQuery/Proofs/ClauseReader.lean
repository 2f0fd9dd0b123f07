import ActionQuery.Proofs.Placeholders

/-!
# Reading a clause back

A reader takes the text of a clause apart and finds the values in the parameters. Each condition
opens with one of twelve phrases, none of which another one starts with, and its placeholders end at
a character that none of them holds. So the reader gets back what the clause was made from, and no
two lists of conditions have the same text and parameters.
-/

namespace ActionQuery

namespace Filter

section Keywords

variable {α : Type} {keyword : α → Text} {values : List α}

/-- The first value whose keyword a text starts with, and what follows the keyword. -/
def readKeyword? (keyword : α → Text) (values : List α) (t : Text) : Option (α × Text) :=
  values.findSome? fun a => (t.dropPrefix? (keyword a)).map (a, ·)

theorem dropPrefix?_append (lead rest : Text) : (lead ++ rest).dropPrefix? lead = some rest :=
  List.dropPrefix?_eq_some_iff.2 ⟨lead, rfl, beq_self_eq_true lead⟩

theorem eq_append_of_dropPrefix? {lead rest t : Text} (h : t.dropPrefix? lead = some rest) :
    t = lead ++ rest := by
  obtain ⟨start, ht, hstart⟩ := List.dropPrefix?_eq_some_iff.1 h
  rw [ht, eq_of_beq hstart]

theorem eq_append_of_readKeyword? {a : α} {t rest : Text}
    (h : readKeyword? keyword values t = some (a, rest)) : t = keyword a ++ rest := by
  obtain ⟨b, _, hb⟩ := List.exists_of_findSome?_eq_some h
  obtain ⟨after, hafter, heq⟩ := Option.map_eq_some_iff.1 hb
  cases heq
  exact eq_append_of_dropPrefix? hafter

/-- A keyword is told from others that it is no prefix of and that are no prefix of it. -/
theorem readKeyword?_append {a : α} (ha : a ∈ values)
    (hfree : ∀ b ∈ values, keyword b <+: keyword a ∨ keyword a <+: keyword b → b = a)
    (rest : Text) : readKeyword? keyword values (keyword a ++ rest) = some (a, rest) := by
  induction values with
  | nil => cases ha
  | cons b others ih =>
      cases hb : (keyword a ++ rest).dropPrefix? (keyword b) with
      | none =>
          have hne : a ≠ b := by
            rintro rfl
            rw [dropPrefix?_append] at hb
            cases hb
          have hothers := ih ((List.mem_cons.1 ha).resolve_left hne)
            fun c hc => hfree c (List.mem_cons_of_mem _ hc)
          simpa [readKeyword?, hb] using hothers
      | some after =>
          -- Of two keywords that one text starts with, one starts with the other.
          have htext := eq_append_of_dropPrefix? hb
          have heq : b = a := by
            refine hfree b List.mem_cons_self ?_
            exact List.prefix_or_prefix_of_prefix ⟨after, htext.symm⟩ ⟨rest, rfl⟩
          subst heq
          rw [dropPrefix?_append] at hb
          cases hb
          simp [readKeyword?, dropPrefix?_append]

end Keywords

end Filter

namespace Comparator

/-- What the placeholders of a condition end at. -/
def stop : Comparator → Char
  | equals | notEquals => ')'
  | _ => ' '

end Comparator

namespace Filter

def phrases : List (Subject × Comparator) :=
  Subject.all.flatMap fun subject => Comparator.all.map (subject, ·)

def readPhrase? : Text → Option ((Subject × Comparator) × Text) :=
  readKeyword? (fun (subject, comparator) => Condition.lead subject comparator) phrases

/-- The value that a name is bound to. -/
def value? (params : List (Text × Datum)) (name : Text) : Option Datum :=
  (Keyed.get? Prod.fst name params).map Prod.snd

/-- Reads the condition that a text starts with. Its placeholders have to be all that stands between
its phrase and its end. -/
def readCondition? (params : List (Text × Datum)) (t : Text) : Option (Condition × Text) := do
  let ((subject, comparator), t) ← readPhrase? t
  let operand := t.takeWhile (· ≠ comparator.stop)
  let rest ← (t.drop operand.length).dropPrefix? comparator.closing
  let names := marks operand
  if operand = Text.join ", " (names.map (':' :: ·)) then
    let values ← names.mapM (value? params)
    return (⟨subject, comparator, values⟩, rest)
  else none

theorem length_lt_of_readCondition? {params : List (Text × Datum)} {t rest : Text} {c : Condition}
    (h : readCondition? params t = some (c, rest)) : rest.length < t.length := by
  simp only [readCondition?, Option.bind_eq_bind, Option.bind_eq_some_iff] at h
  obtain ⟨⟨⟨subject, comparator⟩, after⟩, hphrase, found, hfound, h⟩ := h
  have hrest : found = rest := by
    split at h
    · obtain ⟨values, _, heq⟩ := Option.bind_eq_some_iff.1 h
      cases heq
      rfl
    · cases h
  have ht := congrArg List.length (eq_append_of_readKeyword? hphrase)
  have hafter := congrArg List.length (eq_append_of_dropPrefix? hfound)
  have hlead : 0 < (Condition.lead subject comparator).length := by
    cases subject <;> cases comparator <;> decide
  simp only [List.length_append, List.length_drop] at ht hafter
  subst hrest
  omega

/-- Reads the text of a clause, with the values that its parameters are bound to. -/
def readClause? (params : List (Text × Datum)) (t : Text) : Option (List Condition) :=
  if t = [' '] then some []
  else
    match _h : readCondition? params t with
    | none => none
    | some (c, rest) => (readClause? params rest).map (c :: ·)
termination_by t.length
decreasing_by exact length_lt_of_readCondition? ‹_›

theorem phrases_free (p q : Subject × Comparator)
    (h : Condition.lead p.1 p.2 <+: Condition.lead q.1 q.2 ∨
      Condition.lead q.1 q.2 <+: Condition.lead p.1 p.2) : p = q := by
  revert h
  rcases p with ⟨subject, comparator⟩
  rcases q with ⟨other, otherComparator⟩
  cases subject <;> cases other <;> cases comparator <;> cases otherComparator <;> decide

theorem mem_phrases (subject : Subject) (comparator : Comparator) :
    (subject, comparator) ∈ phrases :=
  List.mem_flatMap.2 ⟨subject, Subject.mem_all subject,
    List.mem_map_of_mem (Comparator.mem_all comparator)⟩

theorem readPhrase?_append (subject : Subject) (comparator : Comparator) (rest : Text) :
    readPhrase? (Condition.lead subject comparator ++ rest) = some ((subject, comparator), rest) := by
  let keyword (p : Subject × Comparator) : Text := Condition.lead p.1 p.2
  have hmem := mem_phrases subject comparator
  have hfree : ∀ p ∈ phrases, keyword p <+: keyword (subject, comparator) ∨
      keyword (subject, comparator) <+: keyword p → p = (subject, comparator) :=
    fun p _ h => phrases_free p _ h
  exact @readKeyword?_append _ keyword _ _ hmem hfree rest

theorem mem_paramName {c : Char} {n : Int} (h : c ∈ paramName n) :
    c = 'p' ∨ c.isDigit = true ∨ c = '-' :=
  (List.mem_cons.1 h).imp_right Text.isDigit_or_eq_of_mem_ofInt

theorem mem_join {c : Char} {separator : Text} {texts : List Text}
    (h : c ∈ Text.join separator texts) : c ∈ separator ∨ ∃ t ∈ texts, c ∈ t := by
  fun_induction Text.join separator texts with
  | case1 => cases h
  | case2 piece => exact Or.inr ⟨piece, List.mem_cons_self, h⟩
  | case3 piece next rest ih =>
      simp only [List.mem_append] at h
      rcases h with (hpiece | hseparator) | hrest
      · exact Or.inr ⟨piece, List.mem_cons_self, hpiece⟩
      · exact Or.inl hseparator
      · exact (ih hrest).imp_right fun ⟨t, ht, hc⟩ => ⟨t, List.mem_cons_of_mem _ ht, hc⟩

theorem placeholders_eq (start : Int) (count : Nat) :
    placeholders start count = (paramNames start count).map (':' :: ·) := by
  induction count generalizing start with
  | zero => rfl
  | succ count ih => rw [placeholders, ih, paramNames_succ, List.map_cons]

theorem mem_placeholder {c : Char} {t : Text} {start : Int} {count : Nat}
    (ht : t ∈ placeholders start count) (hc : c ∈ t) :
    c = ':' ∨ c = 'p' ∨ c.isDigit = true ∨ c = '-' := by
  rw [placeholders_eq] at ht
  obtain ⟨name, hname, rfl⟩ := List.mem_map.1 ht
  obtain ⟨i, _, rfl⟩ := List.mem_map.1 hname
  exact (List.mem_cons.1 hc).imp_right mem_paramName

theorem length_values_of_wellSized {c : Condition} (hsized : c.wellSized = true)
    (hone : c.comparator.takesMany = false) : c.values.length = 1 := by
  simp only [Condition.wellSized, hone, Bool.false_or, Bool.and_eq_true, beq_iff_eq] at hsized
  exact hsized.2

/-- The placeholders of a condition hold nothing of what they end at. -/
theorem stop_notMem_join {c : Condition} (hsized : c.wellSized = true) (start : Int) :
    c.comparator.stop ∉ Text.join ", " (placeholders start c.values.length) := by
  intro h
  have hplaceholder {t : Text} (ht : t ∈ placeholders start c.values.length) :
      c.comparator.stop ∉ t := by
    intro hc
    have hchar := mem_placeholder ht hc
    revert hchar
    cases c.comparator <;> decide
  -- The blank that a lone placeholder ends at also stands between several.
  cases hmany : c.comparator.takesMany with
  | false =>
      have hone := length_values_of_wellSized hsized hmany
      rw [hone] at h hplaceholder
      exact hplaceholder List.mem_cons_self h
  | true =>
      rcases mem_join h with hseparator | ⟨t, ht, hc⟩
      · revert hseparator hmany
        cases c.comparator <;> decide
      · exact hplaceholder ht hc

theorem exists_closing_append_eq (c : Comparator) (rest : Text) :
    ∃ tail, c.closing ++ ' ' :: rest = c.stop :: tail := by
  cases c <;> exact ⟨_, rfl⟩

theorem value?_eq_some_iff {params : List (Text × Datum)} (h : (params.map Prod.fst).Nodup)
    {name : Text} {value : Datum} : value? params name = some value ↔ (name, value) ∈ params := by
  rw [value?, Option.map_eq_some_iff]
  constructor
  · rintro ⟨⟨_, _⟩, hrow, rfl⟩
    obtain ⟨hmem, rfl⟩ := (Keyed.get?_eq_some_iff h).1 hrow
    exact hmem
  · intro hmem
    exact ⟨_, (Keyed.get?_eq_some_iff h).2 ⟨hmem, rfl⟩, rfl⟩

theorem mapM_value? {params : List (Text × Datum)} (hnodup : (params.map Prod.fst).Nodup)
    {start : Int} {values : List Datum} (hbound : bind start values ⊆ params) :
    (paramNames start values.length).mapM (value? params) = some values := by
  induction values generalizing start with
  | nil => rfl
  | cons value rest ih =>
      rw [bind, List.cons_subset] at hbound
      have hvalue := (value?_eq_some_iff hnodup).2 hbound.1
      rw [List.length_cons, paramNames_succ, List.mapM_cons, hvalue, ih hbound.2]
      rfl

theorem readCondition?_lead_append {params : List (Text × Datum)} {subject : Subject}
    {comparator : Comparator} {operand : Text} {values : List Datum}
    (hstop : comparator.stop ∉ operand)
    (hmarks : operand = Text.join ", " ((marks operand).map (':' :: ·)))
    (hvalues : (marks operand).mapM (value? params) = some values) (rest : Text) :
    readCondition? params (Condition.lead subject comparator ++
      (operand ++ (comparator.closing ++ ' ' :: rest))) =
        some (⟨subject, comparator, values⟩, ' ' :: rest) := by
  have hoperand : (operand ++ (comparator.closing ++ ' ' :: rest)).takeWhile
      (· ≠ comparator.stop) = operand := by
    obtain ⟨tail, htail⟩ := exists_closing_append_eq comparator rest
    rw [htail, List.takeWhile_append_of_pos]
    · simp
    · intro c hc
      exact decide_eq_true fun heq => hstop (heq ▸ hc)
  simp only [readCondition?, readPhrase?_append, Option.bind_eq_bind, Option.bind_some, hoperand,
    List.drop_left, dropPrefix?_append, if_pos hmarks, hvalues]
  rfl

theorem readCondition?_text {params : List (Text × Datum)} (hnodup : (params.map Prod.fst).Nodup)
    {start : Int} {c : Condition} (hsized : c.wellSized = true)
    (hbound : bind start c.values ⊆ params) (rest : Text) :
    readCondition? params (c.text start ++ ' ' :: rest) = some (c, ' ' :: rest) := by
  have hmarks : marks (Text.join ", " (placeholders start c.values.length)) =
      paramNames start c.values.length := by
    have hscan := marks_join_append start c.values.length Text.endsNumber_nil
    rwa [marks_nil, List.append_nil, List.append_nil] at hscan
  rw [Condition.text_append]
  refine readCondition?_lead_append (stop_notMem_join hsized start) ?_ ?_ rest
  · rw [hmarks, placeholders_eq]
  · rw [hmarks]
    exact mapM_value? hnodup hbound

/-- Where the parameters bind what the conditions are numbered by, the reader finds the conditions
again. -/
theorem readClause?_conditionTexts {params : List (Text × Datum)}
    (hnodup : (params.map Prod.fst).Nodup) {start : Int} {conditions : List Condition}
    (hsized : ∀ c ∈ conditions, c.wellSized = true)
    (hbound : bind start (allValues conditions) ⊆ params) :
    readClause? params (conditionTexts start conditions ++ [' ']) = some conditions := by
  -- Every condition is read with the parameters of the whole clause, so of them the induction keeps
  -- no more than that they bind what is left.
  induction conditions generalizing start with
  | nil =>
      rw [readClause?]
      rfl
  | cons c rest ih =>
      rw [allValues_cons, bind_append, List.append_subset] at hbound
      obtain ⟨hc, hrest⟩ := List.forall_mem_cons.1 hsized
      obtain ⟨tail, htext, htail⟩ := exists_conditionTexts_cons_append_eq start c rest
      have hfirst := readCondition?_text hnodup hc hbound.1 tail
      have hmore : c.text start ++ ' ' :: tail ≠ [' '] := by
        intro heq
        have hlength := congrArg List.length heq
        have hread := length_lt_of_readCondition? hfirst
        simp only [List.length_append, List.length_cons, List.length_nil] at hlength hread
        omega
      have hothers := ih hrest hbound.2
      rw [htail] at hothers
      rw [htext, readClause?, if_neg hmore]
      split
      · rename_i hnone
        cases hnone.symm.trans hfirst
      · rename_i found after hsome
        cases hsome.symm.trans hfirst
        rw [hothers]
        rfl

/-- A compiled clause tells its conditions. Reading its text and parameters gives the subject,
comparator and values of every entry in order, so no two filters of different conditions are
compiled to the same text and parameters, whatever they are numbered from. -/
theorem readClause?_of_compile :
    (∀ start entries clause, Clause.compile start entries = .ok clause →
      ∃ conditions, List.Forall₂ Entry.Denotes entries conditions ∧
        readClause? clause.params clause.text = some conditions) ∧
    (∀ start entries clause conditions otherStart others otherClause otherConditions,
      Clause.compile start entries = .ok clause →
      Clause.compile otherStart others = .ok otherClause →
      List.Forall₂ Entry.Denotes entries conditions →
      List.Forall₂ Entry.Denotes others otherConditions →
      clause.text = otherClause.text → clause.params = otherClause.params →
        conditions = otherConditions) := by
  have hread : ∀ start entries clause, Clause.compile start entries = .ok clause →
      ∃ conditions, List.Forall₂ Entry.Denotes entries conditions ∧
        readClause? clause.params clause.text = some conditions := by
    intro start entries clause h
    obtain ⟨conditions, hdenotes, hsized, rfl⟩ := Clause.compile_eq_ok_iff.1 h
    refine ⟨conditions, hdenotes, ?_⟩
    exact readClause?_conditionTexts (Clause.nodup_params start conditions) hsized
      (List.Subset.refl _)
  refine ⟨hread, ?_⟩
  intro start entries clause conditions otherStart others otherClause otherConditions
    hclause hother hconditions hotherConditions htext hparams
  obtain ⟨found, hfound, hreads⟩ := hread _ _ _ hclause
  obtain ⟨otherFound, hotherFound, hotherReads⟩ := hread _ _ _ hother
  have hsame : found = otherFound := by
    rw [htext, hparams, hotherReads] at hreads
    exact (Option.some.inj hreads).symm
  rw [Entry.eq_of_forall₂_denotes hconditions hfound, hsame,
    Entry.eq_of_forall₂_denotes hotherConditions hotherFound]

/-- The same filter in other spellings. -/
def respelledEntries : List Entry :=
  [⟨.text "status", .text "NOT_EQUALS", .list [.text "KILLED", .text ":p9"]⟩,
    ⟨.text "nominal_time", .text ">=", .list [.int 7]⟩,
    ⟨.text "status", .comparator .equals, .list [.text "RUNNING"]⟩]

theorem denotes_respelledEntries :
    List.Forall₂ Entry.Denotes respelledEntries mixedConditions :=
  .cons ⟨rfl, .name _, rfl⟩ (.cons ⟨rfl, .sign .greaterEqual, rfl⟩ (.cons ⟨rfl, .self _, rfl⟩ .nil))

theorem readClause?_mixedClause :
    readClause? mixedClause.params mixedClause.text = some mixedConditions ∧
    ∀ conditions, List.Forall₂ Entry.Denotes respelledEntries conditions →
      conditions = mixedConditions := by
  obtain ⟨hread, hunique⟩ := readClause?_of_compile
  refine ⟨?_, fun conditions hconditions => ?_⟩
  · obtain ⟨conditions, hdenotes, hclause⟩ := hread (-1) _ _ compile_mixedEntries
    rw [hclause, Entry.eq_of_forall₂_denotes hdenotes denotes_mixedEntries]
  · have hcompile : Clause.compile (-1) respelledEntries = .ok mixedClause :=
      Clause.compile_eq_ok_iff.2 ⟨mixedConditions, denotes_respelledEntries, by decide, by rfl⟩
    exact hunique (-1) _ _ _ (-1) _ _ _ hcompile compile_mixedEntries hconditions
      denotes_mixedEntries rfl rfl

end Filter

end ActionQuery
