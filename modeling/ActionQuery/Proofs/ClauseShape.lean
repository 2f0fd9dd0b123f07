import ActionQuery.Proofs.ClauseReader
import ActionQuery.Proofs.ParsedFilters

/-!
# Values never reach the text of a clause

The text of a clause is put together from a fixed table of columns, keywords and signs and from
numbers. Of a condition it takes its subject, its comparator and how many values it has, and nothing
of what the values are. So two filters with the same keys and as many values under each of them have
one text, and nothing that a user writes can become a part of it.
-/

namespace ActionQuery

namespace Datum

/-- A text is one key with itself and with the comparator whose sign it is. -/
theorem text?_of_sameKey_text {s : Text} {value : Datum} (h : (text s).sameKey value = true) :
    value.text? = some s := by
  cases value with
  | text t =>
      have ht : (s == t) = true := h
      rw [eq_of_beq ht]
      rfl
  | comparator c =>
      have hc : (s == c.sign) = true := h
      rw [eq_of_beq hc]
      rfl
  | _ => exact absurd h (by simp [sameKey, number?, text?])

end Datum

namespace Comparator

/-- A text spells one comparator. -/
theorem eq_of_spelling_text {c d : Comparator} {t : Text} (hc : c.Spelling (.text t))
    (hd : d.Spelling (.text t)) : c = d := by
  rw [← read_text_eq_some_iff] at hc hd
  exact Option.some.inj (hc.symm.trans hd)

/-- A comparator counts as its sign. -/
theorem spelling_iff_of_text? {c : Comparator} {value : Datum} {t : Text}
    (h : value.text? = some t) : c.Spelling value ↔ c.Spelling (.text t) := by
  cases value with
  | text other =>
      cases h
      rfl
  | comparator other =>
      cases h
      constructor
      · rintro ⟨⟩
        exact .sign c
      · intro hc
        rw [eq_of_spelling_text hc (.sign other)]
        exact .self other
  | _ => cases h

theorem spelling_of_sameKey {c : Comparator} {first second : Datum} (h : c.Spelling first)
    (hkey : first.sameKey second = true) : c.Spelling second := by
  obtain ⟨t, hfirst, htext⟩ : ∃ t, first.text? = some t ∧ (Datum.text t).sameKey second = true := by
    cases h with
    | self => exact ⟨c.sign, rfl, hkey⟩
    | name => exact ⟨c.name, rfl, hkey⟩
    | sign => exact ⟨c.sign, rfl, hkey⟩
    | unequal => exact ⟨['<', '>'], rfl, hkey⟩
  rw [spelling_iff_of_text? (Datum.text?_of_sameKey_text htext), ← spelling_iff_of_text? hfirst]
  exact h

theorem opening_of_takesMany {c : Comparator} (h : c.takesMany = true) :
    (c.opening = "IN (" ∨ c.opening = "NOT IN (") ∧ c.closing = [')'] := by
  cases c with
  | equals => exact ⟨Or.inl rfl, rfl⟩
  | notEquals => exact ⟨Or.inr rfl, rfl⟩
  | _ => cases h

theorem opening_of_not_takesMany {c : Comparator} (h : c.takesMany = false) :
    c.opening = c.sign ++ [' '] ∧ c.closing = [] ∧
      (c.sign = ['>'] ∨ c.sign = ['>', '='] ∨ c.sign = ['<'] ∨ c.sign = ['<', '=']) := by
  cases c with
  | equals => cases h
  | notEquals => cases h
  | _ => exact ⟨rfl, rfl, by decide⟩

end Comparator

namespace Filter

/-- A piece of the text of a clause: a column and a keyword from fixed tables, and placeholders with
numbers. -/
inductive Fragment : Text → Prop where
  | membership {column keyword : Text} {numbers : List Int}
      (hcolumn : column = " AND a.statusStr " ∨ column = " AND a.nominalTimestamp ")
      (hkeyword : keyword = "IN (" ∨ keyword = "NOT IN (") (hnumbers : numbers ≠ []) :
      Fragment (column ++ (keyword ++
        (Text.join ", " (numbers.map fun n => ':' :: paramName n) ++ [')'])))
  | order {column sign : Text} {n : Int}
      (hcolumn : column = " AND a.statusStr " ∨ column = " AND a.nominalTimestamp ")
      (hsign : sign = ['>'] ∨ sign = ['>', '='] ∨ sign = ['<'] ∨ sign = ['<', '=']) :
      Fragment (column ++ (sign ++ ' ' :: ':' :: paramName n))

theorem placeholders_eq_map (start : Int) (count : Nat) :
    placeholders start count =
      ((List.range count).map fun (i : Nat) => start + i).map fun n => ':' :: paramName n := by
  rw [placeholders_eq, paramNames, List.map_map, List.map_map]
  rfl

namespace Condition

theorem text_eq (start : Int) (c : Condition) :
    c.text start = " AND " ++ c.subject.column ++ [' '] ++ (c.comparator.opening ++
      (Text.join ", " (placeholders start c.values.length) ++ c.comparator.closing)) := by
  unfold text
  rw [operator_eq]
  simp only [List.append_assoc, List.cons_append, List.nil_append]

theorem column_eq (a : Subject) :
    " AND " ++ a.column ++ [' '] = (" AND a.statusStr " : Text) ∨
      " AND " ++ a.column ++ [' '] = (" AND a.nominalTimestamp " : Text) := by
  cases a with
  | status => exact Or.inl rfl
  | nominalTime => exact Or.inr rfl

theorem fragment_text {c : Condition} (h : c.wellSized = true) (start : Int) :
    Fragment (c.text start) := by
  rw [text_eq]
  cases hmany : c.comparator.takesMany with
  | true =>
      obtain ⟨hopening, hclosing⟩ := Comparator.opening_of_takesMany hmany
      have hne : c.values ≠ [] := by
        intro hnil
        simp [wellSized, hnil] at h
      rw [placeholders_eq_map, hclosing]
      exact .membership (column_eq c.subject) hopening (by simpa using hne)
  | false =>
      obtain ⟨hopening, hclosing, hsign⟩ := Comparator.opening_of_not_takesMany hmany
      rw [length_values_of_wellSized h hmany, hopening, hclosing, List.append_nil,
        List.append_assoc c.comparator.sign]
      exact .order (column_eq c.subject) hsign

end Condition

theorem exists_fragments {conditions : List Condition} (h : ∀ c ∈ conditions, c.wellSized = true)
    (start : Int) :
    ∃ fragments : List Text, conditionTexts start conditions = fragments.flatten ∧
      fragments.length = conditions.length ∧ ∀ t ∈ fragments, Fragment t := by
  induction conditions generalizing start with
  | nil => exact ⟨[], rfl, rfl, List.forall_mem_nil _⟩
  | cons c rest ih =>
      obtain ⟨hc, hrest⟩ := List.forall_mem_cons.1 h
      obtain ⟨fragments, htexts, hlength, hfragments⟩ := ih hrest (start + c.values.length)
      refine ⟨c.text start :: fragments, ?_, congrArg (· + 1) hlength, ?_⟩
      · rw [conditionTexts, htexts, List.flatten_cons]
      · exact List.forall_mem_cons.2 ⟨Condition.fragment_text hc start, hfragments⟩

/-- What the text of a clause takes from a condition. -/
def Condition.shape (c : Condition) : Subject × Comparator × Nat :=
  (c.subject, c.comparator, c.values.length)

namespace Condition

variable {c d : Condition}

theorem text_of_shape (h : c.shape = d.shape) (start : Int) : c.text start = d.text start := by
  simp only [shape, Prod.mk.injEq] at h
  obtain ⟨hsubject, hcomparator, hlength⟩ := h
  rw [text_eq, text_eq, hsubject, hcomparator, hlength]

theorem wellSized_of_shape (h : c.shape = d.shape) : c.wellSized = d.wellSized := by
  simp only [shape, Prod.mk.injEq] at h
  obtain ⟨-, hcomparator, hlength⟩ := h
  have hempty : c.values.isEmpty = d.values.isEmpty := by
    rw [Bool.eq_iff_iff, List.isEmpty_iff_length_eq_zero, List.isEmpty_iff_length_eq_zero, hlength]
  rw [wellSized, wellSized, hempty, hcomparator, hlength]

end Condition

section Shapes

variable {first second : List Condition}

theorem conditionTexts_of_shapes (h : first.map Condition.shape = second.map Condition.shape)
    (start : Int) : conditionTexts start first = conditionTexts start second := by
  induction first generalizing second start with
  | nil => rw [List.map_eq_nil_iff.1 h.symm]
  | cons c rest ih =>
      obtain ⟨d, others, rfl, hd, hothers⟩ := List.map_eq_cons_iff.1 h.symm
      have hlength : c.values.length = d.values.length := congrArg (·.2.2) hd.symm
      rw [conditionTexts, conditionTexts, Condition.text_of_shape hd.symm, hlength,
        ih hothers.symm]

theorem length_allValues_of_shapes (h : first.map Condition.shape = second.map Condition.shape) :
    (allValues first).length = (allValues second).length := by
  have hsum (conditions : List Condition) :
      (allValues conditions).length = ((conditions.map Condition.shape).map (·.2.2)).sum := by
    rw [allValues, List.length_flatMap, List.map_map]
    rfl
  rw [hsum, hsum, h]

theorem wellSized_of_shapes (h : first.map Condition.shape = second.map Condition.shape)
    (hfirst : ∀ c ∈ first, c.wellSized = true) : ∀ d ∈ second, d.wellSized = true := by
  intro d hd
  have hshape : d.shape ∈ first.map Condition.shape := h ▸ List.mem_map_of_mem hd
  obtain ⟨c, hc, hcd⟩ := List.mem_map.1 hshape
  rw [← Condition.wellSized_of_shape hcd]
  exact hfirst c hc

end Shapes

/-- Two clauses that differ at most in the values that are bound. -/
structure Clause.SameOutline (first second : Clause) : Prop where
  text : first.text = second.text
  names : first.params.map Prod.fst = second.params.map Prod.fst
  next : first.next = second.next

theorem Clause.sameOutline_ofConditions {first second : List Condition}
    (h : first.map Condition.shape = second.map Condition.shape) (start : Int) :
    (ofConditions start first).SameOutline (ofConditions start second) where
  text := congrArg (· ++ [' ']) (conditionTexts_of_shapes h start)
  names := by rw [map_fst_params, map_fst_params, length_allValues_of_shapes h]
  next := by
    change start + ((allValues first).length : Int) = start + ((allValues second).length : Int)
    rw [length_allValues_of_shapes h]

/-- Two entries with one key and as many values. -/
structure Entry.SameShape (first second : Entry) : Prop where
  key : first.sameKey second = true
  count : first.values.items.map List.length = second.values.items.map List.length

/-- No subject is named by the sign of a comparator. -/
theorem Subject.eq_text_of_text? {a : Subject} {field : Datum} (h : field.text? = some a.name) :
    field = .text a.name := by
  cases field with
  | text t => exact congrArg Datum.text (Option.some.inj h)
  | comparator c =>
      have hname : c.sign = a.name := Option.some.inj h
      have hnone := ofName?_sign c
      rw [hname, ofName?_name] at hnone
      cases hnone
  | _ => cases h

theorem Entry.Denotes.of_sameShape {first second : Entry} {c : Condition} (hc : first.Denotes c)
    (h : first.SameShape second) : ∃ d, second.Denotes d ∧ c.shape = d.shape := by
  have hkey := h.key
  rw [Entry.sameKey, Bool.and_eq_true, hc.subject] at hkey
  obtain ⟨hfield, hcomparator⟩ := hkey
  have hsubject := Subject.eq_text_of_text? (Datum.text?_of_sameKey_text hfield)
  have hcount := h.count
  rw [hc.values] at hcount
  obtain ⟨values, hvalues, hlength⟩ := map_eq_ok_iff.1 hcount.symm
  refine ⟨⟨c.subject, c.comparator, values⟩, ⟨hsubject, ?_, hvalues⟩, ?_⟩
  · exact Comparator.spelling_of_sameKey hc.comparator hcomparator
  · rw [Condition.shape, Condition.shape, hlength]

theorem exists_denotes_of_sameShape {entries others : List Entry} {conditions : List Condition}
    (hdenotes : List.Forall₂ Entry.Denotes entries conditions)
    (h : List.Forall₂ Entry.SameShape entries others) :
    ∃ otherConditions, List.Forall₂ Entry.Denotes others otherConditions ∧
      conditions.map Condition.shape = otherConditions.map Condition.shape := by
  induction h generalizing conditions with
  | nil =>
      cases hdenotes
      exact ⟨[], .nil, rfl⟩
  | cons hfirst _ ih =>
      cases hdenotes with
      | cons hc hrest =>
          obtain ⟨d, hd, hshape⟩ := hc.of_sameShape hfirst
          obtain ⟨otherConditions, hothers, hshapes⟩ := ih hrest
          refine ⟨d :: otherConditions, .cons hd hothers, ?_⟩
          rw [List.map_cons, List.map_cons, hshape, hshapes]

theorem compile_of_sameShape {start : Int} {entries others : List Entry} {clause : Clause}
    (hcompile : Clause.compile start entries = .ok clause)
    (h : List.Forall₂ Entry.SameShape entries others) :
    ∃ otherClause, Clause.compile start others = .ok otherClause ∧
      clause.SameOutline otherClause := by
  obtain ⟨conditions, hdenotes, hsized, rfl⟩ := Clause.compile_eq_ok_iff.1 hcompile
  obtain ⟨otherConditions, hothers, hshapes⟩ := exists_denotes_of_sameShape hdenotes h
  have hotherSized := wellSized_of_shapes hshapes hsized
  exact ⟨_, Clause.compile_eq_ok_iff.2 ⟨otherConditions, hothers, hotherSized, rfl⟩,
    Clause.sameOutline_ofConditions hshapes start⟩

theorem sameShape_entry {c d : Condition} (h : c.shape = d.shape) :
    c.entry.SameShape d.entry := by
  simp only [Condition.shape, Prod.mk.injEq] at h
  obtain ⟨hsubject, hcomparator, hlength⟩ := h
  constructor
  · simp [Entry.sameKey, Condition.entry, Datum.sameKey, Datum.number?, Datum.text?, hsubject,
      hcomparator]
  · exact congrArg Except.ok hlength

/-- Of a filter only its shape comes out in the text of a clause. Where entries are compiled, others
with the same keys and as many values are, to the same text, parameter names and next number; every
text is a row of fragments from fixed tables with a final blank; and what was read from a filter
text can be exchanged for what was read from another, by any reader, with the same subjects and
comparators and as many values. -/
theorem compile_by_shape :
    (∀ start entries others clause, Clause.compile start entries = .ok clause →
      List.Forall₂ Entry.SameShape entries others →
        ∃ otherClause, Clause.compile start others = .ok otherClause ∧
          clause.SameOutline otherClause) ∧
    (∀ start entries clause, Clause.compile start entries = .ok clause →
      ∃ fragments : List Text, clause.text = fragments.flatten ++ [' '] ∧
        fragments.length = entries.length ∧ ∀ t ∈ fragments, Fragment t) ∧
    (∀ reader otherReader text otherText conditions others start clause,
      parse reader text = .ok conditions → parse otherReader otherText = .ok others →
      conditions.map Condition.shape = others.map Condition.shape →
      Clause.compile start (conditions.map Condition.entry) = .ok clause →
        ∃ otherClause, Clause.compile start (others.map Condition.entry) = .ok otherClause ∧
          clause.SameOutline otherClause) := by
  refine ⟨fun _ _ _ _ hcompile h => compile_of_sameShape hcompile h, ?_, ?_⟩
  · intro start entries clause hcompile
    obtain ⟨conditions, hdenotes, hsized, rfl⟩ := Clause.compile_eq_ok_iff.1 hcompile
    obtain ⟨fragments, htexts, hlength, hfragments⟩ := exists_fragments hsized start
    refine ⟨fragments, congrArg (· ++ [' ']) htexts, ?_, hfragments⟩
    rw [hlength, hdenotes.length_eq]
  · intro reader otherReader text otherText conditions others start clause _ _ hshapes hcompile
    refine compile_of_sameShape hcompile ?_
    rw [List.forall₂_map_left_iff, List.forall₂_map_right_iff]
    rw [← List.forall₂_eq_eq_eq, List.forall₂_map_left_iff, List.forall₂_map_right_iff] at hshapes
    exact hshapes.imp fun _ _ => sameShape_entry

/-- The shape of `mixedEntries` with values that are written like parts of a query. -/
def hostileEntries : List Entry :=
  [⟨.text "status", .text "<>", .list [.text ") OR (1=1", .text ":p-1"]⟩,
    ⟨.text "nominal_time", .text ">=", .text ";"⟩,
    ⟨.text "status", .text "EQUALS", .object [("a.statusStr) --", .null)]⟩]

def plainText : Text := "status=RUNNING;nominal_time>=noon;status=KILLED"

def spacedText : Text := " STATUS = killed ; NominalTime >= 1 ;; Status = running"

theorem compile_by_shape_hostileEntries :
    (∃ clause, Clause.compile (-1) hostileEntries = .ok clause ∧ mixedClause.SameOutline clause) ∧
    (∃ fragments : List Text, mixedClause.text = fragments.flatten ++ [' '] ∧
      fragments.length = 3 ∧ ∀ t ∈ fragments, Fragment t) ∧
    ∃ others clause, parse (fun _ => .ok Store.evening.toStamp) (some spacedText) = .ok others ∧
      Clause.compile 1 (others.map Condition.entry) = .ok clause ∧
      clause.text = " AND a.statusStr IN (:p1, :p2) AND a.nominalTimestamp >= :p3 " := by
  obtain ⟨hentries, hfragments, htexts⟩ := compile_by_shape
  refine ⟨hentries _ _ _ _ compile_mixedEntries ?_, hfragments _ _ _ compile_mixedEntries, ?_⟩
  · exact .cons ⟨by decide, rfl⟩ (.cons ⟨by decide, rfl⟩ (.cons ⟨by decide, rfl⟩ .nil))
  · have hplain : parse Store.dayReader (some plainText) = .ok _ := rfl
    have hspaced : parse (fun _ => .ok Store.evening.toStamp) (some spacedText) = .ok _ := rfl
    obtain ⟨clause, hclause, hsame⟩ := htexts _ _ _ _ _ _ 1 _ hplain hspaced rfl rfl
    exact ⟨_, clause, hspaced, hclause, hsame.text.symm⟩

end Filter

end ActionQuery
