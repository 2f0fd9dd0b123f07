import ActionQuery.Proofs.Entries
import ActionQuery.Proofs.Keyed
import ActionQuery.Proofs.Numerals
import Mathlib

/-!
# Placeholders and parameters

The text of a clause is scanned from left to right, and what the scan finds is compared with the
parameters: it finds exactly their names, in their order. The names are numbered on from the start,
so none of them is used for two values.
-/

namespace ActionQuery

namespace Filter

/-- A part of a clause's text: a placeholder, by its name, or any other character. -/
inductive Piece where
  | other (c : Char)
  | mark (name : Text)
  deriving DecidableEq, Repr

namespace Piece

def text : Piece → Text
  | other c => [c]
  | mark name => ':' :: name

def name? : Piece → Option Text
  | other _ => none
  | mark name => some name

end Piece

/-- The pieces of a text. A placeholder is a colon, a `p` and an integer, and the integer is as long
as it can be. -/
def pieces : Text → List Piece
  | ':' :: 'p' :: rest =>
    let number := Text.leadingInteger rest
    if number = [] then .other ':' :: .other 'p' :: pieces rest
    else .mark ('p' :: number) :: pieces (rest.drop number.length)
  | c :: rest => .other c :: pieces rest
  | [] => []
termination_by t => t.length

/-- The names of the placeholders in a text. -/
def marks (t : Text) : List Text := (pieces t).filterMap Piece.name?

@[simp]
theorem marks_nil : marks [] = [] := by
  rw [marks, pieces]
  rfl

theorem pieces_cons_of_ne {c : Char} (hc : c ≠ ':') (rest : Text) :
    pieces (c :: rest) = .other c :: pieces rest := by
  rw [pieces]
  rintro _ rfl
  exact absurd rfl hc

theorem pieces_append_of_notMem {t : Text} (ht : ':' ∉ t) (rest : Text) :
    pieces (t ++ rest) = t.map .other ++ pieces rest := by
  induction t with
  | nil => rfl
  | cons c tail ih =>
      rw [List.mem_cons, not_or] at ht
      rw [List.cons_append, pieces_cons_of_ne (Ne.symm ht.1), ih ht.2]
      rfl

theorem pieces_paramName_append (n : Int) {rest : Text} (hrest : Text.EndsNumber rest) :
    pieces (':' :: (paramName n ++ rest)) = .mark (paramName n) :: pieces rest := by
  have hnumber := Text.leadingInteger_ofInt_append n hrest
  have hne : Text.ofInt n ≠ [] := Text.ofInt_ne_nil n
  rw [paramName, List.cons_append, pieces]
  simp [hnumber, hne]

@[simp]
theorem marks_append_of_notMem {t : Text} (ht : ':' ∉ t) (rest : Text) :
    marks (t ++ rest) = marks rest := by
  have hnone : (t.map Piece.other).filterMap Piece.name? = [] := by
    rw [List.filterMap_map, List.filterMap_eq_nil_iff]
    exact fun _ _ => rfl
  rw [marks, pieces_append_of_notMem ht, List.filterMap_append, hnone]
  rfl

theorem marks_paramName_append (n : Int) {rest : Text} (hrest : Text.EndsNumber rest) :
    marks (':' :: (paramName n ++ rest)) = paramName n :: marks rest := by
  rw [marks, pieces_paramName_append n hrest]
  rfl

/-- The names of `count` parameters, numbered from `start`. -/
def paramNames (start : Int) (count : Nat) : List Text :=
  (List.range count).map fun (i : Nat) => paramName (start + i)

theorem paramName_injective : Function.Injective paramName := by
  intro m n h
  exact Text.ofInt_injective (List.cons.inj h).2

@[simp]
theorem paramNames_zero (start : Int) : paramNames start 0 = [] := rfl

theorem paramNames_succ (start : Int) (count : Nat) :
    paramNames start (count + 1) = paramName start :: paramNames (start + 1) count := by
  rw [paramNames, List.range_succ_eq_map, List.map_cons, List.map_map, paramNames]
  congr 1
  · simp
  · refine List.map_congr_left fun i _ => congrArg paramName ?_
    simp only [Nat.cast_succ]
    omega

theorem paramNames_add (start : Int) (m n : Nat) :
    paramNames start (m + n) = paramNames start m ++ paramNames (start + m) n := by
  induction m generalizing start with
  | zero => simp
  | succ m ih =>
      have hnext : start + 1 + (m : Int) = start + ((m + 1 : Nat) : Int) := by omega
      rw [Nat.add_right_comm, paramNames_succ, paramNames_succ, ih, hnext, List.cons_append]

theorem nodup_paramNames (start : Int) (count : Nat) : (paramNames start count).Nodup := by
  refine List.nodup_range.map fun i j h => ?_
  have hindex := paramName_injective h
  omega

@[simp]
theorem map_fst_bind (start : Int) (values : List Datum) :
    (bind start values).map Prod.fst = paramNames start values.length := by
  induction values generalizing start with
  | nil => rfl
  | cons value rest ih => rw [bind, List.map_cons, ih, List.length_cons, paramNames_succ]

@[simp]
theorem map_snd_bind (start : Int) (values : List Datum) :
    (bind start values).map Prod.snd = values := by
  induction values generalizing start with
  | nil => rfl
  | cons value rest ih => rw [bind, List.map_cons, ih]

theorem bind_append (start : Int) (first second : List Datum) :
    bind start (first ++ second) = bind start first ++ bind (start + first.length) second := by
  induction first generalizing start with
  | nil => simp [bind]
  | cons value rest ih =>
      have hnext : start + 1 + (rest.length : Int) = start + ((value :: rest).length : Int) := by
        rw [List.length_cons]
        omega
      rw [List.cons_append, bind, bind, ih, hnext, List.cons_append]

end Filter

namespace Comparator

/-- What stands between a column and its placeholders. -/
def opening : Comparator → Text
  | equals => "IN ("
  | notEquals => "NOT IN ("
  | c => c.sign ++ [' ']

def closing : Comparator → Text
  | equals | notEquals => [')']
  | _ => []

end Comparator

namespace Filter

namespace Condition

/-- What stands in front of the placeholders of a condition. -/
def lead (subject : Subject) (comparator : Comparator) : Text :=
  " AND " ++ subject.column ++ ' ' :: comparator.opening

theorem operator_eq (c : Condition) (marks : Text) :
    c.operator marks = c.comparator.opening ++ (marks ++ c.comparator.closing) := by
  have hsingle (sign : Text) : sign ++ ' ' :: marks = sign ++ [' '] ++ (marks ++ []) := by
    simp
  rcases c with ⟨subject, comparator, values⟩
  cases comparator with
  | equals => exact List.append_assoc ..
  | notEquals => exact List.append_assoc ..
  | _ => exact hsingle _

theorem text_append (start : Int) (c : Condition) (rest : Text) :
    c.text start ++ rest = lead c.subject c.comparator ++
      (Text.join ", " (placeholders start c.values.length) ++ (c.comparator.closing ++ rest)) := by
  unfold text lead
  rw [operator_eq]
  simp only [List.append_assoc, List.cons_append]

theorem colon_notMem_lead (subject : Subject) (comparator : Comparator) :
    ':' ∉ lead subject comparator := by
  cases subject <;> cases comparator <;> decide

end Condition

theorem colon_notMem_closing (c : Comparator) : ':' ∉ c.closing := by cases c <;> decide

theorem endsNumber_closing_append (c : Comparator) (rest : Text) :
    Text.EndsNumber (c.closing ++ ' ' :: rest) := by
  cases c <;> exact Text.endsNumber_cons (by decide) _

/-- The text of a clause starts with a blank, that of its first condition or the final one. -/
theorem exists_conditionTexts_append_eq (start : Int) (conditions : List Condition) :
    ∃ tail, conditionTexts start conditions ++ [' '] = ' ' :: tail := by
  cases conditions with
  | nil => exact ⟨[], rfl⟩
  | cons c rest => exact ⟨_, rfl⟩

/-- A blank follows every condition, that of the next one or the final one. -/
theorem exists_conditionTexts_cons_append_eq (start : Int) (c : Condition) (rest : List Condition) :
    ∃ tail, conditionTexts start (c :: rest) ++ [' '] = c.text start ++ ' ' :: tail ∧
      conditionTexts (start + c.values.length) rest ++ [' '] = ' ' :: tail := by
  obtain ⟨tail, htail⟩ := exists_conditionTexts_append_eq (start + c.values.length) rest
  refine ⟨tail, ?_, htail⟩
  rw [conditionTexts, List.append_assoc, htail]

@[simp]
theorem allValues_nil : allValues [] = [] := rfl

@[simp]
theorem allValues_cons (c : Condition) (rest : List Condition) :
    allValues (c :: rest) = c.values ++ allValues rest := rfl

@[simp]
theorem allValues_append (first second : List Condition) :
    allValues (first ++ second) = allValues first ++ allValues second :=
  List.flatMap_append

theorem join_placeholders (start : Int) (count : Nat) :
    Text.join ", " (placeholders start (count + 2)) =
      ':' :: (paramName start ++
        (", " ++ Text.join ", " (placeholders (start + 1) (count + 1)))) :=
  List.append_assoc (':' :: paramName start) _ _

theorem endsNumber_separator_append (rest : Text) : Text.EndsNumber (", " ++ rest) :=
  Text.endsNumber_cons (by decide) (' ' :: rest)

theorem marks_join_append (start : Int) (count : Nat) {rest : Text}
    (hrest : Text.EndsNumber rest) :
    marks (Text.join ", " (placeholders start count) ++ rest) =
      paramNames start count ++ marks rest := by
  induction count generalizing start with
  | zero => rfl
  | succ count ih =>
      -- The last name ends at `rest`, every other one at the comma behind it.
      cases count with
      | zero =>
          rw [paramNames_succ]
          exact marks_paramName_append start hrest
      | succ count =>
          rw [join_placeholders, List.cons_append, List.append_assoc, List.append_assoc,
            marks_paramName_append start (endsNumber_separator_append _),
            marks_append_of_notMem (by decide), ih (start + 1), paramNames_succ start (count + 1),
            List.cons_append]

theorem marks_text (start : Int) (c : Condition) (rest : Text) :
    marks (c.text start ++ ' ' :: rest) =
      paramNames start c.values.length ++ marks (' ' :: rest) := by
  rw [Condition.text_append, marks_append_of_notMem (Condition.colon_notMem_lead _ _),
    marks_join_append start _ (endsNumber_closing_append _ _),
    marks_append_of_notMem (colon_notMem_closing _)]

theorem marks_conditionTexts (start : Int) (conditions : List Condition) :
    marks (conditionTexts start conditions ++ [' ']) =
      paramNames start (allValues conditions).length := by
  induction conditions generalizing start with
  | nil => simp [conditionTexts, marks, pieces, Piece.name?]
  | cons c rest ih =>
      obtain ⟨tail, htext, htail⟩ := exists_conditionTexts_cons_append_eq start c rest
      calc
        marks (conditionTexts start (c :: rest) ++ [' ']) = marks (c.text start ++ ' ' :: tail) := by
          rw [htext]
        _ = paramNames start c.values.length ++ marks (' ' :: tail) := marks_text start c tail
        _ = paramNames start c.values.length ++
            paramNames (start + c.values.length) (allValues rest).length := by
          rw [← htail, ih]
        _ = paramNames start (allValues (c :: rest)).length := by
          rw [allValues_cons, List.length_append, paramNames_add]

namespace Clause

theorem map_fst_params (start : Int) (conditions : List Condition) :
    (ofConditions start conditions).params.map Prod.fst =
      paramNames start (allValues conditions).length :=
  map_fst_bind start (allValues conditions)

theorem nodup_params (start : Int) (conditions : List Condition) :
    ((ofConditions start conditions).params.map Prod.fst).Nodup := by
  rw [map_fst_params]
  exact nodup_paramNames start _

end Clause

theorem exists_values_of_denotes {entries : List Entry} {conditions : List Condition}
    (h : List.Forall₂ Entry.Denotes entries conditions) :
    ∃ values : List (List Datum),
      List.Forall₂ (fun e items => e.values.items = .ok items) entries values ∧
        values.flatten = allValues conditions := by
  induction h with
  | nil => exact ⟨[], .nil, rfl⟩
  | @cons e c _ rest hdenotes _ ih =>
      obtain ⟨values, hvalues, hflatten⟩ := ih
      refine ⟨c.values :: values, .cons hdenotes.values hvalues, ?_⟩
      rw [List.flatten_cons, hflatten, allValues_cons]

/-- A specification that is compiled numbers its values from the start: their number is what the
next number goes up by, the parameters have numbered names in order and are bound to the values in
order, none of them twice, and a scan of the text finds exactly their names. -/
theorem params_match_placeholders {start : Int} {entries : List Entry} {clause : Clause}
    (h : Clause.compile start entries = .ok clause) :
    ∃ values : List (List Datum),
      List.Forall₂ (fun e items => e.values.items = .ok items) entries values ∧
      clause.next = start + values.flatten.length ∧
      clause.params.map Prod.fst =
        (List.range values.flatten.length).map (fun (i : Nat) => paramName (start + i)) ∧
      clause.params.map Prod.snd = values.flatten ∧
      (clause.params.map Prod.fst).Nodup ∧
      clause.params.foldl (fun table row => Keyed.put Prod.fst row table) [] = clause.params ∧
      marks clause.text = clause.params.map Prod.fst := by
  obtain ⟨conditions, hdenotes, _, rfl⟩ := Clause.compile_eq_ok_iff.1 h
  obtain ⟨values, hvalues, hflatten⟩ := exists_values_of_denotes hdenotes
  have hnames := Clause.map_fst_params start conditions
  have hnodup := Clause.nodup_params start conditions
  refine ⟨values, hvalues, ?_, ?_, ?_, hnodup, Keyed.foldl_put_of_nodup hnodup, ?_⟩
  · rw [hflatten]
    rfl
  · rw [hflatten]
    exact hnames
  · rw [hflatten]
    exact map_snd_bind start (allValues conditions)
  · rw [hnames]
    exact marks_conditionTexts start conditions

/-- A filter over both subjects, in three spellings of a comparator. -/
def mixedEntries : List Entry :=
  [⟨.text "status", .text "<>", .list [.text "KILLED", .text ":p9"]⟩,
    ⟨.text "nominal_time", .comparator .greaterEqual, .list [.int 7]⟩,
    ⟨.text "status", .text "EQUALS", .list [.text "RUNNING"]⟩]

def mixedClause : Clause where
  text :=
    " AND a.statusStr NOT IN (:p-1, :p0) AND a.nominalTimestamp >= :p1 AND a.statusStr IN (:p2) "
  params :=
    [("p-1", .text "KILLED"), ("p0", .text ":p9"), ("p1", .int 7), ("p2", .text "RUNNING")]
  next := 3

def mixedConditions : List Condition :=
  [⟨.status, .notEquals, [.text "KILLED", .text ":p9"]⟩, ⟨.nominalTime, .greaterEqual, [.int 7]⟩,
    ⟨.status, .equals, [.text "RUNNING"]⟩]

theorem denotes_mixedEntries : List.Forall₂ Entry.Denotes mixedEntries mixedConditions :=
  .cons ⟨rfl, .unequal, rfl⟩ (.cons ⟨rfl, .self _, rfl⟩ (.cons ⟨rfl, .name _, rfl⟩ .nil))

theorem compile_mixedEntries : Clause.compile (-1) mixedEntries = .ok mixedClause :=
  Clause.compile_eq_ok_iff.2 ⟨mixedConditions, denotes_mixedEntries, by decide, by rfl⟩

theorem params_match_placeholders_mixed :
    Clause.compile (-1) mixedEntries = .ok mixedClause ∧
      marks mixedClause.text = ["p-1", "p0", "p1", "p2"] := by
  refine ⟨compile_mixedEntries, ?_⟩
  obtain ⟨_, _, _, _, _, _, _, hmarks⟩ := params_match_placeholders compile_mixedEntries
  exact hmarks

end Filter

end ActionQuery
