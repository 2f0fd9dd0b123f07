import ActionQuery.Proofs.Entries
import ActionQuery.Proofs.Grouping
import ActionQuery.Proofs.Runs

/-!
# The grammar of filter texts

An entry of a filter text is a name, a sign and a value with white space between them. The grammar
says this without reading from left to right: the parts make up the entry, the name and the sign are
as long as they can be, and the value stands on one line. A filter text is read exactly by this
grammar, its entries one after another: the first that says nothing decides the error, and without
such an entry the answer has one condition for each key.
-/

namespace ActionQuery

namespace Comparator

/-- A comparator has one sign, and `notEquals` has two. -/
def IsSign (sign : Text) (c : Comparator) : Prop :=
  sign = c.sign ∨ sign = ['<', '>'] ∧ c = notEquals

/-- No sign that a text starts with is longer. -/
def IsLongest (sign t : Text) : Prop :=
  ∀ c other, IsSign other c → other <+: t → other.length ≤ sign.length

variable {c : Comparator} {sign rest t : Text} {a b : Char}

theorem length_le_of_isSign (h : IsSign sign c) : sign.length ≤ 2 := by
  rcases h with rfl | ⟨rfl, _⟩
  · cases c <;> decide
  · decide

theorem eq_or_eq_of_isSign_pair (h : IsSign [a, b] c) :
    a ≠ '=' ∧ b = '=' ∨ a = '<' ∧ b = '>' := by
  rcases h with h | ⟨h, _⟩
  · cases c <;> simp_all [Comparator.sign]
  · simp_all

theorem isLongest_pair (a b : Char) (t : Text) : IsLongest [a, b] t :=
  fun _ _ hsign _ => length_le_of_isSign hsign

/-- A sign of one character is the longest one unless the next character makes it a longer sign. -/
theorem isLongest_singleton (h : ∀ b tail c, rest = b :: tail → ¬ IsSign [a, b] c) :
    IsLongest [a] (a :: rest) := by
  intro c other hsign hprefix
  have hlength := length_le_of_isSign hsign
  match other, hprefix with
  | [], _ => exact Nat.zero_le _
  | [_], _ => exact le_refl _
  | [x, y], ⟨tail, htail⟩ =>
      obtain ⟨rfl, hrest⟩ := List.cons.inj htail
      exact absurd hsign (h y tail c hrest.symm)
  | _ :: _ :: _ :: _, _ =>
      simp only [List.length_cons] at hlength
      omega

theorem exists_isSign_of_read (h : read t = some (c, rest)) :
    ∃ sign, IsSign sign c ∧ t = sign ++ rest ∧ IsLongest sign t := by
  unfold read at h
  split at h
  · cases h
    exact ⟨['>', '='], .inl rfl, rfl, isLongest_pair _ _ _⟩
  · cases h
    exact ⟨['<', '='], .inl rfl, rfl, isLongest_pair _ _ _⟩
  · cases h
    exact ⟨['!', '='], .inl rfl, rfl, isLongest_pair _ _ _⟩
  · cases h
    exact ⟨['<', '>'], .inr ⟨rfl, rfl⟩, rfl, isLongest_pair _ _ _⟩
  · cases h
    refine ⟨['='], .inl rfl, rfl, isLongest_singleton ?_⟩
    intro b tail c _ hpair
    rcases eq_or_eq_of_isSign_pair hpair with ⟨hne, _⟩ | ⟨heq, _⟩
    · exact hne rfl
    · cases heq
  · cases h
    rename_i hnot
    refine ⟨['>'], .inl rfl, rfl, isLongest_singleton ?_⟩
    rintro b tail c rfl hpair
    rcases eq_or_eq_of_isSign_pair hpair with ⟨_, rfl⟩ | ⟨heq, _⟩
    · exact hnot tail rfl
    · cases heq
  · cases h
    rename_i hnot hunequal
    refine ⟨['<'], .inl rfl, rfl, isLongest_singleton ?_⟩
    rintro b tail c rfl hpair
    rcases eq_or_eq_of_isSign_pair hpair with ⟨_, rfl⟩ | ⟨_, rfl⟩
    · exact hnot tail rfl
    · exact hunequal tail rfl
  · cases h

theorem read_append_of_isLongest (hsign : IsSign sign c) (hlongest : IsLongest sign (sign ++ rest)) :
    read (sign ++ rest) = some (c, rest) := by
  have hnot (longer : Text) (d : Comparator) (hlonger : IsSign longer d)
      (hlength : sign.length < longer.length) (tail : Text) : sign ++ rest ≠ longer ++ tail := by
    intro heq
    have hle := hlongest d longer hlonger (heq ▸ List.prefix_append longer tail)
    omega
  rcases hsign with rfl | ⟨rfl, rfl⟩
  · cases c with
    | equals => rfl
    | notEquals => rfl
    | greaterEqual => rfl
    | lessEqual => rfl
    | greater =>
        have hrest (tail : Text) : rest ≠ '=' :: tail := by
          rintro rfl
          exact hnot ['>', '='] greaterEqual (.inl rfl) (by decide) tail rfl
        change read ('>' :: rest) = _
        unfold read
        split <;> simp_all
    | less =>
        have hrest (tail : Text) : rest ≠ '=' :: tail := by
          rintro rfl
          exact hnot ['<', '='] lessEqual (.inl rfl) (by decide) tail rfl
        have hrest' (tail : Text) : rest ≠ '>' :: tail := by
          rintro rfl
          exact hnot ['<', '>'] notEquals (.inr ⟨rfl, rfl⟩) (by decide) tail rfl
        change read ('<' :: rest) = _
        unfold read
        split <;> simp_all
  · rfl

theorem head?_isSign_append (h : IsSign sign c) (rest : Text) :
    ∀ a ∈ (sign ++ rest).head?, Text.isBlank a = false := by
  rcases h with rfl | ⟨rfl, _⟩
  · cases c <;> simp [Comparator.sign, Text.isBlank]
  · simp [Text.isBlank]

end Comparator

namespace Filter

open Scope (TimeReader)

/-- The parts of an entry: its name, the white space behind it, its sign, and what follows. -/
structure Parts where
  name : Text
  gap : Text
  sign : Text
  rest : Text

namespace Parts

def value (p : Parts) : Text := Text.trim p.rest

/-- The parts make up an entry, with its name and its sign as long as they can be. -/
structure Fit (p : Parts) (entry : Text) (c : Comparator) : Prop where
  text_eq : p.name ++ (p.gap ++ (p.sign ++ p.rest)) = entry
  name_ne_nil : p.name ≠ []
  letters : ∀ a ∈ p.name, a.isAlpha = true ∨ a = '_'
  name_ends : ∀ a ∈ (p.gap ++ (p.sign ++ p.rest)).head?, ¬ (a.isAlpha = true ∨ a = '_')
  gap_blank : Text.blank p.gap = true
  isSign : Comparator.IsSign p.sign c
  isLongest : Comparator.IsLongest p.sign (p.sign ++ p.rest)
  one_line : '\n' ∉ p.value

end Parts

theorem isNameChar_iff {a : Char} : isNameChar a = true ↔ a.isAlpha = true ∨ a = '_' := by
  simp [isNameChar]

variable {reader : TimeReader} {entry name value : Text} {c : Comparator} {p : Parts}

theorem splitEntry_of_fit (h : p.Fit entry c) : splitEntry entry = some (p.name, c, p.value) := by
  have hletters : ∀ a ∈ p.name, isNameChar a = true := fun a ha => isNameChar_iff.2 (h.letters a ha)
  have hends : ∀ a ∈ (p.gap ++ (p.sign ++ p.rest)).head?, isNameChar a = false := fun a ha =>
    Bool.eq_false_iff.2 (mt isNameChar_iff.1 (h.name_ends a ha))
  have hblank : ∀ a ∈ p.gap, Text.isBlank a = true := List.all_eq_true.1 h.gap_blank
  have hsign := Comparator.head?_isSign_append h.isSign p.rest
  have hread := Comparator.read_append_of_isLongest h.isSign h.isLongest
  rw [splitEntry, ← h.text_eq, Text.takeWhile_append_of_head hletters hends,
    Text.dropWhile_append_of_head hletters hends, Text.dropWhile_append_of_head hblank hsign, hread]
  simp only [h.name_ne_nil, if_false]
  exact if_neg h.one_line

theorem exists_fit_of_splitEntry (h : splitEntry entry = some (name, c, value)) :
    ∃ p : Parts, p.Fit entry c ∧ p.name = name ∧ p.value = value := by
  simp only [splitEntry] at h
  split at h
  · cases h
  · rename_i hname
    split at h
    · cases h
    · rename_i found rest hread
      split at h
      · cases h
      · rename_i hline
        cases h
        obtain ⟨sign, hsign, hrest, hlongest⟩ := Comparator.exists_isSign_of_read hread
        have hgap := List.takeWhile_append_dropWhile (p := Text.isBlank)
          (l := entry.dropWhile isNameChar)
        rw [hrest] at hgap hlongest
        refine ⟨⟨entry.takeWhile isNameChar, (entry.dropWhile isNameChar).takeWhile Text.isBlank,
          sign, rest⟩, ?_, rfl, rfl⟩
        exact {
          text_eq := by
            rw [hgap]
            exact List.takeWhile_append_dropWhile
          name_ne_nil := hname
          letters := fun a ha => isNameChar_iff.1 (List.mem_takeWhile_imp ha)
          name_ends := by
            intro a ha
            rw [hgap] at ha
            rw [← isNameChar_iff, Text.head?_dropWhile isNameChar entry a ha]
            decide
          gap_blank := List.all_eq_true.2 fun a ha => List.mem_takeWhile_imp ha
          isSign := hsign
          isLongest := hlongest
          one_line := hline }

namespace Subject

/-- A name in any case; that of the nominal time has a second spelling. -/
def IsCalled (name : Text) (a : Subject) : Prop :=
  Text.asciiLower name = a.name ∨ Text.asciiLower name = "nominaltime".toList ∧ a = nominalTime

theorem fieldName_eq_name_iff {a : Subject} : fieldName name = a.name ↔ IsCalled name a := by
  simp only [fieldName, IsCalled]
  by_cases h : Text.asciiLower name = "nominaltime".toList
  · rw [if_pos h, h]
    cases a <;> decide
  · rw [if_neg h, or_iff_left fun hsecond => h hsecond.1]

theorem ofField_fieldName_eq_ok_iff {a : Subject} :
    ofField (.text (fieldName name)) = .ok a ↔ IsCalled name a := by
  rw [ofField_eq_ok_iff, ← fieldName_eq_name_iff, Datum.text.injEq]

theorem ofField_fieldName_of_not_called (h : ∀ a, ¬ IsCalled name a) :
    ofField (.text (fieldName name)) = .error (.unknownField (.text (Text.asciiLower name))) := by
  have hname : fieldName name = Text.asciiLower name :=
    if_neg fun hsecond => h nominalTime (.inr ⟨hsecond, rfl⟩)
  have hnone : ofName? (fieldName name) = none := by
    rw [Option.eq_none_iff_forall_ne_some]
    intro a hfound
    exact h a (fieldName_eq_name_iff.1 (ofName?_eq_some_iff.1 hfound))
  have hfield : ofField (.text (fieldName name)) =
      (ofName? (fieldName name)).elim (.error (.unknownField (.text (fieldName name)))) .ok := rfl
  rw [hfield, hnone, hname]
  rfl

end Subject

/-- What an entry says: a status by its name in any case, or a time that is read. -/
inductive Reads (reader : TimeReader) (entry : Text) : Term → Prop where
  | status {p : Parts} {c : Comparator} {s : Status} (hfit : p.Fit entry c) (hvalue : p.value ≠ [])
      (hname : Subject.IsCalled p.name .status) (hstatus : Text.upper p.value = s.name) :
      Reads reader entry ⟨.status, c, .text s.name⟩
  | nominalTime {p : Parts} {c : Comparator} {time : Calendar.Stamp} (hfit : p.Fit entry c)
      (hvalue : p.value ≠ []) (hname : Subject.IsCalled p.name .nominalTime)
      (hread : reader p.value = .ok time) : Reads reader entry ⟨.nominalTime, c, .time time⟩

/-- Why an entry says nothing. Its name counts only if it has a value, and its value only if its
name does. A failure that does not say that a text is no time is handed on. -/
inductive Refuses (reader : TimeReader) (entry : Text) : Error → Prop where
  | shape (h : ∀ p c, ¬ Parts.Fit p entry c) : Refuses reader entry (.entry entry .notAnEntry)
  | empty {p : Parts} {c : Comparator} (hfit : p.Fit entry c) (hvalue : p.value = []) :
      Refuses reader entry (.entry entry .emptyValue)
  | name {p : Parts} {c : Comparator} (hfit : p.Fit entry c) (hvalue : p.value ≠ [])
      (hname : ∀ a, ¬ Subject.IsCalled p.name a) :
      Refuses reader entry (.unknownField (.text (Text.asciiLower p.name)))
  | status {p : Parts} {c : Comparator} (hfit : p.Fit entry c) (hvalue : p.value ≠ [])
      (hname : Subject.IsCalled p.name .status)
      (hstatus : ∀ s : Status, Text.upper p.value ≠ s.name) :
      Refuses reader entry (.entry entry (.unknownStatus p.value))
  | unreadable {p : Parts} {c : Comparator} {reason : Fault} (hfit : p.Fit entry c)
      (hvalue : p.value ≠ []) (hname : Subject.IsCalled p.name .nominalTime)
      (hread : reader p.value = .error reason) (hkind : reason.kind = .unreadable) :
      Refuses reader entry (.entry entry (.unreadableTime p.value reason))
  | fault {p : Parts} {c : Comparator} {reason : Fault} (hfit : p.Fit entry c)
      (hvalue : p.value ≠ []) (hname : Subject.IsCalled p.name .nominalTime)
      (hread : reader p.value = .error reason) (hkind : reason.kind ≠ .unreadable) :
      Refuses reader entry (.fault reason)

theorem readValue_status_of_eq {s : Status} (h : Text.upper value = s.name) :
    readValue reader entry value .status = .ok (.text s.name) := by
  rw [readValue, Status.ofName?_eq_some_iff.2 h]

theorem readValue_status_of_ne (h : ∀ s : Status, Text.upper value ≠ s.name) :
    readValue reader entry value .status = .error (.entry entry (.unknownStatus value)) := by
  have hnone : Status.ofName? (Text.upper value) = none := by
    rw [Option.eq_none_iff_forall_ne_some]
    intro s hfound
    exact h s (Status.ofName?_eq_some_iff.1 hfound)
  rw [readValue, hnone]

theorem ofText_of_not_fit (h : ∀ p c, ¬ Parts.Fit p entry c) :
    Term.ofText reader entry = .error (.entry entry .notAnEntry) := by
  cases hsplit : splitEntry entry with
  | none => simp only [Term.ofText, hsplit]
  | some found =>
      obtain ⟨p, hfit, _⟩ := exists_fit_of_splitEntry hsplit
      exact absurd hfit (h p _)

theorem ofText_of_empty (hfit : p.Fit entry c) (hvalue : p.value = []) :
    Term.ofText reader entry = .error (.entry entry .emptyValue) := by
  simp only [Term.ofText, splitEntry_of_fit hfit, if_pos hvalue]

theorem ofText_of_not_called (hfit : p.Fit entry c) (hvalue : p.value ≠ [])
    (hname : ∀ a, ¬ Subject.IsCalled p.name a) :
    Term.ofText reader entry = .error (.unknownField (.text (Text.asciiLower p.name))) := by
  simp only [Term.ofText, splitEntry_of_fit hfit, if_neg hvalue,
    Subject.ofField_fieldName_of_not_called hname]
  rfl

theorem ofText_of_called (hfit : p.Fit entry c) (hvalue : p.value ≠ []) {a : Subject}
    (hname : Subject.IsCalled p.name a) :
    Term.ofText reader entry = (readValue reader entry p.value a).map fun d => ⟨a, c, d⟩ := by
  simp only [Term.ofText, splitEntry_of_fit hfit, if_neg hvalue,
    Subject.ofField_fieldName_eq_ok_iff.2 hname]
  change (readValue reader entry p.value a >>= fun d => (pure ⟨a, c, d⟩ : Except Error Term)) = _
  cases readValue reader entry p.value a <;> rfl

theorem ofText_of_reads {t : Term} (h : Reads reader entry t) :
    Term.ofText reader entry = .ok t := by
  cases h with
  | status hfit hvalue hname hstatus =>
      rw [ofText_of_called hfit hvalue hname, readValue_status_of_eq hstatus]
      rfl
  | nominalTime hfit hvalue hname hread =>
      rw [ofText_of_called hfit hvalue hname, readValue, hread]
      rfl

theorem ofText_of_refuses {e : Error} (h : Refuses reader entry e) :
    Term.ofText reader entry = .error e := by
  cases h with
  | shape h => exact ofText_of_not_fit h
  | empty hfit hvalue => exact ofText_of_empty hfit hvalue
  | name hfit hvalue hname => exact ofText_of_not_called hfit hvalue hname
  | status hfit hvalue hname hstatus =>
      rw [ofText_of_called hfit hvalue hname, readValue_status_of_ne hstatus]
      rfl
  | unreadable hfit hvalue hname hread hkind =>
      rw [ofText_of_called hfit hvalue hname, readValue, hread]
      simp [hkind, Except.map]
  | fault hfit hvalue hname hread hkind =>
      rw [ofText_of_called hfit hvalue hname, readValue, hread]
      simp [hkind, Except.map]

theorem reads_or_refuses (reader : TimeReader) (entry : Text) :
    (∃ t, Reads reader entry t) ∨ ∃ e, Refuses reader entry e := by
  by_cases hshape : ∃ p c, Parts.Fit p entry c
  · obtain ⟨p, c, hfit⟩ := hshape
    by_cases hvalue : p.value = []
    · exact .inr ⟨_, .empty hfit hvalue⟩
    · by_cases hname : ∃ a, Subject.IsCalled p.name a
      · obtain ⟨a, ha⟩ := hname
        cases a with
        | status =>
            by_cases hstatus : ∃ s : Status, Text.upper p.value = s.name
            · obtain ⟨s, hs⟩ := hstatus
              exact .inl ⟨_, .status hfit hvalue ha hs⟩
            · exact .inr ⟨_, .status hfit hvalue ha fun s hs => hstatus ⟨s, hs⟩⟩
        | nominalTime =>
            cases hread : reader p.value with
            | ok time => exact .inl ⟨_, .nominalTime hfit hvalue ha hread⟩
            | error reason =>
                by_cases hkind : reason.kind = .unreadable
                · exact .inr ⟨_, .unreadable hfit hvalue ha hread hkind⟩
                · exact .inr ⟨_, .fault hfit hvalue ha hread hkind⟩
      · exact .inr ⟨_, .name hfit hvalue fun a ha => hname ⟨a, ha⟩⟩
  · exact .inr ⟨_, .shape fun p c hfit => hshape ⟨p, c, hfit⟩⟩

theorem ofText_eq_ok_iff {t : Term} : Term.ofText reader entry = .ok t ↔ Reads reader entry t := by
  constructor
  · intro h
    rcases reads_or_refuses reader entry with ⟨other, hreads⟩ | ⟨e, hrefuses⟩
    · rw [ofText_of_reads hreads] at h
      exact Except.ok.inj h ▸ hreads
    · cases (ofText_of_refuses hrefuses).symm.trans h
  · exact ofText_of_reads

theorem ofText_eq_error_iff {e : Error} :
    Term.ofText reader entry = .error e ↔ Refuses reader entry e := by
  constructor
  · intro h
    rcases reads_or_refuses reader entry with ⟨t, hreads⟩ | ⟨other, hrefuses⟩
    · cases (ofText_of_reads hreads).symm.trans h
    · rw [ofText_of_refuses hrefuses] at h
      exact Except.error.inj h ▸ hrefuses
  · exact ofText_of_refuses

/-- The entries of a text: what stands between its semicolons and is not blank, without the white
space around it. -/
def entries (text : Option Text) : List Text :=
  (((text.getD []).splitOn ';').filter fun piece => !Text.blank piece).map Text.trim

theorem entryTexts_getD (text : Option Text) : entryTexts (text.getD []) = entries text := by
  rw [entryTexts, entries, List.filter_map]
  congr 1
  refine List.filter_congr fun piece _ => ?_
  simp [Text.trim_eq_nil_iff]

theorem parse_eq_ok_iff {text : Option Text} {conditions : List Condition} :
    parse reader text = .ok conditions ↔ ∃ terms, List.Forall₂ (Reads reader) (entries text) terms ∧
      conditions = (Term.keys terms).map (Term.conditionAt terms) := by
  rw [parse, entryTexts_getD, map_eq_ok_iff]
  simp only [mapM_eq_ok_iff, ofText_eq_ok_iff, gather_eq, @eq_comm _ conditions]

theorem parse_eq_error_iff {text : Option Text} {e : Error} :
    parse reader text = .error e ↔ ∃ before entry after, entries text = before ++ entry :: after ∧
      (∀ earlier ∈ before, ∃ t, Reads reader earlier t) ∧ Refuses reader entry e := by
  rw [parse, entryTexts_getD, map_eq_error_iff, mapM_eq_error_iff]
  simp only [ofText_eq_ok_iff, ofText_eq_error_iff]

/-- A filter text is read by the grammar. It has an answer exactly if every entry says something, and
then there is one condition for each subject with a comparator, in the order of first mention, with
the values of all entries about it in their order. Otherwise the first entry that says nothing
decides the error. -/
theorem parse_by_grammar (reader : TimeReader) (text : Option Text) :
    (∀ conditions, parse reader text = .ok conditions ↔
      ∃ terms, List.Forall₂ (Reads reader) (entries text) terms ∧
        conditions = (terms.map Term.key).eraseDups.map fun k =>
          ⟨k.1, k.2, (terms.filter (·.key = k)).map Term.value⟩) ∧
    (∀ e, parse reader text = .error e ↔
      ∃ before entry after, entries text = before ++ entry :: after ∧
        (∀ earlier ∈ before, ∃ t, Reads reader earlier t) ∧ Refuses reader entry e) :=
  ⟨fun _ => parse_eq_ok_iff, fun _ => parse_eq_error_iff⟩

example : parse (fun t => .error ⟨.unreadable, t⟩) (some " ; Status != running;status<>\nKILLED;") =
    .ok [⟨.status, .notEquals, [.text "RUNNING", .text "KILLED"]⟩] := by rfl

example : parse (fun t => .error ⟨.unreadable, t⟩) (some "status=KILLED;nominalTime>noon;colour=") =
    .error (.entry "nominalTime>noon" (.unreadableTime "noon" ⟨.unreadable, "noon"⟩)) := by rfl

end Filter

end ActionQuery
