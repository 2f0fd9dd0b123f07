import ActionQuery.Filter.Clause
import ActionQuery.Proofs.Elements
import Mathlib.Data.List.Forall2

/-!
# What an entry says

An entry states a condition if its field is the name of a subject, its comparator is one in any of
its spellings, and its values can be listed. A specification is compiled exactly if each of its
entries states a condition that has as many values as its comparator takes, and then the clause is
that of these conditions.
-/

namespace ActionQuery

namespace Comparator

theorem mem_all (c : Comparator) : c ∈ all := by cases c <;> decide

theorem ofName?_eq_some_iff {t : Text} {c : Comparator} : ofName? t = some c ↔ t = c.name := by
  constructor
  · intro h
    unfold ofName? at h
    have hfound := List.find?_some h
    exact (of_decide_eq_true hfound).symm
  · rintro rfl
    exact ofName?_name c

theorem ofSign?_eq_some_iff {t : Text} {c : Comparator} :
    ofSign? t = some c ↔ t = c.sign ∨ t = ['<', '>'] ∧ c = notEquals := by
  constructor
  · intro h
    unfold ofSign? at h
    split at h
    · rename_i ht
      exact Or.inr ⟨ht, (Option.some.inj h).symm⟩
    · have hfound := List.find?_some h
      exact Or.inl (of_decide_eq_true hfound).symm
  · rintro (rfl | ⟨rfl, rfl⟩)
    · exact ofSign?_sign c
    · rfl

/-- A comparator as it may be written: by itself, by its name or by a sign, of which `notEquals` has
two. -/
inductive Spelling : Comparator → Datum → Prop where
  | self (c : Comparator) : Spelling c (.comparator c)
  | name (c : Comparator) : Spelling c (.text c.name)
  | sign (c : Comparator) : Spelling c (.text c.sign)
  | unequal : Spelling notEquals (.text ['<', '>'])

theorem spelling_text_iff {t : Text} {c : Comparator} :
    c.Spelling (.text t) ↔ t = c.name ∨ t = c.sign ∨ t = ['<', '>'] ∧ c = notEquals := by
  constructor
  · rintro (_ | _ | _ | _)
    · exact Or.inl rfl
    · exact Or.inr (Or.inl rfl)
    · exact Or.inr (Or.inr ⟨rfl, rfl⟩)
  · rintro (rfl | rfl | ⟨rfl, rfl⟩)
    · exact .name c
    · exact .sign c
    · exact .unequal

/-- No sign is a name. -/
theorem read_text_eq_some_iff {t : Text} {c : Comparator} :
    (ofName? t).or (ofSign? t) = some c ↔ c.Spelling (.text t) := by
  rw [spelling_text_iff, Option.or_eq_some_iff, ofName?_eq_some_iff, ofSign?_eq_some_iff]
  constructor
  · rintro (hname | ⟨_, hsign⟩)
    · exact Or.inl hname
    · exact Or.inr hsign
  · rintro (hname | hsign)
    · exact Or.inl hname
    · refine Or.inr ⟨?_, hsign⟩
      rcases hsign with rfl | ⟨rfl, _⟩
      · cases c <;> decide
      · decide

end Comparator

namespace Filter

namespace Subject

theorem mem_all (a : Subject) : a ∈ all := by cases a <;> decide

theorem ofName?_eq_some_iff {t : Text} {a : Subject} : ofName? t = some a ↔ t = a.name := by
  constructor
  · intro h
    unfold ofName? at h
    have hfound := List.find?_some h
    exact (of_decide_eq_true hfound).symm
  · rintro rfl
    exact ofName?_name a

theorem ofName?_sign (c : Comparator) : ofName? c.sign = none := by cases c <;> decide

theorem ofField_eq_ok_iff {field : Datum} {a : Subject} :
    ofField field = .ok a ↔ field = .text a.name := by
  cases field with
  | text t =>
      change (ofName? t).elim (Except.error (Error.unknownField (.text t))) Except.ok = .ok a ↔ _
      cases h : ofName? t with
      | none =>
          simp only [Option.elim_none, reduceCtorEq, Datum.text.injEq, false_iff]
          rintro rfl
          cases h.symm.trans (ofName?_name a)
      | some other =>
          rw [ofName?_eq_some_iff] at h
          subst h
          simp only [Option.elim_some, Except.ok.injEq, Datum.text.injEq]
          constructor
          · rintro rfl
            rfl
          · intro hname
            exact Option.some.inj ((ofName?_name other).symm.trans (ofName?_eq_some_iff.2 hname))
  | comparator c =>
      change (ofName? c.sign).elim (Except.error (Error.unknownField (.comparator c))) Except.ok =
        .ok a ↔ _
      simp [ofName?_sign]
  | _ => simp [ofField, Datum.checkKey, Datum.text?]

end Subject

namespace Entry

/-- The condition that an entry states, whatever the number of its values. -/
structure Denotes (e : Entry) (c : Condition) : Prop where
  subject : e.field = .text c.subject.name
  comparator : c.comparator.Spelling e.comparator
  values : e.values.items = .ok c.values

theorem readComparator_eq_ok_iff {e : Entry} {c : Comparator} :
    e.readComparator = .ok c ↔ c.Spelling e.comparator := by
  rcases e with ⟨field, comparator, values⟩
  cases comparator with
  | comparator other =>
      simp only [readComparator, Except.ok.injEq]
      constructor
      · rintro rfl
        exact .self other
      · rintro ⟨⟩
        rfl
  | text t =>
      rw [← Comparator.read_text_eq_some_iff]
      simp only [readComparator, Datum.text?, Option.bind_some]
      split
      · rename_i found hfound
        rw [hfound, Except.ok.injEq, Option.some.injEq]
      · rename_i hnone
        simp [hnone]
  | _ =>
      simp only [readComparator, Datum.text?, Option.bind_none, reduceCtorEq, false_iff]
      rintro ⟨⟩

/-- An entry is compiled if it states a condition with as many values as the comparator takes. -/
theorem condition_eq_ok_iff {e : Entry} {c : Condition} :
    e.condition = .ok c ↔ e.Denotes c ∧ c.wellSized = true := by
  simp only [condition, bind_eq_ok_iff, mapError_eq_ok_iff, Subject.ofField_eq_ok_iff,
    readComparator_eq_ok_iff]
  constructor
  · rintro ⟨subject, hsubject, comparator, hcomparator, values, hvalues, h⟩
    split at h
    · rename_i hsized
      cases h
      exact ⟨⟨hsubject, hcomparator, hvalues⟩, hsized⟩
    · cases h
  · rintro ⟨⟨hsubject, hcomparator, hvalues⟩, hsized⟩
    exact ⟨_, hsubject, _, hcomparator, _, hvalues, if_pos hsized⟩

/-- An entry states one condition. -/
theorem Denotes.unique {e : Entry} {c d : Condition} (hc : e.Denotes c) (hd : e.Denotes d) :
    c = d := by
  have hsubject := Subject.ofField_eq_ok_iff.2 hc.subject
  rw [Subject.ofField_eq_ok_iff.2 hd.subject] at hsubject
  have hcomparator := readComparator_eq_ok_iff.2 hc.comparator
  rw [readComparator_eq_ok_iff.2 hd.comparator] at hcomparator
  have hvalues := hc.values
  rw [hd.values] at hvalues
  cases c
  cases d
  cases hsubject
  cases hcomparator
  cases hvalues
  rfl

theorem eq_of_forall₂_denotes {entries : List Entry} {first second : List Condition}
    (hfirst : List.Forall₂ Denotes entries first) (hsecond : List.Forall₂ Denotes entries second) :
    first = second := by
  induction hfirst generalizing second with
  | nil =>
      cases hsecond
      rfl
  | cons hc _ ih =>
      cases hsecond with
      | cons hd hrest => rw [hc.unique hd, ih hrest]

end Entry

namespace Clause

theorem compile_eq_ok_iff {start : Int} {entries : List Entry} {clause : Clause} :
    compile start entries = .ok clause ↔
      ∃ conditions, List.Forall₂ Entry.Denotes entries conditions ∧
        (∀ c ∈ conditions, c.wellSized = true) ∧ ofConditions start conditions = clause := by
  have hread {conditions : List Condition} :
      List.Forall₂ (fun e c => Entry.condition e = .ok c) entries conditions ↔
        List.Forall₂ Entry.Denotes entries conditions ∧
          ∀ c ∈ conditions, c.wellSized = true := by
    simp only [Entry.condition_eq_ok_iff]
    constructor
    · intro h
      refine ⟨h.imp fun _ _ hboth => hboth.1, fun c hc => ?_⟩
      obtain ⟨e, _, hboth⟩ := exists_left_of_mem h hc
      exact hboth.2
    · rintro ⟨hdenotes, hsized⟩
      induction hdenotes with
      | nil => exact .nil
      | cons hfirst _ ih =>
          obtain ⟨hc, hrest⟩ := List.forall_mem_cons.1 hsized
          exact .cons ⟨hfirst, hc⟩ (ih hrest)
  simp only [compile, map_eq_ok_iff, mapM_eq_ok_iff, hread, and_assoc]

end Clause

end Filter

end ActionQuery
