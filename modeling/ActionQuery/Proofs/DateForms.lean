import ActionQuery.Calendar.Iso.Reader
import ActionQuery.Proofs.ClockGroups

/-!
# Dates and hours as they are written

A date has one of three forms, each of them with dashes between its parts or without: year, month and
day, or year and week, or year, week and weekday. The reader takes nothing else for a date, so what
it reads in front of a time of day is a date in one of these forms, and the time of day starts with
the two digits of its hour.
-/

namespace ActionQuery.Calendar.Iso

variable {t rest date : Text} {mark : Char} {value : Nat}

/-- What stands between the parts of a date. -/
def dash (dashes : Bool) : Text := if dashes then ['-'] else []

/-- A date as it is written, with a dash between any two of its parts or none at all. -/
inductive DateForm : Text → Prop where
  | calendar {dashes : Bool} {year month day : Text} (hyear : Text.IsNumeral 4 year)
      (hmonth : Text.IsNumeral 2 month) (hday : Text.IsNumeral 2 day) :
      DateForm (year ++ (dash dashes ++ (month ++ (dash dashes ++ day))))
  | week {dashes : Bool} {year week : Text} (hyear : Text.IsNumeral 4 year)
      (hweek : Text.IsNumeral 2 week) : DateForm (year ++ (dash dashes ++ 'W' :: week))
  | weekday {dashes : Bool} {year week day : Text} (hyear : Text.IsNumeral 4 year)
      (hweek : Text.IsNumeral 2 week) (hday : Text.IsNumeral 1 day) :
      DateForm (year ++ (dash dashes ++ 'W' :: (week ++ (dash dashes ++ day))))

theorem exists_numeral_of_readDigits {count : Nat}
    (h : Text.readDigits count t = some (value, rest)) :
    ∃ digits, t = digits ++ rest ∧ Text.IsNumeral count digits := by
  obtain ⟨digits, ht, hlength, hdigits, _⟩ := Text.readDigits_eq_some_iff.1 h
  exact ⟨digits, ht, hlength, hdigits⟩

/-- The dash behind the year tells whether there are dashes. -/
theorem eq_dash_append (t : Text) :
    t = dash (t.head? == some '-') ++ if (t.head? == some '-') = true then t.drop 1 else t := by
  by_cases hhead : t.head? = some '-'
  · obtain ⟨rest, rfl⟩ := List.head?_eq_some_iff.1 hhead
    rfl
  · rw [beq_eq_false_iff_ne.2 hhead]
    rfl

/-- The last part of a date stands behind a dash if the part in front of it does. -/
theorem eq_dash_append_of_skip {dashes : Bool}
    (h : (if dashes = true then if t.head? = some '-' then some (t.drop 1) else none
      else some t) = some rest) : t = dash dashes ++ rest := by
  cases dashes with
  | false =>
      cases h
      rfl
  | true =>
      rw [if_pos rfl] at h
      split at h
      · rename_i hhead
        cases h
        obtain ⟨rest, rfl⟩ := List.head?_eq_some_iff.1 hhead
        rfl
      · cases h

theorem dateForm_of_readDate {numbers : Nat × Nat × Nat} (h : readDate t = some numbers) :
    DateForm t := by
  rw [readDate] at h
  split at h
  · cases h
  · rename_i _ behind hread
    obtain ⟨year, rfl, hyear⟩ := exists_numeral_of_readDigits hread
    have hbehind := eq_dash_append behind
    simp only at h
    generalize (behind.head? == some '-') = dashes at h hbehind
    generalize (if dashes = true then behind.drop 1 else behind) = body at h hbehind
    subst hbehind
    split at h
    · -- a week, with or without a weekday
      split at h
      · cases h
      · rename_i hread
        obtain ⟨week, rfl, hweek⟩ := exists_numeral_of_readDigits hread
        rw [List.append_nil]
        exact .week hyear hweek
      · rename_i c more hread
        obtain ⟨week, rfl, hweek⟩ := exists_numeral_of_readDigits hread
        split at h
        · cases h
        · rename_i last hskip
          rw [@eq_dash_append_of_skip (c :: more) last dashes (by simpa using hskip)]
          split at h
          · rename_i hread
            obtain ⟨day, rfl, hday⟩ := exists_numeral_of_readDigits hread
            rw [List.append_nil]
            exact .weekday hyear hweek hday
          · cases h
    · split at h
      · cases h
      · rename_i more hread
        obtain ⟨month, rfl, hmonth⟩ := exists_numeral_of_readDigits hread
        split at h
        · cases h
        · rename_i last hskip
          rw [eq_dash_append_of_skip hskip]
          split at h
          · rename_i hread
            obtain ⟨day, rfl, hday⟩ := exists_numeral_of_readDigits hread
            rw [List.append_nil]
            exact .calendar hyear hmonth hday
          · cases h

def IsDateChar (c : Char) : Prop := c.isDigit = true ∨ c = '-' ∨ c = 'W'

instance (c : Char) : Decidable (IsDateChar c) :=
  inferInstanceAs (Decidable (c.isDigit = true ∨ c = '-' ∨ c = 'W'))

theorem isDateChar_of_mem_dash {dashes : Bool} : ∀ c ∈ dash dashes, IsDateChar c := by
  cases dashes <;> simp [dash, IsDateChar]

theorem DateForm.isDateChar (h : DateForm t) : ∀ c ∈ t, IsDateChar c := by
  have hdigits {width : Nat} {digits : Text} (hnumeral : Text.IsNumeral width digits) :
      ∀ c ∈ digits, IsDateChar c := fun c hc => Or.inl (hnumeral.2 c hc)
  have hweek {behind : Text} (hbehind : ∀ c ∈ behind, IsDateChar c) :
      ∀ c ∈ 'W' :: behind, IsDateChar c := List.forall_mem_cons.2 ⟨Or.inr (Or.inr rfl), hbehind⟩
  have happend {first second : Text} (hfirst : ∀ c ∈ first, IsDateChar c)
      (hsecond : ∀ c ∈ second, IsDateChar c) : ∀ c ∈ first ++ second, IsDateChar c :=
    List.forall_mem_append.2 ⟨hfirst, hsecond⟩
  cases h with
  | calendar hyear hmonth hday =>
      exact happend (hdigits hyear) (happend isDateChar_of_mem_dash
        (happend (hdigits hmonth) (happend isDateChar_of_mem_dash (hdigits hday))))
  | week hyear hnumeral =>
      exact happend (hdigits hyear) (happend isDateChar_of_mem_dash (hweek (hdigits hnumeral)))
  | weekday hyear hnumeral hday =>
      exact happend (hdigits hyear) (happend isDateChar_of_mem_dash (hweek
        (happend (hdigits hnumeral) (happend isDateChar_of_mem_dash (hdigits hday)))))

/-- A text of a date, one character of any kind and the two digits of an hour, with anything behind
them. -/
def ShowsHour (t date : Text) (mark : Char) (value : Nat) : Prop :=
  ∃ hour behind, t = date ++ mark :: (hour ++ behind) ∧ DateForm date ∧ IsPair hour value

theorem exists_hour_of_readClock {n : ClockNumbers} (h : readClock t = some (n, rest)) :
    ∃ hour behind, t = hour ++ behind ∧ IsPair hour n.hour := by
  rw [readClock, Option.map_eq_some_iff] at h
  obtain ⟨⟨values, micro, left⟩, hread, heq⟩ := h
  cases heq
  rw [readGroups] at hread
  split at hread
  · cases hread
  · rename_i hour behind hdigits
    obtain ⟨digits, rfl, hpair⟩ := readDigits_two_eq_some_iff.1 hdigits
    obtain ⟨_, _, heq⟩ := Option.map_eq_some_iff.1 hread
    cases heq
    exact ⟨digits, behind, rfl, hpair⟩

end ActionQuery.Calendar.Iso
