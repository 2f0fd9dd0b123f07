import ActionQuery.Proofs.SingleTimes

/-!
# No time without an hour

A text is refused as a time unless a `T` stands in it. That alone does not make the `T` set the time
of day apart from the date, and other characters can do that as well. But a date on its own has no
`T`, so whatever is read as a time has a date, some character behind it and the two digits of an
hour. Where this character is no `T`, the `T` is one that the reader does not look at.
-/

namespace ActionQuery

open Calendar (Instant)
open Calendar.Iso (DateForm IsPair Layout ShowsHour)

variable {x date : Text} {mark : Char} {value : Nat}

theorem Calendar.Iso.DateForm.mark_notMem (h : DateForm date) : 'T' ∉ date := fun hmem =>
  absurd (h.isDateChar 'T' hmem) (by decide)

/-- The sign of an offset does not come before the digits of the hour, unless it follows the date
at once. -/
theorem Calendar.Iso.eq_of_append_plus {front more hour : Text} (hdate : DateForm date)
    (hhour : IsPair hour value) (h : front ++ '+' :: more = date ++ mark :: hour) :
    front = date := by
  have hplus : '+' ∉ date := fun hmem => absurd (hdate.isDateChar '+' hmem) (by decide)
  have hnone : '+' ∉ hour := fun hmem => absurd (hhour.isDigit '+' hmem) (by decide)
  rcases List.append_eq_append_iff.1 h with ⟨middle, rfl, hmiddle⟩ | ⟨middle, rfl, hmiddle⟩
  · cases middle with
    | nil => exact (List.append_nil front).symm
    | cons c middle =>
        rw [← (List.cons.inj hmiddle).1] at hplus
        exact absurd (by simp) hplus
  · cases middle with
    | nil => exact List.append_nil date
    | cons c middle =>
        rw [(List.cons.inj hmiddle).2] at hnone
        exact absurd (by simp) hnone

/-- The hour stands in the text itself, not in what is put in place of a `Z`. -/
theorem NominalTime.showsHour_of_expandZulu (hmark : 'T' ∈ x)
    (h : ShowsHour (expandZulu x) date mark value) : ShowsHour x date mark value := by
  obtain ⟨hour, behind, htext, hdate, hpair⟩ := h
  rw [expandZulu] at htext
  split at htext
  · rename_i hzulu
    obtain ⟨front, rfl⟩ := List.getLast?_eq_some_iff.1 hzulu
    have hfront : 'T' ∈ front := (List.mem_append.1 hmark).resolve_right (by decide)
    rw [List.dropLast_concat] at htext
    have hsplit : front ++ "+00:00".toList = (date ++ mark :: hour) ++ behind := by
      rw [htext, List.append_assoc, List.cons_append]
    rcases List.append_eq_append_iff.1 hsplit with ⟨more, hshown, hput⟩ | ⟨more, rfl, _⟩
    · cases more with
      | nil =>
          rw [List.append_nil] at hshown
          exact ⟨hour, ['Z'], by rw [← hshown, List.append_assoc, List.cons_append], hdate, hpair⟩
      | cons c more =>
          rw [← (List.cons.inj hput).1] at hshown
          rw [Calendar.Iso.eq_of_append_plus hdate hpair hshown.symm] at hfront
          exact absurd hfront hdate.mark_notMem
    · exact ⟨hour, more ++ ['Z'], by simp, hdate, hpair⟩
  · exact ⟨hour, behind, htext, hdate, hpair⟩

namespace Session

/-- What is read as a time, in any zone and whatever the settings, is a date with or without dashes,
one character behind it and the two digits of an hour of the day. This character is the `T` that the
text must have, unless the `T` stands in what is ignored in front of an offset or behind a NUL. -/
theorem hour_of_parse (p : Session) (zone : Option Text) (t : Text) (i : Instant)
    (h : (p.parse t zone).1 = .ok i) :
    ∃ l : Layout, l.Fits ∧ NominalTime.expandZulu (Text.trim t) = l.text ∧
      (∃ value < 24, ShowsHour (Text.trim t) l.date l.mark value) ∧
      (l.mark = 'T' ∨ 'T' ∈ l.ignored ∨ 'T' ∈ l.beyond) := by
  obtain ⟨s, _, hread, _⟩ := parse_eq_ok_iff.1 h
  obtain ⟨l, hfits, htext, value, hvalue, hshown⟩ := NominalTime.exists_fits_of_readStamp hread
  have hmark := (NominalTime.readStamp_eq_ok_iff.1 hread).1
  refine ⟨l, hfits, htext, ⟨value, hvalue, NominalTime.showsHour_of_expandZulu hmark hshown⟩, ?_⟩
  exact (NominalTime.place_of_mem hfits htext hmark (by decide)).imp_left Eq.symm

theorem hour_of_parse_newYearsEve :
    (initial.parse "\t2009-W01-4T01:02:03.5+01:30\n".toList (some "nowhere".toList)).1 =
        .ok newYearsEve ∧
      ∃ date mark, ∃ value < 24, ShowsHour "2009-W01-4T01:02:03.5+01:30".toList date mark value := by
  have hparse : (initial.parse "\t2009-W01-4T01:02:03.5+01:30\n".toList
      (some "nowhere".toList)).1 = .ok newYearsEve := by
    decide
  obtain ⟨l, _, _, hshown, _⟩ := hour_of_parse initial _ _ _ hparse
  exact ⟨hparse, l.date, l.mark, hshown⟩

/-- A blank sets the time of day apart from the date, and the `T` in front of the offset is
ignored. -/
theorem parse_withMark_blank :
    (initial.parse (withMark ' ') none).1 = .ok (oneOClock Calendar.noFraction) ∧
      ∀ date value, ¬ ShowsHour (Text.trim (withMark ' ')) date 'T' value := by
  refine ⟨by decide, ?_⟩
  rintro date value ⟨hour, behind, htext, hdate, _⟩
  have hfirst : (date ++ 'T' :: (hour ++ behind)).takeWhile
      (fun c => decide (Calendar.Iso.IsDateChar c)) = date := by
    refine Text.takeWhile_append_of_head
      (fun c hc => decide_eq_true (hdate.isDateChar c hc)) ?_
    rintro _ ⟨⟩
    decide
  rw [← htext] at hfirst
  have hlength : date.length = 10 := by
    rw [← hfirst]
    decide
  have hplace : (date ++ 'T' :: (hour ++ behind))[10]? = some 'T' := by
    rw [List.getElem?_append_right (by omega), hlength]
    rfl
  rw [← htext] at hplace
  exact absurd hplace (by decide)

end Session

end ActionQuery
