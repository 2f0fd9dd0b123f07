import ActionQuery.Proofs.IdGrammar

/-!
# How a scope of numbers is refused

Elements are read from the left, and of a range the left number first, so one part of the text is
the first that has no meaning. Its flaw is one of format, with one exception: the digits of a number
are turned into a number before its size is looked at, and more digits than can be turned into one
are a failure of another kind. Up to that length a number that is too great is reported as such.
-/

namespace ActionQuery.Scope

variable {t digits element part : Text} {otherwise : FormatError} {e : Error}
  {job scope : Option Text}

/-- The failure to turn a run of digits into a number. -/
def overlong (digits : Text) : Fault :=
  ⟨.unreadable, Text.TooManyDigits.message ⟨digits.length⟩⟩

/-- Why a text is no action number. -/
inductive RefusesNumber (otherwise : FormatError) (t : Text) : Error → Prop where
  | shape (h : ∀ digits, ¬ Spells t digits) : RefusesNumber otherwise t (.format otherwise)
  | long {digits : Text} (h : Spells t digits) (hlong : Text.maxNumeralDigits < digits.length) :
      RefusesNumber otherwise t (.fault (overlong digits))
  | large {digits : Text} (h : Spells t digits) (hshort : digits.length ≤ Text.maxNumeralDigits)
      (hlarge : maxActionNumber < Text.digitsValue digits) :
      RefusesNumber otherwise t (.format (.numberTooLarge t))

theorem readActionNumber_of_spells (h : Spells t digits) (otherwise : FormatError) :
    readActionNumber t otherwise =
      if digits.length ≤ Text.maxNumeralDigits then
        if maxActionNumber < Text.digitsValue digits then .error (.format (.numberTooLarge t))
        else .ok (Text.digitsValue digits)
      else .error (.fault (overlong digits)) := by
  have hshape : ¬ (digits.isEmpty || !digits.all Char.isDigit) = true := by
    simp [h.ne_nil, List.all_eq_true.2 h.isDigit]
  rw [readActionNumber]
  simp only [h.dropPlus_eq, if_neg hshape, Text.readNumeral]
  by_cases hlength : digits.length ≤ Text.maxNumeralDigits
  · simp only [if_pos hlength]
  · simp only [if_neg hlength]
    rfl

theorem readActionNumber_of_not_spells (h : ∀ digits, ¬ Spells t digits) :
    readActionNumber t otherwise = .error (.format otherwise) := by
  have hnot := mt spells_iff.2 (h (Text.dropPlus t))
  refine if_pos ?_
  simpa [or_iff_not_imp_left] using hnot

theorem readActionNumber_of_refuses (h : RefusesNumber otherwise t e) :
    readActionNumber t otherwise = .error e := by
  cases h with
  | shape h => exact readActionNumber_of_not_spells h
  | long h hlong => rw [readActionNumber_of_spells h, if_neg (not_le.2 hlong)]
  | large h hshort hlarge => rw [readActionNumber_of_spells h, if_pos hshort, if_pos hlarge]

/-- A text is a number or there is a reason why it is none. -/
theorem isNumber_or_refuses (t : Text) (otherwise : FormatError) :
    (∃ n, IsNumber t n) ∨ ∃ e, RefusesNumber otherwise t e := by
  by_cases hspelled : ∃ digits, Spells t digits
  · obtain ⟨digits, h⟩ := hspelled
    by_cases hshort : digits.length ≤ Text.maxNumeralDigits
    · by_cases hsmall : Text.digitsValue digits ≤ maxActionNumber
      · exact Or.inl ⟨_, digits, h, hshort, rfl, hsmall⟩
      · exact Or.inr ⟨_, .large h hshort (not_le.1 hsmall)⟩
    · exact Or.inr ⟨_, .long h (not_le.1 hshort)⟩
  · exact Or.inr ⟨_, .shape fun digits h => hspelled ⟨digits, h⟩⟩

theorem readActionNumber_eq_error_iff :
    readActionNumber t otherwise = .error e ↔ RefusesNumber otherwise t e := by
  refine ⟨fun h => ?_, readActionNumber_of_refuses⟩
  rcases isNumber_or_refuses t otherwise with ⟨n, hn⟩ | ⟨other, hother⟩
  · cases h.symm.trans (readActionNumber_eq_ok_iff_isNumber.2 hn)
  · rw [readActionNumber_of_refuses hother] at h
    exact Except.error.inj h ▸ hother

/-- A part of an element is read as a number, after all parts on the left of it; `otherwise` is what
it is if it is no digits. -/
inductive ReadsNumber (element : Text) : Text → FormatError → Prop where
  | single (apart : Text.ColonsApart element) (hdash : '-' ∉ element) :
      ReadsNumber element element (.idShape element)
  | first {first second : Text} (apart : Text.ColonsApart element)
      (hdash : element.splitOn '-' = [first, second]) :
      ReadsNumber element (Text.trim first) (.notANumber (Text.trim first))
  | second {first second : Text} {start : Nat} (apart : Text.ColonsApart element)
      (hdash : element.splitOn '-' = [first, second]) (hfirst : IsNumber (Text.trim first) start) :
      ReadsNumber element (Text.trim second) (.notANumber (Text.trim second))

theorem ofText_of_readsNumber (hpart : ReadsNumber element part otherwise)
    (h : RefusesNumber otherwise part e) : IdToken.ofText element = .error e := by
  have hread := readActionNumber_of_refuses h
  cases hpart with
  | single apart hdash =>
      rw [IdToken.ofText, Text.splitAtColons_of_apart apart,
        Text.splitOn_eq_singleton_iff.2 ⟨hdash, rfl⟩]
      simp only [hread]
      rfl
  | first apart hdash =>
      rw [IdToken.ofText, Text.splitAtColons_of_apart apart, hdash]
      simp only [hread]
      rfl
  | second apart hdash hfirst =>
      rw [IdToken.ofText, Text.splitAtColons_of_apart apart, hdash]
      simp only [readActionNumber_eq_ok_iff_isNumber.2 hfirst, hread]
      rfl

/-- An element is refused for its format or for one of its numbers. -/
theorem format_or_refuses_of_ofText (h : IdToken.ofText element = .error e) :
    (∃ reason, e = .format reason) ∨
      ∃ part otherwise, ReadsNumber element part otherwise ∧ RefusesNumber otherwise part e := by
  unfold IdToken.ofText at h
  split at h
  · exact Or.inl ⟨_, (Except.error.inj h).symm⟩
  · rename_i hcolons
    have apart : Text.ColonsApart element := by
      rwa [Text.one_lt_length_splitAtColons_iff, not_not] at hcolons
    split at h
    · rename_i piece hsplit
      obtain ⟨hdash, -⟩ := Text.splitOn_eq_singleton_iff.1 hsplit
      rcases bind_eq_error_iff.1 h with hnumber | ⟨n, _, hpure⟩
      · exact Or.inr ⟨_, _, .single apart hdash, readActionNumber_eq_error_iff.1 hnumber⟩
      · cases hpure
    · rename_i first second hsplit
      rcases bind_eq_error_iff.1 h with hfirst | ⟨start, hstart, hrest⟩
      · exact Or.inr ⟨_, _, .first apart hsplit, readActionNumber_eq_error_iff.1 hfirst⟩
      · rcases bind_eq_error_iff.1 hrest with hsecond | ⟨stop, _, horder⟩
        · exact Or.inr ⟨_, _, .second apart hsplit
            (readActionNumber_eq_ok_iff_isNumber.1 hstart),
            readActionNumber_eq_error_iff.1 hsecond⟩
        · split at horder
          · exact Or.inl ⟨_, (Except.error.inj horder).symm⟩
          · cases horder
    · exact Or.inl ⟨_, (Except.error.inj h).symm⟩

/-- A part of a scope of numbers is read as a number: the question has a named job and no blank
element, every earlier element has a meaning, and so has what stands before the part in its own. -/
inductive Reaches (job scope : Option Text) (part : Text) : Prop where
  | intro {name text element : Text} {before after : List Text} {otherwise : FormatError}
      (job_eq : job = some name) (named : Text.blank name = false) (scope_eq : scope = some text)
      (full : [] ∉ elements text) (elements_eq : elements text = before ++ element :: after)
      (meaning : ∀ earlier ∈ before, ∃ token, Names earlier token)
      (reads : ReadsNumber element part otherwise)

theorem actionIds_of_reaches {name text : Text} {before after : List Text}
    (hname : Text.blank name = false) (hfull : [] ∉ elements text)
    (helements : elements text = before ++ element :: after)
    (hmeaning : ∀ earlier ∈ before, ∃ token, Names earlier token)
    (h : IdToken.ofText element = .error e) :
    actionIds (some name) (some text) = .error e := by
  have hjob : checkJob (some name) = .ok name := checkJob_eq_ok_iff.2 ⟨rfl, hname⟩
  have htext : Text.blank text = false := by
    refine Bool.eq_false_iff.2 fun hblank => hfull ?_
    simp [elements_of_blank hblank]
  have hsplit : split (some text) = .ok (before ++ element :: after) :=
    split_eq_ok_iff.2 ⟨text, rfl, htext, hfull, helements.symm⟩
  have hread : (before ++ element :: after).mapM IdToken.ofText = .error e := by
    refine mapM_of_first_error (fun earlier hearlier => ?_) h
    obtain ⟨token, htoken⟩ := hmeaning earlier hearlier
    exact ⟨token, ofText_of_names htoken⟩
  simp only [actionIds, hjob, readIdTokens, hsplit, hread]
  rfl

/-- A scope of numbers is refused for a flaw of format or for a number that it is read up to. -/
theorem format_or_reaches_of_actionIds (h : actionIds job scope = .error e) :
    (∃ reason, e = .format reason) ∨
      ∃ part otherwise, Reaches job scope part ∧ RefusesNumber otherwise part e := by
  unfold actionIds at h
  split at h
  · exact Or.inl ⟨_, (Except.error.inj h).symm⟩
  · rename_i name hjob
    obtain ⟨hjob, hname⟩ := checkJob_eq_ok_iff.1 hjob
    rw [map_eq_error_iff, readIdTokens] at h
    split at h
    · exact Or.inl ⟨_, (Except.error.inj h).symm⟩
    · rename_i found hsplit
      obtain ⟨text, hscope, _, hfull, rfl⟩ := split_eq_ok_iff.1 hsplit
      obtain ⟨before, element, after, helements, hbefore, helement⟩ := mapM_eq_error_iff.1 h
      refine (format_or_refuses_of_ofText helement).imp_right ?_
      rintro ⟨part, otherwise, hreads, hrefuses⟩
      refine ⟨part, otherwise, .intro hjob hname hscope hfull helements ?_ hreads, hrefuses⟩
      intro earlier hearlier
      obtain ⟨token, htoken⟩ := hbefore earlier hearlier
      have hmem : earlier ∈ elements text := helements ▸ List.mem_append_left _ hearlier
      exact ⟨token, (ofText_eq_ok_iff (isTrimmed_of_mem_elements hmem)).1 htoken⟩

/-- A scope of numbers has ids or is refused for its format, unless it is read up to a number of
more digits than can be turned into one. A number of that many digits that it is read up to is a
failure of another kind, and one of fewer digits that is too great is reported with its text. -/
theorem actionIds_error_kinds (job scope : Option Text) :
    ((∃ ids, actionIds job scope = .ok ids) ∨
      (∃ reason, actionIds job scope = .error (.format reason)) ∨
      ∃ part digits, Reaches job scope part ∧ Spells part digits ∧
        Text.maxNumeralDigits < digits.length) ∧
    (∀ part digits, Reaches job scope part → Spells part digits →
      Text.maxNumeralDigits < digits.length →
        actionIds job scope = .error (.fault (overlong digits))) ∧
    ∀ part digits, Reaches job scope part → Spells part digits →
      digits.length ≤ Text.maxNumeralDigits → maxActionNumber < Text.digitsValue digits →
        actionIds job scope = .error (.format (.numberTooLarge part)) := by
  refine ⟨?_, ?_, ?_⟩
  · cases h : actionIds job scope with
    | ok ids => exact Or.inl ⟨ids, rfl⟩
    | error e =>
        refine Or.inr ?_
        rcases format_or_reaches_of_actionIds h with
          ⟨reason, rfl⟩ | ⟨part, otherwise, hreaches, hrefuses⟩
        · exact Or.inl ⟨reason, rfl⟩
        · cases hrefuses with
          | shape _ => exact Or.inl ⟨_, rfl⟩
          | long hspells hlong => exact Or.inr ⟨part, _, hreaches, hspells, hlong⟩
          | large _ _ _ => exact Or.inl ⟨_, rfl⟩
  · rintro part digits ⟨rfl, named, rfl, full, elements_eq, meaning, reads⟩ hspells hlong
    exact actionIds_of_reaches named full elements_eq meaning
      (ofText_of_readsNumber reads (.long hspells hlong))
  · rintro part digits ⟨rfl, named, rfl, full, elements_eq, meaning, reads⟩ hspells hshort hlarge
    exact actionIds_of_reaches named full elements_eq meaning
      (ofText_of_readsNumber reads (.large hspells hshort hlarge))

/-- The second number of a range is too great; the element before it has a meaning, and the one
behind it is not looked at. -/
theorem actionIds_error_kinds_largeStop :
    Spells "+99999999999" "99999999999" ∧
      actionIds (some "j") (some "007, 5 - +99999999999, x") =
        .error (.format (.numberTooLarge "+99999999999")) := by
  have hspells : Spells "+99999999999" "99999999999" :=
    ⟨Or.inr rfl, by decide, List.all_eq_true.1 rfl⟩
  have hseven : Names "007" (.single (7 : Nat) "007") :=
    .single ⟨"007", ⟨Or.inl rfl, by decide, List.all_eq_true.1 rfl⟩,
      by simp [Text.maxNumeralDigits], rfl, by simp [maxActionNumber]⟩
  have hfive : IsNumber (Text.trim "5 ") 5 :=
    ⟨"5", ⟨Or.inl rfl, by decide, List.all_eq_true.1 rfl⟩, by simp [Text.maxNumeralDigits], rfl,
      by simp [maxActionNumber]⟩
  have hreads : ReadsNumber "5 - +99999999999" "+99999999999" _ :=
    .second (Text.colonsApart_of_notMem (by decide))
      (show _ = ["5 ".toList, " +99999999999".toList] by decide) hfive
  have hreaches : Reaches (some "j") (some "007, 5 - +99999999999, x") "+99999999999" :=
    .intro rfl (by decide) rfl (by decide)
      (show elements "007, 5 - +99999999999, x" =
        ["007".toList] ++ "5 - +99999999999".toList :: ["x".toList] by decide)
      (List.forall_mem_singleton.2 ⟨_, hseven⟩) hreads
  obtain ⟨_, _, hlarge⟩ := actionIds_error_kinds (some "j") (some "007, 5 - +99999999999, x")
  exact ⟨hspells, hlarge _ _ hreaches hspells (by simp [Text.maxNumeralDigits]) (by decide)⟩

/-- A scope of one number of too many digits is refused, but not for its format. -/
theorem actionIds_of_overlong {name : Text} (hname : Text.blank name = false)
    (hdigits : ∀ c ∈ digits, c.isDigit = true) (hlong : Text.maxNumeralDigits < digits.length) :
    actionIds (some name) (some digits) = .error (.fault (overlong digits)) := by
  have hne : digits ≠ [] := List.ne_nil_of_length_pos (Nat.zero_lt_of_lt hlong)
  have hspells : Spells digits digits := ⟨Or.inl rfl, hne, hdigits⟩
  have helements : elements digits = [] ++ digits :: [] :=
    elements_of_isTrimmed (hspells.notMem (by decide)) hspells.isTrimmed
  have hreads : ReadsNumber digits digits (.idShape digits) :=
    .single (Text.colonsApart_of_notMem (hspells.notMem (by decide)))
      (hspells.notMem (by decide))
  refine actionIds_of_reaches hname ?_ helements (by simp)
    (ofText_of_readsNumber hreads (.long hspells hlong))
  simpa [helements] using hne.symm

theorem actionIds_of_4301_ones :
    actionIds (some "j") (some (List.replicate 4301 '1')) =
      .error (.fault (overlong (List.replicate 4301 '1'))) := by
  refine actionIds_of_overlong (by decide) (fun c hc => ?_) ?_
  · rw [List.eq_of_mem_replicate hc]
    rfl
  · rw [List.length_replicate]
    exact Nat.lt_succ_self 4300

end ActionQuery.Scope
