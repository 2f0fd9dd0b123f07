import ActionQuery.Proofs.IdRoute
import ActionQuery.Proofs.Numerals
import ActionQuery.Proofs.Runs
import ActionQuery.Proofs.Staging

/-!
# The grammar of scopes of numbers

An element of a scope of numbers is a number as it is written, or two numbers in order with a dash
between them and white space around the dash. The grammar says what the parts of an element are, not
how they are found, and the elements that are read are exactly those it describes. A scope has ids
exactly if the job has a name and every element fits the grammar: they are the ids of the single
numbers as they are written, and those of all numbers of the ranges in their shortest form.
-/

namespace ActionQuery.Scope

variable {t digits element first second : Text} {n start stop : Nat} {token : IdToken}

/-- A text gives a run of ASCII digits, behind a plus sign or none. -/
structure Spells (t digits : Text) : Prop where
  sign : t = digits ∨ t = '+' :: digits
  ne_nil : digits ≠ []
  isDigit : ∀ c ∈ digits, c.isDigit = true

/-- A number text and its value: not too many digits, and not too great a number. -/
def IsNumber (t : Text) (n : Nat) : Prop :=
  ∃ digits, Spells t digits ∧ digits.length ≤ Text.maxNumeralDigits ∧
    Text.digitsValue digits = n ∧ n ≤ maxActionNumber

theorem Spells.dropPlus_eq (h : Spells t digits) : Text.dropPlus t = digits := by
  rcases h.sign with rfl | rfl
  · obtain ⟨c, rest, rfl⟩ := List.exists_cons_of_ne_nil h.ne_nil
    have hc : c ≠ '+' := by
      rintro rfl
      exact absurd (h.isDigit '+' List.mem_cons_self) (by decide)
    simp [Text.dropPlus, hc]
  · rfl

theorem spells_iff :
    Spells t digits ↔ Text.dropPlus t = digits ∧ digits ≠ [] ∧ ∀ c ∈ digits, c.isDigit = true := by
  constructor
  · intro h
    exact ⟨h.dropPlus_eq, h.ne_nil, h.isDigit⟩
  · rintro ⟨rfl, hne, hdigits⟩
    refine ⟨?_, hne, hdigits⟩
    unfold Text.dropPlus
    split
    · exact Or.inr rfl
    · exact Or.inl rfl

theorem readActionNumber_eq_ok_iff_isNumber {otherwise : FormatError} :
    readActionNumber t otherwise = .ok n ↔ IsNumber t n := by
  rw [readActionNumber_eq_ok_iff]
  simp only [IsNumber, spells_iff]
  constructor
  · rintro ⟨hne, hdigits, hlength, hvalue, hle⟩
    exact ⟨_, ⟨rfl, hne, hdigits⟩, hlength, hvalue, hle⟩
  · rintro ⟨_, ⟨rfl, hne, hdigits⟩, hlength, hvalue, hle⟩
    exact ⟨hne, hdigits, hlength, hvalue, hle⟩

theorem IsNumber.unique {m : Nat} (hn : IsNumber t n) (hm : IsNumber t m) : n = m := by
  have hread (k : Nat) := @readActionNumber_eq_ok_iff_isNumber t k .emptyJob
  exact Except.ok.inj (((hread n).2 hn).symm.trans ((hread m).2 hm))

theorem Spells.eq_or_isDigit (h : Spells t digits) {c : Char} (hc : c ∈ t) :
    c = '+' ∨ c.isDigit = true := by
  rcases h.sign with rfl | rfl
  · exact Or.inr (h.isDigit c hc)
  · exact (List.mem_cons.1 hc).imp_right (h.isDigit c)

/-- A number text has no mark of a scope and no white space in it. -/
theorem Spells.notMem (h : Spells t digits) {c : Char}
    (hc : ¬ (c = '+' ∨ c.isDigit = true)) : c ∉ t :=
  fun hmem => hc (h.eq_or_isDigit hmem)

theorem Spells.isTrimmed (h : Spells t digits) : Text.IsTrimmed t := by
  refine Text.isTrimmed_of_forall fun c hc => ?_
  rcases h.eq_or_isDigit hc with rfl | hdigit
  · rfl
  · exact Text.isBlank_of_isDigit hdigit

/-- What an element of a scope of numbers stands for: a number as it is written, or the numbers
between two numbers in order, with a dash between them and white space around the dash. -/
inductive Names (element : Text) : IdToken → Prop where
  | single {n : Nat} (h : IsNumber element n) : Names element (.single n element)
  | range {first gap gap' second : Text} {start stop : Nat}
      (text_eq : element = first ++ gap ++ '-' :: (gap' ++ second))
      (gap_blank : Text.blank gap = true) (gap'_blank : Text.blank gap' = true)
      (hfirst : IsNumber first start) (hsecond : IsNumber second stop) (ordered : start ≤ stop) :
      Names element (.range ⟨start, stop⟩)

/-- The number texts that an element stands for: its own, or those of the numbers within a range, in
decimal. -/
inductive StandsFor (element : Text) : Text → Prop where
  | single {n : Nat} (h : IsNumber element n) : StandsFor element element
  | range {start stop n : Nat} (h : Names element (.range ⟨start, stop⟩)) (hstart : start ≤ n)
      (hstop : n ≤ stop) : StandsFor element (Text.ofNat n)

theorem IsNumber.notMem (h : IsNumber t n) {c : Char} (hc : ¬ (c = '+' ∨ c.isDigit = true)) :
    c ∉ t := by
  obtain ⟨digits, hspells, _⟩ := h
  exact hspells.notMem hc

theorem IsNumber.isTrimmed (h : IsNumber t n) : Text.IsTrimmed t := by
  obtain ⟨digits, hspells, _⟩ := h
  exact hspells.isTrimmed

theorem IsNumber.ne_nil (h : IsNumber t n) : t ≠ [] := by
  obtain ⟨digits, hspells, _⟩ := h
  rcases hspells.sign with rfl | rfl
  · exact hspells.ne_nil
  · exact List.cons_ne_nil _ _

theorem notMem_of_blank {c : Char} (hblank : Text.blank t = true) (hc : Text.isBlank c = false) :
    c ∉ t := by
  intro hmem
  rw [List.all_eq_true.1 hblank c hmem] at hc
  cases hc

theorem ofText_of_names (h : Names element token) : IdToken.ofText element = .ok token := by
  cases h with
  | @single n h =>
      have hcolons : Text.ColonsApart element := Text.colonsApart_of_notMem (h.notMem (by decide))
      have hdash := Text.splitOn_eq_singleton_iff.2 ⟨h.notMem (c := '-') (by decide), rfl⟩
      rw [IdToken.ofText, Text.splitAtColons_of_apart hcolons, hdash]
      simp only [readActionNumber_eq_ok_iff_isNumber.2 h]
      rfl
  | @range first gap gap' second start stop text_eq gap_blank gap'_blank hfirst hsecond ordered =>
      have hmark {c : Char} (hnumber : ¬ (c = '+' ∨ c.isDigit = true))
          (hblank : Text.isBlank c = false) : c ∉ first ++ gap ∧ c ∉ gap' ++ second := by
        rw [List.mem_append, List.mem_append, not_or, not_or]
        exact ⟨⟨hfirst.notMem hnumber, notMem_of_blank gap_blank hblank⟩,
          notMem_of_blank gap'_blank hblank, hsecond.notMem hnumber⟩
      have hcolons : Text.ColonsApart element := by
        obtain ⟨hleft, hright⟩ := hmark (c := ':') (by decide) (by decide)
        rw [text_eq]
        exact Text.colonsApart_of_notMem
          (List.not_mem_append hleft (List.not_mem_cons_of_ne_of_not_mem (by decide) hright))
      have hdash : element.splitOn '-' = [first ++ gap, gap' ++ second] :=
        Text.splitOn_eq_pair_iff.2 ⟨text_eq, hmark (by decide) (by decide)⟩
      have htrim : Text.trim (first ++ gap) = first :=
        @Text.trim_append_of_blank [] first gap rfl hfirst.isTrimmed gap_blank
      have htrim' : Text.trim (gap' ++ second) = second := by
        simpa using @Text.trim_append_of_blank gap' second [] gap'_blank hsecond.isTrimmed rfl
      rw [IdToken.ofText, Text.splitAtColons_of_apart hcolons, hdash]
      simp only [htrim, htrim', readActionNumber_eq_ok_iff_isNumber.2 hfirst,
        readActionNumber_eq_ok_iff_isNumber.2 hsecond]
      exact if_neg (not_lt.2 ordered)

/-- An element without white space around it is read exactly by the grammar. -/
theorem ofText_eq_ok_iff (helement : Text.IsTrimmed element) :
    IdToken.ofText element = .ok token ↔ Names element token := by
  refine ⟨fun h => ?_, ofText_of_names⟩
  rcases IdToken.ofText_eq_ok h with
    ⟨n, hread, rfl⟩ | ⟨first, second, start, stop, hsplit, hstart, hstop, hle, rfl⟩
  · exact .single (readActionNumber_eq_ok_iff_isNumber.1 hread)
  · obtain ⟨text_eq, -, -⟩ := Text.splitOn_eq_pair_iff.1 hsplit
    rw [readActionNumber_eq_ok_iff_isNumber] at hstart hstop
    obtain ⟨lead, gap, hlead, hgap, hfirst⟩ := Text.exists_trim_append first
    obtain ⟨gap', tail, hgap', htail, hsecond⟩ := Text.exists_trim_append second
    generalize Text.trim first = number at hfirst hstart
    generalize Text.trim second = number' at hsecond hstop
    -- The white space in front of the first number and behind the second is that of the element.
    obtain rfl : lead = [] :=
      Text.IsTrimmed.lead_eq_nil (by simpa [text_eq, hfirst] using helement) hlead
    obtain rfl : tail = [] := by
      refine Text.IsTrimmed.tail_eq_nil (t := number ++ gap ++ '-' :: (gap' ++ number')) ?_ htail
      simpa [text_eq, hfirst, hsecond] using helement
    exact .range (by simp [text_eq, hfirst, hsecond]) hgap hgap' hstart hstop hle

theorem isTrimmed_of_mem_elements {text : Text} (h : element ∈ elements text) :
    Text.IsTrimmed element := by
  obtain ⟨piece, _, rfl⟩ := List.mem_map.1 h
  exact Text.isTrimmed_trim piece

theorem elements_of_blank {text : Text} (h : Text.blank text = true) : elements text = [[]] := by
  have hcomma : ',' ∉ text := notMem_of_blank h (by decide)
  rw [elements, List.splitOn_eq_singleton hcomma, List.map_singleton, Text.trim_eq_nil_iff.2 h]

theorem not_names_nil : ¬ Names [] token := by
  intro h
  have hread := ofText_of_names h
  simp [IdToken.ofText, Text.splitAtColons, readActionNumber, Text.dropPlus, bind, Except.bind]
    at hread

theorem readIdTokens_eq_ok_iff_names {scope : Option Text} {tokens : List IdToken} :
    readIdTokens scope = .ok tokens ↔
      ∃ text, scope = some text ∧ List.Forall₂ Names (elements text) tokens := by
  have hread (text : Text) :
      List.Forall₂ (fun element token => IdToken.ofText element = .ok token) (elements text) tokens ↔
        List.Forall₂ Names (elements text) tokens := by
    constructor
    · exact fun h => forall₂_imp_of_mem h fun element helement _ =>
        (ofText_eq_ok_iff (isTrimmed_of_mem_elements helement)).1
    · exact fun h => h.imp fun _ _ => ofText_of_names
  rw [readIdTokens_eq_ok_iff]
  constructor
  · rintro ⟨_, hsplit, hforall⟩
    obtain ⟨text, rfl, _, _, rfl⟩ := split_eq_ok_iff.1 hsplit
    exact ⟨text, rfl, (hread text).1 hforall⟩
  · rintro ⟨text, rfl, hforall⟩
    have hnil : [] ∉ elements text := by
      intro hmem
      obtain ⟨token, _, hnames⟩ := exists_left_of_mem hforall.flip hmem
      exact not_names_nil hnames
    have hblank : Text.blank text = false := by
      refine Bool.eq_false_iff.2 fun h => hnil ?_
      simp [elements_of_blank h]
    exact ⟨_, split_eq_ok_iff.2 ⟨text, rfl, hblank, hnil, rfl⟩, (hread text).2 hforall⟩

theorem IdRange.mem_numbers_iff {r : IdRange} {n : Int} :
    n ∈ r.numbers ↔ r.start ≤ n ∧ n ≤ r.stop := by
  simp only [numbers, List.mem_map, List.mem_range]
  constructor
  · rintro ⟨i, hi, rfl⟩
    omega
  · rintro ⟨hstart, hstop⟩
    exact ⟨(n - r.start).toNat, by omega, by omega⟩

theorem Names.unique {other : IdToken} (h : Names element token) (hother : Names element other) :
    token = other :=
  Except.ok.inj ((ofText_of_names h).symm.trans (ofText_of_names hother))

theorem mem_numberTexts_iff (h : Names element token) {number : Text} :
    number ∈ token.numberTexts ↔ StandsFor element number := by
  constructor
  · intro hmem
    cases h with
    | single hnumber =>
        rw [List.mem_singleton.1 hmem]
        exact .single hnumber
    | @range _ _ _ _ start stop text_eq gap_blank gap'_blank hfirst hsecond ordered =>
        obtain ⟨n, hn, rfl⟩ := List.mem_map.1 hmem
        obtain ⟨hstart, hstop⟩ : (start : Int) ≤ n ∧ n ≤ stop := IdRange.mem_numbers_iff.1 hn
        lift n to Nat using by omega
        exact .range (.range text_eq gap_blank gap'_blank hfirst hsecond ordered)
          (Int.ofNat_le.1 hstart) (Int.ofNat_le.1 hstop)
  · intro hstands
    cases hstands with
    | single hnumber =>
        rw [h.unique (.single hnumber), IdToken.numberTexts]
        exact List.mem_singleton_self _
    | @range start stop n hrange hstart hstop =>
        rw [h.unique hrange, IdToken.numberTexts]
        refine List.mem_map_of_mem (a := (n : Int)) (IdRange.mem_numbers_iff.2 ?_)
        exact ⟨Int.ofNat_le.2 hstart, Int.ofNat_le.2 hstop⟩

theorem mem_expandIds_iff {name id : Text} {tokens : List IdToken} :
    id ∈ expandIds name tokens ↔
      ∃ token ∈ tokens, ∃ number ∈ token.numberTexts, id = actionId name number := by
  simp only [expandIds, List.mem_map, mem_distinct, List.mem_flatMap]
  constructor
  · rintro ⟨number, ⟨token, htoken, hnumber⟩, rfl⟩
    exact ⟨token, htoken, number, hnumber, rfl⟩
  · rintro ⟨token, htoken, number, hnumber, rfl⟩
    exact ⟨number, ⟨token, htoken, hnumber⟩, rfl⟩

theorem nodup_expandIds (name : Text) (tokens : List IdToken) : (expandIds name tokens).Nodup :=
  (nodup_distinct _).map (actionId_injective name)

theorem actionIds_eq_ok_iff_names {job scope : Option Text} {ids : List Text} :
    actionIds job scope = .ok ids ↔ ∃ name text tokens, job = some name ∧
      Text.blank name = false ∧ scope = some text ∧ List.Forall₂ Names (elements text) tokens ∧
      expandIds name tokens = ids := by
  simp only [actionIds_eq_ok_iff, checkJob_eq_ok_iff, readIdTokens_eq_ok_iff_names]
  constructor
  · rintro ⟨name, tokens, ⟨hjob, hname⟩, ⟨text, hscope, hnames⟩, hids⟩
    exact ⟨name, text, tokens, hjob, hname, hscope, hnames, hids⟩
  · rintro ⟨name, text, tokens, hjob, hname, hscope, hnames, hids⟩
    exact ⟨name, tokens, ⟨hjob, hname⟩, ⟨text, hscope, hnames⟩, hids⟩

/-- A scope of numbers has ids exactly if its job has a name and each of its elements fits the
grammar. They are different from each other, and they are those of the single numbers as they are
written and those of the numbers within the ranges in decimal. -/
theorem actionIds_by_grammar (job scope : Option Text) :
    ((∃ ids, actionIds job scope = .ok ids) ↔
      ∃ name text, job = some name ∧ Text.blank name = false ∧ scope = some text ∧
        ∀ element ∈ elements text, ∃ token, Names element token) ∧
    ∀ name text ids, job = some name → scope = some text → actionIds job scope = .ok ids →
      ids.Nodup ∧ ∀ id, id ∈ ids ↔
        ∃ element ∈ elements text, ∃ number, StandsFor element number ∧
          id = actionId name number := by
  refine ⟨⟨?_, ?_⟩, ?_⟩
  · rintro ⟨ids, h⟩
    obtain ⟨name, text, tokens, hjob, hname, hscope, hnames, _⟩ := actionIds_eq_ok_iff_names.1 h
    refine ⟨name, text, hjob, hname, hscope, fun element helement => ?_⟩
    obtain ⟨token, _, htoken⟩ := exists_left_of_mem hnames.flip helement
    exact ⟨token, htoken⟩
  · rintro ⟨name, text, hjob, hname, hscope, hmeaning⟩
    obtain ⟨tokens, hnames⟩ := exists_forall₂ hmeaning
    exact ⟨_, actionIds_eq_ok_iff_names.2 ⟨name, text, tokens, hjob, hname, hscope, hnames, rfl⟩⟩
  · rintro name text ids rfl rfl h
    obtain ⟨_, _, tokens, hjob, _, hscope, hnames, rfl⟩ := actionIds_eq_ok_iff_names.1 h
    cases hjob
    cases hscope
    refine ⟨nodup_expandIds name tokens, fun id => ?_⟩
    rw [mem_expandIds_iff]
    constructor
    · rintro ⟨token, htoken, number, hnumber, rfl⟩
      obtain ⟨element, helement, hfits⟩ := exists_left_of_mem hnames htoken
      exact ⟨element, helement, number, (mem_numberTexts_iff hfits).1 hnumber, rfl⟩
    · rintro ⟨element, helement, number, hstands, rfl⟩
      obtain ⟨token, htoken, hfits⟩ := exists_left_of_mem hnames.flip helement
      exact ⟨token, htoken, number, (mem_numberTexts_iff hfits).2 hstands, rfl⟩

/-- Three ways to write a seven, one of which is a number of a range. -/
theorem actionIds_by_grammar_sevens :
    actionIds (some "j@2") (some " 7,+7 - 08, 007") = .ok ["j@2@7", "j@2@8", "j@2@007"] ∧
      ∀ id, id ∈ [("j@2@7" : Text), "j@2@8", "j@2@007"] ↔
        ∃ element ∈ [("7" : Text), "+7 - 08", "007"], ∃ number, StandsFor element number ∧
          id = actionId "j@2" number := by
  have hids : actionIds (some "j@2") (some " 7,+7 - 08, 007") =
      .ok ["j@2@7", "j@2@8", "j@2@007"] := by cbv
  obtain ⟨_, hmem⟩ := actionIds_by_grammar (some "j@2") (some " 7,+7 - 08, 007")
  exact ⟨hids, (hmem "j@2" " 7,+7 - 08, 007" _ rfl rfl hids).2⟩

end ActionQuery.Scope
