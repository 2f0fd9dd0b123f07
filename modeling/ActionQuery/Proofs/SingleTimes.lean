import ActionQuery.Proofs.MinuteRoundTrip
import ActionQuery.Proofs.Staging
import ActionQuery.Proofs.TimeCuts
import ActionQuery.Proofs.TimeTokens

/-!
# A single time in a scope and in a filter

A text that a session reads as a time is the same time as an element of a scope and as the value of a
filter, unless one of the separators of these languages stands in it. A comma can be the mark of a
fraction; all others can stand only where the reader does not look, and so can a second comma. A
scope is cut at every comma, and a piece without a `T` is no time.
-/

namespace ActionQuery

open Calendar (Instant Stamp)
open Calendar.Iso (Breaks Layout)
open Scope

/-- A time starts with the first digit of its year. -/
theorem NominalTime.isDigit_head_of_readStamp {t : Text} {s : Stamp} (h : readStamp t = .ok s) :
    ∀ c ∈ (Text.trim t).head?, c.isDigit = true := by
  obtain ⟨hmark, hread⟩ := readStamp_eq_ok_iff.1 h
  obtain ⟨n, hnumbers, _⟩ := Calendar.Iso.read_eq_ok_iff.1 hread
  obtain ⟨⟨year, rest⟩, hyear⟩ :
      ∃ found, Text.readDigits 4 (expandZulu (Text.trim t)) = some found := by
    rw [← Option.isSome_iff_exists, Option.isSome_iff_ne_none]
    intro hnone
    rw [Calendar.Iso.readNumbers_of_readDigits hnone] at hnumbers
    cases hnumbers
  obtain ⟨digits, htext, hlength, hdigits, _⟩ := Text.readDigits_eq_some_iff.1 hyear
  obtain ⟨d, digits, rfl⟩ := List.exists_cons_of_ne_nil (List.ne_nil_of_length_eq_add_one hlength)
  intro c hc
  obtain ⟨more, htrim⟩ := List.head?_eq_some_iff.1 hc
  rw [htrim] at hmark htext
  cases more with
  | nil =>
      obtain rfl := List.mem_singleton.1 hmark
      cases (List.cons.inj htext).1
      cases hdigits 'T' List.mem_cons_self
  | cons e more =>
      rw [expandZulu_cons c (List.cons_ne_nil e more)] at htext
      rw [(List.cons.inj htext).1]
      exact hdigits d List.mem_cons_self

namespace Session

variable {p : Session} {t element : Text} {i : Instant}

theorem mark_mem_of_reader {time : Stamp} (h : p.reader t = .ok time) : 'T' ∈ t := by
  obtain ⟨i, hparse, _⟩ := readerIn_eq_ok_iff.1 h
  obtain ⟨s, _, hread, _⟩ := parse_eq_ok_iff.1 hparse
  exact NominalTime.mark_mem_of_readStamp hread

theorem mark_mem_of_leavesCalendar (h : p.LeavesCalendar none t) : 'T' ∈ t := by
  obtain ⟨s, _, hread, _⟩ := h
  exact NominalTime.mark_mem_of_readStamp hread

/-- White space around a time does not count. -/
theorem reader_trim (h : (p.parse t none).1 = .ok i) : p.reader (Text.trim t) = .ok i.toStamp := by
  obtain ⟨s, offset, hread, hoffset, hsame⟩ := parse_eq_ok_iff.1 h
  have htrim := Text.trim_of_isTrimmed (Text.isTrimmed_trim t)
  refine readerIn_eq_ok_iff.2 ⟨i, parse_eq_ok_iff.2 ⟨s, offset, ?_, hoffset, hsame⟩, rfl⟩
  rw [NominalTime.readStamp_eq_ok_iff, htrim]
  exact NominalTime.readStamp_eq_ok_iff.1 hread

/-- What is read for an element is the element or one of its two pieces, the second only if the first
is a time. -/
theorem exists_piece_of_mem_reads {reader : TimeReader} {x : Text}
    (h : x ∈ (TimeToken.ofText reader element).2) :
    x = element ∨ ∃ first second, element = first ++ ':' :: ':' :: second ∧
      (x = Text.trim first ∨
        x = Text.trim second ∧ ∃ time, reader (Text.trim first) = .ok time) := by
  revert h
  unfold TimeToken.ofText
  split
  · intro h
    exact Or.inl (List.mem_singleton.1 h)
  · rename_i first second hsplit
    have hpieces := (Text.splitAtColons_eq_iff.1 hsplit).eq_append
    simp only
    split
    · intro h
      exact absurd h List.not_mem_nil
    · split
      · intro h
        exact Or.inr ⟨first, second, hpieces, Or.inl (List.mem_singleton.1 h)⟩
      · rename_i start hstart
        intro h
        refine Or.inr ⟨first, second, hpieces, (List.mem_pair.1 h).imp_right fun hx => ?_⟩
        exact ⟨hx, start, readTime_eq_ok_iff.1 hstart⟩
  · intro h
    exact absurd h List.not_mem_nil

theorem subset_of_mem_reads {reader : TimeReader} {x : Text}
    (h : x ∈ (TimeToken.ofText reader element).2) : x ⊆ element := by
  rcases exists_piece_of_mem_reads h with rfl | ⟨first, second, rfl, rfl | ⟨rfl, _⟩⟩
  · exact List.Subset.refl _
  · exact fun c hc => List.mem_append_left _ ((Text.trim_infix first).subset hc)
  · intro c hc
    refine List.mem_append_right first (List.mem_cons_of_mem _ (List.mem_cons_of_mem _ ?_))
    exact (Text.trim_infix second).subset hc

theorem mark_mem_of_ofText {token : TimeToken}
    (h : (TimeToken.ofText p.reader element).1 = .ok token) : 'T' ∈ element := by
  rcases TimeToken.ofText_eq_ok h with
    ⟨_, _, _, htime, _⟩ | ⟨first, second, _, _, hsplit, _, hstart, _⟩
  · exact mark_mem_of_reader htime
  · rw [(Text.splitAtColons_eq_iff.1 hsplit).eq_append]
    exact List.mem_append_left _ ((Text.trim_infix first).subset (mark_mem_of_reader hstart))

/-- An element without a `T` is refused for its format. -/
theorem format_of_unmarked (h : 'T' ∉ element) :
    ∃ flaw, (TimeToken.ofText p.reader element).1 = .error (.format flaw) := by
  cases hread : (TimeToken.ofText p.reader element).1 with
  | ok token => exact absurd (mark_mem_of_ofText hread) h
  | error e =>
      rcases format_or_leavesCalendar_of_ofText hread with ⟨flaw, rfl⟩ | ⟨x, hx, hleaves⟩
      · exact ⟨flaw, rfl⟩
      · exact absurd (subset_of_mem_reads hx (mark_mem_of_leavesCalendar hleaves)) h

/-- A text that is a time is a single time unless a pair of colons makes it a range. -/
theorem ofText_eq_single_iff {reader : TimeReader} {time : Stamp} (h : reader element = .ok time) :
    (TimeToken.ofText reader element).1 = .ok (.single time element) ↔
      ¬ [':', ':'] <:+: element := by
  constructor
  · intro hsingle hpair
    rcases TimeToken.ofText_eq_ok hsingle with
      ⟨_, _, hsplit, _⟩ | ⟨_, _, _, _, _, _, _, _, _, _, hrange⟩
    · exact (Text.splitAtColons_eq_iff.1 hsplit).length_ne_one hpair rfl
    · cases hrange
  · intro hapart
    rw [TimeToken.ofText_of_apart hapart, readTime_eq_ok_iff.2 h]
    rfl

/-! ### A scope with a comma

The element in front of the comma may be a time as well, but it must not be one that leaves the
calendar: that would be a failure and no refusal for its format. It is cut from a time within the
calendar, which excludes this (`not_leavesCalendar_of_cut`). The element behind the comma has no `T`,
and so it is refused for its format in any case. -/

/-- What stands in front of a comma or of a pair of colons does not leave the calendar. -/
theorem not_leavesCalendar_of_front {front mark rest : Text} (h : (p.parse t none).1 = .ok i)
    (hzone : p.zoneFor none = .ok "UTC".toList) (ht : t = front ++ (mark ++ rest))
    (hmark : mark = [','] ∨ mark = [':', ':']) :
    ¬ p.LeavesCalendar none (Text.trim front) := by
  intro hleaves
  have hfront : Text.trim front ≠ [] := List.ne_nil_of_mem (mark_mem_of_leavesCalendar hleaves)
  have htrimmed : Text.IsTrimmed mark := by
    rcases hmark with rfl | rfl <;> exact Text.isTrimmed_of_forall (by simp [Text.isBlank])
  have hne : mark ≠ [] := by rcases hmark with rfl | rfl <;> exact List.cons_ne_nil _ _
  obtain ⟨blanks, behind, hblank, htrim⟩ := Text.exists_trim_of_cut hfront htrimmed hne rest
  have hbreaks : Breaks (mark ++ behind) := by
    rcases hmark with rfl | rfl
    · exact ⟨List.cons_ne_nil _ _, Text.endsNumber_cons rfl _, fun more hcolon => by cases hcolon⟩
    · refine ⟨List.cons_ne_nil _ _, Text.endsNumber_cons rfl _, fun more hcolon => ?_⟩
      cases hcolon
      exact ⟨List.cons_ne_nil _ _, Text.endsNumber_cons rfl _⟩
  exact not_leavesCalendar_of_cut h hzone (ht ▸ htrim) (.blank_append hblank hbreaks)
    (Text.trim_of_isTrimmed (Text.isTrimmed_trim front)) hleaves

/-- The first of several elements is a time or refused for its format. -/
theorem format_of_first {front rest : Text} {e : Error} (h : (p.parse t none).1 = .ok i)
    (hzone : p.zoneFor none = .ok "UTC".toList) (ht : t = front ++ ',' :: rest)
    (hcount : t.count 'T' = 1)
    (herror : (TimeToken.ofText p.reader (Text.trim front)).1 = .error e) :
    ∃ flaw, e = .format flaw := by
  refine (format_or_leavesCalendar_of_ofText herror).resolve_right ?_
  rintro ⟨x, hx, hleaves⟩
  rcases exists_piece_of_mem_reads hx with rfl | ⟨first, second, hpieces, rfl | ⟨rfl, time, htime⟩⟩
  · exact not_leavesCalendar_of_front h hzone ht (Or.inl rfl) hleaves
  · obtain ⟨lead, tail, hlead, _, hfront⟩ := Text.exists_trim_append front
    rw [hpieces] at hfront
    rw [← Text.trim_append_left hlead] at hleaves
    refine @not_leavesCalendar_of_front p t i (lead ++ first) [':', ':']
      (second ++ tail ++ ',' :: rest) h hzone ?_ (Or.inr rfl) hleaves
    rw [ht, hfront]
    simp
  · have hfirst := (Text.trim_infix first).subset (mark_mem_of_reader htime)
    have hsecond := (Text.trim_infix second).subset (mark_mem_of_leavesCalendar hleaves)
    have htwo : 1 < (Text.trim front).count 'T' := by
      rw [hpieces, List.count_append]
      have hone := List.count_pos_iff.2 hfirst
      have hother := List.count_pos_iff.2 hsecond
      simp only [List.count_cons, Char.reduceBEq, Bool.false_eq_true, if_false]
      omega
    have hle := (Text.trim_infix front).sublist.count_le 'T'
    rw [ht, List.count_append] at hcount
    omega

theorem exists_elements_of_comma (h : ',' ∈ t) :
    ∃ front second rest others, t = front ++ ',' :: rest ∧ second <+: rest ∧
      elements t = Text.trim front :: Text.trim second :: others := by
  obtain ⟨front, rest, rfl, hfront⟩ := List.eq_append_cons_of_mem h
  obtain ⟨second, pieces, hpieces, hsecond⟩ := Text.exists_splitOn_cons ',' rest
  refine ⟨front, second, rest, pieces.map Text.trim, rfl, hsecond, ?_⟩
  rw [elements, List.splitOn_append_cons_self_of_not_mem hfront, hpieces]
  rfl

theorem two_le_length_of_comma (h : ',' ∈ t) : 2 ≤ (elements t).length := by
  obtain ⟨front, second, rest, others, _, _, helements⟩ := exists_elements_of_comma h
  rw [helements]
  exact Nat.le_add_left 2 _

theorem blank_of_trim_ne_nil (hne : Text.trim t ≠ []) : Text.blank t = false := by
  rwa [← Bool.not_eq_true, ← Text.trim_eq_nil_iff]

/-- A scope is cut unless one of its elements is empty. -/
theorem split_of_ne_nil (hne : Text.trim t ≠ []) :
    [] ∈ elements t ∧ split (some t) = .error (.emptyElement t) ∨
      split (some t) = .ok (elements t) := by
  have hblank := blank_of_trim_ne_nil hne
  by_cases hnil : [] ∈ elements t
  · exact Or.inl ⟨hnil, split_of_blank_element hblank hnil⟩
  · exact Or.inr (split_eq_ok_iff.2 ⟨t, rfl, hblank, hnil, rfl⟩)

/-- A single comma cuts a time in two, for no time starts or ends with a comma. -/
theorem split_of_one_comma {s : Stamp} (h : NominalTime.readStamp t = .ok s)
    (hcount : t.count ',' = 1) (hnul : '\x00' ∉ t) :
    ∃ first second, split (some t) = .ok [first, second] := by
  have hhead := NominalTime.isDigit_head_of_readStamp h
  have hlast := NominalTime.getLast_of_readStamp h hnul
  obtain ⟨front, rest, rfl, hfront⟩ :=
    List.eq_append_cons_of_mem (List.count_pos_iff.1 (hcount ▸ Nat.one_pos))
  have hrest : ',' ∉ rest := by
    rw [List.count_append, List.count_cons_self] at hcount
    exact List.count_eq_zero.1 (by omega)
  have helements : elements (front ++ ',' :: rest) = [Text.trim front, Text.trim rest] := by
    rw [elements, List.splitOn_append_cons_self_of_not_mem hfront, List.splitOn_eq_singleton hrest]
    rfl
  have hcomma : Text.IsTrimmed [','] := Text.isTrimmed_of_forall (by simp [Text.isBlank])
  have hfirst : Text.trim front ≠ [] := by
    intro hnil
    obtain ⟨behind, htrim⟩ := Text.exists_trim_append_eq (Text.trim_eq_nil_iff.1 hnil) hcomma
      (List.cons_ne_nil _ _) rest
    rw [List.singleton_append] at htrim
    rw [htrim] at hhead
    cases hhead ',' rfl
  have hsecond : Text.trim rest ≠ [] := by
    intro hnil
    obtain ⟨lead, tail, hlead, _, hsplit⟩ := Text.exists_trim_append front
    have hcore := (Text.isTrimmed_trim front).append_append hcomma hfirst (List.cons_ne_nil _ _) tail
    have htrim := Text.trim_append_of_blank hlead hcore (Text.trim_eq_nil_iff.1 hnil)
    have hwhole : front ++ ',' :: rest =
        lead ++ (Text.trim front ++ (tail ++ [',']) ++ rest) := by
      conv_lhs => rw [hsplit]
      simp
    rw [hwhole, htrim, ← List.append_assoc, List.getLast?_concat] at hlast
    rcases hlast ',' rfl with hdigit | hzulu
    · cases hdigit
    · cases hzulu
  have hblank : Text.blank (front ++ ',' :: rest) = false := by
    rw [Text.blank, List.all_append, List.all_cons]
    simp [Text.isBlank]
  refine ⟨Text.trim front, Text.trim rest, split_eq_ok_iff.2 ⟨_, rfl, hblank, ?_, helements.symm⟩⟩
  rw [helements, List.mem_pair, not_or]
  exact ⟨hfirst.symm, hsecond.symm⟩

theorem split_of_comma_notMem (h : ',' ∉ t) (hne : Text.trim t ≠ []) :
    split (some t) = .ok [Text.trim t] := by
  have helements : elements t = [Text.trim t] := by
    rw [elements, List.splitOn_eq_singleton h, List.map_singleton]
  refine split_eq_ok_iff.2 ⟨t, rfl, blank_of_trim_ne_nil hne, ?_, helements.symm⟩
  rw [helements, List.mem_singleton]
  exact hne.symm

/-- Where the first element has the only `T`, the second has none. -/
theorem mark_notMem_of_second {front second rest : Text}
    (hcount : (front ++ ',' :: rest).count 'T' = 1) (hfront : 'T' ∈ Text.trim front)
    (hsecond : second <+: rest) : 'T' ∉ Text.trim second := by
  intro hmem
  have hone := List.count_pos_iff.2 ((Text.trim_infix front).subset hfront)
  have hother := List.count_pos_iff.2 (hsecond.subset ((Text.trim_infix second).subset hmem))
  rw [List.count_append, List.count_cons] at hcount
  omega

/-- A time with a comma in it is no scope: one of its first two elements is refused for its format,
unless both have a `T`. -/
theorem refused_of_comma (h : (p.parse t none).1 = .ok i)
    (hzone : p.zoneFor none = .ok "UTC".toList) (hcomma : ',' ∈ t) (hcount : t.count 'T' = 1)
    {r : Resolver} (hreader : r.reader = p.reader) (active : Bool) (job : Option Text) :
    ∃ flaw reads, r.resolve Route.times.name active job (some t) =
      ⟨.error (.format flaw), [], reads, []⟩ := by
  cases hjob : checkJob job with
  | error flaw =>
      rw [Resolver.resolve_times, resolveTimes, hjob]
      exact ⟨flaw, [], rfl⟩
  | ok name =>
      obtain ⟨rfl, hname⟩ := checkJob_eq_ok_iff.1 hjob
      have hblank : Text.blank t = false := by
        rw [← Bool.not_eq_true, Text.blank, List.all_eq_true]
        intro hall
        cases hall 'T' (List.count_pos_iff.1 (hcount ▸ Nat.one_pos))
      by_cases hnil : [] ∈ elements t
      · exact ⟨_, _, @resolve_of_blank_element r active Route.times name t hname hblank hnil⟩
      · obtain ⟨front, second, rest, others, ht, hsecond, helements⟩ :=
          exists_elements_of_comma hcomma
        have hrefused := @resolve_of_first_refusal r active Route.times name t hname hblank hnil
        simp only [Route.Refuses, hreader] at hrefused
        cases hfirst : (TimeToken.ofText p.reader (Text.trim front)).1 with
        | error e =>
            obtain ⟨flaw, rfl⟩ := format_of_first h hzone ht hcount hfirst
            exact ⟨flaw, _, @hrefused [] _ _ _ helements (by simp) hfirst⟩
        | ok token =>
            have hunmarked :=
              mark_notMem_of_second (ht ▸ hcount) (mark_mem_of_ofText hfirst) hsecond
            obtain ⟨flaw, hflaw⟩ := @format_of_unmarked p _ hunmarked
            refine ⟨flaw, _, @hrefused [Text.trim front] _ _ _ helements ?_ hflaw⟩
            intro e hmem other hother
            rw [List.mem_singleton.1 hmem, hfirst] at hother
            cases hother

end Session

/-- A sign is as long as it can be when what follows it does not go on with one. -/
theorem Comparator.isLongest_of_head {sign rest : Text} {c : Comparator} (hsign : IsSign sign c)
    (hrest : ∀ d ∈ rest.head?, d ≠ '=' ∧ d ≠ '>') : IsLongest sign (sign ++ rest) := by
  have hone (a : Char) : IsLongest [a] (a :: rest) := by
    refine isLongest_singleton fun b tail c hcons hpair => ?_
    have hb := hrest b (by rw [hcons]; rfl)
    rcases eq_or_eq_of_isSign_pair hpair with ⟨_, heq⟩ | ⟨_, heq⟩
    · exact hb.1 heq
    · exact hb.2 heq
  rcases hsign with rfl | ⟨rfl, _⟩
  · cases c with
    | equals | greater | less => exact hone _
    | notEquals | greaterEqual | lessEqual => exact isLongest_pair _ _ _
  · exact isLongest_pair _ _ _

namespace Filter

variable {reader : TimeReader} {sign rest value : Text} {c : Comparator} {time : Stamp}

theorem entries_of_notMem (h : ';' ∉ value) (hne : Text.trim value ≠ []) :
    entries (some value) = [Text.trim value] := by
  have hblank : Text.blank value = false := by
    rwa [← Bool.not_eq_true, ← Text.trim_eq_nil_iff]
  simp [entries, List.splitOn_eq_singleton h, hblank]

/-- The parts of an entry about the nominal time. -/
def Parts.ofTime (sign rest : Text) : Parts := ⟨Subject.nominalTime.name, [], sign, rest⟩

theorem fit_ofTime (hsign : Comparator.IsSign sign c)
    (hrest : ∀ d ∈ rest.head?, d ≠ '=' ∧ d ≠ '>') (hline : '\n' ∉ Text.trim rest) :
    (Parts.ofTime sign rest).Fit (Subject.nominalTime.name ++ (sign ++ rest)) c where
  text_eq := rfl
  name_ne_nil := show Subject.nominalTime.name ≠ [] by decide
  letters := by
    have hletters : Subject.nominalTime.name.all isNameChar = true := by decide
    exact fun a ha => isNameChar_iff.1 (List.all_eq_true.1 hletters a ha)
  name_ends := by
    change ∀ a ∈ (sign ++ rest).head?, ¬ (a.isAlpha = true ∨ a = '_')
    rcases hsign with rfl | ⟨rfl, _⟩
    · cases c <;> simp [Comparator.sign]
    · simp
  gap_blank := rfl
  isSign := hsign
  isLongest := Comparator.isLongest_of_head hsign hrest
  one_line := hline

/-- White space behind the value does not belong to an entry. -/
theorem trim_timeText {lead tail : Text} (htail : Text.blank tail = true)
    (hvalue : value = lead ++ (Text.trim value ++ tail)) (hne : Text.trim value ≠ []) :
    Text.trim (Subject.nominalTime.name ++ (sign ++ value)) =
      Subject.nominalTime.name ++ (sign ++ (lead ++ Text.trim value)) := by
  have hname : Text.IsTrimmed Subject.nominalTime.name := by
    constructor <;> rintro _ ⟨⟩ <;> rfl
  have hcore := hname.append_append (Text.isTrimmed_trim value) (by decide) hne (sign ++ lead)
  have hwhole := @Text.trim_append_of_blank [] _ tail rfl hcore htail
  conv_lhs => rw [hvalue]
  simpa using hwhole

theorem notMem_timeText (hsign : Comparator.IsSign sign c) (hentry : ';' ∉ value) :
    ';' ∉ Subject.nominalTime.name ++ (sign ++ value) := by
  have hsemicolon : ';' ∉ sign := by
    rcases hsign with rfl | ⟨rfl, _⟩
    · cases c <;> decide
    · decide
  simp only [List.mem_append, not_or]
  exact ⟨by decide, hsemicolon, hentry⟩

/-- A filter text with one entry about the nominal time. -/
theorem parse_of_single (hsign : Comparator.IsSign sign c) (hentry : ';' ∉ value)
    (hline : '\n' ∉ Text.trim value) (hhead : ∀ d ∈ (Text.trim value).head?, d.isDigit = true)
    (hne : Text.trim value ≠ []) (hread : reader (Text.trim value) = .ok time) :
    parse reader (some (Subject.nominalTime.name ++ (sign ++ value))) =
      .ok [⟨.nominalTime, c, [.time time]⟩] := by
  obtain ⟨lead, tail, hlead, htail, hvalue⟩ := Text.exists_trim_append value
  have htrim : Text.trim (lead ++ Text.trim value) = Text.trim value := by
    rw [Text.trim_append_left hlead, Text.trim_of_isTrimmed (Text.isTrimmed_trim value)]
  have hrest : ∀ d ∈ (lead ++ Text.trim value).head?, d ≠ '=' ∧ d ≠ '>' := by
    intro d hd
    have hshown : Text.isBlank d = true ∨ d.isDigit = true := by
      cases lead with
      | nil => exact Or.inr (hhead d hd)
      | cons b lead =>
          cases hd
          exact Or.inl (List.all_eq_true.1 hlead d List.mem_cons_self)
    constructor <;> rintro rfl <;> rcases hshown with hshown | hshown <;> cases hshown
  have hfit := fit_ofTime hsign hrest (htrim.symm ▸ hline)
  have hreads : Reads reader (Subject.nominalTime.name ++ (sign ++ (lead ++ Text.trim value)))
      ⟨.nominalTime, c, .time time⟩ := by
    refine .nominalTime hfit ?_ (Or.inl rfl) ?_
    · rwa [Parts.value, Parts.ofTime, htrim]
    · rwa [Parts.value, Parts.ofTime, htrim]
  have hkept := @trim_timeText sign value lead tail htail hvalue hne
  refine parse_eq_ok_iff.2 ⟨[⟨.nominalTime, c, .time time⟩], ?_,
    gather_eq [⟨.nominalTime, c, .time time⟩]⟩
  rw [entries_of_notMem (notMem_timeText hsign hentry) (hkept ▸ List.cons_ne_nil _ _), hkept]
  exact .cons hreads .nil

end Filter

namespace Session

/-- A text that is read as a time has a layout, and separators stand only where they are not looked
at: a pair of colons in what is ignored, a semicolon there or between date and time of day. Without
a pair of colons the text is the same single time as an element of a scope, and without a semicolon
or a line break in it as the value of a filter. Without a comma it is a scope of one element. A comma
cuts it, into two elements if there is no other comma and no NUL, and where local times are those of
UTC the scope is then refused for its format before anything is looked up, provided that there is no
second `T`. -/
theorem single_time_agrees (p : Session) (t : Text) (i : Instant)
    (h : (p.parse t none).1 = .ok i) :
    (∃ l : Layout, l.Fits ∧ NominalTime.expandZulu (Text.trim t) = l.text ∧
      ([':', ':'] <:+: t → [':', ':'] <:+: l.ignored ∨ [':', ':'] <:+: l.beyond) ∧
      (';' ∈ t → ';' = l.mark ∨ ';' ∈ l.ignored ∨ ';' ∈ l.beyond) ∧
      ('\n' ∈ Text.trim t → '\n' = l.mark ∨ '\n' ∈ l.ignored ∨ '\n' ∈ l.beyond)) ∧
    ((TimeToken.ofText p.reader (Text.trim t)).1 = .ok (.single i.toStamp (Text.trim t)) ↔
      ¬ [':', ':'] <:+: t) ∧
    (';' ∉ t → '\n' ∉ Text.trim t → ∀ sign c, Comparator.IsSign sign c →
      Filter.parse p.reader (some ("nominal_time".toList ++ (sign ++ t))) =
        .ok [⟨.nominalTime, c, [.time i.toStamp]⟩]) ∧
    (',' ∉ t → split (some t) = .ok [Text.trim t]) ∧
    (',' ∈ t → 2 ≤ (elements t).length ∧
      ([] ∈ elements t ∧ split (some t) = .error (.emptyElement t) ∨
        split (some t) = .ok (elements t)) ∧
      (t.count ',' = 1 → '\x00' ∉ t → ∃ first second, split (some t) = .ok [first, second]) ∧
      (t.count 'T' = 1 → p.settings.1.map Settings.zone = .ok "UTC".toList →
        ∀ r : Resolver, r.reader = p.reader → ∀ active job, ∃ flaw reads,
          r.resolve Route.times.name active job (some t) =
            ⟨.error (.format flaw), [], reads, []⟩)) := by
  obtain ⟨s, _, hstamp, _⟩ := parse_eq_ok_iff.1 h
  have hread := reader_trim h
  have hne : Text.trim t ≠ [] := List.ne_nil_of_mem (NominalTime.readStamp_eq_ok_iff.1 hstamp).1
  have hpair : [':', ':'] <:+: t ↔ [':', ':'] <:+: Text.trim t := by
    rw [← not_iff_not, ← Text.colonsApart_iff, ← Text.colonsApart_iff, Text.colonsApart_trim_iff]
  refine ⟨?_, ?_, fun hsemicolon hline sign c hsign => ?_,
    fun hcomma => split_of_comma_notMem hcomma hne, fun hcomma =>
    ⟨two_le_length_of_comma hcomma, split_of_ne_nil hne, split_of_one_comma hstamp, ?_⟩⟩
  · obtain ⟨l, hfits, htext, hcolons, hplaces⟩ := NominalTime.exists_layout_of_readStamp hstamp
    refine ⟨l, hfits, htext, fun hmem => hcolons (hpair.1 hmem), fun hmem => ?_, fun hmem => ?_⟩
    · exact hplaces ';' (Text.mem_trim_of_mem hmem rfl) (by decide)
    · exact hplaces '\n' hmem (by decide)
  · rw [hpair]
    exact ofText_eq_single_iff hread
  · exact Filter.parse_of_single hsign hsemicolon hline
      (NominalTime.isDigit_head_of_readStamp hstamp) hne hread
  · intro hcount hzone r hreader active job
    exact refused_of_comma h hzone hcomma hcount hreader active job

/-- 23:32:03.5 of 2008-12-31. -/
def newYearsEve : Instant :=
  ⟨⟨(Calendar.daysBeforeYear 2009 - 1) * Calendar.microsPerDay +
    (23 * 3600 + 32 * 60 + 3) * Calendar.microsPerSecond + 500000, by decide⟩⟩

def noActions : Lookup := ⟨fun _ => .ok none, fun _ _ => .ok none, fun _ _ _ => .ok []⟩

/-- One week date in both forms, with both marks of a fraction. -/
theorem single_time_agrees_newYearsEve :
    (initial.parse " 2009W014T010203,5+0130 ".toList none).1 = .ok newYearsEve ∧
    (initial.parse "\t2009-W01-4T01:02:03.5+01:30\n".toList none).1 = .ok newYearsEve ∧
    (TimeToken.ofText initial.reader "2009W014T010203,5+0130".toList).1 =
      .ok (.single newYearsEve.toStamp "2009W014T010203,5+0130".toList) ∧
    Filter.parse initial.reader
        (some ("nominal_time".toList ++ (['<', '>'] ++ " 2009W014T010203,5+0130 ".toList))) =
      .ok [⟨.nominalTime, .notEquals, [.time newYearsEve.toStamp]⟩] ∧
    split (some "\t2009-W01-4T01:02:03.5+01:30\n".toList) =
      .ok ["2009-W01-4T01:02:03.5+01:30".toList] ∧
    (∃ first second, split (some " 2009W014T010203,5+0130 ".toList) = .ok [first, second]) ∧
    ∃ flaw reads, Resolver.resolve ⟨noActions, initial.reader, id⟩ Route.times.name true (some ['j'])
        (some " 2009W014T010203,5+0130 ".toList) = ⟨.error (.format flaw), [], reads, []⟩ := by
  have hcomma : (initial.parse " 2009W014T010203,5+0130 ".toList none).1 = .ok newYearsEve := by
    decide
  have hpoint : (initial.parse "\t2009-W01-4T01:02:03.5+01:30\n".toList none).1 =
      .ok newYearsEve := by
    decide
  obtain ⟨_, hsingle, hfilter, _, hcut⟩ := single_time_agrees initial _ newYearsEve hcomma
  obtain ⟨_, _, htwo, hrefused⟩ := hcut (by decide)
  obtain ⟨_, _, _, hsplit, _⟩ := single_time_agrees initial _ newYearsEve hpoint
  exact ⟨hcomma, hpoint, hsingle.2 (by decide),
    hfilter (by decide) (by decide) _ _ (Or.inr ⟨rfl, rfl⟩), hsplit (by decide),
    htwo (by decide) (by decide), hrefused (by decide) (by decide) _ rfl true (some ['j'])⟩

/-- One o'clock of 2009-01-01, and a fraction of a second. -/
def oneOClock (micro : Fin Calendar.microsPerSecond) : Instant where
  utc.micros := Calendar.daysBeforeYear 2009 * Calendar.microsPerDay +
    3600 * Calendar.microsPerSecond + micro
  utc.micros_lt := Nat.lt_of_lt_of_le (Nat.add_lt_add_left micro.isLt _) (by decide)

/-- A time with a second time in what is ignored of it, behind a separator of scopes. -/
def withSecond (separator : Text) : Text :=
  "2009-01-01T01:00:00.123456".toList ++ (separator ++ "20090101T0200+00:00".toList)

/-- A time with a character of any kind between its date and its time of day. -/
def withMark (mark : Char) : Text := "2009-01-01".toList ++ mark :: "01:00T+00:00".toList

/-- A pair of colons makes a time a range, a semicolon or a line break keeps it out of a filter, two
commas leave an empty element, and the two times around a comma are looked up. -/
theorem single_time_disagrees :
    ((initial.parse (withSecond "::") none).1 = .ok (oneOClock ⟨123456, by decide⟩) ∧
      (TimeToken.ofText initial.reader (withSecond "::")).1 ≠
        .ok (.single (oneOClock ⟨123456, by decide⟩).toStamp (withSecond "::"))) ∧
    ((initial.parse (withMark ';') none).1 = .ok (oneOClock Calendar.noFraction) ∧
      ∀ conditions, Filter.parse initial.reader
        (some ("nominal_time".toList ++ (['='] ++ withMark ';'))) ≠ .ok conditions) ∧
    ((initial.parse (withMark '\n') none).1 = .ok (oneOClock Calendar.noFraction) ∧
      ∀ conditions, Filter.parse initial.reader
        (some ("nominal_time".toList ++ (['='] ++ withMark '\n'))) ≠ .ok conditions) ∧
    ((initial.parse (withSecond ",,") none).1 = .ok (oneOClock ⟨123456, by decide⟩) ∧
      ∀ found, split (some (withSecond ",,")) ≠ .ok found) ∧
    (initial.parse (withSecond ",") none).1 = .ok (oneOClock ⟨123456, by decide⟩) ∧
      initial.settings.1.map Settings.zone = .ok "UTC".toList ∧
      ∀ flaw, (Resolver.resolve ⟨noActions, initial.reader, id⟩ Route.times.name false
        (some ['j']) (some (withSecond ","))).result ≠ .error (.format flaw) := by
  refine ⟨⟨by decide, by decide⟩, ⟨by decide, ?_⟩, ⟨by decide, ?_⟩, ⟨by decide, ?_⟩, by decide,
    by decide, ?_⟩
  · rintro _ ⟨⟩
  · rintro _ ⟨⟩
  · rintro _ ⟨⟩
  · rintro _ ⟨⟩

end Session

end ActionQuery
