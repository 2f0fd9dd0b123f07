import ActionQuery.Proofs.DateForms
import ActionQuery.Proofs.StampRoundTrip
import ActionQuery.Proofs.TimeTokens

/-!
# The layout of a nominal time

A text with numbers of a date and time consists of a date, one character of any kind, a time of day
and a zone. Two places are left that the reader does not look at: in front of a zone, where more than
one character stands only behind a long fraction, and behind a NUL. All other places have characters
of a few kinds, and no two colons stand side by side there.
-/

namespace ActionQuery

namespace Calendar.Iso

open Text (ColonsApart DigitRuns EndsInSixDigits)

variable {t front tail rest behind : Text} {c : Char} {clock : ClockNumbers} {offset : Option Int}

theorem seven_le_of_separatorPlace {place : Nat} (h : separatorPlace t = some place) :
    7 ≤ place := by
  simp only [separatorPlace] at h
  split_ifs at h <;> simp only [Option.some.injEq] at h <;> omega

/-- The place is told from what stands in front of a character that is no digit, if that is long
enough. -/
theorem separatorPlace_append (h : 10 ≤ front.length) (hc : c.isDigit = false) (tail behind : Text) :
    separatorPlace (front ++ c :: tail) = separatorPlace (front ++ c :: behind) := by
  have hget (place : Nat) (hplace : place < front.length) (rest : Text) :
      (front ++ c :: rest)[place]? = front[place]? := List.getElem?_append_left hplace
  have hdigit (rest : Text) : digitAt (front ++ c :: rest) 10 = digitAt front 10 := by
    rcases Nat.eq_or_lt_of_le h with hten | hlt
    · simp [digitAt, ← hten, hc]
    · rw [digitAt, digitAt, hget 10 hlt]
  have hrun (rest : Text) : ((front ++ c :: rest).drop 7).takeWhile Char.isDigit =
      (front.drop 7).takeWhile Char.isDigit := by
    rw [List.drop_append_of_le_length (by omega), List.takeWhile_append]
    split
    · rename_i hfull
      rw [List.takeWhile_cons_of_neg (by simp [hc]), List.append_nil]
      exact ((List.takeWhile_prefix _).eq_of_length hfull).symm
    · rfl
  have hlength (rest : Text) : 10 < (front ++ c :: rest).length := by
    rw [List.length_append, List.length_cons]
    omega
  have hseven (rest : Text) : ¬ (front ++ c :: rest).length < 7 := by
    have := hlength rest
    omega
  have hne (rest : Text) {n : Nat} (hn : n ≤ 10) : ¬ (front ++ c :: rest).length = n := by
    have := hlength rest
    omega
  simp only [separatorPlace, hseven, hne _ (show 7 ≤ 10 by decide), hne _ (show 9 ≤ 10 by decide),
    hget 4 (by omega), hget 5 (by omega), hget 8 (by omega), hdigit, hrun]

/-- What follows a time of day that leaves `rest`, as the offset that it stands for. -/
inductive Zoned (rest : Text) : Text → Option Int → Prop where
  | none (h : atEnd rest = true) : Zoned rest [] none
  | zulu {beyond : Text} (h : atEnd beyond = true) : Zoned rest ('Z' :: beyond) (some 0)
  | offset {sign : Char} {zone beyond : Text} {n : ClockNumbers} (hsign : sign = '+' ∨ sign = '-')
      (hread : readClock zone = some (n, beyond)) (h : atEnd beyond = true) :
      Zoned rest (sign :: zone) (some (offsetMicros (sign == '-') n))

theorem isZoneMark_iff : isZoneMark c = true ↔ c = 'Z' ∨ c = '+' ∨ c = '-' := by
  simp only [isZoneMark, Bool.or_eq_true, beq_iff_eq]
  tauto

theorem zoned_of_readTime (hfront : ∀ c ∈ front, isZoneMark c = false)
    (htail : ∀ c ∈ tail.head?, isZoneMark c = true)
    (h : readTime (front ++ tail) = some (clock, offset)) :
    ∃ rest, readClock front = some (clock, rest) ∧ Zoned rest tail offset := by
  have htake : (front ++ tail).takeWhile (!isZoneMark ·) = front :=
    Text.takeWhile_append_of_head (by simpa using hfront) (by simpa using htail)
  have hdrop : (front ++ tail).dropWhile (!isZoneMark ·) = tail :=
    Text.dropWhile_append_of_head (by simpa using hfront) (by simpa using htail)
  rw [readTime, htake, hdrop] at h
  split at h
  · cases h
  · rename_i found rest hclock
    split at h
    · split at h
      · rename_i hend
        cases h
        exact ⟨rest, hclock, .none hend⟩
      · cases h
    · split at h
      · rename_i hend
        cases h
        exact ⟨rest, hclock, .zulu hend⟩
      · cases h
    · rename_i sign zone hzulu
      have hsign := (isZoneMark_iff.1 (htail sign rfl)).resolve_left hzulu
      split at h
      · rename_i n beyond hread
        split at h
        · rename_i hend
          cases h
          exact ⟨rest, hclock, .offset hsign hread hend⟩
        · cases h
      · cases h

theorem exists_zoned_of_readTime (h : readTime t = some (clock, offset)) :
    ∃ front tail rest, t = front ++ tail ∧ (∀ c ∈ front, isZoneMark c = false) ∧
      readClock front = some (clock, rest) ∧ Zoned rest tail offset := by
  have hfront : ∀ c ∈ t.takeWhile (!isZoneMark ·), isZoneMark c = false := fun c hc => by
    simpa using List.mem_takeWhile_imp hc
  have htail : ∀ c ∈ (t.dropWhile (!isZoneMark ·)).head?, isZoneMark c = true := fun c hc => by
    simpa using Text.head?_dropWhile _ _ c hc
  have ht := List.takeWhile_append_dropWhile (p := (!isZoneMark ·)) (l := t)
  rw [← ht] at h
  obtain ⟨rest, hclock, hzoned⟩ := zoned_of_readTime hfront htail h
  exact ⟨_, _, rest, ht.symm, hfront, hclock, hzoned⟩

/-- A text with numbers has a time of day unless all of it is a date. -/
theorem exists_parts_of_readNumbers {n : Numbers} (h : readNumbers t = some n)
    (ht : ∃ c ∈ t, ¬ IsDateChar c) :
    ∃ date mark time, t = date ++ mark :: time ∧ separatorPlace t = some date.length ∧
      readDate date = some (n.year, n.month, n.day) ∧ readTime time = some (n.clock, n.offset) := by
  rw [readNumbers] at h
  split at h
  · cases h
  · rename_i place hplace
    split at h
    · cases h
    · rename_i year month day hdate
      split at h
      · rename_i hdrop
        obtain ⟨c, hc, hnot⟩ := ht
        refine absurd ((dateForm_of_readDate hdate).isDateChar c ?_) hnot
        rwa [List.take_of_length_le (List.drop_eq_nil_iff.1 hdrop)]
      · rename_i mark time hdrop
        rw [Option.map_eq_some_iff] at h
        obtain ⟨⟨clock, offset⟩, htime, rfl⟩ := h
        have hlength : (t.take place).length = place := by
          have hpos := congrArg List.length hdrop
          rw [List.length_drop, List.length_cons] at hpos
          rw [List.length_take]
          omega
        refine ⟨t.take place, mark, time, ?_, hlength.symm ▸ hplace, hdate, htime⟩
        rw [← hdrop, List.take_append_drop]

/-- The parts of a text with a date and time. What is `ignored` stands in front of the zone, what is
`beyond` behind the end that a NUL makes. -/
structure Layout where
  date : Text
  mark : Char
  clock : Text
  ignored : Text
  zone : Text
  beyond : Text

namespace Layout

def text (l : Layout) : Text :=
  l.date ++ l.mark :: (l.clock ++ (l.ignored ++ (l.zone ++ l.beyond)))

structure Fits (l : Layout) : Prop where
  date : ∀ c ∈ l.date, IsDateChar c
  clock : DigitRuns l.clock
  /-- Only a long fraction leaves more than one character in front of the zone. -/
  ignored_long : l.ignored.length ≤ 1 ∨ EndsInSixDigits l.clock
  ignored_marks : ∀ c ∈ l.ignored, isZoneMark c = false
  /-- Without a zone nothing is ignored in front of it. -/
  ignored_zone : l.zone = [] → l.ignored = []
  zone : l.zone = [] ∨ l.zone = ['Z'] ∨
    ∃ sign runs, l.zone = sign :: runs ∧ (sign = '+' ∨ sign = '-') ∧ DigitRuns runs
  beyond : ∀ c ∈ l.beyond.head?, c = '\x00'

/-- The characters of a date, a time of day and a zone. -/
def IsPlain (c : Char) : Prop :=
  c.isDigit = true ∨ c ∈ ['-', 'W', '+', 'Z', ':', '.', ',']

instance (c : Char) : Decidable (IsPlain c) :=
  inferInstanceAs (Decidable (c.isDigit = true ∨ c ∈ ['-', 'W', '+', 'Z', ':', '.', ',']))

variable {l : Layout}

theorem isPlain_of_runs (h : DigitRuns t) : ∀ c ∈ t, IsPlain c := fun c hc =>
  (h.isDigit_or_mark c hc).imp_right (List.mem_append_right ['-', 'W', '+', 'Z'])

theorem isPlain_of_mem_zone (h : l.Fits) : ∀ c ∈ l.zone, IsPlain c := by
  rcases h.zone with hzone | hzone | ⟨sign, runs, hzone, hsign, hruns⟩
  · rw [hzone]
    exact fun c hc => absurd hc List.not_mem_nil
  · rw [hzone]
    exact List.forall_mem_singleton.2 (Or.inr (by decide))
  · rw [hzone]
    refine List.forall_mem_cons.2 ⟨Or.inr ?_, isPlain_of_runs hruns⟩
    rcases hsign with rfl | rfl <;> decide

/-- A character of any other kind stands where it is not looked at. -/
theorem isPlain_or_mem (h : l.Fits) (hc : c ∈ l.text) :
    IsPlain c ∨ c = l.mark ∨ c ∈ l.ignored ∨ c ∈ l.beyond := by
  simp only [text, List.mem_append, List.mem_cons] at hc
  rcases hc with hdate | hmark | hclock | hignored | hzone | hbeyond
  · left
    rcases h.date c hdate with hdigit | rfl | rfl
    · exact Or.inl hdigit
    · exact Or.inr (by decide)
    · exact Or.inr (by decide)
  · exact Or.inr (Or.inl hmark)
  · exact Or.inl (isPlain_of_runs h.clock c hclock)
  · exact Or.inr (Or.inr (Or.inl hignored))
  · exact Or.inl (isPlain_of_mem_zone h c hzone)
  · exact Or.inr (Or.inr (Or.inr hbeyond))

theorem colonsApart_zone (h : l.Fits) : ColonsApart l.zone := by
  rcases h.zone with hzone | hzone | ⟨sign, runs, hzone, hsign, hruns⟩
  · rw [hzone]
    exact .nil
  · rw [hzone]
    exact Text.colonsApart_of_notMem (by decide)
  · rw [hzone]
    refine List.isChain_cons.2 ⟨?_, hruns.colonsApart⟩
    rintro c _ rfl
    rcases hsign with hsign | hsign <;> cases hsign

/-- Colons stand side by side only where they are not looked at. -/
theorem colonsApart_text (h : l.Fits) (hignored : ColonsApart l.ignored)
    (hbeyond : ColonsApart l.beyond) : ColonsApart l.text := by
  have hend : ColonsApart (l.zone ++ l.beyond) := by
    refine (colonsApart_zone h).append hbeyond (Or.inr fun hcolon => ?_)
    cases h.beyond ':' hcolon
  have hzone : (l.zone ++ l.beyond).head? ≠ some ':' := by
    intro hcolon
    rcases h.zone with hzone | hzone | ⟨sign, runs, hzone, hsign, _⟩
    · rw [hzone] at hcolon
      cases h.beyond ':' hcolon
    · rw [hzone] at hcolon
      cases hcolon
    · rw [hzone] at hcolon
      rcases hsign with rfl | rfl <;> cases hcolon
  have hclock : ColonsApart (l.clock ++ (l.ignored ++ (l.zone ++ l.beyond))) := by
    refine h.clock.colonsApart.append (hignored.append hend (Or.inr hzone)) (Or.inl fun hcolon => ?_)
    cases h.clock.isDigit_last ':' hcolon
  have hdate : ':' ∉ l.date := by
    intro hmem
    rcases h.date ':' hmem with hcolon | hcolon | hcolon <;> cases hcolon
  refine (Text.colonsApart_of_notMem hdate).append (List.isChain_cons.2 ⟨?_, hclock⟩)
    (Or.inl fun hcolon => hdate (List.mem_of_getLast? hcolon))
  obtain ⟨d, rest, hcons, hd⟩ := h.clock.exists_head
  rw [hcons]
  rintro _ ⟨⟩ _ rfl
  cases hd

/-- A text with nothing behind its end has a digit or a `Z` there. -/
theorem getLast_text (h : l.Fits) (hbeyond : l.beyond = []) :
    ∀ c ∈ l.text.getLast?, c.isDigit = true ∨ c = 'Z' := by
  have htext : l.text = (l.date ++ [l.mark]) ++ (l.clock ++ (l.ignored ++ l.zone)) := by
    simp [text, hbeyond]
  rw [htext, List.getLast?_append_of_ne_nil _ (List.append_ne_nil_of_left_ne_nil h.clock.ne_nil _)]
  rcases h.zone with hzone | hzone | ⟨sign, runs, hzone, _, hruns⟩
  · rw [h.ignored_zone hzone, hzone, List.append_nil, List.append_nil]
    exact fun c hc => Or.inl (h.clock.isDigit_last c hc)
  · rw [hzone, ← List.append_assoc, List.getLast?_concat]
    rintro _ ⟨⟩
    exact Or.inr rfl
  · rw [hzone, ← List.append_assoc, ← List.singleton_append, ← List.append_assoc,
      List.getLast?_append_of_ne_nil _ hruns.ne_nil]
    exact fun c hc => Or.inl (hruns.isDigit_last c hc)

/-- Every text with numbers has a layout and shows its hour, unless all of it is a date. -/
theorem exists_fits {n : Numbers} (h : readNumbers t = some n) (ht : ∃ c ∈ t, ¬ IsDateChar c) :
    ∃ l : Layout, l.Fits ∧ t = l.text ∧ ShowsHour t l.date l.mark n.clock.hour := by
  have hnul {beyond : Text} (hend : atEnd beyond = true) : ∀ c ∈ beyond.head?, c = '\x00' := by
    cases beyond with
    | nil => simp
    | cons c beyond => simpa [atEnd] using hend
  obtain ⟨date, mark, time, rfl, _, hdate, htime⟩ := exists_parts_of_readNumbers h ht
  obtain ⟨front, tail, rest, rfl, hmarks, hclock, hzoned⟩ := exists_zoned_of_readTime htime
  have hform := dateForm_of_readDate hdate
  have hshown : ShowsHour (date ++ mark :: (front ++ tail)) date mark n.clock.hour := by
    obtain ⟨hour, behind, rfl, hpair⟩ := exists_hour_of_readClock hclock
    exact ⟨hour, behind ++ tail, by rw [List.append_assoc], hform, hpair⟩
  obtain ⟨clock, rfl, hruns, hlong⟩ := exists_runs_of_readClock hclock
  have hmarks : ∀ c ∈ rest, isZoneMark c = false := fun c hc =>
    hmarks c (List.mem_append_right clock hc)
  generalize n.offset = offset at hzoned
  cases hzoned with
  | none hend =>
      refine ⟨⟨date, mark, clock, [], [], rest⟩, ⟨hform.isDateChar, hruns, Or.inl (Nat.zero_le 1),
        by simp, fun _ => rfl, Or.inl rfl, hnul hend⟩, by simp [text], hshown⟩
  | @zulu beyond hend =>
      refine ⟨⟨date, mark, clock, rest, ['Z'], beyond⟩, ⟨hform.isDateChar, hruns, hlong, hmarks,
        by simp, Or.inr (Or.inl rfl), hnul hend⟩, by simp [text], hshown⟩
  | @offset sign zone beyond numbers hsign hread hend =>
      obtain ⟨runs, rfl, hzone, _⟩ := exists_runs_of_readClock hread
      refine ⟨⟨date, mark, clock, rest, sign :: runs, beyond⟩, ⟨hform.isDateChar, hruns, hlong,
        hmarks, by simp, Or.inr (Or.inr ⟨sign, runs, rfl, hsign, hzone⟩), hnul hend⟩,
        by simp [text], hshown⟩

end Layout

end Calendar.Iso

namespace NominalTime

open Calendar (Stamp)
open Calendar.Iso (Layout)

variable {x q : Text}

theorem expandZulu_append (front : Text) (hne : q ≠ []) :
    expandZulu (front ++ q) = front ++ expandZulu q := by
  rw [expandZulu, expandZulu, List.getLast?_append_of_ne_nil _ hne,
    List.dropLast_append_of_ne_nil hne]
  split
  · rw [List.append_assoc]
  · rfl

theorem mem_expandZulu {c : Char} (h : c ∈ x) (hc : c ≠ 'Z') : c ∈ expandZulu x := by
  rw [expandZulu]
  split
  · rename_i hz
    obtain ⟨front, rfl⟩ := List.getLast?_eq_some_iff.1 hz
    rw [List.dropLast_concat]
    rcases List.mem_append.1 h with hfront | hlast
    · exact List.mem_append_left _ hfront
    · exact absurd (List.mem_singleton.1 hlast) hc
  · exact h

/-- The head of a text stays unless the text is a `Z` alone. -/
theorem expandZulu_cons (c : Char) (hne : q ≠ []) : expandZulu (c :: q) = c :: expandZulu q :=
  expandZulu_append [c] hne

theorem colonsApart_of_expandZulu {t : Text} (h : Text.ColonsApart (expandZulu t)) :
    Text.ColonsApart t := by
  rw [expandZulu] at h
  split at h
  · rename_i hz
    obtain ⟨front, rfl⟩ := List.getLast?_eq_some_iff.1 hz
    rw [List.dropLast_concat] at h
    have hzulu : Text.ColonsApart ['Z'] := Text.colonsApart_of_notMem (by decide)
    exact Text.ColonsApart.append (List.isChain_append.1 h).1 hzulu (Or.inr (by decide))
  · exact h

theorem mark_mem_of_readStamp {t : Text} {s : Stamp} (h : readStamp t = .ok s) : 'T' ∈ t :=
  (Text.trim_infix t).subset (readStamp_eq_ok_iff.1 h).1

theorem exists_fits_of_readStamp {t : Text} {s : Stamp} (h : readStamp t = .ok s) :
    ∃ l : Layout, l.Fits ∧ expandZulu (Text.trim t) = l.text ∧ ∃ value < 24,
      Calendar.Iso.ShowsHour (expandZulu (Text.trim t)) l.date l.mark value := by
  obtain ⟨hmark, hread⟩ := readStamp_eq_ok_iff.1 h
  obtain ⟨n, hnumbers, hcheck⟩ := Calendar.Iso.read_eq_ok_iff.1 hread
  obtain ⟨_, _, c, _, _, hclock, _⟩ := Calendar.Iso.check_eq_ok_iff.1 hcheck
  have hhour := (Calendar.Iso.checkClock_eq_ok_iff.1 hclock).1
  obtain ⟨l, hfits, htext, hshown⟩ :=
    Layout.exists_fits hnumbers ⟨'T', mem_expandZulu hmark (by decide), by decide⟩
  exact ⟨l, hfits, htext, n.clock.hour, hhour ▸ c.hour_lt, hshown⟩

/-- Where a character stands that a date, a time of day and a zone do without. -/
theorem place_of_mem {l : Layout} {c : Char} (hfits : l.Fits) (htext : expandZulu x = l.text)
    (hc : c ∈ x) (hplain : ¬ Layout.IsPlain c) : c = l.mark ∨ c ∈ l.ignored ∨ c ∈ l.beyond := by
  have hzulu : c ≠ 'Z' := by
    rintro rfl
    exact hplain (by decide)
  have hmem := mem_expandZulu hc hzulu
  rw [htext] at hmem
  exact (Layout.isPlain_or_mem hfits hmem).resolve_left hplain

theorem exists_layout_of_readStamp {t : Text} {s : Stamp} (h : readStamp t = .ok s) :
    ∃ l : Layout, l.Fits ∧ expandZulu (Text.trim t) = l.text ∧
      ([':', ':'] <:+: Text.trim t → [':', ':'] <:+: l.ignored ∨ [':', ':'] <:+: l.beyond) ∧
      ∀ c ∈ Text.trim t, ¬ Layout.IsPlain c → c = l.mark ∨ c ∈ l.ignored ∨ c ∈ l.beyond := by
  obtain ⟨l, hfits, htext, _⟩ := exists_fits_of_readStamp h
  refine ⟨l, hfits, htext, fun hcolons => ?_, fun c => place_of_mem hfits htext⟩
  by_contra hnot
  rw [not_or, ← Text.colonsApart_iff, ← Text.colonsApart_iff] at hnot
  have hapart := Layout.colonsApart_text hfits hnot.1 hnot.2
  rw [← htext] at hapart
  exact Text.colonsApart_iff.1 (colonsApart_of_expandZulu hapart) hcolons

/-- Without a NUL a time ends in a digit or a `Z`. -/
theorem getLast_of_readStamp {t : Text} {s : Stamp} (h : readStamp t = .ok s) (hnul : '\x00' ∉ t) :
    ∀ c ∈ (Text.trim t).getLast?, c.isDigit = true ∨ c = 'Z' := by
  intro c hc
  obtain ⟨l, hfits, htext, _⟩ := exists_fits_of_readStamp h
  by_cases hz : (Text.trim t).getLast? = some 'Z'
  · rw [hz] at hc
    exact Or.inr (Option.some.inj hc).symm
  · rw [expandZulu, if_neg hz] at htext
    have hbeyond : l.beyond = [] := by
      by_contra hne
      obtain ⟨d, rest, hcons⟩ := List.exists_cons_of_ne_nil hne
      have hd : d = '\x00' := hfits.beyond d (by rw [hcons]; rfl)
      apply hnul
      apply (Text.trim_infix t).subset
      simp [htext, Layout.text, hcons, hd]
    rw [htext] at hc
    exact Layout.getLast_text hfits hbeyond c hc

end NominalTime

end ActionQuery
