import ActionQuery.NominalTime
import ActionQuery.Proofs.CivilDays
import ActionQuery.Proofs.Elements
import ActionQuery.Proofs.Numerals

/-!
# Times are read back as they are written

A time of day is two or three groups of two digits, with a fraction after the third, and so is an
offset behind its sign. A date is ten characters, and what stands behind it and one more character is
the time of day. So a stamp is read back from its text, with one exception: a fraction of a second
alone is no offset when it is read. Of a clock that is set forward and back the text tells the offset
alone, and so the stamp that is read has this offset for good.
-/

namespace ActionQuery

namespace Calendar

namespace Iso

variable {left hour minute second value : Nat} {colons? : Option Bool} {more : Text}

theorem readFraction_padded (micro : Fin microsPerSecond) :
    readFraction (Text.padded 6 micro) = some (micro, []) := by
  have hlength : (Text.padded 6 micro).length = 6 := Text.length_padded (by decide) micro.isLt
  have htake : (Text.padded 6 micro).take 6 = Text.padded 6 micro :=
    List.take_of_length_le (Nat.le_of_eq hlength)
  have hdrop : (Text.padded 6 micro).drop 6 = [] :=
    List.drop_eq_nil_of_le (Nat.le_of_eq hlength)
  have hdigits : ((Text.padded 6 micro).take 6).all Char.isDigit = true :=
    List.all_eq_true.2 fun _ hc => Text.isDigit_of_mem_padded (List.mem_of_mem_take hc)
  simp only [readFraction, dif_pos hdigits, hdrop, List.dropWhile_nil, Option.some.injEq,
    Prod.mk.injEq, and_true]
  apply Fin.ext
  simp [htake, hlength, Text.digitsValue_padded, Text.tenTo]

/-- A colon after a group makes way for the next one. -/
theorem readGroups_colon (hvalue : value < 100) (hcolons : colons? ≠ some false)
    (hmore : more ≠ []) :
    readGroups (left + 1) colons? (Text.padded 2 value ++ ':' :: more) =
      (readGroups left (some true) more).map fun (values, micro, rest) =>
        (value :: values, micro, rest) := by
  obtain ⟨c, rest, rfl⟩ := List.exists_cons_of_ne_nil hmore
  rw [readGroups, Text.readDigits_padded_append (by decide) hvalue]
  rcases colons? with _ | _ | _
  · rfl
  · exact absurd rfl hcolons
  · rfl

/-- The last group, with its fraction of a second. -/
theorem readGroups_last (hvalue : value < 100) (micro : Fin microsPerSecond) :
    readGroups (left + 1) colons? (Text.padded 2 value ++ fractionText micro) =
      some ([value], micro, []) := by
  rw [fractionText]
  split
  · rename_i hzero
    have hmicro : micro = noFraction := Fin.ext hzero
    rw [List.append_nil, readGroups, Text.readDigits_padded (by decide) hvalue, hmicro]
    rfl
  · obtain ⟨c, rest, hpadded⟩ := List.exists_cons_of_ne_nil (Text.padded_ne_nil 6 micro)
    have hfraction := readFraction_padded micro
    rw [readGroups, Text.readDigits_padded_append (by decide) hvalue]
    rw [hpadded] at hfraction ⊢
    simp [hfraction]

theorem readClock_minutes (hhour : hour < 100) (hminute : minute < 100) :
    readClock (Text.padded 2 hour ++ ':' :: Text.padded 2 minute) =
      some (⟨hour, minute, 0, noFraction⟩, []) := by
  have hlast : readGroups 2 (some true) (Text.padded 2 minute ++ []) =
      some ([minute], noFraction, []) := readGroups_last hminute noFraction
  rw [List.append_nil] at hlast
  rw [readClock, readGroups_colon hhour (by decide) (Text.padded_ne_nil 2 minute), hlast]
  rfl

theorem readClock_seconds (hhour : hour < 100) (hminute : minute < 100) (hsecond : second < 100)
    (micro : Fin microsPerSecond) :
    readClock (Text.padded 2 hour ++ ':' :: (Text.padded 2 minute ++
      ':' :: (Text.padded 2 second ++ fractionText micro))) =
      some (⟨hour, minute, second, micro⟩, []) := by
  have hne (n : Nat) (rest : Text) : Text.padded 2 n ++ rest ≠ [] :=
    List.append_ne_nil_of_left_ne_nil (Text.padded_ne_nil 2 n) rest
  rw [readClock, readGroups_colon hhour (by decide) (hne _ _),
    readGroups_colon hminute (by decide) (hne _ _), readGroups_last hsecond]
  rfl

variable {clock behind : Text} {numbers offset : ClockNumbers}

theorem readTime_clock (hmarks : ∀ c ∈ clock, isZoneMark c = false)
    (hclock : readClock clock = some (numbers, [])) :
    readTime clock = some (numbers, none) := by
  have htake : clock.takeWhile (!isZoneMark ·) = clock :=
    List.takeWhile_eq_self_iff.2 fun c hc => by simp [hmarks c hc]
  have hdrop : clock.dropWhile (!isZoneMark ·) = [] :=
    List.dropWhile_eq_nil_iff.2 fun c hc => by simp [hmarks c hc]
  simp only [readTime, htake, hdrop, hclock]
  rfl

theorem readTime_offset {sign : Char} (hmarks : ∀ c ∈ clock, isZoneMark c = false)
    (hclock : readClock clock = some (numbers, [])) (hsign : sign = '+' ∨ sign = '-')
    (hbehind : readClock behind = some (offset, [])) :
    readTime (clock ++ sign :: behind) =
      some (numbers, some (offsetMicros (sign == '-') offset)) := by
  have hmark : isZoneMark sign = true := by rcases hsign with rfl | rfl <;> rfl
  have hrun : ∀ c ∈ clock, (!isZoneMark c) = true := fun c hc => by simp [hmarks c hc]
  have hhead : ∀ c ∈ (sign :: behind).head?, (!isZoneMark c) = false := by
    rintro c hc
    cases hc
    simp [hmark]
  have htake := Text.takeWhile_append_of_head hrun hhead
  have hdrop := Text.dropWhile_append_of_head hrun hhead
  rcases hsign with rfl | rfl <;> simp [readTime, htake, hdrop, hclock, hbehind, atEnd]

variable {year month day : Nat}

/-- A date in the form in which it is written. -/
def dateText (year month day : Nat) : Text :=
  Text.padded 4 year ++ '-' :: (Text.padded 2 month ++ '-' :: Text.padded 2 day)

theorem length_dateText (hyear : year < 10000) (hmonth : month < 100) (hday : day < 100) :
    (dateText year month day).length = 10 := by
  have hfour : (Text.padded 4 year).length = 4 := Text.length_padded (by decide) hyear
  have htwo {n : Nat} (hn : n < 100) : (Text.padded 2 n).length = 2 :=
    Text.length_padded (by decide) hn
  simp [dateText, hfour, htwo hmonth, htwo hday]

theorem readDate_dateText (hyear : year < 10000) (hmonth : month < 100) (hday : day < 100) :
    readDate (dateText year month day) = some (year, month, day) := by
  have hweek : (Text.padded 2 month ++ '-' :: Text.padded 2 day).head? ≠ some 'W' :=
    Text.head?_padded_append_ne 2 month _ rfl
  rw [readDate, dateText, Text.readDigits_padded_append (by decide) hyear]
  simp only [List.head?_cons, beq_self_eq_true, if_true, List.drop_succ_cons, List.drop_zero]
  split
  · rename_i heq
    exact absurd (congrArg List.head? heq) hweek
  · rw [Text.readDigits_padded_append (by decide) hmonth]
    simp only [List.head?_cons, if_true, List.drop_succ_cons, List.drop_zero]
    rw [Text.readDigits_padded (by decide) hday]

theorem separatorPlace_dateText (hyear : year < 10000) (hmonth : month < 100) (hday : day < 100)
    (rest : Text) : separatorPlace (dateText year month day ++ rest) = some 10 := by
  have hlength : 10 ≤ (dateText year month day ++ rest).length := by
    rw [List.length_append, length_dateText hyear hmonth hday]
    exact Nat.le_add_right _ _
  have hplace (i : Nat) : (dateText year month day ++ rest)[4 + i]? =
      ('-' :: (Text.padded 2 month ++ ('-' :: Text.padded 2 day ++ rest)))[i]? := by
    have hwidth : (Text.padded 4 year).length = 4 := Text.length_padded (by decide) hyear
    rw [dateText, List.append_assoc, List.getElem?_append_right (by omega), hwidth,
      Nat.add_sub_cancel_left, List.cons_append, List.append_assoc]
  have hdash : (dateText year month day ++ rest)[4]? = some '-' := hplace 0
  have hweek : (dateText year month day ++ rest)[5]? ≠ some 'W' := by
    rw [hplace 1, List.getElem?_cons_succ, ← List.head?_eq_getElem?]
    exact Text.head?_padded_append_ne 2 month _ rfl
  rw [separatorPlace, if_neg (by omega), if_neg (by omega), if_pos hdash, if_neg hweek]

theorem readNumbers_dateText (hyear : year < 10000) (hmonth : month < 100) (hday : day < 100)
    (mark : Char) (time : Text) :
    readNumbers (dateText year month day ++ mark :: time) =
      (readTime time).map fun (clock, offset) => ⟨year, month, day, clock, offset⟩ := by
  have hlength := length_dateText hyear hmonth hday
  simp only [readNumbers, separatorPlace_dateText hyear hmonth hday, List.take_left' hlength,
    List.drop_left' hlength, readDate_dateText hyear hmonth hday]

theorem checkDate_self (d : Date) : checkDate d.year d.month d.day = .ok d := by
  rw [checkDate, dif_pos ⟨d.year_pos, d.year_le⟩, dif_pos ⟨d.month_pos, d.month_le⟩,
    dif_pos ⟨d.day_pos, d.day_le⟩]

theorem checkClock_self (c : Clock) :
    checkClock ⟨c.hour, c.minute, c.second, ⟨c.micro, c.micro_lt⟩⟩ = .ok c := by
  rw [checkClock, dif_pos c.hour_lt, dif_pos c.minute_lt, dif_pos c.second_lt]

theorem checkDate_eq_ok_iff {d : Date} :
    checkDate year month day = .ok d ↔ d.year = year ∧ d.month = month ∧ d.day = day := by
  constructor
  · intro h
    unfold checkDate at h
    split at h
    · split at h
      · split at h
        · cases h
          exact ⟨rfl, rfl, rfl⟩
        · cases h
      · cases h
    · cases h
  · rintro ⟨rfl, rfl, rfl⟩
    exact checkDate_self d

theorem checkClock_eq_ok_iff {n : ClockNumbers} {c : Clock} :
    checkClock n = .ok c ↔
      c.hour = n.hour ∧ c.minute = n.minute ∧ c.second = n.second ∧ c.micro = n.micro := by
  constructor
  · intro h
    unfold checkClock at h
    split at h
    · split at h
      · split at h
        · cases h
          exact ⟨rfl, rfl, rfl, rfl⟩
        · cases h
      · cases h
    · cases h
  · obtain ⟨hour, minute, second, micro⟩ := n
    rintro ⟨rfl, rfl, rfl, hmicro⟩
    have hself := checkClock_self c
    rwa [show (⟨c.micro, c.micro_lt⟩ : Fin microsPerSecond) = micro from Fin.ext hmicro] at hself

theorem checkOffset_self (o : Option Offset) : checkOffset (o.map Offset.micros) = .ok o := by
  cases o with
  | none => rfl
  | some o =>
      have hread : Offset.ofMicros? o.micros = some o := dif_pos ⟨o.lower, o.upper⟩
      simp only [Option.map_some, checkOffset, hread]

theorem checkOffset_eq_ok_iff {micros : Option Int} {o : Option Offset} :
    checkOffset micros = .ok o ↔ micros = o.map Offset.micros := by
  constructor
  · intro h
    unfold checkOffset at h
    split at h
    · cases h
      rfl
    · split at h
      · rename_i hread
        obtain ⟨_, hsome⟩ := Option.dite_none_right_eq_some.1 hread
        cases hsome
        cases h
        rfl
      · cases h
  · rintro rfl
    exact checkOffset_self o

theorem read_eq_ok_iff {t : Text} {s : Stamp} :
    read t = .ok s ↔ ∃ n, readNumbers t = some n ∧ n.check = .ok s := by
  rw [read]
  cases readNumbers t <;> simp

theorem check_eq_ok_iff {n : Numbers} {s : Stamp} :
    n.check = .ok s ↔ ∃ o d c, checkOffset n.offset = .ok o ∧
      checkDate n.year n.month n.day = .ok d ∧ checkClock n.clock = .ok c ∧
        s = ⟨WallTime.on d c, o.map .steady⟩ := by
  simp only [Numbers.check, bind_eq_ok_iff]
  constructor
  · rintro ⟨o, hoffset, d, hdate, c, hclock, ⟨⟩⟩
    exact ⟨o, d, c, hoffset, hdate, hclock, rfl⟩
  · rintro ⟨o, d, c, hoffset, hdate, hclock, rfl⟩
    exact ⟨o, hoffset, d, hdate, c, hclock, rfl⟩

theorem checkOffset_of_check {n : Numbers} {s : Stamp} (h : n.check = .ok s) :
    checkOffset n.offset = .ok s.offset := by
  obtain ⟨o, d, c, hoffset, _, _, rfl⟩ := check_eq_ok_iff.1 h
  rw [hoffset, Stamp.offset_steady]

end Iso

theorem monthLength_le (year month : Nat) : monthLength year month ≤ 31 := by
  unfold monthLength
  split
  · split <;> decide
  · split <;> decide

namespace WallTime

def clockText (w : WallTime) : Text :=
  Text.padded 2 w.hour ++ ':' :: (Text.padded 2 w.minute ++
    ':' :: (Text.padded 2 w.second ++ fractionText w.micro))

theorem marked_eq (mark : Char) (w : WallTime) :
    w.marked mark = Iso.dateText w.year w.month w.dayOfMonth ++ mark :: w.clockText := by
  simp [marked, dateText, Iso.dateText, clockText]

def clockNumbers (w : WallTime) : Iso.ClockNumbers :=
  ⟨w.hour, w.minute, w.second, ⟨w.micro, w.clock.micro_lt⟩⟩

theorem readClock_clockText (w : WallTime) :
    Iso.readClock w.clockText = some (w.clockNumbers, []) := by
  have hhour := w.clock.hour_lt
  have hminute := w.clock.minute_lt
  have hsecond := w.clock.second_lt
  exact Iso.readClock_seconds (Nat.lt_trans hhour (by decide)) (Nat.lt_trans hminute (by decide))
    (Nat.lt_trans hsecond (by decide)) ⟨w.micro, w.clock.micro_lt⟩

theorem year_lt (w : WallTime) : w.year < 10000 := Nat.lt_succ_of_le w.date.year_le

theorem month_lt (w : WallTime) : w.month < 100 := Nat.lt_of_le_of_lt w.date.month_le (by decide)

theorem dayOfMonth_lt (w : WallTime) : w.dayOfMonth < 100 :=
  Nat.lt_of_le_of_lt (Nat.le_trans w.date.day_le (monthLength_le _ _)) (by decide)

theorem readNumbers_marked_append (mark : Char) (w : WallTime) (behind : Text) :
    Iso.readNumbers (w.marked mark ++ behind) =
      (Iso.readTime (w.clockText ++ behind)).map fun (clock, offset) =>
        ⟨w.year, w.month, w.dayOfMonth, clock, offset⟩ := by
  rw [marked_eq, List.append_assoc, List.cons_append]
  exact Iso.readNumbers_dateText w.year_lt w.month_lt w.dayOfMonth_lt mark _

theorem check_numbers (w : WallTime) (o : Option Offset) :
    Iso.Numbers.check ⟨w.year, w.month, w.dayOfMonth, w.clockNumbers, o.map Offset.micros⟩ =
      .ok ⟨w, o.map .steady⟩ := by
  have hdate : Iso.checkDate w.year w.month w.dayOfMonth = .ok w.date := Iso.checkDate_self w.date
  have hclock : Iso.checkClock w.clockNumbers = .ok w.clock := Iso.checkClock_self w.clock
  simp only [Iso.Numbers.check, Iso.checkOffset_self, hdate, hclock]
  exact congrArg (fun wall => Except.ok (⟨wall, o.map .steady⟩ : Stamp)) w.on_date_clock

end WallTime

namespace Offset

/-- A difference of nothing or of at least a second. -/
def IsSpelled (o : Offset) : Prop := o = utc ∨ microsPerSecond ≤ o.micros.natAbs

def sign (o : Offset) : Char := if o.micros < 0 then '-' else '+'

def numbers (o : Offset) : Iso.ClockNumbers :=
  let seconds := o.micros.natAbs / microsPerSecond
  ⟨seconds / 3600, seconds / 60 % 60, seconds % 60,
    ⟨o.micros.natAbs % microsPerSecond, Nat.mod_lt _ (by decide)⟩⟩

theorem sign_eq_or (o : Offset) : o.sign = '+' ∨ o.sign = '-' := by
  unfold sign
  split
  · exact Or.inr rfl
  · exact Or.inl rfl

theorem natAbs_lt (o : Offset) : o.micros.natAbs < microsPerDay := by
  have hlower := o.lower
  have hupper := o.upper
  omega

/-- What stands behind the sign: hours and minutes, and the smaller parts if there are any. -/
def clockText (o : Offset) : Text :=
  Text.padded 2 o.numbers.hour ++ ':' :: (Text.padded 2 o.numbers.minute ++
    ((if o.numbers.second = 0 ∧ (o.numbers.micro : Nat) = 0 then []
      else ':' :: Text.padded 2 o.numbers.second) ++ fractionText o.numbers.micro))

theorem iso_eq (o : Offset) : o.iso = o.sign :: o.clockText := by
  have hsign : (if o.micros < 0 then ['-'] else ['+']) = [o.sign] := by
    rw [sign]
    split <;> rfl
  simp only [iso, hsign, List.append_assoc, List.singleton_append]
  rfl

theorem readClock_clockText (o : Offset) : Iso.readClock o.clockText = some (o.numbers, []) := by
  have hlt := o.natAbs_lt
  have hhour : o.numbers.hour < 100 := by
    simp only [numbers, microsPerDay, microsPerSecond] at *
    omega
  have hminute : o.numbers.minute < 100 := Nat.lt_trans (Nat.mod_lt _ (by decide)) (by decide)
  have hsecond : o.numbers.second < 100 := Nat.lt_trans (Nat.mod_lt _ (by decide)) (by decide)
  rw [clockText]
  split
  · rename_i hzero
    have hmicro : o.numbers.micro = noFraction := Fin.ext hzero.2
    have hnumbers : o.numbers = ⟨o.numbers.hour, o.numbers.minute, 0, noFraction⟩ := by
      rw [← hzero.1, ← hmicro]
    rw [hzero.2, fractionText, if_pos rfl, List.append_nil, List.append_nil, hnumbers]
    exact Iso.readClock_minutes hhour hminute
  · exact Iso.readClock_seconds hhour hminute hsecond o.numbers.micro

theorem offsetMicros_numbers {o : Offset} (h : o.IsSpelled) :
    Iso.offsetMicros (o.sign == '-') o.numbers = o.micros := by
  have hseconds : o.numbers.hour * 3600 + o.numbers.minute * 60 + o.numbers.second =
      o.micros.natAbs / microsPerSecond := by
    simp only [numbers]
    omega
  have hmicro : (o.numbers.micro : Nat) = o.micros.natAbs % microsPerSecond := rfl
  have htotal := Nat.div_add_mod' o.micros.natAbs microsPerSecond
  have hmicros : (if o.micros.natAbs / microsPerSecond = 0 then (0 : Int)
      else (o.micros.natAbs / microsPerSecond : Nat) * microsPerSecond + o.numbers.micro) =
        o.micros.natAbs := by
    split
    · rename_i hzero
      rcases h with rfl | hlarge
      · rfl
      · exact absurd hlarge (Nat.not_le_of_lt ((Nat.div_eq_zero_iff_lt (by decide)).1 hzero))
    · rw [hmicro]
      exact_mod_cast htotal
  simp only [Iso.offsetMicros, hseconds, hmicros, sign]
  by_cases hneg : o.micros < 0
  · simp only [if_pos hneg, beq_self_eq_true, if_true]
    omega
  · have hplus : ('+' == '-') = false := rfl
    simp only [if_neg hneg, hplus, Bool.false_eq_true, if_false]
    omega

end Offset

theorem isZoneMark_of_isDigit {c : Char} (h : c.isDigit = true) : Iso.isZoneMark c = false := by
  rw [Bool.eq_false_iff]
  intro hmark
  simp only [Iso.isZoneMark, Bool.or_eq_true, beq_iff_eq] at hmark
  rcases hmark with (rfl | rfl) | rfl <;> cases h

/-- A character of a text that clocks and calendars show. -/
def IsShown (c : Char) : Prop := c.isDigit = true ∨ c ∈ ['+', '-', ':', '.']

instance (c : Char) : Decidable (IsShown c) :=
  inferInstanceAs (Decidable (c.isDigit = true ∨ c ∈ ['+', '-', ':', '.']))

theorem mem_fractionText {micro : Nat} {c : Char} (h : c ∈ fractionText micro) :
    c.isDigit = true ∨ c = '.' := by
  unfold fractionText at h
  split at h
  · cases h
  · rcases List.mem_cons.1 h with rfl | hdigit
    · exact Or.inr rfl
    · exact Or.inl (Text.isDigit_of_mem_padded hdigit)

theorem colonsApart_fractionText (micro : Nat) : Text.ColonsApart (fractionText micro) := by
  refine Text.colonsApart_of_notMem fun hmem => ?_
  rcases mem_fractionText hmem with hdigit | hpoint
  · cases hdigit
  · cases hpoint

theorem isDigit_last_fractionText (micro : Nat) :
    ∀ c ∈ (fractionText micro).getLast?, c.isDigit = true := by
  intro c hc
  unfold fractionText at hc
  split at hc
  · cases hc
  · have hne : Text.padded 6 micro ≠ [] := Text.padded_ne_nil 6 micro
    rw [List.getLast?_cons_of_ne_nil hne] at hc
    exact Text.isDigit_of_mem_padded (List.mem_of_getLast? hc)

namespace WallTime

variable {w : WallTime} {c : Char}

theorem mem_clockText (h : c ∈ w.clockText) : c.isDigit = true ∨ c = ':' ∨ c = '.' := by
  simp only [clockText, List.mem_append, List.mem_cons] at h
  rcases h with h | rfl | h | rfl | h | h
  · exact Or.inl (Text.isDigit_of_mem_padded h)
  · exact Or.inr (Or.inl rfl)
  · exact Or.inl (Text.isDigit_of_mem_padded h)
  · exact Or.inr (Or.inl rfl)
  · exact Or.inl (Text.isDigit_of_mem_padded h)
  · exact (mem_fractionText h).imp_right Or.inr

theorem isZoneMark_of_mem_clockText (h : c ∈ w.clockText) : Iso.isZoneMark c = false := by
  rcases mem_clockText h with hdigit | rfl | rfl
  · exact isZoneMark_of_isDigit hdigit
  · rfl
  · rfl

theorem mem_marked {mark : Char} (h : c ∈ w.marked mark) : c = mark ∨ IsShown c := by
  rw [marked_eq, Iso.dateText] at h
  simp only [List.mem_append, List.mem_cons] at h
  rcases h with (h | rfl | h | rfl | h) | rfl | h
  · exact Or.inr (Or.inl (Text.isDigit_of_mem_padded h))
  · exact Or.inr (Or.inr (by decide))
  · exact Or.inr (Or.inl (Text.isDigit_of_mem_padded h))
  · exact Or.inr (Or.inr (by decide))
  · exact Or.inr (Or.inl (Text.isDigit_of_mem_padded h))
  · exact Or.inl rfl
  · rcases mem_clockText h with h | rfl | rfl
    · exact Or.inr (Or.inl h)
    · exact Or.inr (Or.inr (by decide))
    · exact Or.inr (Or.inr (by decide))

theorem colonsApart_marked {mark : Char} (hmark : mark ≠ ':') (w : WallTime) :
    Text.ColonsApart (w.marked mark) := by
  have hclock : Text.ColonsApart w.clockText :=
    ((((colonsApart_fractionText _).colon_padded_append 2 _).colon_padded_append 2 _).padded_append
      2 _)
  have hdate : ':' ∉ Iso.dateText w.year w.month w.dayOfMonth := by
    simp [Iso.dateText, Text.colon_notMem_padded]
  rw [marked_eq]
  refine (Text.colonsApart_of_notMem hdate).append ?_ (Or.inr (by simpa using hmark))
  exact List.isChain_cons.2 ⟨fun _ _ hcolon => absurd hcolon hmark, hclock⟩

theorem isDigit_last_marked (mark : Char) (w : WallTime) :
    ∀ c ∈ (w.marked mark).getLast?, c.isDigit = true := by
  have hseconds := Text.isDigit_last_padded_append 2 w.second (isDigit_last_fractionText w.micro)
  have hne : Text.padded 2 w.second ++ fractionText w.micro ≠ [] :=
    List.append_ne_nil_of_left_ne_nil (Text.padded_ne_nil 2 w.second) _
  rw [marked, List.append_assoc, List.getLast?_append_of_ne_nil _ hne]
  exact hseconds

end WallTime

namespace Offset

theorem mem_iso {o : Offset} {c : Char} (h : c ∈ o.iso) : IsShown c := by
  rw [iso_eq, clockText] at h
  simp only [List.mem_append, List.mem_cons] at h
  rcases h with rfl | h | rfl | h | h | h
  · rcases o.sign_eq_or with hsign | hsign <;> exact Or.inr (by rw [hsign]; decide)
  · exact Or.inl (Text.isDigit_of_mem_padded h)
  · exact Or.inr (by decide)
  · exact Or.inl (Text.isDigit_of_mem_padded h)
  · split at h
    · cases h
    · rcases List.mem_cons.1 h with rfl | h
      · exact Or.inr (by decide)
      · exact Or.inl (Text.isDigit_of_mem_padded h)
  · rcases mem_fractionText h with h | rfl
    · exact Or.inl h
    · exact Or.inr (by decide)

theorem colonsApart_iso (o : Offset) : Text.ColonsApart o.iso := by
  have hfraction := colonsApart_fractionText o.numbers.micro
  have hclock : Text.ColonsApart o.clockText := by
    rw [clockText]
    split
    · exact (hfraction.colon_padded_append 2 _).padded_append 2 _
    · exact ((hfraction.colon_padded_append 2 _).colon_padded_append 2 _).padded_append 2 _
  rw [iso_eq]
  refine List.isChain_cons.2 ⟨fun _ _ hcolon => ?_, hclock⟩
  rcases o.sign_eq_or with hsign | hsign <;> rw [hsign] at hcolon <;> cases hcolon

end Offset

namespace Stamp

/-- A stamp as its text shows it, which tells the offset and not the clock that it comes from. -/
def shown (s : Stamp) : Stamp := ⟨s.wall, s.offset.map .steady⟩

@[simp]
theorem offset_shown (s : Stamp) : s.shown.offset = s.offset := by
  rw [shown, offset_steady]

variable {mark c : Char} {s : Stamp}

theorem marked_eq (mark : Char) (s : Stamp) :
    s.marked mark = s.wall.marked mark ++ s.offset.elim [] Offset.iso := by
  rw [marked]
  cases s.offset <;> rfl

theorem mem_marked (h : c ∈ s.marked mark) : c = mark ∨ IsShown c := by
  rw [marked_eq] at h
  rcases List.mem_append.1 h with hwall | hoffset
  · exact WallTime.mem_marked hwall
  · cases hzone : s.offset with
    | none => simp [hzone] at hoffset
    | some o => exact Or.inr (Offset.mem_iso (hzone ▸ hoffset))

theorem mark_mem_marked (mark : Char) (s : Stamp) : mark ∈ s.marked mark := by
  simp [marked_eq, WallTime.marked_eq]

theorem isBlank_of_mem_iso (h : c ∈ s.iso) : Text.isBlank c = false := by
  rcases mem_marked h with rfl | hdigit | hmark
  · rfl
  · exact Text.isBlank_of_isDigit hdigit
  · simp only [List.mem_cons, List.not_mem_nil, or_false] at hmark
    rcases hmark with rfl | rfl | rfl | rfl <;> rfl

theorem isTrimmed_iso (s : Stamp) : Text.IsTrimmed s.iso :=
  Text.isTrimmed_of_forall fun _ => isBlank_of_mem_iso

theorem notMem_iso (hmark : c ≠ 'T') (hshown : ¬ IsShown c) (s : Stamp) : c ∉ s.iso :=
  fun hmem => (mem_marked hmem).elim hmark hshown

theorem colonsApart_marked (hmark : mark ≠ ':') (s : Stamp) : Text.ColonsApart (s.marked mark) := by
  rw [marked_eq]
  cases s.offset with
  | none =>
      rw [Option.elim_none, List.append_nil]
      exact WallTime.colonsApart_marked hmark s.wall
  | some o =>
      refine (WallTime.colonsApart_marked hmark s.wall).append o.colonsApart_iso (Or.inr ?_)
      rw [Option.elim_some, Offset.iso_eq]
      rcases o.sign_eq_or with hsign | hsign <;> simp [hsign]

end Stamp

/-- A stamp is read back from its text, whatever character stands between its date and its time. -/
theorem Iso.read_marked (mark : Char) {s : Stamp} (h : ∀ o ∈ s.offset, o.IsSpelled) :
    Iso.read (s.marked mark) = .ok s.shown := by
  have htime : Iso.readTime (s.wall.clockText ++ s.offset.elim [] Offset.iso) =
      some (s.wall.clockNumbers, s.offset.map Offset.micros) := by
    have hmarks : ∀ c ∈ s.wall.clockText, Iso.isZoneMark c = false := fun _ hc =>
      WallTime.isZoneMark_of_mem_clockText hc
    cases hoffset : s.offset with
    | none =>
        rw [Option.elim_none, List.append_nil]
        exact Iso.readTime_clock hmarks s.wall.readClock_clockText
    | some o =>
        rw [Option.elim_some, o.iso_eq,
          Iso.readTime_offset hmarks s.wall.readClock_clockText o.sign_eq_or o.readClock_clockText,
          Offset.offsetMicros_numbers (h o hoffset)]
        rfl
  have hnumbers : Iso.readNumbers (s.marked mark) = some ⟨s.wall.year, s.wall.month,
      s.wall.dayOfMonth, s.wall.clockNumbers, s.offset.map Offset.micros⟩ := by
    rw [Stamp.marked_eq, WallTime.readNumbers_marked_append, htime]
    rfl
  rw [Iso.read, hnumbers]
  exact s.wall.check_numbers s.offset

end Calendar

/-- A stamp is read back from its text with white space around it. -/
theorem NominalTime.readStamp_append_iso {lead tail : Text} (hlead : Text.blank lead = true)
    (htail : Text.blank tail = true) {s : Calendar.Stamp} (h : ∀ o ∈ s.offset, o.IsSpelled) :
    readStamp (lead ++ (s.iso ++ tail)) = .ok s.shown := by
  have hmark : 'T' ∈ s.iso := s.mark_mem_marked 'T'
  have hzulu : expandZulu s.iso = s.iso := by
    refine if_neg fun hlast => ?_
    exact s.notMem_iso (by decide) (by decide) (List.mem_of_getLast? hlast)
  have hread : Calendar.Iso.read s.iso = .ok s.shown := Calendar.Iso.read_marked 'T' h
  simp only [readStamp, Text.trim_append_of_blank hlead s.isTrimmed_iso htail, hmark, hzulu, hread,
    not_true_eq_false, if_false]

end ActionQuery
