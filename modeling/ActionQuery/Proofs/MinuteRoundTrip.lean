import ActionQuery.Proofs.StampRoundTrip
import ActionQuery.Proofs.TimeRefusal

/-!
# Times to the minute

The short text of a time, as a scope has it, drops what is smaller than a minute and the zeros in
front of the year. So it is read back to the minute, and before the year 1000 not at all. The other
way round, a text of the short form is printed again from the time that is read from it: the date of
a day is the date that the day was made of.
-/

namespace ActionQuery

open Calendar (Clock Date Instant Offset Stamp WallTime noFraction)

namespace Calendar

def microsPerMinute : Nat := 60 * microsPerSecond

namespace WallTime

/-- What is smaller than a minute is dropped. -/
def toMinute (w : WallTime) : WallTime where
  micros := w.micros - w.micros % microsPerMinute
  micros_lt := Nat.lt_of_le_of_lt (Nat.sub_le _ _) w.micros_lt

def minuteClock (w : WallTime) : Clock where
  hour := w.hour
  minute := w.minute
  second := 0
  micro := 0
  hour_lt := w.hour_lt
  minute_lt := w.clock.minute_lt
  second_lt := Clock.midnight.second_lt
  micro_lt := Clock.midnight.micro_lt

theorem on_date_minuteClock (w : WallTime) : on w.date w.minuteClock = w.toMinute := by
  have hnumber : w.date.number = w.day := Date.number_ofNumber w.day_lt
  have htime : w.timeOfDay < microsPerDay := Nat.mod_lt _ (by decide)
  have hmicros : w.day * microsPerDay + w.timeOfDay = w.micros := Nat.div_add_mod' _ _
  apply eq_of_micros
  change w.date.number * microsPerDay + w.minuteClock.micros = w.micros - w.micros % microsPerMinute
  rw [hnumber]
  simp only [Clock.micros, minuteClock, hour, minute, microsPerMinute, microsPerDay,
    microsPerSecond] at *
  omega

end WallTime

namespace Iso

variable {year month day : Nat} {n : ClockNumbers}

theorem check_minutes_eq_ok_iff {hour minute : Nat} {s : Stamp} :
    Numbers.check ⟨year, month, day, ⟨hour, minute, 0, noFraction⟩, some 0⟩ = .ok s ↔
      ∃ d c, (d.year = year ∧ d.month = month ∧ d.day = day) ∧
        (c.hour = hour ∧ c.minute = minute ∧ c.second = 0 ∧ c.micro = 0) ∧
        s = ⟨WallTime.on d c, some (.steady Offset.utc)⟩ := by
  have hoffset (o : Option Offset) : checkOffset (some 0) = .ok o ↔ o = some Offset.utc :=
    (Except.ok.injEq _ _).to_iff.trans eq_comm
  simp only [check_eq_ok_iff, hoffset, checkDate_eq_ok_iff, checkClock_eq_ok_iff]
  constructor
  · rintro ⟨_, d, c, rfl, hdate, hclock, rfl⟩
    exact ⟨d, c, hdate, hclock, rfl⟩
  · rintro ⟨d, c, hdate, hclock, rfl⟩
    exact ⟨_, d, c, rfl, hdate, hclock, rfl⟩

/-- A text that does not start with the digits of a year has no numbers. -/
theorem readNumbers_of_readDigits {t : Text} (h : Text.readDigits 4 t = none) :
    readNumbers t = none := by
  have hdate (place : Nat) : readDate (t.take place) = none := by
    have hdigits : Text.readDigits 4 (t.take place) = none := by
      rw [Option.eq_none_iff_forall_ne_some]
      rintro ⟨value, rest⟩ hread
      obtain ⟨digits, htake, hlength, hall, hvalue⟩ := Text.readDigits_eq_some_iff.1 hread
      have htext : t = digits ++ (rest ++ t.drop place) := by
        rw [← List.append_assoc, ← htake, List.take_append_drop]
      rw [Text.readDigits_eq_some_iff.2 ⟨digits, htext, hlength, hall, hvalue⟩] at h
      cases h
    rw [readDate, hdigits]
  unfold readNumbers
  split
  · rfl
  · rw [hdate]

end Iso

end Calendar

namespace NominalTime

/-- Date, hour and minute in the form of a scope, as they stand in front of the zone. -/
def minuteText (year month day hour minute : Text) : Text :=
  year ++ '-' :: (month ++ '-' :: (day ++ 'T' :: (hour ++ ':' :: minute)))

theorem format_eq (i : Instant) :
    format i = minuteText (Text.ofNat i.utc.year) (Text.padded 2 i.utc.month)
      (Text.padded 2 i.utc.dayOfMonth) (Text.padded 2 i.utc.hour)
      (Text.padded 2 i.utc.minute) ++ ['Z'] := by
  simp [format, minuteText]

section Minutes

variable {year month day hour minute : Text}

theorem isBlank_of_mem_minuteText
    (hdigits : ∀ part ∈ [year, month, day, hour, minute], ∀ c ∈ part, c.isDigit = true) :
    ∀ c ∈ minuteText year month day hour minute ++ ['Z'], Text.isBlank c = false := by
  intro c hc
  simp only [minuteText, List.mem_append, List.mem_cons, List.not_mem_nil, or_false] at hc
  simp only [List.forall_mem_cons, List.not_mem_nil, false_implies, implies_true, and_true]
    at hdigits
  obtain ⟨hyear, hmonth, hday, hhour, hminute⟩ := hdigits
  rcases hc with (h | rfl | h | rfl | h | rfl | h | rfl | h) | rfl
  · exact Text.isBlank_of_isDigit (hyear c h)
  · rfl
  · exact Text.isBlank_of_isDigit (hmonth c h)
  · rfl
  · exact Text.isBlank_of_isDigit (hday c h)
  · rfl
  · exact Text.isBlank_of_isDigit (hhour c h)
  · rfl
  · exact Text.isBlank_of_isDigit (hminute c h)
  · rfl

theorem readStamp_minuteText
    (hdigits : ∀ part ∈ [year, month, day, hour, minute], ∀ c ∈ part, c.isDigit = true) :
    readStamp (minuteText year month day hour minute ++ ['Z']) =
      (Calendar.Iso.read (minuteText year month day hour minute ++ "+00:00".toList)).mapError
        (.notIso (minuteText year month day hour minute ++ "+00:00".toList)) := by
  have htrim := Text.trim_of_isTrimmed
    (Text.isTrimmed_of_forall (isBlank_of_mem_minuteText hdigits))
  have hmark : 'T' ∈ minuteText year month day hour minute ++ ['Z'] := by
    simp [minuteText]
  simp only [readStamp, htrim, hmark, not_true_eq_false, if_false, expandZulu_concat]
  cases Calendar.Iso.read (minuteText year month day hour minute ++ "+00:00".toList) <;> rfl

/-- Fewer than four digits are no year. -/
theorem read_minuteText_of_short (hlength : year.length < 4) (tail : Text) :
    Calendar.Iso.read (minuteText year month day hour minute ++ tail) = .error .malformed := by
  have hdigits : Text.readDigits 4 (minuteText year month day hour minute ++ tail) = none := by
    rw [Option.eq_none_iff_forall_ne_some]
    rintro ⟨value, rest⟩ hread
    obtain ⟨digits, htext, hfour, hall, _⟩ := Text.readDigits_eq_some_iff.1 hread
    have hdash : digits[year.length]? = some '-' := by
      have hplace := congrArg (·[year.length]?) htext
      simp only [minuteText, List.append_assoc, List.cons_append,
        List.getElem?_append_left (hfour ▸ hlength), List.getElem?_append_right (Nat.le_refl _),
        Nat.sub_self, List.getElem?_cons_zero] at hplace
      exact hplace.symm
    cases hall '-' (List.mem_of_getElem? hdash)
  rw [Calendar.Iso.read, Calendar.Iso.readNumbers_of_readDigits hdigits]

end Minutes

theorem read_minuteText {year month day hour minute : Nat} (hyear : year < 10000)
    (hmonth : month < 100) (hday : day < 100) (hhour : hour < 100) (hminute : minute < 100) :
    Calendar.Iso.read (minuteText (Text.padded 4 year) (Text.padded 2 month) (Text.padded 2 day)
        (Text.padded 2 hour) (Text.padded 2 minute) ++ "+00:00".toList) =
      Calendar.Iso.Numbers.check ⟨year, month, day, ⟨hour, minute, 0, noFraction⟩, some 0⟩ := by
  have hmarks : ∀ c ∈ Text.padded 2 hour ++ ':' :: Text.padded 2 minute,
      Calendar.Iso.isZoneMark c = false := by
    intro c hc
    rcases List.mem_append.1 hc with h | h
    · exact Calendar.isZoneMark_of_isDigit (Text.isDigit_of_mem_padded h)
    · rcases List.mem_cons.1 h with rfl | h
      · rfl
      · exact Calendar.isZoneMark_of_isDigit (Text.isDigit_of_mem_padded h)
  have hzone : Calendar.Iso.readClock (Text.padded 2 0 ++ ':' :: Text.padded 2 0) =
      some (⟨0, 0, 0, noFraction⟩, []) := Calendar.Iso.readClock_minutes (by decide) (by decide)
  have htime := Calendar.Iso.readTime_offset hmarks
    (Calendar.Iso.readClock_minutes hhour hminute) (Or.inl rfl) hzone
  have htext : minuteText (Text.padded 4 year) (Text.padded 2 month) (Text.padded 2 day)
        (Text.padded 2 hour) (Text.padded 2 minute) ++ "+00:00".toList =
      Calendar.Iso.dateText year month day ++ 'T' ::
        (Text.padded 2 hour ++ ':' :: Text.padded 2 minute ++
          '+' :: (Text.padded 2 0 ++ ':' :: Text.padded 2 0)) := by
    simp [minuteText, Calendar.Iso.dateText]
    rfl
  rw [Calendar.Iso.read, htext, Calendar.Iso.readNumbers_dateText hyear hmonth hday, htime]
  rfl

theorem readStamp_minuteText_eq_ok_iff {year month day hour minute : Nat} (hyear : year < 10000)
    (hmonth : month < 100) (hday : day < 100) (hhour : hour < 100) (hminute : minute < 100)
    {s : Stamp} :
    readStamp (minuteText (Text.padded 4 year) (Text.padded 2 month) (Text.padded 2 day)
        (Text.padded 2 hour) (Text.padded 2 minute) ++ ['Z']) = .ok s ↔
      ∃ d c, (d.year = year ∧ d.month = month ∧ d.day = day) ∧
        (c.hour = hour ∧ c.minute = minute ∧ c.second = 0 ∧ c.micro = 0) ∧
        s = ⟨WallTime.on d c, some (.steady Offset.utc)⟩ := by
  have hdigits : ∀ part ∈ [Text.padded 4 year, Text.padded 2 month, Text.padded 2 day,
      Text.padded 2 hour, Text.padded 2 minute], ∀ c ∈ part, c.isDigit = true := by
    simp only [List.forall_mem_cons, List.not_mem_nil, false_implies, implies_true, and_true]
    exact ⟨fun _ => Text.isDigit_of_mem_padded, fun _ => Text.isDigit_of_mem_padded,
      fun _ => Text.isDigit_of_mem_padded, fun _ => Text.isDigit_of_mem_padded,
      fun _ => Text.isDigit_of_mem_padded⟩
  rw [readStamp_minuteText hdigits, mapError_eq_ok_iff,
    read_minuteText hyear hmonth hday hhour hminute, Calendar.Iso.check_minutes_eq_ok_iff]

theorem formatStamp_of_position {s : Stamp} {i : Instant} (h : s.position = i.utc.micros) :
    formatStamp s = .ok (format i) := by
  have hutc : s.toUtc? = some i := WallTime.at?_eq_some_iff.2 h.symm
  rw [formatStamp, hutc]
  rfl

/-- From the year 1000 on, a time is printed with all four digits of its year. -/
theorem format_of_le {i : Instant} (h : 1000 ≤ i.utc.year) :
    format i = minuteText (Text.padded 4 i.utc.year) (Text.padded 2 i.utc.month)
      (Text.padded 2 i.utc.dayOfMonth) (Text.padded 2 i.utc.hour)
      (Text.padded 2 i.utc.minute) ++ ['Z'] := by
  have hlength : 4 ≤ (Text.ofNat i.utc.year).length := by
    apply Nat.lt_of_not_le
    intro hshort
    have hlt : i.utc.year < 10 ^ 3 :=
      (Nat.length_toDigits_le_iff (by decide) (by decide)).1 hshort
    omega
  rw [format_eq, Text.padded_of_le hlength]

/-- A time before the year 1000 is printed so that it is not read back. -/
theorem readStamp_format_of_lt {i : Instant} (h : i.utc.year < 1000) :
    ∃ e, readStamp (format i) = .error e := by
  have hlength : (Text.ofNat i.utc.year).length ≤ 3 :=
    (Nat.length_toDigits_le_iff (by decide) (by decide)).2 h
  have hdigits : ∀ part ∈ [Text.ofNat i.utc.year, Text.padded 2 i.utc.month,
      Text.padded 2 i.utc.dayOfMonth, Text.padded 2 i.utc.hour, Text.padded 2 i.utc.minute],
      ∀ c ∈ part, c.isDigit = true := by
    simp only [List.forall_mem_cons, List.not_mem_nil, false_implies, implies_true, and_true]
    exact ⟨fun _ => Text.isDigit_of_mem_ofNat, fun _ => Text.isDigit_of_mem_padded,
      fun _ => Text.isDigit_of_mem_padded, fun _ => Text.isDigit_of_mem_padded,
      fun _ => Text.isDigit_of_mem_padded⟩
  rw [format_eq, readStamp_minuteText hdigits,
    read_minuteText_of_short (Nat.lt_succ_of_le hlength)]
  exact ⟨_, rfl⟩

end NominalTime

namespace Session

variable {p : Session} {zone : Option Text} {text : Text}

theorem parse_of_steady_utc {w : WallTime}
    (hread : NominalTime.readStamp text = .ok ⟨w, some (.steady Offset.utc)⟩) :
    (p.parse text zone).1 = .ok ⟨w⟩ := by
  rw [parse_of_fixed hread rfl]
  exact toUtc_eq_ok_iff.2 (Int.sub_zero _).symm

theorem parse_of_readStamp_eq_error {e : NominalTime.Error}
    (h : NominalTime.readStamp text = .error e) :
    (p.parse text zone).1 = .error (.fault e.toFault) := by
  rw [parse_eq, h]
  rfl

theorem parse_minuteText_eq_ok_iff {year month day hour minute : Nat} (hyear : year < 10000)
    (hmonth : month < 100) (hday : day < 100) (hhour : hour < 100) (hminute : minute < 100)
    {i : Instant} :
    (p.parse (NominalTime.minuteText (Text.padded 4 year) (Text.padded 2 month) (Text.padded 2 day)
        (Text.padded 2 hour) (Text.padded 2 minute) ++ ['Z']) zone).1 = .ok i ↔
      ∃ d c, (d.year = year ∧ d.month = month ∧ d.day = day) ∧
        (c.hour = hour ∧ c.minute = minute ∧ c.second = 0 ∧ c.micro = 0) ∧
        i = ⟨WallTime.on d c⟩ := by
  constructor
  · intro h
    obtain ⟨s, _, hread, _⟩ := parse_eq_ok_iff.1 h
    obtain ⟨d, c, hdate, hclock, rfl⟩ :=
      (NominalTime.readStamp_minuteText_eq_ok_iff hyear hmonth hday hhour hminute).1 hread
    rw [parse_of_steady_utc hread] at h
    exact ⟨d, c, hdate, hclock, (Except.ok.inj h).symm⟩
  · rintro ⟨d, c, hdate, hclock, rfl⟩
    have hread := (NominalTime.readStamp_minuteText_eq_ok_iff hyear hmonth hday hhour hminute).2
      ⟨d, c, hdate, hclock, rfl⟩
    exact parse_of_steady_utc hread

theorem parse_format_of_le {i : Instant} (h : 1000 ≤ i.utc.year) :
    (p.parse (NominalTime.format i) zone).1 = .ok ⟨i.utc.toMinute⟩ := by
  have hhour : i.utc.hour < 100 := Nat.lt_trans i.utc.hour_lt (by decide)
  have hminute : i.utc.minute < 100 := Nat.lt_trans i.utc.clock.minute_lt (by decide)
  rw [NominalTime.format_of_le h, parse_minuteText_eq_ok_iff i.utc.year_lt i.utc.month_lt
    i.utc.dayOfMonth_lt hhour hminute]
  exact ⟨i.utc.date, i.utc.minuteClock, ⟨rfl, rfl, rfl⟩, ⟨rfl, rfl, rfl, rfl⟩,
    congrArg Instant.mk i.utc.on_date_minuteClock.symm⟩

theorem parse_format_of_lt {i : Instant} (h : i.utc.year < 1000) :
    ∃ e, (p.parse (NominalTime.format i) zone).1 = .error e ∧ e.toFault.kind = .unreadable := by
  obtain ⟨e, hread⟩ := NominalTime.readStamp_format_of_lt h
  exact ⟨_, parse_of_readStamp_eq_error hread, NominalTime.kind_of_readStamp hread⟩

/-- What is read from a text of the short form is printed as that text. -/
theorem format_of_parse {year month day hour minute : Text} (hyear : Text.IsNumeral 4 year)
    (hmonth : Text.IsNumeral 2 month) (hday : Text.IsNumeral 2 day) (hhour : Text.IsNumeral 2 hour)
    (hminute : Text.IsNumeral 2 minute) (hlarge : 1000 ≤ Text.digitsValue year) {i : Instant}
    (h : (p.parse (NominalTime.minuteText year month day hour minute ++ ['Z']) zone).1 = .ok i) :
    NominalTime.format i = NominalTime.minuteText year month day hour minute ++ ['Z'] := by
  rw [← hyear.padded_eq (by decide), ← hmonth.padded_eq (by decide),
    ← hday.padded_eq (by decide), ← hhour.padded_eq (by decide),
    ← hminute.padded_eq (by decide)] at h ⊢
  obtain ⟨d, c, ⟨hy, hm, hd⟩, ⟨hh, hmin, _⟩, rfl⟩ :=
    (parse_minuteText_eq_ok_iff hyear.digitsValue_lt hmonth.digitsValue_lt hday.digitsValue_lt
      hhour.digitsValue_lt hminute.digitsValue_lt).1 h
  have hyear_on : (WallTime.on d c).year = Text.digitsValue year := by
    rw [WallTime.year_on, hy]
  rw [NominalTime.format_of_le (hyear_on ▸ hlarge), hyear_on, WallTime.month_on,
    WallTime.dayOfMonth_on, WallTime.hour_on, WallTime.minute_on, hm, hd, hh, hmin]

/-- The short text of a time is read back to the minute exactly if its year in UTC has four digits,
and it is refused if the year has fewer. A text of the short form with such a year is printed again
from the time that is read from it. -/
theorem format_and_parse (p : Session) (zone : Option Text) :
    (∀ (s : Stamp) (i : Instant), s.position = i.utc.micros →
      ∃ text, NominalTime.formatStamp s = .ok text ∧
        ((p.parse text zone).1 = .ok ⟨i.utc.toMinute⟩ ↔ 1000 ≤ i.utc.year) ∧
        (i.utc.year < 1000 →
          ∃ e, (p.parse text zone).1 = .error e ∧ e.toFault.kind = .unreadable)) ∧
    ∀ year month day hour minute, Text.IsNumeral 4 year → Text.IsNumeral 2 month →
      Text.IsNumeral 2 day → Text.IsNumeral 2 hour → Text.IsNumeral 2 minute →
      1000 ≤ Text.digitsValue year → ∀ i,
        (p.parse (NominalTime.minuteText year month day hour minute ++ ['Z']) zone).1 = .ok i →
        NominalTime.formatStamp i.toStamp =
          .ok (NominalTime.minuteText year month day hour minute ++ ['Z']) := by
  constructor
  · intro s i hposition
    refine ⟨NominalTime.format i, NominalTime.formatStamp_of_position hposition, ?_,
      parse_format_of_lt⟩
    constructor
    · intro hread
      apply Nat.le_of_not_lt
      intro hlt
      obtain ⟨e, herror, _⟩ := @parse_format_of_lt p zone i hlt
      rw [hread] at herror
      cases herror
    · exact parse_format_of_le
  · intro year month day hour minute hyear hmonth hday hhour hminute hlarge i hread
    rw [NominalTime.formatStamp_of_position i.position_toStamp,
      format_of_parse hyear hmonth hday hhour hminute hlarge hread]

def firstMoment : WallTime := ⟨0, by decide⟩

theorem format_and_parse_leapDay :
    (NominalTime.formatStamp ⟨leapEvening, some (.steady west)⟩ = .ok "2000-03-01T00:00Z".toList ∧
      (initial.parse "2000-03-01T00:00Z" none).1 = .ok ⟨leapNight.utc.toMinute⟩) ∧
    (NominalTime.formatStamp ⟨leapEvening, none⟩ = .ok "2000-02-29T23:30Z".toList ∧
      (initial.parse "2000-02-29T23:30Z" none).1 = .ok ⟨leapEvening.toMinute⟩ ∧
      NominalTime.formatStamp (Instant.mk leapEvening.toMinute).toStamp =
        .ok "2000-02-29T23:30Z".toList) ∧
    NominalTime.formatStamp ⟨firstMoment, none⟩ = .ok "1-01-01T00:00Z".toList ∧
      ∃ e, (initial.parse "1-01-01T00:00Z" none).1 = .error e ∧ e.toFault.kind = .unreadable := by
  obtain ⟨hprinted, hread⟩ := format_and_parse initial none
  refine ⟨?_, ?_, ?_⟩
  · obtain ⟨text, htext, hiff, _⟩ :=
      hprinted ⟨leapEvening, some (.steady west)⟩ leapNight (by decide)
    have hshort : NominalTime.formatStamp ⟨leapEvening, some (.steady west)⟩ =
        .ok "2000-03-01T00:00Z".toList := by decide
    rw [hshort] at htext
    cases htext
    exact ⟨hshort, hiff.2 (by decide)⟩
  · obtain ⟨text, htext, hiff, _⟩ := hprinted ⟨leapEvening, none⟩ ⟨leapEvening⟩ (by decide)
    have hshort : NominalTime.formatStamp ⟨leapEvening, none⟩ =
        .ok "2000-02-29T23:30Z".toList := by decide
    rw [hshort] at htext
    cases htext
    have hparse := hiff.2 (by decide)
    exact ⟨hshort, hparse, hread "2000" "02" "29" "23" "30" (by decide) (by decide) (by decide)
      (by decide) (by decide) (by decide) _ hparse⟩
  · obtain ⟨text, htext, _, hearly⟩ := hprinted ⟨firstMoment, none⟩ ⟨firstMoment⟩ (by decide)
    have hshort : NominalTime.formatStamp ⟨firstMoment, none⟩ = .ok "1-01-01T00:00Z".toList := by
      decide
    rw [hshort] at htext
    cases htext
    exact ⟨hshort, hearly (by decide)⟩

end Session

end ActionQuery
