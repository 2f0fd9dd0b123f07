import ActionQuery.Calendar.Stamp

/-!
# Days and dates

The date of a day is found by a guess at its year, which is mended by one year at most, and then
month by month. It is the one date whose number is that day, so what a clock shows on a calendar is
a date and a time of day: it is made up again from the two, and shows the two that it was made of.
-/

namespace ActionQuery.Calendar

/-- In 400 years there are 146097 days. Within these the count runs ahead of its mean by the leap
days that a century skips, and behind it by those that are still to come. -/
theorem daysBeforeYear_mean (past : Nat) :
    400 * daysBeforeYear (past + 1) + 100 * (past % 4) + past % 400 =
      146097 * past + 4 * (past % 100) := by
  simp only [daysBeforeYear, Nat.add_sub_cancel]
  omega

/-- The count is never more than two days away from its mean. -/
theorem daysBeforeYear_bounds (past : Nat) :
    146097 * past ≤ 400 * daysBeforeYear (past + 1) + 800 ∧
      400 * daysBeforeYear (past + 1) ≤ 146097 * past + 800 := by
  have hmean := daysBeforeYear_mean past
  have hfour := Nat.mod_lt past (show 0 < 4 by decide)
  have hcentury := Nat.mod_lt past (show 0 < 100 by decide)
  have hcycle := Nat.mod_lt past (show 0 < 400 by decide)
  generalize past % 4 = a at *
  generalize past % 100 = b at *
  generalize past % 400 = c at *
  omega

theorem daysBeforeYear_yearOfDay (n : Nat) :
    1 ≤ yearOfDay n ∧ daysBeforeYear (yearOfDay n) ≤ n ∧
      n < daysBeforeYear (yearOfDay n + 1) := by
  have hlower : 146097 * (n * 400 / 146097) ≤ n * 400 := Nat.mul_div_le _ _
  have hupper : n * 400 < 146097 * (n * 400 / 146097 + 1) :=
    Nat.lt_mul_div_succ _ (by decide)
  have hfirst : daysBeforeYear 1 = 0 := rfl
  simp only [yearOfDay]
  generalize n * 400 / 146097 = past at *
  split
  · rename_i hlate
    have hpast : past ≠ 0 := by
      rintro rfl
      exact Nat.not_lt_zero n (hfirst ▸ hlate)
    obtain ⟨earlier, rfl⟩ := Nat.exists_eq_succ_of_ne_zero hpast
    have hbefore := (daysBeforeYear_bounds earlier).2
    simp only [Nat.succ_eq_add_one, Nat.add_sub_cancel] at *
    omega
  · split
    · have hafter : 146097 * (past + 2) ≤ 400 * daysBeforeYear (past + 1 + 1 + 1) + 800 :=
        (daysBeforeYear_bounds (past + 2)).1
      omega
    · omega

/-- The year of a day of the calendar is a year of it. -/
theorem yearOfDay_le {n : Nat} (h : n < spanDays) : yearOfDay n ≤ lastYear := by
  obtain ⟨_, hle, _⟩ := daysBeforeYear_yearOfDay n
  refine Nat.le_of_not_lt fun hlast => ?_
  have hspan : spanDays ≤ daysBeforeYear (yearOfDay n) :=
    daysBeforeYear_mono (Nat.succ_pos lastYear) hlast
  omega

theorem daysBeforeMonth_succ (year : Nat) {month : Nat} (h : 1 ≤ month) :
    daysBeforeMonth year (month + 1) = daysBeforeMonth year month + monthLength year month := by
  obtain ⟨earlier, rfl⟩ := Nat.exists_eq_add_of_le' h
  rfl

theorem daysBeforeMonth_thirteen (year : Nat) :
    daysBeforeMonth year 13 = 365 + (isLeap year).toNat := by
  cases h : isLeap year <;> simp [daysBeforeMonth, monthLength, h]

/-- A month and a day in it, at the `n`-th place of the year. -/
structure Falls (year n : Nat) (found : Nat × Nat) : Prop where
  day_pos : 1 ≤ found.2
  day_le : found.2 ≤ monthLength year found.1
  place : daysBeforeMonth year found.1 + (found.2 - 1) = n

/-- Among consecutive months, the one that is found is the one in which the day lies. -/
theorem falls_monthAndDay {year count first n : Nat} (hfirst : 1 ≤ first)
    (h : daysBeforeMonth year first + n < daysBeforeMonth year (first + count)) :
    let found := monthAndDay year (List.range' first count) n
    (first ≤ found.1 ∧ found.1 < first + count) ∧
      Falls year (daysBeforeMonth year first + n) found := by
  induction count generalizing first n with
  | zero =>
      rw [Nat.add_zero] at h
      omega
  | succ count ih =>
      rw [List.range'_succ, monthAndDay]
      split
      · rename_i hin
        exact ⟨⟨Nat.le_refl _, by omega⟩, ⟨Nat.succ_pos n, hin, rfl⟩⟩
      · rename_i hout
        have hnext := daysBeforeMonth_succ year hfirst
        have hplace : daysBeforeMonth year (first + 1) + (n - monthLength year first) =
            daysBeforeMonth year first + n := by omega
        have hcount : first + 1 + count = first + (count + 1) := by omega
        obtain ⟨⟨hlower, hupper⟩, hfalls⟩ :=
          ih (Nat.le_succ_of_le hfirst) (by rwa [hplace, hcount])
        rw [hplace] at hfalls
        exact ⟨⟨Nat.le_of_succ_le hlower, hcount ▸ hupper⟩, hfalls⟩

theorem civil_spec {n : Nat} (h : n < spanDays) :
    (1 ≤ (civil n).1 ∧ (civil n).1 ≤ lastYear) ∧ (1 ≤ (civil n).2.1 ∧ (civil n).2.1 ≤ 12) ∧
      Falls (civil n).1 (n - daysBeforeYear (civil n).1) (civil n).2 := by
  obtain ⟨hpos, hle, hlt⟩ := daysBeforeYear_yearOfDay n
  have hnext := daysBeforeYear_succ hpos
  have hlast := daysBeforeMonth_thirteen (yearOfDay n)
  have hfirst : daysBeforeMonth (yearOfDay n) 1 = 0 := rfl
  have hin : daysBeforeMonth (yearOfDay n) 1 + (n - daysBeforeYear (yearOfDay n)) <
      daysBeforeMonth (yearOfDay n) (1 + 12) := by
    rw [hfirst, Nat.zero_add, Nat.add_comm 1 12, hlast]
    omega
  obtain ⟨⟨hlower, hupper⟩, hfalls⟩ := falls_monthAndDay (Nat.le_refl 1) hin
  rw [hfirst, Nat.zero_add] at hfalls
  exact ⟨⟨hpos, yearOfDay_le h⟩, ⟨hlower, Nat.le_of_lt_succ hupper⟩, hfalls⟩

/-- The date of a day of the calendar. -/
def Date.ofNumber (n : Nat) (h : n < spanDays) : Date where
  year := (civil n).1
  month := (civil n).2.1
  day := (civil n).2.2
  year_pos := (civil_spec h).1.1
  year_le := (civil_spec h).1.2
  month_pos := (civil_spec h).2.1.1
  month_le := (civil_spec h).2.1.2
  day_pos := (civil_spec h).2.2.day_pos
  day_le := (civil_spec h).2.2.day_le

theorem Date.number_ofNumber {n : Nat} (h : n < spanDays) : (ofNumber n h).number = n := by
  have hle : daysBeforeYear (civil n).1 ≤ n := (daysBeforeYear_yearOfDay n).2.1
  calc (ofNumber n h).number
      = daysBeforeYear (civil n).1 + daysBeforeMonth (civil n).1 (civil n).2.1 +
          ((civil n).2.2 - 1) := rfl
    _ = daysBeforeYear (civil n).1 + (n - daysBeforeYear (civil n).1) := by
        rw [Nat.add_assoc, (civil_spec h).2.2.place]
    _ = n := Nat.add_sub_cancel' hle

/-- A day is in the year among whose days it is. -/
theorem yearOfDay_eq {n year : Nat} (hle : daysBeforeYear year ≤ n)
    (hlt : n < daysBeforeYear (year + 1)) : yearOfDay n = year := by
  obtain ⟨hfound, hlower, hupper⟩ := daysBeforeYear_yearOfDay n
  apply Nat.le_antisymm
  · apply Nat.le_of_not_lt
    intro hlate
    have hmono : daysBeforeYear (year + 1) ≤ daysBeforeYear (yearOfDay n) :=
      daysBeforeYear_mono (Nat.succ_pos year) hlate
    omega
  · apply Nat.le_of_not_lt
    intro hearly
    have hmono : daysBeforeYear (yearOfDay n + 1) ≤ daysBeforeYear year :=
      daysBeforeYear_mono (Nat.succ_pos _) hearly
    omega

theorem daysBeforeMonth_mono (year : Nat) {first second : Nat} (hpos : 1 ≤ first)
    (h : first ≤ second) : daysBeforeMonth year first ≤ daysBeforeMonth year second := by
  induction h with
  | refl => exact Nat.le_refl _
  | step hle ih =>
      have hnext := daysBeforeMonth_succ year (Nat.le_trans hpos hle)
      rw [Nat.succ_eq_add_one]
      omega

theorem Falls.month_le {year n : Nat} {found other : Nat × Nat} (hfound : Falls year n found)
    (hother : Falls year n other) (hpos : 1 ≤ other.1) : found.1 ≤ other.1 := by
  apply Nat.le_of_not_lt
  intro hlate
  have hnext := daysBeforeMonth_succ year hpos
  have hmono : daysBeforeMonth year (other.1 + 1) ≤ daysBeforeMonth year found.1 :=
    daysBeforeMonth_mono year (Nat.succ_pos other.1) hlate
  have hplace := hfound.place
  have hother_place := hother.place
  have hlast := hother.day_le
  have hfirst := hother.day_pos
  omega

/-- Every place of a year is one day of one month. -/
theorem Falls.unique {year n : Nat} {found other : Nat × Nat} (hfound : Falls year n found)
    (hother : Falls year n other) (hpos : 1 ≤ found.1) (hother_pos : 1 ≤ other.1) :
    found = other := by
  have hmonth : found.1 = other.1 :=
    Nat.le_antisymm (hfound.month_le hother hother_pos) (hother.month_le hfound hpos)
  have hplace := hfound.place
  have hother_place := hother.place
  have hday := hfound.day_pos
  have hother_day := hother.day_pos
  rw [hmonth] at hplace
  apply Prod.ext hmonth
  omega

/-- The date of the day of a date is that date. -/
theorem civil_number (d : Date) : civil d.number = (d.year, d.month, d.day) := by
  have hmonths : daysBeforeMonth d.year d.month + monthLength d.year d.month ≤
      365 + (isLeap d.year).toNat :=
    daysBeforeMonth_add_monthLength_le d.month_pos d.month_le
  have hnext := daysBeforeYear_succ d.year_pos
  have hday := d.day_pos
  have hlast := d.day_le
  have hnumber : d.number =
      daysBeforeYear d.year + daysBeforeMonth d.year d.month + (d.day - 1) := rfl
  have hyear : (civil d.number).1 = d.year := by
    apply yearOfDay_eq <;> omega
  have hself : Falls d.year (d.number - daysBeforeYear d.year) (d.month, d.day) := by
    refine ⟨hday, hlast, ?_⟩
    change daysBeforeMonth d.year d.month + (d.day - 1) = _
    omega
  obtain ⟨_, hmonth, hfalls⟩ := civil_spec d.number_lt
  rw [hyear] at hfalls
  exact Prod.ext hyear (hfalls.unique hself hmonth.1 d.month_pos)

namespace WallTime

theorem eq_of_micros {v w : WallTime} (h : v.micros = w.micros) : v = w := by
  cases v
  cases w
  cases h
  rfl

theorem day_lt (w : WallTime) : w.day < spanDays :=
  Nat.div_lt_of_lt_mul (Nat.mul_comm spanDays microsPerDay ▸ w.micros_lt)

def date (w : WallTime) : Date := .ofNumber w.day w.day_lt

theorem hour_lt (w : WallTime) : w.hour < 24 := by
  have htime : w.timeOfDay < microsPerDay := Nat.mod_lt _ (by decide)
  simp only [hour, microsPerDay, microsPerSecond] at *
  omega

def clock (w : WallTime) : Clock where
  hour := w.hour
  minute := w.minute
  second := w.second
  micro := w.micro
  hour_lt := w.hour_lt
  minute_lt := Nat.mod_lt _ (by decide)
  second_lt := Nat.mod_lt _ (by decide)
  micro_lt := Nat.mod_lt _ (by decide)

theorem clock_micros (w : WallTime) : w.clock.micros = w.timeOfDay := by
  simp only [Clock.micros, clock, hour, minute, second, micro, microsPerSecond]
  omega

/-- A wall time is its date and its time of day. -/
theorem on_date_clock (w : WallTime) : on w.date w.clock = w := by
  apply eq_of_micros
  calc (on w.date w.clock).micros
      = w.date.number * microsPerDay + w.clock.micros := rfl
    _ = w.day * microsPerDay + w.timeOfDay := by rw [date, Date.number_ofNumber, clock_micros]
    _ = w.micros := Nat.div_add_mod' _ _

section On

variable (d : Date) (c : Clock)

theorem day_on : (on d c).day = d.number := by
  have hclock := c.micros_lt
  have hmicros : (on d c).micros = d.number * microsPerDay + c.micros := rfl
  rw [day, hmicros]
  simp only [microsPerDay, microsPerSecond] at *
  omega

theorem timeOfDay_on : (on d c).timeOfDay = c.micros := by
  have hclock := c.micros_lt
  have hmicros : (on d c).micros = d.number * microsPerDay + c.micros := rfl
  rw [timeOfDay, hmicros]
  simp only [microsPerDay, microsPerSecond] at *
  omega

theorem year_on : (on d c).year = d.year := by
  rw [year, day_on, civil_number]

theorem month_on : (on d c).month = d.month := by
  rw [month, day_on, civil_number]

theorem dayOfMonth_on : (on d c).dayOfMonth = d.day := by
  rw [dayOfMonth, day_on, civil_number]

theorem hour_on : (on d c).hour = c.hour := by
  have hminute := c.minute_lt
  have hsecond := c.second_lt
  have hmicro := c.micro_lt
  rw [hour, timeOfDay_on, Clock.micros]
  simp only [microsPerSecond] at *
  omega

theorem minute_on : (on d c).minute = c.minute := by
  have hminute := c.minute_lt
  have hsecond := c.second_lt
  have hmicro := c.micro_lt
  rw [minute, timeOfDay_on, Clock.micros]
  simp only [microsPerSecond] at *
  omega

end On

theorem at?_eq_some_iff {w : WallTime} {offset : Offset} {i : Instant} :
    w.at? offset = some i ↔ (i.utc.micros : Int) = w.micros - offset.micros := by
  have hlt := i.utc.micros_lt
  rw [at?, Option.map_eq_some_iff, ofMicros?]
  by_cases h : 0 ≤ (w.micros : Int) - offset.micros ∧
      (w.micros : Int) - offset.micros < spanMicros
  · rw [dif_pos h]
    constructor
    · rintro ⟨wall, hwall, rfl⟩
      cases hwall
      exact Int.toNat_of_nonneg h.1
    · intro hmicros
      refine ⟨_, rfl, congrArg Instant.mk (eq_of_micros ?_)⟩
      change ((w.micros : Int) - offset.micros).toNat = _
      omega
  · rw [dif_neg h]
    constructor
    · rintro ⟨wall, hwall, _⟩
      cases hwall
    · intro hmicros
      exact absurd ⟨by omega, by omega⟩ h

theorem at?_utc (w : WallTime) : w.at? Offset.utc = some ⟨w⟩ :=
  at?_eq_some_iff.2 (Int.sub_zero _).symm

end WallTime

end ActionQuery.Calendar
