namespace ActionQuery.Calendar

def isLeap (year : Nat) : Bool := year % 4 == 0 && (year % 100 != 0 || year % 400 == 0)

def monthLength (year month : Nat) : Nat :=
  if month = 2 then if isLeap year then 29 else 28
  else if month = 4 ∨ month = 6 ∨ month = 9 ∨ month = 11 then 30
  else 31

/-- Days of the Gregorian calendar from 0001-01-01 to the first day of `year`. -/
def daysBeforeYear (year : Nat) : Nat :=
  let past := year - 1
  past * 365 + past / 4 - past / 100 + past / 400

def daysBeforeMonth (year : Nat) : Nat → Nat
  | 0 | 1 => 0
  | month + 2 => daysBeforeMonth year (month + 1) + monthLength year (month + 1)

def lastYear : Nat := 9999

/-- A day of the Gregorian calendar in the years 1 to 9999. -/
structure Date where
  year : Nat
  month : Nat
  day : Nat
  year_pos : 1 ≤ year
  year_le : year ≤ lastYear
  month_pos : 1 ≤ month
  month_le : month ≤ 12
  day_pos : 1 ≤ day
  day_le : day ≤ monthLength year month
  deriving DecidableEq, Repr

def dayNumber (year month day : Nat) : Nat :=
  daysBeforeYear year + daysBeforeMonth year month + (day - 1)

def Date.number (d : Date) : Nat := dayNumber d.year d.month d.day

def spanDays : Nat := daysBeforeYear (lastYear + 1)

/-- The year of a day number: the mean length of a year gives it up to one, either way. -/
def yearOfDay (n : Nat) : Nat :=
  let estimate := n * 400 / 146097 + 1
  if n < daysBeforeYear estimate then estimate - 1
  else if daysBeforeYear (estimate + 1) ≤ n then estimate + 1
  else estimate

/-- The month, sought among `months`, and the day in it of the `n`-th day after their first. -/
def monthAndDay (year : Nat) : List Nat → Nat → Nat × Nat
  | [], n => (12, n + 1)
  | month :: months, n =>
    if n < monthLength year month then (month, n + 1)
    else monthAndDay year months (n - monthLength year month)

def civil (n : Nat) : Nat × Nat × Nat :=
  let year := yearOfDay n
  (year, monthAndDay year (List.range' 1 12) (n - daysBeforeYear year))

/-- Day of the week, 0 for Monday: 0001-01-01 is one. -/
def weekday (n : Nat) : Nat := n % 7

/-- The Monday of the week that holds the first Thursday of the year, which may lie in the year
before. -/
def firstMonday (year : Nat) : Int :=
  let start := daysBeforeYear year
  let day := weekday start
  (start : Int) - day + if 3 < day then 7 else 0

/-- Years with 53 weeks start on a Thursday, or are leap years that start on a Wednesday. -/
def hasLongWeeks (year : Nat) : Bool :=
  let day := weekday (daysBeforeYear year)
  day == 3 || (day == 2 && isLeap year)

/-- The day number of a week date, `none` for a week or weekday that the year does not have. -/
def dayOfWeekDate? (year week day : Nat) : Option Nat :=
  if week = 0 ∨ day = 0 ∨ 7 < day then none
  else if week ≤ 52 ∨ (week = 53 ∧ hasLongWeeks year) then
    some (firstMonday year + ((week - 1) * 7 + (day - 1) : Nat)).toNat
  else none

theorem daysBeforeMonth_add_monthLength_le {year month : Nat} (hpos : 1 ≤ month)
    (hle : month ≤ 12) :
    daysBeforeMonth year month + monthLength year month ≤ 365 + (isLeap year).toNat := by
  have hmonth : month = 1 ∨ month = 2 ∨ month = 3 ∨ month = 4 ∨ month = 5 ∨ month = 6 ∨
      month = 7 ∨ month = 8 ∨ month = 9 ∨ month = 10 ∨ month = 11 ∨ month = 12 := by omega
  cases hleap : isLeap year <;>
    rcases hmonth with rfl | rfl | rfl | rfl | rfl | rfl | rfl | rfl | rfl | rfl | rfl | rfl <;>
    simp [daysBeforeMonth, monthLength, hleap]

theorem div_of_succ (n k : Nat) :
    (n + 1) / k = n / k + if (n + 1) % k = 0 then 1 else 0 := by
  rw [Nat.succ_div]
  simp only [Nat.dvd_iff_mod_eq_zero]

theorem daysBeforeYear_succ {year : Nat} (hpos : 1 ≤ year) :
    daysBeforeYear (year + 1) = daysBeforeYear year + 365 + (isLeap year).toNat := by
  obtain ⟨past, rfl⟩ := Nat.exists_eq_add_of_le' hpos
  have hle : past / 100 ≤ past / 4 := Nat.div_le_div_left (by decide) (by decide)
  have h4 : (past + 1) % 400 = 0 → (past + 1) % 100 = 0 := by omega
  have h100 : (past + 1) % 100 = 0 → (past + 1) % 4 = 0 := by omega
  have hleap : (isLeap (past + 1)).toNat =
      if (past + 1) % 4 = 0 ∧ ((past + 1) % 100 ≠ 0 ∨ (past + 1) % 400 = 0) then 1 else 0 := by
    split <;> simp_all [isLeap]
  rw [hleap]
  simp only [daysBeforeYear, Nat.add_sub_cancel, div_of_succ past]
  generalize past / 4 = a at *
  generalize past / 100 = b at *
  generalize past / 400 = c at *
  by_cases d4 : (past + 1) % 4 = 0 <;> by_cases d100 : (past + 1) % 100 = 0 <;>
    by_cases d400 : (past + 1) % 400 = 0 <;> simp_all <;> omega

theorem daysBeforeYear_mono {first second : Nat} (hpos : 1 ≤ first) (h : first ≤ second) :
    daysBeforeYear first ≤ daysBeforeYear second := by
  induction h with
  | refl => exact Nat.le_refl _
  | step hle ih =>
      have := daysBeforeYear_succ (Nat.le_trans hpos hle)
      rw [Nat.succ_eq_add_one]
      omega

theorem Date.number_lt (d : Date) : d.number < spanDays := by
  have hmonth : daysBeforeMonth d.year d.month + monthLength d.year d.month ≤
      365 + (isLeap d.year).toNat :=
    daysBeforeMonth_add_monthLength_le d.month_pos d.month_le
  have hyear := daysBeforeYear_succ d.year_pos
  have hspan : daysBeforeYear (d.year + 1) ≤ daysBeforeYear (lastYear + 1) :=
    daysBeforeYear_mono (by omega) (Nat.succ_le_succ d.year_le)
  have hday := d.day_le
  have hpos := d.day_pos
  simp only [number, dayNumber, spanDays]
  omega

end ActionQuery.Calendar
