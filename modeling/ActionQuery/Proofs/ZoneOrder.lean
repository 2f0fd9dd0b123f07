import ActionQuery.Proofs.StampRoundTrip
import ActionQuery.Proofs.TimeTokens

/-!
# The order of local times

Where clocks are put forward they skip some time once a year, and where they are put back they show
some time twice. A time that is shown twice is the first of the two, and a skipped time is what it
would have been without the change, which is after the times that the clock shows next. Apart from
skipped times the order of wall times is kept: an earlier wall time has the smaller offset only when
the clock is put forward between the two, and then they are at least as far apart as the clock jumps.
-/

namespace ActionQuery.Calendar

section Days

variable {year month n other : Nat}

/-- A day number is one of a day in this month. -/
def InMonth (year month n : Nat) : Prop :=
  dayNumber year month 1 ≤ n ∧ n < dayNumber year (month + 1) 1

theorem dayNumber_succ (year : Nat) (h : 1 ≤ month) :
    dayNumber year (month + 1) 1 = dayNumber year month 1 + monthLength year month := by
  have hnext := daysBeforeMonth_succ year h
  simp only [dayNumber]
  omega

theorem monthLength_ge (year month : Nat) : 28 ≤ monthLength year month := by
  unfold monthLength
  split
  · split <;> decide
  · split <;> decide

/-- The first four Sundays of a month are in it. -/
theorem inMonth_firstSunday (year : Nat) (hpos : 1 ≤ month) {weeks : Nat} (h : weeks ≤ 3) :
    InMonth year month (firstSunday year month + 7 * weeks) := by
  have hlength := monthLength_ge year month
  have hnext := dayNumber_succ year hpos
  simp only [InMonth, firstSunday]
  omega

theorem inMonth_lastSunday (year : Nat) (hpos : 1 ≤ month) :
    InMonth year month (lastSunday year month) := by
  have hlength := monthLength_ge year month
  have hnext := dayNumber_succ year hpos
  have hlast : dayNumber year month (monthLength year month) =
      dayNumber year month 1 + (monthLength year month - 1) := by
    simp only [dayNumber]
    omega
  simp only [InMonth, lastSunday, hlast]
  omega

theorem InMonth.lt (hn : InMonth year month n) {later : Nat} (hother : InMonth year later other)
    (h : month < later) : n < other := by
  have hmono : daysBeforeMonth year (month + 1) ≤ daysBeforeMonth year later :=
    daysBeforeMonth_mono year (Nat.succ_pos month) h
  have hend := hn.2
  have hstart := hother.1
  simp only [dayNumber] at hend hstart
  omega

theorem InMonth.year_lt (hn : InMonth year month n) (h : 2 ≤ month) : daysBeforeYear year < n := by
  have hmono : daysBeforeMonth year 2 ≤ daysBeforeMonth year month :=
    daysBeforeMonth_mono year (by decide) h
  have hjanuary : daysBeforeMonth year 2 = 31 := rfl
  have hstart := hn.1
  simp only [dayNumber] at hstart
  omega

theorem InMonth.lt_year (hn : InMonth year month n) (hyear : 1 ≤ year) (h : month ≤ 12) :
    n < daysBeforeYear (year + 1) := by
  have hmono : daysBeforeMonth year (month + 1) ≤ daysBeforeMonth year 13 :=
    daysBeforeMonth_mono year (Nat.succ_pos month) (Nat.succ_le_succ h)
  have hlast := daysBeforeMonth_thirteen year
  have hnext := daysBeforeYear_succ hyear
  have hend := hn.2
  simp only [dayNumber] at hend
  omega

end Days

/-- What a clock shows at the start of a year. -/
def yearStart (year : Nat) : Nat := daysBeforeYear year * microsPerDay

theorem yearStart_mono {first second : Nat} (hpos : 1 ≤ first) (h : first ≤ second) :
    yearStart first ≤ yearStart second :=
  Nat.mul_le_mul_right _ (daysBeforeYear_mono hpos h)

theorem WallTime.year_spec (w : WallTime) :
    1 ≤ w.year ∧ yearStart w.year ≤ w.micros ∧ w.micros < yearStart (w.year + 1) := by
  obtain ⟨hpos, hlower, hupper⟩ := daysBeforeYear_yearOfDay w.day
  refine ⟨hpos, ?_, ?_⟩
  · exact (Nat.le_div_iff_mul_le (by decide)).1 hlower
  · exact (Nat.div_lt_iff_lt_mul (by decide)).1 hupper

theorem WallTime.year_mono {v w : WallTime} (h : v.micros ≤ w.micros) : v.year ≤ w.year := by
  obtain ⟨_, hv, _⟩ := v.year_spec
  obtain ⟨_, _, hw⟩ := w.year_spec
  apply Nat.le_of_not_lt
  intro hlater
  have hmono : yearStart (w.year + 1) ≤ yearStart v.year :=
    yearStart_mono (Nat.succ_pos w.year) hlater
  omega

theorem wallMicros_lt {day other minutes later : Nat} (h : day < other)
    (hminutes : minutes < 1440) : wallMicros day minutes < wallMicros other later := by
  simp only [wallMicros, microsPerDay, microsPerSecond]
  omega

namespace Daylight

/-- Clocks are put forward once a year, not on its first day, and always before they are put back in
the same year or always after. -/
structure IsRegular (d : Daylight) : Prop where
  year_le : ∀ year, yearStart year + microsPerDay ≤ d.start year
  le_year : ∀ year, 1 ≤ year → d.start year ≤ yearStart (year + 1)
  order : (∀ year, d.start year ≤ d.stop year) ∨ ∀ year, d.stop year < d.start year

/-- Clocks are regular when they are put forward and back in the course of a day in two different
months, and forward not in January. -/
theorem isRegular_of_inMonth {d : Daylight} {startDay stopDay : Nat → Nat}
    {startMonth stopMonth startMinutes stopMinutes : Nat}
    (hstart : d.start = fun year => wallMicros (startDay year) startMinutes)
    (hstop : d.stop = fun year => wallMicros (stopDay year) stopMinutes)
    (hstart_in : ∀ year, InMonth year startMonth (startDay year))
    (hstop_in : ∀ year, InMonth year stopMonth (stopDay year))
    (hmonth : 2 ≤ startMonth ∧ startMonth ≤ 12) (hother : startMonth ≠ stopMonth)
    (hminutes : startMinutes < 1440 ∧ stopMinutes < 1440) : d.IsRegular where
  year_le := by
    intro year
    have hday := (hstart_in year).year_lt hmonth.1
    rw [hstart]
    simp only [yearStart, wallMicros, microsPerDay, microsPerSecond]
    omega
  le_year := by
    intro year hyear
    have hday := (hstart_in year).lt_year hyear hmonth.2
    have hlt := @wallMicros_lt _ _ startMinutes 0 hday hminutes.1
    rw [hstart]
    simp only [yearStart, wallMicros] at *
    omega
  order := by
    rw [hstart, hstop]
    rcases Nat.lt_or_gt_of_ne hother with hlt | hlt
    · exact Or.inl fun year =>
        Nat.le_of_lt (wallMicros_lt ((hstart_in year).lt (hstop_in year) hlt) hminutes.1)
    · exact Or.inr fun year =>
        wallMicros_lt ((hstop_in year).lt (hstart_in year) hlt) hminutes.2

variable {d : Daylight} {v w : WallTime}

theorem covers_eq_true_iff : d.covers w = true ↔
    if d.start w.year ≤ d.stop w.year then d.start w.year ≤ w.micros ∧ w.micros < d.stop w.year
    else d.start w.year ≤ w.micros ∨ w.micros < d.stop w.year := by
  by_cases horder : d.start w.year ≤ d.stop w.year <;> simp [covers, horder]

/-- Between a time without daylight saving that is not skipped and a later one with it, the clock has
been put forward. -/
theorem IsRegular.add_le_of_covers (hd : d.IsRegular) {jump : Int} (hjump : jump ≤ microsPerDay)
    (hle : v.micros ≤ w.micros) (hv : ¬ d.covers v) (hw : d.covers w)
    (hskips : ¬ ((d.start v.year : Int) ≤ v.micros + jump ∧ v.micros < d.start v.year)) :
    v.micros + jump ≤ w.micros := by
  obtain ⟨hpos, _, hyear⟩ := v.year_spec
  obtain ⟨_, hwyear, _⟩ := w.year_spec
  rw [covers_eq_true_iff] at hv hw
  rcases Nat.eq_or_lt_of_le (WallTime.year_mono hle) with hsame | hlater
  · -- within one year the later time is behind the start and the earlier one before it
    rw [← hsame] at hw
    by_cases horder : d.start v.year ≤ d.stop v.year
    · rw [if_pos horder] at hv hw
      omega
    · rw [if_neg horder] at hv hw
      omega
  · have hnext : yearStart (v.year + 1) ≤ yearStart w.year :=
      yearStart_mono (Nat.succ_pos v.year) hlater
    rcases hd.order with hnorth | hsouth
    · -- daylight saving time starts in the year of the later time
      have hstart := hd.year_le w.year
      rw [if_pos (hnorth w.year)] at hw
      omega
    · -- daylight saving time starts in the year of the earlier time, after it
      have hstart := hd.le_year v.year hpos
      rw [if_neg (Nat.not_le.2 (hsouth v.year))] at hv
      omega

end Daylight

namespace Zone

variable {z : Zone} {d : Daylight} {v w : WallTime} {i j : Instant}

theorem isRegular (h : d ∈ z.daylight?) : d.IsRegular := by
  cases z with
  | newYork =>
      cases h
      exact Daylight.isRegular_of_inMonth rfl rfl
        (fun year => inMonth_firstSunday year (by decide) (by decide : 1 ≤ 3))
        (fun year => inMonth_firstSunday year (by decide) (by decide : 0 ≤ 3))
        (by decide) (by decide) (by decide)
  | london =>
      cases h
      exact Daylight.isRegular_of_inMonth rfl rfl (fun year => inMonth_lastSunday year (by decide))
        (fun year => inMonth_lastSunday year (by decide)) (by decide) (by decide) (by decide)
  | lordHowe =>
      cases h
      exact Daylight.isRegular_of_inMonth rfl rfl
        (fun year => inMonth_firstSunday year (by decide) (by decide : 0 ≤ 3))
        (fun year => inMonth_firstSunday year (by decide) (by decide : 0 ≤ 3))
        (by decide) (by decide) (by decide)
  | _ => cases h

/-- How far the clock is put forward, in microseconds. -/
def jump (z : Zone) (d : Daylight) : Int := d.offset.micros - z.standard.micros

theorem jump_spec (h : d ∈ z.daylight?) : 0 ≤ z.jump d ∧ z.jump d ≤ microsPerDay := by
  cases z <;> cases h <;> decide

/-- The clock is put forward past this time and never shows it. -/
def Skips (z : Zone) (w : WallTime) : Prop :=
  ∃ d ∈ z.daylight?, (d.start w.year : Int) ≤ w.micros + z.jump d ∧ w.micros < d.start w.year

instance (z : Zone) (w : WallTime) : Decidable (z.Skips w) :=
  inferInstanceAs (Decidable (∃ d ∈ z.daylight?, _))

theorem offsetAt_of_mem (h : d ∈ z.daylight?) (w : WallTime) :
    z.offsetAt w = if d.covers w then d.offset else z.standard := by
  rw [offsetAt, h]

/-- From a time that is not skipped to a later one, the offset grows by no more than the time
between them. -/
theorem offsetAt_sub_le (hle : v.micros ≤ w.micros) (hskips : ¬ z.Skips v) :
    (z.offsetAt w).micros - (z.offsetAt v).micros ≤ w.micros - v.micros := by
  cases hd : z.daylight? with
  | none =>
      simp only [offsetAt, hd]
      omega
  | some d =>
      obtain ⟨hforward, hday⟩ := jump_spec hd
      have hjump : z.jump d = d.offset.micros - z.standard.micros := rfl
      rw [offsetAt_of_mem hd, offsetAt_of_mem hd]
      by_cases hv : d.covers v
      · rw [if_pos hv]
        by_cases hw : d.covers w
        · rw [if_pos hw]
          omega
        · rw [if_neg hw]
          omega
      · rw [if_neg hv]
        by_cases hw : d.covers w
        · have hfar := (isRegular hd).add_le_of_covers hday hle hv hw fun h => hskips ⟨d, hd, h⟩
          rw [if_pos hw]
          omega
        · rw [if_neg hw]
          omega

theorem instant?_mono (hle : v.micros ≤ w.micros) (hskips : ¬ z.Skips v)
    (hi : z.instant? v = some i) (hj : z.instant? w = some j) : i ≤ j := by
  have hoffset := offsetAt_sub_le hle hskips
  rw [instant?, WallTime.at?_eq_some_iff] at hi hj
  change i.utc.micros ≤ j.utc.micros
  omega

end Zone

/-- Two local stamps in ISO form are the pieces of the text with a pair of colons between them. -/
theorem Stamp.pieces_iso (v w : WallTime) :
    Text.Pieces (Stamp.iso ⟨v, none⟩ ++ ':' :: ':' :: Stamp.iso ⟨w, none⟩)
      [Stamp.iso ⟨v, none⟩, Stamp.iso ⟨w, none⟩] := by
  have hiso (u : WallTime) : Stamp.iso ⟨u, none⟩ = u.marked 'T' := List.append_nil _
  have hapart (u : WallTime) : Text.ColonsApart (u.marked 'T') :=
    WallTime.colonsApart_marked (by decide) u
  rw [hiso, hiso, ← Text.splitAtColons_eq_iff,
    Text.splitAtColons_append (hapart v) (fun hlast => ?_), Text.splitAtColons_of_apart (hapart w)]
  cases v.isDigit_last_marked 'T' ':' hlast

end ActionQuery.Calendar

namespace ActionQuery

open Calendar (Instant Stamp WallTime Zone)

namespace NominalTime

variable {t : Text} {s : Stamp}

theorem readStamp_trim (h : readStamp t = .ok s) : readStamp (Text.trim t) = .ok s := by
  rw [readStamp_eq_ok_iff] at h ⊢
  rwa [Text.trim_of_isTrimmed (Text.isTrimmed_trim t)]

theorem blank_of_readStamp (h : readStamp t = .ok s) : Text.blank t = false := by
  obtain ⟨hmark, _⟩ := readStamp_eq_ok_iff.1 h
  rw [Bool.eq_false_iff]
  intro hblank
  rw [Text.trim_eq_nil_iff.2 hblank] at hmark
  cases hmark

theorem readStamp_iso (w : WallTime) : readStamp (Stamp.iso ⟨w, none⟩) = .ok ⟨w, none⟩ := by
  have hplain := @readStamp_append_iso [] [] rfl rfl ⟨w, none⟩ (by simp)
  rwa [List.nil_append, List.append_nil] at hplain

end NominalTime

namespace Session

open Scope (TimeToken)

variable {p : Session} {zone : Option Text} {name text : Text} {z : Zone} {v w : WallTime}
  {i j : Instant}

theorem ofText_of_walls (hname : p.zoneFor zone = .ok name) (hz : Zone.resolve name = .ok z)
    (hi : z.instant? v = some i) (hj : z.instant? w = some j) (horder : i ≤ j)
    {first second element : Text} (hfirst : NominalTime.readStamp first = .ok ⟨v, none⟩)
    (hsecond : NominalTime.readStamp second = .ok ⟨w, none⟩)
    (hpieces : Text.Pieces element [first, second]) :
    (TimeToken.ofText (p.readerIn zone) element).1 =
      .ok (.range ⟨i.toStamp, j.toStamp, element⟩) := by
  have hstart : p.readerIn zone (Text.trim first) = .ok i.toStamp :=
    readerIn_eq_ok_iff.2 ⟨i, parse_of_wall hname hz (NominalTime.readStamp_trim hfirst) hi, rfl⟩
  have hstop : p.readerIn zone (Text.trim second) = .ok j.toStamp :=
    readerIn_eq_ok_iff.2 ⟨j, parse_of_wall hname hz (NominalTime.readStamp_trim hsecond) hj, rfl⟩
  have hends : Text.AreEnds [first, second] :=
    ⟨NominalTime.blank_of_readStamp hfirst, NominalTime.blank_of_readStamp hsecond⟩
  have hplaces : i.toStamp.Precedes j.toStamp := by
    rw [Stamp.precedes_iff (Or.inl (i.toStamp_sharesClock _)), i.position_toStamp,
      j.position_toStamp]
    exact Int.ofNat_le.2 horder
  have hmeans : TimeToken.Means (p.readerIn zone) element (.range ⟨i.toStamp, j.toStamp, element⟩)
      [Text.trim first, Text.trim second] := .range hpieces hends hstart hstop hplaces
  rw [TimeToken.ofText_of_means (fun _ _ => isLocal_of_readerIn) hmeans]

/-- Of two wall times in a zone, of which the earlier one is not skipped there, the earlier one is
not the later point of time. So the two, with a pair of colons between them, are a range in every
session that places local times in the zone, however they are written, and they can be written. -/
theorem range_of_local_times (p : Session) (hname : p.zoneFor zone = .ok name)
    (hz : Zone.resolve name = .ok z) (hle : v.micros ≤ w.micros) (hskips : ¬ z.Skips v)
    (hi : z.instant? v = some i) (hj : z.instant? w = some j) :
    i ≤ j ∧
    (∀ first second, NominalTime.readStamp first = .ok ⟨v, none⟩ →
      NominalTime.readStamp second = .ok ⟨w, none⟩ →
        (p.parse first zone).1 = .ok i ∧ (p.parse second zone).1 = .ok j ∧
        ∀ element, Text.Pieces element [first, second] →
          (TimeToken.ofText (p.readerIn zone) element).1 =
            .ok (.range ⟨i.toStamp, j.toStamp, element⟩)) ∧
    (TimeToken.ofText (p.readerIn zone)
      (Stamp.iso ⟨v, none⟩ ++ ':' :: ':' :: Stamp.iso ⟨w, none⟩)).1 =
        .ok (.range ⟨i.toStamp, j.toStamp,
          Stamp.iso ⟨v, none⟩ ++ ':' :: ':' :: Stamp.iso ⟨w, none⟩⟩) := by
  have horder : i ≤ j := Zone.instant?_mono hle hskips hi hj
  refine ⟨horder, fun first second hfirst hsecond => ?_, ?_⟩
  · refine ⟨parse_of_wall hname hz hfirst hi, parse_of_wall hname hz hsecond hj, ?_⟩
    exact fun element => ofText_of_walls hname hz hi hj horder hfirst hsecond
  · exact ofText_of_walls hname hz hi hj horder (NominalTime.readStamp_iso v)
      (NominalTime.readStamp_iso w) (Stamp.pieces_iso v w)

/-- A session in New York. -/
def inNewYork : Session :=
  { initial with cache := some { Settings.usual with zone := "America/New_York" } }

/-- One minute before two on 2009-03-08, when the clock is put forward to three. -/
def beforeGap : WallTime := ⟨63372074340000000, by decide⟩

def afterGap : WallTime := ⟨63372078000000000, by decide⟩

/-- One minute before seven in UTC on that day. -/
def lastMinute : Instant := ⟨⟨63372092340000000, by decide⟩⟩

def nextMinute : Instant := ⟨⟨63372092400000000, by decide⟩⟩

theorem range_of_local_times_around_gap :
    ¬ Zone.newYork.Skips beforeGap ∧
    (inNewYork.parse "2009-03-08T01:59" none).1 = .ok lastMinute ∧
    (inNewYork.parse "2009-03-08T03:00" none).1 = .ok nextMinute ∧ lastMinute ≤ nextMinute ∧
    (TimeToken.ofText (inNewYork.readerIn none) "2009-03-08T01:59::2009-03-08T03:00").1 =
      .ok (.range
        ⟨lastMinute.toStamp, nextMinute.toStamp, "2009-03-08T01:59::2009-03-08T03:00"⟩) := by
  have hskips : ¬ Zone.newYork.Skips beforeGap := by decide +kernel
  have hname : inNewYork.zoneFor none = .ok "America/New_York" := rfl
  have hzone : Zone.resolve "America/New_York" = .ok .newYork := by decide +kernel
  have hlast : Zone.newYork.instant? beforeGap = some lastMinute := by decide +kernel
  have hnext : Zone.newYork.instant? afterGap = some nextMinute := by decide +kernel
  obtain ⟨horder, htexts, _⟩ :=
    range_of_local_times inNewYork hname hzone (by decide) hskips hlast hnext
  obtain ⟨hfirst, hsecond, hrange⟩ := htexts "2009-03-08T01:59" "2009-03-08T03:00"
    (by decide +kernel) (by decide +kernel)
  have hpieces : Text.Pieces "2009-03-08T01:59::2009-03-08T03:00"
      ["2009-03-08T01:59", "2009-03-08T03:00"] := Text.splitAtColons_eq_iff.1 (by decide +kernel)
  exact ⟨hskips, hfirst, hsecond, horder, hrange _ hpieces⟩

/-- Half past two, which the clock skips, would have been half past seven in UTC. -/
example : (inNewYork.parse "2009-03-08T02:30" none).1 = .ok ⟨⟨63372094200000000, by decide⟩⟩ ∧
    (TimeToken.ofText (inNewYork.readerIn none) "2009-03-08T02:30::2009-03-08T03:00").1 =
      .error (.format (.timeRangeOrder "2009-03-08T02:30::2009-03-08T03:00")) := by
  decide +kernel

end Session

end ActionQuery
