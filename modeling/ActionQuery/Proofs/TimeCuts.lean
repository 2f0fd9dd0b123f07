import ActionQuery.Proofs.StampRoundTrip
import ActionQuery.Proofs.TimeLayout
import ActionQuery.Proofs.TimeRefusal

/-!
# Times that are cut short

When a nominal time is cut where its reader cannot go on, the front part is often no time, and often
another one: the offset may be missing, or it may have lost its fraction. But the front part never
leaves the calendar for that. A cut behind the sign of the offset leaves the wall time as it was, and
the offset on the same side and no greater than it was.
-/

namespace ActionQuery

open Calendar (Instant Offset Stamp WallTime noFraction)

namespace Calendar.Iso

variable {front q y date time : Text} {c mark : Char} {n : ClockNumbers} {negative : Bool}

/-- The first lies between zero and the second. -/
def Within (small large : Int) : Prop := 0 ≤ small ∧ small ≤ large ∨ large ≤ small ∧ small ≤ 0

theorem within_offsetMicros (negative : Bool) (n : ClockNumbers) :
    Within (offsetMicros negative { n with micro := noFraction }) (offsetMicros negative n) := by
  have hmicro : (noFraction : Nat) = 0 := rfl
  simp only [Within, offsetMicros, hmicro]
  generalize n.hour * 3600 + n.minute * 60 + n.second = seconds
  have hwhole : (0 : Int) ≤ seconds * Calendar.microsPerSecond :=
    Int.mul_nonneg (Int.natCast_nonneg _) (Int.natCast_nonneg _)
  by_cases hzero : seconds = 0
  · left
    cases negative <;> simp [hzero]
  · simp only [if_neg hzero]
    cases negative with
    | false =>
        left
        simp only [Bool.false_eq_true, if_false]
        omega
    | true =>
        right
        simp only [if_true]
        omega

theorem within_refl (n : Int) : Within n n := by
  unfold Within
  omega

theorem two_le_length_of_readClock {rest : Text} (h : readClock front = some (n, rest)) :
    2 ≤ front.length := by
  obtain ⟨hour, behind, rfl, hpair⟩ := exists_hour_of_readClock h
  rw [List.length_append, hpair.length_eq]
  exact Nat.le_add_right 2 _

theorem readNumbers_of_parts {year month day : Nat}
    (hplace : separatorPlace (date ++ mark :: time) = some date.length)
    (hdate : readDate date = some (year, month, day)) :
    readNumbers (date ++ mark :: time) =
      (readTime time).map fun (clock, offset) => ⟨year, month, day, clock, offset⟩ := by
  simp only [readNumbers, hplace, List.take_left, List.drop_left, hdate]

/-- What is put in place of a `Z` breaks a text. -/
theorem breaks_utc : Breaks "+00:00".toList := by
  refine ⟨by decide, Text.endsNumber_cons rfl _, fun more h => ?_⟩
  cases h

/-- A clock that is read in front of a place where no group goes on, and with nothing or the offset
of UTC there instead, differs by its fraction at most. -/
theorem readClock_of_cut {found : ClockNumbers} {rest r : Text}
    (h : readClock (y ++ q) = some (n, rest)) (hq : Breaks q)
    {k : Text} (hk : k = [] ∨ k = "+00:00".toList) (hcut : readClock (y ++ k) = some (found, r)) :
    found = n ∨ found = { n with micro := noFraction } := by
  obtain ⟨other, _, hother, hsame⟩ := readClock_of_append h hq
  have hfound : found = other := by
    rcases hk with rfl | rfl
    · rw [List.append_nil, hother] at hcut
      cases hcut
      rfl
    · obtain ⟨third, _, hthird, hexact⟩ := readClock_of_append hcut breaks_utc
      rw [hother] at hthird
      cases hthird
      rcases hexact with rfl | ⟨_, c, hc, hmark⟩
      · rfl
      · cases hc
        rcases hmark with hmark | hmark <;> cases hmark
  rw [hfound]
  exact hsame.imp_right And.left

/-- The sign of an offset stands in what is kept, or the offset is the one that was put there. -/
theorem exists_kept_of_append {head zone k : Text} {sign : Char}
    (hsign : sign = '+' ∨ sign = '-') (hk : k = [] ∨ k = "+00:00".toList)
    (h : y ++ k = head ++ sign :: zone) :
    (∃ kept, y = head ++ sign :: kept ∧ zone = kept ++ k) ∨ zone = "00:00".toList := by
  have hput {front : Text} (hfront : k = front ++ sign :: zone) : zone = "00:00".toList := by
    rcases hk with rfl | rfl
    · cases front <;> cases hfront
    · cases front with
      | nil => exact (List.cons.inj hfront).2.symm
      | cons c front =>
          have hrest : "00:00".toList = front ++ sign :: zone := (List.cons.inj hfront).2
          have hmem : sign ∈ "00:00".toList := by
            rw [hrest]
            exact List.mem_append_right front List.mem_cons_self
          rcases hsign with rfl | rfl <;> exact absurd hmem (by decide)
  rcases List.append_eq_append_iff.1 h with ⟨front, _, hfront⟩ | ⟨kept, hy, hzone⟩
  · exact Or.inr (hput hfront)
  · cases kept with
    | nil => exact Or.inr (@hput [] hzone.symm)
    | cons c kept =>
        obtain ⟨hc, hrest⟩ := List.cons.inj hzone
        exact Or.inl ⟨kept, hc ▸ hy, hrest⟩

/-- The text up to the sign of an offset fixes all numbers but the offset. -/
theorem exists_offset_of_front {year month day : Nat} {rest zone other : Text} {sign : Char}
    {full : Numbers} (hsign : sign = '+' ∨ sign = '-')
    (hplace : separatorPlace (date ++ mark :: (front ++ sign :: zone)) = some date.length)
    (hdate : readDate date = some (year, month, day))
    (hmarks : ∀ c ∈ front, isZoneMark c = false) (hclock : readClock front = some (n, rest))
    (hfull : readNumbers (date ++ mark :: (front ++ sign :: other)) = some full) :
    ∃ m beyond, readClock other = some (m, beyond) ∧
      full = ⟨year, month, day, n, some (offsetMicros (sign == '-') m)⟩ := by
  have hlength : 10 ≤ (date ++ mark :: front).length := by
    have hdate := seven_le_of_separatorPlace hplace
    have hfront := two_le_length_of_readClock hclock
    rw [List.length_append, List.length_cons]
    omega
  have hdigit : sign.isDigit = false := by rcases hsign with rfl | rfl <;> rfl
  have hmark : ∀ c ∈ (sign :: other).head?, isZoneMark c = true := by
    rintro _ ⟨⟩
    exact isZoneMark_iff.2 (Or.inr hsign)
  have hsame := separatorPlace_append hlength hdigit zone other
  simp only [List.append_assoc, List.cons_append] at hsame
  rw [readNumbers_of_parts (hsame ▸ hplace) hdate, Option.map_eq_some_iff] at hfull
  obtain ⟨⟨clock, offset⟩, hread, rfl⟩ := hfull
  obtain ⟨_, hsecond, hzoned⟩ := zoned_of_readTime hmarks hmark hread
  cases hclock.symm.trans hsecond
  cases hzoned with
  | zulu => rcases hsign with hsign | hsign <;> cases hsign
  | @offset _ _ beyond m _ hother _ => exact ⟨m, beyond, hother, rfl⟩

/-- A text that is cut loses its offset, or it keeps all numbers but for an offset that is no greater
than it was. -/
theorem numbers_of_cut {k : Text} {full cut : Numbers} {small : Int} (hq : Breaks q)
    (hk : k = [] ∨ k = "+00:00".toList) (hfull : readNumbers (y ++ q) = some full)
    (hcut : readNumbers (y ++ k) = some cut) (ht : ∃ c ∈ y ++ k, ¬ IsDateChar c)
    (hoffset : cut.offset = some small) :
    small = 0 ∨ ∃ large, Within small large ∧ full = { cut with offset := some large } := by
  obtain ⟨date, mark, time, hy, hplace, hdate, htime⟩ := exists_parts_of_readNumbers hcut ht
  obtain ⟨front, tail, rest, rfl, hmarks, hclock, hzoned⟩ := exists_zoned_of_readTime htime
  rw [hoffset] at hzoned
  cases hzoned with
  | zulu => exact Or.inl rfl
  | @offset sign zone beyond n hsign hread _ =>
      have hhead : y ++ k = (date ++ mark :: front) ++ sign :: zone := by simp [hy]
      rcases exists_kept_of_append hsign hk hhead with ⟨kept, rfl, rfl⟩ | rfl
      · right
        simp only [List.append_assoc, List.cons_append] at hfull hplace
        obtain ⟨m, _, hother, rfl⟩ :=
          exists_offset_of_front hsign hplace hdate hmarks hclock hfull
        refine ⟨_, ?_, rfl⟩
        rcases readClock_of_cut hother hq hk hread with rfl | rfl
        · exact within_refl _
        · exact within_offsetMicros _ m
      · left
        have hzero : readClock "00:00".toList = some (⟨0, 0, 0, noFraction⟩, []) := by decide
        rw [hzero] at hread
        cases hread
        rcases hsign with rfl | rfl <;> decide

/-- Numbers that differ by their offset alone are those of one wall time. -/
theorem exists_of_same_wall {cut : Numbers} {small full : Stamp} {micros : Int}
    (hcut : cut.check = .ok small) (hfull : { cut with offset := some micros }.check = .ok full) :
    full.wall = small.wall ∧ ∃ offset, full.offset = some offset ∧ offset.micros = micros := by
  obtain ⟨_, d, c, _, hdate, hclock, rfl⟩ := check_eq_ok_iff.1 hcut
  have hoffset := checkOffset_eq_ok_iff.1 (checkOffset_of_check hfull)
  obtain ⟨_, d', c', _, hdate', hclock', rfl⟩ := check_eq_ok_iff.1 hfull
  cases hdate.symm.trans hdate'
  cases hclock.symm.trans hclock'
  exact ⟨rfl, Option.map_eq_some_iff.1 hoffset.symm⟩

end Calendar.Iso

namespace NominalTime

open Calendar.Iso (Breaks breaks_utc)

variable {x q : Text}

theorem endsNumber_expandZulu (hne : q ≠ []) (h : Text.EndsNumber q) :
    expandZulu q ≠ [] ∧ Text.EndsNumber (expandZulu q) := by
  obtain ⟨c, rest, rfl⟩ := List.exists_cons_of_ne_nil hne
  cases rest with
  | nil =>
      rw [expandZulu]
      split
      · exact ⟨breaks_utc.ne_nil, breaks_utc.endsNumber⟩
      · exact ⟨hne, h⟩
  | cons d rest =>
      rw [expandZulu_cons c (List.cons_ne_nil d rest)]
      exact ⟨List.cons_ne_nil _ _, Text.endsNumber_cons (h c rfl) _⟩

theorem breaks_expandZulu (h : Breaks q) : Breaks (expandZulu q) := by
  obtain ⟨hne, hends⟩ := endsNumber_expandZulu h.ne_nil h.endsNumber
  refine ⟨hne, hends, fun more hcolon => ?_⟩
  obtain ⟨c, rest, rfl⟩ := List.exists_cons_of_ne_nil h.ne_nil
  cases rest with
  | nil =>
      rw [expandZulu] at hcolon
      split at hcolon
      · cases hcolon
      · exact h.colon more hcolon
  | cons d rest =>
      rw [expandZulu_cons c (List.cons_ne_nil d rest)] at hcolon
      obtain ⟨rfl, rfl⟩ := List.cons.inj hcolon
      exact endsNumber_expandZulu (List.cons_ne_nil d rest) (h.colon _ rfl).2

/-- A text and what it is cut from are read alike up to the cut, or up to a `Z` in front of it. -/
theorem exists_expandZulu_of_cut (x : Text) (hq : Breaks q) :
    ∃ y k rest, expandZulu x = y ++ k ∧ (k = [] ∨ k = "+00:00".toList) ∧
      expandZulu (x ++ q) = y ++ rest ∧ Breaks rest := by
  have hrest := breaks_expandZulu hq
  by_cases hz : x.getLast? = some 'Z'
  · obtain ⟨y, rfl⟩ := List.getLast?_eq_some_iff.1 hz
    refine ⟨y, _, 'Z' :: expandZulu q, expandZulu_concat y, Or.inr rfl, ?_, ?_⟩
    · rw [expandZulu_append _ hq.ne_nil, List.append_assoc, List.singleton_append]
    · exact ⟨List.cons_ne_nil _ _, Text.endsNumber_cons rfl _, fun more hcolon => by cases hcolon⟩
  · refine ⟨x, [], expandZulu q, ?_, Or.inl rfl, expandZulu_append x hq.ne_nil, hrest⟩
    rw [expandZulu, if_neg hz, List.append_nil]

end NominalTime

namespace Session

open Calendar.Iso (Breaks)

variable {p : Session} {t x q : Text} {i : Instant}

theorem offsetOf_of_fixed {s : Stamp} {offset : Offset} (h : s.offset = some offset) :
    p.offsetOf none s = .ok offset := by
  rw [offsetOf, h]

theorem offsetOf_of_utc {s : Stamp} (h : s.offset = none)
    (hzone : p.zoneFor none = .ok "UTC".toList) : p.offsetOf none s = .ok Offset.utc := by
  rw [offsetOf, h, hzone]
  rfl

theorem not_outside_of_eq_zero {w : WallTime} {offset : Offset} (h : offset.micros = 0) :
    ¬ w.Outside offset := by
  have hlt := w.micros_lt
  rw [WallTime.Outside, h]
  omega

/-- A clock with the same wall time does not leave the calendar if its offset is smaller. -/
theorem not_outside_of_within {w : WallTime} {small large : Offset} {i : Instant}
    (hsame : (i.utc.micros : Int) = w.micros - large.micros)
    (h : Calendar.Iso.Within small.micros large.micros) : ¬ w.Outside small := by
  have hwall := w.micros_lt
  have hutc := i.utc.micros_lt
  unfold Calendar.Iso.Within at h
  unfold WallTime.Outside
  omega

/-- What a time is cut to does not leave the calendar, provided that local times are those of UTC. -/
theorem not_leavesCalendar_of_cut (h : (p.parse t none).1 = .ok i)
    (hzone : p.zoneFor none = .ok "UTC".toList) (ht : Text.trim t = x ++ q) (hq : Breaks q)
    (hx : Text.trim x = x) : ¬ p.LeavesCalendar none x := by
  rintro ⟨cut, offset, hcut, hoffset, houtside⟩
  obtain ⟨full, large, hfull, hlarge, hsame⟩ := parse_eq_ok_iff.1 h
  cases hfixed : cut.offset with
  | none =>
      cases hoffset.symm.trans (offsetOf_of_utc hfixed hzone)
      exact not_outside_of_eq_zero rfl houtside
  | some small =>
      cases hoffset.symm.trans (offsetOf_of_fixed hfixed)
      obtain ⟨hmark, hcut⟩ := NominalTime.readStamp_eq_ok_iff.1 hcut
      obtain ⟨_, hfull⟩ := NominalTime.readStamp_eq_ok_iff.1 hfull
      obtain ⟨y, k, rest, hy, hk, hrest, hbreaks⟩ := NominalTime.exists_expandZulu_of_cut x hq
      have hmark := NominalTime.mem_expandZulu hmark (by decide)
      rw [hx, hy] at hcut hmark
      rw [ht, hrest] at hfull
      obtain ⟨cutNumbers, hcut, hcheck⟩ := Calendar.Iso.read_eq_ok_iff.1 hcut
      obtain ⟨fullNumbers, hfull, hcheck'⟩ := Calendar.Iso.read_eq_ok_iff.1 hfull
      have hsmall := Calendar.Iso.checkOffset_of_check hcheck
      rw [hfixed, Calendar.Iso.checkOffset_eq_ok_iff] at hsmall
      rcases Calendar.Iso.numbers_of_cut hbreaks hk hfull hcut ⟨'T', hmark, by decide⟩ hsmall with
        hzero | ⟨micros, hwithin, rfl⟩
      · exact not_outside_of_eq_zero hzero houtside
      · obtain ⟨hwall, found, hfound, rfl⟩ := Calendar.Iso.exists_of_same_wall hcheck hcheck'
        cases hlarge.symm.trans (offsetOf_of_fixed hfound)
        rw [hwall] at hsame
        exact not_outside_of_within hsame hwithin houtside

end Session

end ActionQuery
