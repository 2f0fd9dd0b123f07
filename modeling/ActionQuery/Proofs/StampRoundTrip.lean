import ActionQuery.Proofs.IsoRoundTrip
import ActionQuery.Proofs.TimeReading

/-!
# Sessions read back what is printed

A session reads a text as a stamp and places the stamp in UTC. Both steps undo the printing of a
stamp with an offset of whole seconds: the text is read as that stamp, and its offset is taken off
what the clock shows. An offset that is smaller than a second is not read back.
-/

namespace ActionQuery

open Calendar (Instant Offset Reckoning Stamp WallTime microsPerSecond)

namespace NominalTime

theorem readStamp_eq_ok_iff {t : Text} {s : Stamp} :
    readStamp t = .ok s ↔
      'T' ∈ Text.trim t ∧ Calendar.Iso.read (expandZulu (Text.trim t)) = .ok s := by
  simp only [readStamp]
  by_cases hmark : 'T' ∈ Text.trim t
  · simp only [hmark, not_true_eq_false, if_false, true_and]
    cases Calendar.Iso.read (expandZulu (Text.trim t)) <;> simp
  · simp [hmark]

theorem expandZulu_concat (t : Text) : expandZulu (t ++ ['Z']) = t ++ "+00:00".toList := by
  rw [expandZulu, if_pos (by simp), List.dropLast_concat]

theorem readStamp_zulu {lead front tail : Text} (hlead : Text.blank lead = true)
    (htail : Text.blank tail = true) {s : Stamp} (h : ∀ o ∈ s.offset, o.IsSpelled)
    (hfront : s.iso = front ++ "+00:00".toList) :
    readStamp (lead ++ (front ++ 'Z' :: tail)) = .ok s.shown := by
  have hshown : ∀ c ∈ front ++ ['Z'], Text.isBlank c = false := by
    intro c hc
    rcases List.mem_append.1 hc with hmem | hz
    · apply Stamp.isBlank_of_mem_iso
      rw [hfront]
      exact List.mem_append_left _ hmem
    · rw [List.mem_singleton.1 hz]
      rfl
  have hmark : 'T' ∈ front := by
    have hmem : 'T' ∈ front ++ "+00:00".toList := hfront ▸ s.mark_mem_marked 'T'
    exact (List.mem_append.1 hmem).resolve_right (by decide)
  have htrim : Text.trim (lead ++ (front ++ 'Z' :: tail)) = front ++ ['Z'] := by
    have hcore := Text.trim_append_of_blank hlead (Text.isTrimmed_of_forall hshown) htail
    rwa [List.append_assoc, List.singleton_append] at hcore
  rw [readStamp_eq_ok_iff, htrim, expandZulu_concat, ← hfront]
  exact ⟨List.mem_append_left _ hmark, Calendar.Iso.read_marked 'T' h⟩

end NominalTime

namespace Calendar.Offset

/-- An offset of whole seconds is read back. -/
theorem isSpelled_of_dvd {o : Offset} (h : (microsPerSecond : Int) ∣ o.micros) : o.IsSpelled := by
  by_cases hzero : o.micros = 0
  · left
    obtain ⟨micros, lower, upper⟩ := o
    change micros = 0 at hzero
    subst hzero
    rfl
  · right
    have hle := Int.natAbs_dvd_natAbs.2 h
    exact Nat.le_of_dvd (Int.natAbs_pos.2 hzero) hle

end Calendar.Offset

namespace Session

variable {p : Session} {zone : Option Text} {text : Text}

theorem toUtc_eq_ok_iff {s : Stamp} {offset : Offset} {i : Instant} :
    toUtc s offset = .ok i ↔ (i.utc.micros : Int) = s.wall.micros - offset.micros := by
  rw [toUtc, ← WallTime.at?_eq_some_iff]
  cases s.wall.at? offset <;> simp

theorem parse_eq_ok_iff {i : Instant} :
    (p.parse text zone).1 = .ok i ↔ ∃ s offset, NominalTime.readStamp text = .ok s ∧
      p.offsetOf zone s = .ok offset ∧ (i.utc.micros : Int) = s.wall.micros - offset.micros := by
  simp only [parse_eq, bind_eq_ok_iff, mapError_eq_ok_iff, toUtc_eq_ok_iff]
  constructor
  · rintro ⟨s, hread, offset, hoffset, hsame⟩
    exact ⟨s, offset, hread, hoffset, hsame⟩
  · rintro ⟨s, offset, hread, hoffset, hsame⟩
    exact ⟨s, hread, offset, hoffset, hsame⟩

theorem parse_of_wall {name : Text} {place : Calendar.Zone} {w : WallTime} {i : Instant}
    (hname : p.zoneFor zone = .ok name) (hplace : Calendar.Zone.resolve name = .ok place)
    (hread : NominalTime.readStamp text = .ok ⟨w, none⟩) (hi : place.instant? w = some i) :
    (p.parse text zone).1 = .ok i := by
  have hoffset : p.offsetOf zone ⟨w, none⟩ = .ok (place.offsetAt w) := by
    simp only [offsetOf, Stamp.offset_local, hname, hplace, bind, Except.bind, Except.mapError,
      pure, Except.pure]
  exact parse_eq_ok_iff.2 ⟨_, _, hread, hoffset, WallTime.at?_eq_some_iff.1 hi⟩

theorem parse_of_utc {s : Stamp} (hread : NominalTime.readStamp text = .ok s)
    (hlocal : s.offset = none) : (p.parse text (some "UTC".toList)).1 = .ok ⟨s.wall⟩ := by
  obtain ⟨w, reckoning⟩ := s
  cases Option.map_eq_none_iff.1 hlocal
  exact parse_of_wall rfl rfl hread w.at?_utc

/-- A stamp is read back from its text as the point of time that it names, whatever stands around it
and whatever the session and the zone: a stamp with an offset of whole seconds by its offset, also
when that of UTC is written as `Z`, and a local one in the zone that is given as UTC. -/
theorem parse_undoes_iso (p : Session) {lead tail : Text} (hlead : Text.blank lead = true)
    (htail : Text.blank tail = true) :
    (∀ (w : WallTime) (r : Reckoning) (i : Instant), (microsPerSecond : Int) ∣ r.offset.micros →
      (i.utc.micros : Int) = w.micros - r.offset.micros → ∀ zone,
        (p.parse (lead ++ (Stamp.iso ⟨w, some r⟩ ++ tail)) zone).1 = .ok i ∧
        ∀ front, Stamp.iso ⟨w, some r⟩ = front ++ "+00:00".toList →
          (p.parse (lead ++ (front ++ 'Z' :: tail)) zone).1 = .ok i) ∧
    ∀ w : WallTime,
      (p.parse (lead ++ (Stamp.iso ⟨w, none⟩ ++ tail)) (some "UTC".toList)).1 = .ok ⟨w⟩ := by
  constructor
  · intro w r i hwhole hsame zone
    have hspelled : ∀ other ∈ (Stamp.mk w (some r)).offset, other.IsSpelled := by
      intro other hother
      rw [← Option.some.inj hother]
      exact Offset.isSpelled_of_dvd hwhole
    have hoffset : (Stamp.shown ⟨w, some r⟩).offset = some r.offset := Stamp.offset_shown _
    have hutc : toUtc (Stamp.shown ⟨w, some r⟩) r.offset = .ok i := toUtc_eq_ok_iff.2 hsame
    constructor
    · rw [parse_of_fixed (NominalTime.readStamp_append_iso hlead htail hspelled) hoffset, hutc]
    · intro front hfront
      rw [parse_of_fixed (NominalTime.readStamp_zulu hlead htail hspelled hfront) hoffset, hutc]
  · intro w
    have hspelled : ∀ other ∈ (Stamp.mk w none).offset, other.IsSpelled := by
      intro other hother
      cases hother
    exact parse_of_utc (NominalTime.readStamp_append_iso hlead htail hspelled) rfl

/-- Half past eleven in the evening of 2000-02-29, and a microsecond. -/
def leapEvening : WallTime :=
  ⟨(Calendar.daysBeforeYear 2000 + 59) * Calendar.microsPerDay +
    (23 * 3600 + 30 * 60) * Calendar.microsPerSecond + 1, by decide⟩

/-- A second after midnight of 2000-03-01, and a microsecond. -/
def leapNight : Instant :=
  ⟨⟨(Calendar.daysBeforeYear 2000 + 60) * Calendar.microsPerDay + Calendar.microsPerSecond + 1,
    by decide⟩⟩

/-- Half an hour and a second to the west. -/
def west : Offset := ⟨-1801000000, by decide, by decide⟩

theorem parse_undoes_iso_leapDay :
    (initial.parse "\n 2000-02-29T23:30:00.000001-00:30:01\t" (some "nowhere".toList)).1 =
        .ok leapNight ∧
      (initial.parse "\n 2000-02-29T23:30:00.000001Z\t" none).1 = .ok ⟨leapEvening⟩ ∧
      (initial.parse "\n 2000-02-29T23:30:00.000001\t" (some "UTC".toList)).1 =
        .ok ⟨leapEvening⟩ := by
  obtain ⟨hfixed, hlocal⟩ := @parse_undoes_iso initial "\n " "\t" (by decide) (by decide)
  have hwest : Stamp.iso ⟨leapEvening, some (.steady west)⟩ =
      "2000-02-29T23:30:00.000001-00:30:01".toList := by decide
  have hutc : Stamp.iso ⟨leapEvening, some (.steady Offset.utc)⟩ =
      "2000-02-29T23:30:00.000001".toList ++ "+00:00".toList := by decide
  have hplain : Stamp.iso ⟨leapEvening, none⟩ = "2000-02-29T23:30:00.000001".toList := by decide
  have hmorning :=
    (hfixed leapEvening (.steady west) leapNight (by decide) (by decide) (some "nowhere".toList)).1
  have hzulu :=
    (hfixed leapEvening (.steady Offset.utc) ⟨leapEvening⟩ (by decide) (by decide) none).2 _ hutc
  have hread := hlocal leapEvening
  rw [hwest] at hmorning
  rw [hplain] at hread
  exact ⟨hmorning, hzulu, hread⟩

end Session

end ActionQuery
