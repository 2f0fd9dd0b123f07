import ActionQuery.Proofs.Elements
import ActionQuery.Session

/-!
# How a nominal time is read

A time is read in three steps: from the text to what a clock shows, from there to the offset of that
clock, and then to UTC. Only the second step may ask for the settings, and settings that it keeps are
those that it would read again. So a session reads times in one way, however many it has read.
-/

namespace ActionQuery

open Calendar (Instant Offset Stamp)

namespace Session

variable {p : Session} {zone : Option Text} {text : Text}

/-- The name of the zone that a local time is placed in: the one that is given, or else that of the
settings. -/
def zoneFor (p : Session) : Option Text → Except Rejection Text
  | some name => .ok name
  | none => p.settings.1.map Settings.zone

/-- The offset of the clock that showed a stamp: its own, or else that of the zone. -/
def offsetOf (p : Session) (zone : Option Text) (s : Stamp) : Except Rejection Offset :=
  match s.offset with
  | some offset => .ok offset
  | none => do
    let name ← p.zoneFor zone
    let place ← (Calendar.Zone.resolve name).mapError fun reason =>
      .fault (NominalTime.Error.noZone reason).toFault
    return place.offsetAt s.wall

/-- The point of time at which a clock with this offset shows a stamp. -/
def toUtc (s : Stamp) (offset : Offset) : Except Rejection Instant :=
  (s.wall.at? offset).elim (.error (.fault .timeOutOfRange)) .ok

theorem settleIn_of_fixed {s : Stamp} {offset : Offset} (h : s.offset = some offset) (name : Text) :
    settleIn name s = toUtc s offset := by
  simp only [settleIn, NominalTime.settle, h, toUtc]
  cases s.wall.at? offset <;> rfl

theorem settleIn_of_local {s : Stamp} (h : s.offset = none) (name : Text) :
    settleIn name s = (do
      let place ← (Calendar.Zone.resolve name).mapError fun reason =>
        .fault (NominalTime.Error.noZone reason).toFault
      toUtc s (place.offsetAt s.wall)) := by
  simp only [settleIn, NominalTime.settle, h]
  cases Calendar.Zone.resolve name with
  | error reason => rfl
  | ok place =>
      have hplace : place.instant? s.wall = s.wall.at? (place.offsetAt s.wall) := rfl
      simp only [hplace]
      change _ = toUtc s (place.offsetAt s.wall)
      rw [toUtc]
      cases s.wall.at? (place.offsetAt s.wall) <;> rfl

/-- The three steps in which a time is read. -/
theorem parse_eq (p : Session) (text : Text) (zone : Option Text) :
    (p.parse text zone).1 = (do
      let stamp ← (NominalTime.readStamp text).mapError fun e => .fault e.toFault
      let offset ← p.offsetOf zone stamp
      toUtc stamp offset) := by
  rw [parse]
  cases NominalTime.readStamp text with
  | error e => rfl
  | ok stamp =>
      change _ = p.offsetOf zone stamp >>= toUtc stamp
      cases hoffset : stamp.offset with
      | some offset =>
          have hfixed : stamp.isLocal = false := by simp [Stamp.isLocal, hoffset]
          simp only [offsetOf, hoffset, hfixed, Bool.false_eq_true, if_false]
          cases zone <;> exact settleIn_of_fixed hoffset _
      | none =>
          have hlocal : stamp.isLocal = true := by simp [Stamp.isLocal, hoffset]
          simp only [offsetOf, hoffset, hlocal, if_true, bind_assoc, pure_bind]
          cases zone with
          | some name => exact settleIn_of_local hoffset name
          | none =>
              simp only [zoneFor]
              rcases p.settings with ⟨result, q⟩
              cases result with
              | error e => rfl
              | ok settings => exact settleIn_of_local hoffset settings.zone

/-- A time with an offset is placed by it, and neither a zone nor the settings count. -/
theorem parse_of_fixed {s : Stamp} {offset : Offset} (hread : NominalTime.readStamp text = .ok s)
    (hoffset : s.offset = some offset) : (p.parse text zone).1 = toUtc s offset := by
  have hknown : p.offsetOf zone s = .ok offset := by
    rw [offsetOf, hoffset]
  rw [parse_eq, hread]
  change p.offsetOf zone s >>= toUtc s = _
  rw [hknown]
  rfl

theorem settings_of_settings (p : Session) : p.settings.2.settings.1 = p.settings.1 := by
  cases hcache : p.cache with
  | some kept => simp only [settings, hcache]
  | none =>
      cases hload : Settings.load [] p.environment with
      | error e => simp only [settings, hcache, hload]
      | ok read => simp only [settings, hcache, hload]

theorem parse_snd (p : Session) (text : Text) (zone : Option Text) :
    (p.parse text zone).2 = p ∨ (p.parse text zone).2 = p.settings.2 := by
  unfold parse
  split
  · exact Or.inl rfl
  · split
    · exact Or.inl rfl
    · split
      · rcases p.settings with ⟨_ | _, _⟩ <;> exact Or.inr rfl
      · exact Or.inl rfl

theorem parse_of_settings {settings : Settings} (h : p.settings.1 = .ok settings) :
    (p.parse text none).1 =
      (NominalTime.parse settings.zone text).mapError fun e => .fault e.toFault := by
  rw [parse, NominalTime.parse]
  cases NominalTime.readStamp text with
  | error e => rfl
  | ok stamp =>
      change _ = settleIn settings.zone stamp
      cases hoffset : stamp.offset with
      | some offset =>
          have hfixed : stamp.isLocal = false := by simp [Stamp.isLocal, hoffset]
          simp only [hfixed, Bool.false_eq_true, if_false, settleIn_of_fixed hoffset]
      | none =>
          have hlocal : stamp.isLocal = true := by simp [Stamp.isLocal, hoffset]
          simp only [hlocal, if_true]
          rcases hsettings : p.settings with ⟨result, q⟩
          rw [hsettings] at h
          simp only at h
          rw [h]

/-- A session whose settings can be read places local times in their zone. -/
theorem reader_of_settings {settings : Settings} (h : p.settings.1 = .ok settings) :
    p.reader = NominalTime.reader settings.zone := by
  funext text
  rw [reader, readerIn, parse_of_settings h, NominalTime.reader]
  cases NominalTime.parse settings.zone text <;> rfl

example : initial.reader = NominalTime.reader Settings.usual.zone := reader_of_settings rfl

theorem readerIn_eq_error_iff {reason : Fault} :
    p.readerIn zone text = .error reason ↔
      ∃ e, (p.parse text zone).1 = .error e ∧ e.toFault = reason := by
  rw [readerIn, mapError_eq_error_iff]
  simp only [map_eq_error_iff]

theorem readerIn_eq_ok_iff {time : Stamp} :
    p.readerIn zone text = .ok time ↔ ∃ i, (p.parse text zone).1 = .ok i ∧ i.toStamp = time := by
  rw [readerIn, mapError_eq_ok_iff, map_eq_ok_iff]

theorem isLocal_of_readerIn {time : Stamp} (h : p.readerIn zone text = .ok time) :
    time.isLocal = false := by
  obtain ⟨instant, _, rfl⟩ := readerIn_eq_ok_iff.1 h
  rfl

end Session

end ActionQuery
