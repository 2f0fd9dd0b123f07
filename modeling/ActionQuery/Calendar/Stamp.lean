import ActionQuery.Calendar.Date
import ActionQuery.Text.Basic

namespace ActionQuery.Calendar

def microsPerSecond : Nat := 1000000

def noFraction : Fin microsPerSecond := ⟨0, by decide⟩

def microsPerDay : Nat := 86400 * microsPerSecond

def spanMicros : Nat := spanDays * microsPerDay

/-- A time of day, to the microsecond. -/
structure Clock where
  hour : Nat
  minute : Nat
  second : Nat
  micro : Nat
  hour_lt : hour < 24
  minute_lt : minute < 60
  second_lt : second < 60
  micro_lt : micro < microsPerSecond
  deriving DecidableEq, Repr

def Clock.midnight : Clock := ⟨0, 0, 0, 0, by decide, by decide, by decide, by decide⟩

def Clock.micros (c : Clock) : Nat :=
  (c.hour * 3600 + c.minute * 60 + c.second) * microsPerSecond + c.micro

theorem Clock.micros_lt (c : Clock) : c.micros < microsPerDay := by
  have := c.hour_lt
  have := c.minute_lt
  have := c.second_lt
  have := c.micro_lt
  simp only [micros, microsPerDay, microsPerSecond] at *
  omega

/-- What a calendar and a clock show somewhere, as microseconds since the start of year 1. -/
structure WallTime where
  micros : Nat
  micros_lt : micros < spanMicros
  deriving DecidableEq, Repr

namespace WallTime

def on (d : Date) (c : Clock) : WallTime where
  micros := d.number * microsPerDay + c.micros
  micros_lt := by
    have hday : (d.number + 1) * microsPerDay ≤ spanDays * microsPerDay :=
      Nat.mul_le_mul_right _ d.number_lt
    have hclock := c.micros_lt
    rw [Nat.add_mul, Nat.one_mul] at hday
    simp only [spanMicros]
    omega

def ofMicros? (n : Int) : Option WallTime :=
  if h : 0 ≤ n ∧ n < spanMicros then some ⟨n.toNat, by omega⟩ else none

def day (w : WallTime) : Nat := w.micros / microsPerDay

def timeOfDay (w : WallTime) : Nat := w.micros % microsPerDay

def year (w : WallTime) : Nat := (civil w.day).1

def month (w : WallTime) : Nat := (civil w.day).2.1

def dayOfMonth (w : WallTime) : Nat := (civil w.day).2.2

def hour (w : WallTime) : Nat := w.timeOfDay / microsPerSecond / 3600

def minute (w : WallTime) : Nat := w.timeOfDay / microsPerSecond / 60 % 60

def second (w : WallTime) : Nat := w.timeOfDay / microsPerSecond % 60

def micro (w : WallTime) : Nat := w.timeOfDay % microsPerSecond

end WallTime

/-- A difference from UTC of less than a day, in microseconds, positive to the east. -/
structure Offset where
  micros : Int
  lower : -(microsPerDay : Int) < micros
  upper : micros < microsPerDay
  deriving DecidableEq, Repr

namespace Offset

def ofMicros? (n : Int) : Option Offset :=
  if h : -(microsPerDay : Int) < n ∧ n < microsPerDay then some ⟨n, h.1, h.2⟩ else none

def utc : Offset := ⟨0, by decide, by decide⟩

def ofMinutes? (n : Int) : Option Offset := ofMicros? (n * 60 * microsPerSecond)

end Offset

/-- A point of time in the years 1 to 9999, by what a clock in UTC shows. -/
structure Instant where
  utc : WallTime
  deriving DecidableEq, Repr

instance : LE Instant := ⟨fun a b => a.utc.micros ≤ b.utc.micros⟩

instance (a b : Instant) : Decidable (a ≤ b) :=
  inferInstanceAs (Decidable (a.utc.micros ≤ b.utc.micros))

/-- The point of time at which a clock with this offset shows `w`, unless UTC then stands outside
the years 1 to 9999. -/
def WallTime.at? (w : WallTime) (offset : Offset) : Option Instant :=
  (WallTime.ofMicros? (w.micros - offset.micros)).map Instant.mk

/-- The clock of a zone as it shows a wall time. The number `zone` tells one clock from another. A
clock that is set back shows some wall times twice, and one that is put forward skips some: `second`
says which of the two times is meant, and `otherwise` is the offset of the other one. -/
structure ZoneClock where
  zone : Nat
  name : Text
  second : Bool
  offset : Offset
  otherwise : Offset
  deriving DecidableEq, Repr

/-- What ties a wall time to UTC: an offset that is always the same, or the clock of a zone. -/
inductive Reckoning where
  | steady (offset : Offset)
  | zoned (clock : ZoneClock)
  deriving DecidableEq, Repr

namespace Reckoning

def offset : Reckoning → Offset
  | steady offset => offset
  | zoned clock => clock.offset

def clock? : Reckoning → Option ZoneClock
  | steady _ => none
  | zoned clock => some clock

end Reckoning

/-- A wall time, fixed to a point of time when it carries an offset and local when it does not. -/
structure Stamp where
  wall : WallTime
  reckoning : Option Reckoning
  deriving DecidableEq, Repr

namespace Stamp

def offset (s : Stamp) : Option Offset := s.reckoning.map Reckoning.offset

def clock? (s : Stamp) : Option ZoneClock := s.reckoning.bind Reckoning.clock?

def isLocal (s : Stamp) : Bool := s.offset.isNone

/-- The place on the time line, a local stamp being placed as if it were in UTC. -/
def position (s : Stamp) : Int := s.wall.micros - (s.offset.getD Offset.utc).micros

def toUtc? (s : Stamp) : Option Instant := s.wall.at? (s.offset.getD Offset.utc)

/-- The two stamps are shown by the clock of one zone. -/
def sharesClock (a b : Stamp) : Bool := a.clock?.any fun c => b.clock?.any fun d => c.zone == d.zone

/-- The wall time alone says which time is meant. -/
def isCertain (s : Stamp) : Bool := s.clock?.all fun c => c.offset == c.otherwise

/-- Two stamps count as the same when one clock shows the same for both, or else when they are one
point of time, about which neither is in doubt. A local stamp and a fixed one never do. -/
def same (a b : Stamp) : Bool :=
  if a.sharesClock b then a.wall == b.wall
  else a.isLocal == b.isLocal && a.position == b.position && a.isCertain && b.isCertain

/-- The order of two stamps, by what their clock shows when they share one. There is none between a
local stamp and a fixed one. -/
def le? (a b : Stamp) : Option Bool :=
  if a.sharesClock b then some (a.wall.micros ≤ b.wall.micros)
  else if a.isLocal = b.isLocal then some (a.position ≤ b.position) else none

@[simp]
theorem offset_local (w : WallTime) : offset ⟨w, none⟩ = none := rfl

@[simp]
theorem offset_steady (w : WallTime) (o : Option Offset) : offset ⟨w, o.map .steady⟩ = o := by
  cases o <;> rfl

variable {a b : Stamp}

/-- Stamps of different clocks stand in the order of the points of time. -/
theorem le?_of_apart (hclock : a.sharesClock b = false) (hlocal : a.isLocal = b.isLocal) :
    a.le? b = some (decide (a.position ≤ b.position)) := by
  simp [le?, hclock, hlocal]

theorem le?_ne_none (hlocal : a.isLocal = b.isLocal) : a.le? b ≠ none := by
  cases hclock : a.sharesClock b <;> simp [le?, hclock, hlocal]

end Stamp

def Instant.toStamp (i : Instant) : Stamp := ⟨i.utc, some (.steady Offset.utc)⟩

namespace Instant

@[simp]
theorem isLocal_toStamp (i : Instant) : i.toStamp.isLocal = false := rfl

theorem position_toStamp (i : Instant) : i.toStamp.position = i.utc.micros := Int.sub_zero _

@[simp]
theorem isCertain_toStamp (i : Instant) : i.toStamp.isCertain = true := rfl

@[simp]
theorem toStamp_sharesClock (i : Instant) (s : Stamp) : i.toStamp.sharesClock s = false := rfl

@[simp]
theorem sharesClock_toStamp (s : Stamp) (i : Instant) : s.sharesClock i.toStamp = false := by
  rw [Stamp.sharesClock]
  cases s.clock? <;> rfl

end Instant

end ActionQuery.Calendar
