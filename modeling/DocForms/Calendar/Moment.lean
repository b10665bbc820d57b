import DocForms.Calendar.Date

/-! Times of day, offsets from universal time, and moments: a day with a time and perhaps an
offset. -/
namespace DocForms

/-- A time of day in microsecond steps. -/
structure TimeOfDay where
  hour : Nat
  minute : Nat
  second : Nat
  micro : Nat
  inRange : hour < 24 ∧ minute < 60 ∧ second < 60 ∧ micro < 1000000
deriving DecidableEq

/-- A distance from universal time of less than a day, in microseconds. -/
structure Offset where
  micros : Int
  inRange : micros.natAbs < 86400000000
deriving DecidableEq

/-- A day and a time, at a known offset or at none. -/
structure Moment where
  date : Date
  time : TimeOfDay
  offset : Option Offset
deriving DecidableEq

namespace TimeOfDay

/-- The time with the given numbers, if there is one. -/
def ofNumbers? (hour minute second micro : Nat) : Option TimeOfDay :=
  if h : hour < 24 ∧ minute < 60 ∧ second < 60 ∧ micro < 1000000 then
    some ⟨hour, minute, second, micro, h⟩
  else none

/-- Midnight. -/
def midnight : TimeOfDay := ⟨0, 0, 0, 0, by decide⟩

/-- Microseconds since midnight. -/
def micros (t : TimeOfDay) : Nat :=
  ((t.hour * 60 + t.minute) * 60 + t.second) * 1000000 + t.micro

instance : Inhabited TimeOfDay := ⟨midnight⟩

end TimeOfDay

namespace Offset

/-- The offset of so many microseconds, if it is shorter than a day. -/
def ofMicros? (n : Int) : Option Offset :=
  if h : n.natAbs < 86400000000 then some ⟨n, h⟩ else none

/-- Universal time itself. -/
def utc : Offset := ⟨0, by decide⟩

instance : Inhabited Offset := ⟨utc⟩

end Offset

namespace Moment

/-- Microseconds since the beginning of the calendar on the clock that the moment is given in. -/
def clockMicros (m : Moment) : Int := (m.date.ordinal : Int) * 86400000000 + m.time.micros

/-- Whether two moments are the same: both at an offset and at the same instant, or both without
offset and with the same day and time. -/
def same (a b : Moment) : Bool :=
  match a.offset, b.offset with
  | none, none => a.clockMicros == b.clockMicros
  | some p, some q => a.clockMicros - p.micros == b.clockMicros - q.micros
  | _, _ => false

instance : Inhabited Moment := ⟨⟨default, default, none⟩⟩

end Moment
end DocForms
