import RecordQuery.Calendar.DateTime

/-!
# Zone offsets

An offset of a zone from UTC, in seconds towards the east, less than a day either way. A local
date-time lies in UTC as many seconds earlier as its zone lies east.
-/

namespace RecordQuery

/-- An offset of less than a day. -/
structure ZoneOffset where
  /-- Seconds towards the east. -/
  seconds : Int
  lt_day : seconds.natAbs < 86400
  deriving DecidableEq, Repr

namespace ZoneOffset

/-- The offset of UTC. -/
def utc : ZoneOffset := ⟨0, by decide⟩

instance : Inhabited ZoneOffset := ⟨utc⟩

/-- An offset of so many seconds, if that is less than a day. -/
def ofSeconds? (seconds : Int) : Option ZoneOffset :=
  if h : seconds.natAbs < 86400 then some ⟨seconds, h⟩ else none

/-- The date-time in UTC when clocks in the zone show `wall`, if dates reach that far. -/
def toUtc? (offset : ZoneOffset) (wall : DateTime) : Option DateTime :=
  wall.addSeconds? (-offset.seconds)

end ZoneOffset

end RecordQuery
