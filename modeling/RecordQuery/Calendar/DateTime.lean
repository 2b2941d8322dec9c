import RecordQuery.Calendar.Date

/-!
# Times of day and date-times

A time of day has a second from 0 to 60. Second 60 is a leap second: it may follow any minute, and
it lies between second 59 and the next minute in the order. So the order of times is the order of
their parts, largest first, leap seconds included.

## Moving

Moving by seconds counts every minute as sixty seconds. A leap second that is left forwards counts
as second 59, and one that is left backwards as the second after it. Moving by minutes, as a change
of zone does, keeps the second and therefore the leap second.

A result outside the range of dates is none.

## Main results

* `DateTime.addSeconds?_zero`, `DateTime.addNanos?_eq_some`: what stays within a second is always
  in range
-/

namespace RecordQuery

/-- A time of day. -/
structure Time where
  hour : Nat
  minute : Nat
  second : Nat
  nano : Nat
  hour_lt : hour < 24
  minute_lt : minute < 60
  second_le : second ≤ 60
  nano_lt : nano < 1000000000
  deriving DecidableEq, Repr

namespace Time

/-- The time with the given parts, if each is in its range. -/
def ofParts? (hour minute second nano : Nat) : Option Time :=
  if h : hour < 24 ∧ minute < 60 ∧ second ≤ 60 ∧ nano < 1000000000 then
    some ⟨hour, minute, second, nano, h.1, h.2.1, h.2.2.1, h.2.2.2⟩
  else none

/-- Midnight. -/
def midnight : Time := ⟨0, 0, 0, 0, by decide, by decide, by decide, by decide⟩

/-- The time so many seconds after midnight, in a day of 86400 seconds. -/
def ofSecondOfDay (seconds nano : Nat) (hnano : nano < 1000000000) : Time where
  hour := seconds / 3600 % 24
  minute := seconds / 60 % 60
  second := seconds % 60
  nano := nano
  hour_lt := Nat.mod_lt _ (by decide)
  minute_lt := Nat.mod_lt _ (by decide)
  second_le := Nat.le_of_lt (Nat.mod_lt _ (by decide))
  nano_lt := hnano

/-- The seconds since midnight. A leap second counts as the second before it. -/
def secondOfDay (t : Time) : Nat := t.hour * 3600 + t.minute * 60 + min t.second 59

/-- Whether the time lies in a leap second. -/
def isLeapSecond (t : Time) : Bool := t.second = 60

/-- The parts of a time, largest first. -/
def key (t : Time) : List Int := [t.hour, t.minute, t.second, t.nano]

end Time

/-- A time of day on a date. -/
structure DateTime where
  date : Date
  time : Time
  deriving DecidableEq, Repr

namespace DateTime

/-- The parts of a date-time, largest first. Date-times are ordered as these lists are. -/
def key (t : DateTime) : List Int := t.date.key ++ t.time.key

/-- The seconds from the beginning of 1970 to a date-time. A leap second counts as the second
before it. -/
def unixSeconds (t : DateTime) : Int := t.date.dayNumber * 86400 + t.time.secondOfDay

/-- The nanoseconds after `unixSeconds`, a whole second more in a leap second. -/
def unixNanos (t : DateTime) : Nat :=
  if t.time.isLeapSecond then t.time.nano + 1000000000 else t.time.nano

/-! ## Moving -/

/-- The date-time so many seconds after midnight of a date, before or after that day if need be. -/
def ofSeconds? (date : Date) (seconds : Int) (nano : Nat) (hnano : nano < 1000000000) :
    Option DateTime :=
  (date.addDays? (seconds / 86400)).map fun date =>
    ⟨date, .ofSecondOfDay (seconds % 86400).toNat nano hnano⟩

/-- The date-time a number of seconds later, or earlier if the number is negative. -/
def addSeconds? (t : DateTime) (seconds : Int) : Option DateTime :=
  if seconds = 0 then some t
  else
    let leap : Nat := if t.time.isLeapSecond && seconds < 0 then 1 else 0
    ofSeconds? t.date (t.time.secondOfDay + leap + seconds) t.time.nano t.time.nano_lt

/-- The date-time a number of nanoseconds later. -/
def addNanos? (t : DateTime) (nanos : Nat) : Option DateTime :=
  let total := t.time.nano + nanos
  let fraction : Time := { t.time with
    nano := total % 1000000000
    nano_lt := Nat.mod_lt _ (by decide) }
  addSeconds? ⟨t.date, fraction⟩ (total / 1000000000 : Nat)

/-- The date-time a number of milliseconds later. -/
def addMillis? (t : DateTime) (millis : Nat) : Option DateTime := t.addNanos? (millis * 1000000)

/-- The date-time a number of minutes later, or earlier if the number is negative, at the same
second. -/
def addMinutes? (t : DateTime) (minutes : Int) : Option DateTime :=
  let total : Int := t.time.hour * 60 + t.time.minute + minutes
  (t.date.addDays? (total / 1440)).map fun date =>
    ⟨date, { t.time with
      hour := (total % 1440).toNat / 60
      minute := (total % 1440).toNat % 60
      hour_lt := by omega
      minute_lt := Nat.mod_lt _ (by decide) }⟩

@[simp] theorem addSeconds?_zero (t : DateTime) : t.addSeconds? 0 = some t := rfl

theorem addNanos?_eq_some (t : DateTime) {nanos : Nat} (h : t.time.nano + nanos < 1000000000) :
    t.addNanos? nanos =
      some ⟨t.date, { t.time with nano := t.time.nano + nanos, nano_lt := h }⟩ := by
  simp only [addNanos?, Nat.div_eq_of_lt h, Nat.mod_eq_of_lt h]
  rfl

end DateTime

end RecordQuery
