/-!
# Dates

Dates of the proleptic Gregorian calendar, year zero and negative years included, within a fixed
range of years. A `Date` carries the proof that it exists, so no function on dates has to ask.

## Steps and numbers

`next?` and `previous?` are the neighbours of a date, and `addDays?` repeats them. `dayNumber`
counts the days since the first of January 1970; it is the measure in which a step is one.

## Main results

* `Date.ofParts?_eq_some_iff`: a date is made exactly from the parts of an existing date
-/

namespace RecordQuery

/-- The first year that dates reach. -/
def leastYear : Int := -262143

/-- The last year that dates reach. -/
def mostYear : Int := 262142

/-- Whether a year has a 29th of February. -/
def isLeapYear (year : Int) : Bool := year % 4 = 0 && (year % 100 ≠ 0 || year % 400 = 0)

/-- The length of a month. -/
def daysInMonth (year : Int) (month : Nat) : Nat :=
  match month with
  | 2 => if isLeapYear year then 29 else 28
  | 4 | 6 | 9 | 11 => 30
  | _ => 31

/-- The days of a year before a month. -/
def daysBeforeMonth (year : Int) (month : Nat) : Nat :=
  (List.range (month - 1)).foldl (fun days k => days + daysInMonth year (k + 1)) 0

/-- A date of the calendar. -/
structure Date where
  year : Int
  month : Nat
  day : Nat
  year_mem : leastYear ≤ year ∧ year ≤ mostYear
  month_mem : 1 ≤ month ∧ month ≤ 12
  day_mem : 1 ≤ day ∧ day ≤ daysInMonth year month
  deriving DecidableEq, Repr

theorem le_daysInMonth (year : Int) (month : Nat) : 28 ≤ daysInMonth year month := by
  unfold daysInMonth
  split
  · split <;> omega
  all_goals omega

theorem daysInMonth_le (year : Int) (month : Nat) : daysInMonth year month ≤ 31 := by
  unfold daysInMonth
  split
  · split <;> omega
  all_goals omega

namespace Date

/-- The date with the given parts, if it exists. -/
def ofParts? (year : Int) (month day : Nat) : Option Date :=
  if h : (leastYear ≤ year ∧ year ≤ mostYear) ∧ (1 ≤ month ∧ month ≤ 12) ∧
      1 ≤ day ∧ day ≤ daysInMonth year month then
    some ⟨year, month, day, h.1, h.2.1, h.2.2⟩
  else none

theorem ofParts?_eq_some_iff {year : Int} {month day : Nat} {d : Date} :
    ofParts? year month day = some d ↔ d.year = year ∧ d.month = month ∧ d.day = day := by
  constructor
  · intro h
    unfold ofParts? at h
    split at h
    · cases h
      simp
    · simp at h
  · rintro ⟨rfl, rfl, rfl⟩
    simp [ofParts?, d.year_mem, d.month_mem, d.day_mem]

/-! ## Neighbours -/

/-- The day after a date. -/
def next? (d : Date) : Option Date :=
  if d.day < daysInMonth d.year d.month then ofParts? d.year d.month (d.day + 1)
  else if d.month < 12 then ofParts? d.year (d.month + 1) 1
  else ofParts? (d.year + 1) 1 1

/-- The day before a date. -/
def previous? (d : Date) : Option Date :=
  if 1 < d.day then ofParts? d.year d.month (d.day - 1)
  else if 1 < d.month then
    ofParts? d.year (d.month - 1) (daysInMonth d.year (d.month - 1))
  else ofParts? (d.year - 1) 12 31

/-- Repeats a step. -/
def steps? (step : Date → Option Date) : Nat → Date → Option Date
  | 0, d => some d
  | n + 1, d => (step d).bind (steps? step n)

/-- The date a number of days later, or earlier if the number is negative. -/
def addDays? (d : Date) : Int → Option Date
  | .ofNat n => steps? next? n d
  | .negSucc n => steps? previous? (n + 1) d

/-! ## Numbers -/

/-- The days from the first of January 1970 to a date. -/
def dayNumber (d : Date) : Int :=
  let y := d.year - 1
  365 * y + y / 4 - y / 100 + y / 400 + daysBeforeMonth d.year d.month + d.day - 719163

/-- The parts of a date, largest first. Dates are ordered as these lists are. -/
def key (d : Date) : List Int := [d.year, d.month, d.day]

end Date

end RecordQuery
