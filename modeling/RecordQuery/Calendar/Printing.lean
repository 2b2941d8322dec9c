import RecordQuery.Calendar.DateTime
import RecordQuery.Text.Basic

/-!
# Writing dates and date-times

Years from 0 to 9999 have four digits; other years have a sign and at least four digits. A leap
second is written as second 60.
-/

namespace RecordQuery

/-- A year. -/
def yearText (year : Int) : Text :=
  if 0 ≤ year ∧ year ≤ 9999 then Text.ofNatPadded 4 year.natAbs
  else (if year < 0 then '-' else '+') :: Text.ofNatPadded 4 year.natAbs

/-- A date. -/
def Date.text (d : Date) : Text :=
  yearText d.year ++ ['-'] ++ Text.ofNatPadded 2 d.month ++ ['-'] ++ Text.ofNatPadded 2 d.day

namespace Time

/-- Hour, minute and second. -/
def clockText (t : Time) : Text :=
  Text.ofNatPadded 2 t.hour ++ [':'] ++ Text.ofNatPadded 2 t.minute ++ [':']
    ++ Text.ofNatPadded 2 t.second

/-- The fraction of the second: nothing, or three, six or nine digits, the fewest that are
exact. -/
def fractionText (t : Time) : Text :=
  if t.nano = 0 then []
  else if t.nano % 1000000 = 0 then '.' :: Text.ofNatPadded 3 (t.nano / 1000000)
  else if t.nano % 1000 = 0 then '.' :: Text.ofNatPadded 6 (t.nano / 1000)
  else '.' :: Text.ofNatPadded 9 t.nano

end Time

namespace DateTime

/-- A date-time with the fewest digits of a fraction that are exact. -/
def text (t : DateTime) : Text :=
  t.date.text ++ ['T'] ++ t.time.clockText ++ t.time.fractionText

/-- An instant to the millisecond; the rest of the fraction is cut off. -/
def millisText (t : DateTime) : Text :=
  t.date.text ++ ['T'] ++ t.time.clockText ++ ['.']
    ++ Text.ofNatPadded 3 (t.time.nano / 1000000) ++ ['Z']

/-- An instant with the fewest digits of a fraction that are exact. -/
def zonedText (t : DateTime) : Text := t.text ++ ['Z']

end DateTime

end RecordQuery
