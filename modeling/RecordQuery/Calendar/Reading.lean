import RecordQuery.Calendar.DateTime
import RecordQuery.Text.Blank

/-!
# Reading dates and date-times

A reader takes parts of a text from left to right: numbers of limited width, and the marks between
them. It fails at the first part that is not there. What a reader has taken is put together only
when the text is used up, so a text that goes on is refused before a date is found not to exist.

Numbers may have blanks in front of them. A year has up to four digits, or any number of digits
behind a sign; every other number has one or two digits and is held against its range as soon as it
is read.

## Forms

`Reader.date` and `Reader.time` take `gap` as the reader of what may stand around the marks:
nothing in the forms of query literals, blanks in the forms of written values.
-/

namespace RecordQuery

/-- Why a text is not a date or a date-time. -/
inductive CalendarError
  /-- The text ends where something is needed. -/
  | tooShort
  /-- Something else stands where a part is needed. -/
  | invalid
  /-- A number is out of its range, or the date does not exist. -/
  | outOfRange
  /-- The text goes on. -/
  | tooLong
  deriving DecidableEq, Repr

/-- The wording of an error. -/
def CalendarError.message : CalendarError → Text
  | tooShort => "premature end of input".toList
  | invalid => "input contains invalid characters".toList
  | outOfRange => "input is out of range".toList
  | tooLong => "trailing input".toList

/-- Takes a part from the front of a text. -/
abbrev Reader := StateT Text (Except CalendarError)

namespace Reader

/-! ## Parts -/

/-- Skips blanks. -/
def blanks : Reader Unit := modify Text.trimStart

/-- Takes digits, at most `most` of them if there is a limit, and at least one. -/
def digits (most : Option Nat) : Reader Text := fun t =>
  let window := match most with
    | some n => t.take n
    | none => t
  match window.takeWhile Char.isDigit with
  | [] => .error (if t.isEmpty then .tooShort else .invalid)
  | ds => .ok (ds, t.drop ds.length)

/-- Takes a number that fits into 63 bits. -/
def natural (most : Option Nat) : Reader Nat := do
  let n := Nat.ofDigitChars 10 (← digits most) 0
  if n < Nat.pow 2 63 then pure n else throw .outOfRange

/-- Takes a number of one or two digits from a range. -/
def field (least most : Nat) : Reader Nat := do
  blanks
  let n ← natural (some 2)
  if least ≤ n ∧ n ≤ most then pure n else throw .outOfRange

/-- Takes up to four digits, or a sign and any number of digits. -/
def yearNumber : Reader Int := do
  match ← get with
  | '-' :: t =>
    set t
    return -((← natural none : Nat) : Int)
  | '+' :: t =>
    set t
    return (← natural none : Nat)
  | _ => return (← natural (some 4) : Nat)

/-- Takes a year, which fits into 32 bits. -/
def year : Reader Int := do
  blanks
  let y ← yearNumber
  if -Int.pow 2 31 ≤ y ∧ y < Int.pow 2 31 then pure y else throw .outOfRange

/-- Takes a mark. -/
def mark (c : Char) : Reader Unit := fun t =>
  match t with
  | [] => .error .tooShort
  | d :: t => if d = c then .ok ((), t) else .error .invalid

/-- Takes a point and the digits of a fraction, if both are there, as nanoseconds. Digits behind
the ninth are dropped. -/
def fraction : Reader Nat := fun t =>
  match t with
  | '.' :: t =>
    match t.takeWhile Char.isDigit with
    | [] => .ok (0, '.' :: t)
    | ds =>
      let kept := ds.take 9
      .ok (Nat.ofDigitChars 10 kept 0 * Nat.pow 10 (9 - kept.length), t.drop ds.length)
  | _ => .ok (0, t)

/-! ## Forms -/

/-- The parts of a date. -/
structure DateParts where
  year : Int
  month : Nat
  day : Nat
  deriving DecidableEq, Repr

/-- The parts of a time. -/
structure TimeParts where
  hour : Nat
  minute : Nat
  second : Nat
  nano : Nat
  deriving DecidableEq, Repr

/-- Takes year, month and day between hyphens. -/
def date (gap : Reader Unit) : Reader DateParts := do
  let y ← year
  gap
  mark '-'
  let m ← field 1 12
  gap
  mark '-'
  return ⟨y, m, ← field 1 31⟩

/-- Takes hour and minute. -/
def hourMinute (gap : Reader Unit) : Reader (Nat × Nat) := do
  let h ← field 0 23
  gap
  mark ':'
  return (h, ← field 0 59)

/-- Takes hour, minute and second, 60 for a leap second. -/
def hourMinuteSecond (gap : Reader Unit) : Reader TimeParts := do
  let (h, m) ← hourMinute gap
  gap
  mark ':'
  return ⟨h, m, ← field 0 60, 0⟩

/-- Takes hour, minute, second and a fraction. -/
def time (gap : Reader Unit) : Reader TimeParts := do
  let parts ← hourMinuteSecond gap
  return { parts with nano := ← fraction }

/-- Nothing between two parts. -/
def tight : Reader Unit := pure ()

/-- Reads a whole text. -/
def whole (r : Reader α) (t : Text) : Except CalendarError α := do
  let (a, rest) ← r.run t
  if rest.isEmpty then pure a else throw .tooLong

end Reader

/-! ## From parts -/

/-- The date with the given parts. -/
def Reader.DateParts.toDate (p : Reader.DateParts) : Except CalendarError Date :=
  match Date.ofParts? p.year p.month p.day with
  | some d => .ok d
  | none => .error .outOfRange

/-- The date-time with the given parts. -/
def DateTime.ofParts (d : Reader.DateParts) (t : Reader.TimeParts) :
    Except CalendarError DateTime := do
  let date ← d.toDate
  match Time.ofParts? t.hour t.minute t.second t.nano with
  | some time => pure ⟨date, time⟩
  | none => throw .outOfRange

/-! ## Forms of query literals -/

/-- Reads `Y-M-D`. -/
def Date.ofText (t : Text) : Except CalendarError Date := do
  (← (Reader.date Reader.tight).whole t).toDate

namespace DateTime

/-- A date, a `T`, and what `time` takes. -/
def form (gap : Reader Unit) (time : Reader Reader.TimeParts) :
    Reader (Reader.DateParts × Reader.TimeParts) := do
  let d ← Reader.date gap
  gap
  Reader.mark 'T'
  return (d, ← time)

/-- Reads a whole text of a form. -/
def ofForm (gap : Reader Unit) (time : Reader Reader.TimeParts) (t : Text) :
    Except CalendarError DateTime := do
  let (d, time) ← (form gap time).whole t
  ofParts d time

/-- Reads `Y-M-DTh:m`. -/
def ofMinuteText (t : Text) : Except CalendarError DateTime :=
  ofForm Reader.tight (do
    let (h, m) ← Reader.hourMinute Reader.tight
    return ⟨h, m, 0, 0⟩) t

/-- Reads `Y-M-DTh:m:s`. -/
def ofSecondText (t : Text) : Except CalendarError DateTime :=
  ofForm Reader.tight (Reader.hourMinuteSecond Reader.tight) t

/-- Reads `Y-M-DTh:m:s` with an optional fraction, or else `Y-M-DTh:m`. An error is the one of the
second form. -/
def ofText (t : Text) : Except CalendarError DateTime :=
  match ofForm Reader.tight (Reader.time Reader.tight) t with
  | .ok dt => .ok dt
  | .error _ => ofMinuteText t

end DateTime

/-! ## Forms of written values -/

/-- Reads a date as it is written in JSON, blanks around the hyphens allowed. -/
def Date.ofWritten (t : Text) : Except CalendarError Date := do
  let reader : Reader Reader.DateParts := do
    let d ← Reader.date Reader.blanks
    Reader.blanks
    return d
  (← reader.whole t).toDate

/-- Reads a date-time as it is written in JSON, blanks around the marks allowed. -/
def DateTime.ofWritten (t : Text) : Except CalendarError DateTime :=
  DateTime.ofForm Reader.blanks (do
    let time ← Reader.time Reader.blanks
    Reader.blanks
    return time) t

end RecordQuery
