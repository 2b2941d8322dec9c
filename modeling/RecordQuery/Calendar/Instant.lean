import RecordQuery.Calendar.Reading

/-!
# Instants

An instant is a date-time in UTC.

## Literals

The form of a literal is found from its text before it is read. A text of at most ten characters is
a date and means its midnight. A longer text with exactly one colon has hours and minutes; any
other one has seconds too, and behind the first point a count of one to three digits, which are
milliseconds: `.17` is 17 milliseconds.

## Written instants

An instant is written with an offset, and read with any offset of whole minutes under one day. Its
date-time is moved to UTC; a leap second stays one.
-/

namespace RecordQuery

/-- Why a literal is not an instant. Each case carries the literal. -/
inductive InstantError
  | date (literal : Text) (error : CalendarError)
  | dateTime (literal : Text) (error : CalendarError)
  | milliseconds (literal : Text)
  /-- The milliseconds lead out of the range of dates. -/
  | overflow (literal : Text)
  deriving DecidableEq, Repr

/-- The wording of an error. -/
def InstantError.message : InstantError → Text
  | date literal e =>
    "Invalid date: ".toList ++ literal ++ " (".toList ++ e.message ++ [')']
  | dateTime literal e =>
    "Invalid date-time: ".toList ++ literal ++ " (".toList ++ e.message ++ [')']
  | milliseconds literal => "Invalid date-time: ".toList ++ literal ++ " (bad milliseconds)".toList
  | overflow literal => "Invalid date-time: ".toList ++ literal ++ " (overflow)".toList

namespace Instant

/-! ## Literals -/

/-- The longest literal that is read as a date. -/
def mostDateLength : Nat := 10

/-- A count of milliseconds: one to three bytes, all of them digits. -/
def millis? (t : Text) : Option Nat :=
  if t.isEmpty || 3 < t.byteLength || !t.all Char.isDigit then none
  else some (Nat.ofDigitChars 10 t 0)

/-- An error of a part of the literal as an error of the literal. -/
def naming {α : Type} (error : CalendarError → InstantError) :
    Except CalendarError α → Except InstantError α
  | .ok a => .ok a
  | .error e => .error (error e)

/-- Reads a literal. -/
def ofLiteral (t : Text) : Except InstantError DateTime :=
  if t.length ≤ mostDateLength then
    naming (.date t) ((Date.ofText t).map fun d => ⟨d, .midnight⟩)
  else if t.count ':' = 1 then naming (.dateTime t) (DateTime.ofMinuteText t)
  else
    match Text.cut? ['.'] t with
    | none => naming (.dateTime t) (DateTime.ofSecondText t)
    | some (seconds, fraction) => do
      let base ← naming (.dateTime t) (DateTime.ofSecondText seconds)
      match millis? fraction with
      | none => throw (.milliseconds t)
      | some millis =>
        match base.addMillis? millis with
        | none => throw (.overflow t)
        | some instant => pure instant

/-! ## Written instants -/

/-- Takes an offset from UTC in minutes: `Z`, or a sign, two digits of hours, and two digits of
minutes up to 59, with colons or blanks between them. -/
def offset : Reader Int := fun t =>
  match t with
  | 'Z' :: t | 'z' :: t => .ok (0, t)
  | s :: t =>
    if s = '+' || s = '-' || s = '−' then
      match t with
      | a :: b :: t =>
        if !a.isDigit || !b.isDigit then .error .invalid
        else
          let hours := Nat.ofDigitChars 10 [a, b] 0
          match t.dropWhile fun c => c = ':' || isBlank c with
          | c :: d :: t =>
            if !c.isDigit || !d.isDigit then .error .invalid
            else
              let minutes := Nat.ofDigitChars 10 [c, d] 0
              if 60 ≤ minutes then .error .outOfRange
              else
                let total : Int := (hours * 60 + minutes : Nat)
                .ok (if s = '+' then total else -total, t)
          | _ => .error .tooShort
      | _ => .error .tooShort
    else .error .invalid
  | [] => .error .tooShort

/-- Takes the mark between a date and a time of day. -/
def separator : Reader Unit := fun t =>
  match t with
  | [] => .error .tooShort
  | c :: t => if c = 'T' || c = 't' || c = ' ' then .ok ((), t) else .error .invalid

/-- Takes an offset, for which the letters `UTC` in any case may stand as well. -/
def zone : Reader Int := fun t =>
  match t with
  | u :: v :: w :: rest =>
    if [u, v, w].map Char.toUpper = ['U', 'T', 'C'] then .ok (0, rest) else offset t
  | _ => offset t

/-- Minutes of a day, which offsets stay under. -/
def minutesPerDay : Nat := 1440

/-- Reads an instant as it is written in JSON. -/
def ofWritten (t : Text) : Except CalendarError DateTime := do
  let reader : Reader (Reader.DateParts × Reader.TimeParts × Int) := do
    let d ← Reader.date Reader.blanks
    separator
    let time ← Reader.time Reader.blanks
    Reader.blanks
    let z ← zone
    Reader.blanks
    return (d, time, z)
  let (d, time, z) ← reader.whole t
  let wall ← DateTime.ofParts d time
  if minutesPerDay ≤ z.natAbs then throw .outOfRange
  match wall.addMinutes? (-z) with
  | some instant => pure instant
  | none => throw .outOfRange

end Instant

end RecordQuery
