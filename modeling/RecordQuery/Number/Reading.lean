import RecordQuery.Number.Decimal

/-!
# Reading numbers

Integers are an optional sign and decimal digits, leading zeros included, within bounds. The text
is judged from the left: the first character that is no digit, or the first digit that leaves the
bounds, decides the error.

Floating-point numbers are an optional sign, digits with an optional point among or around them,
and an optional exponent; or one of the words for infinity and NaN in any case. They are rounded
once, to the format asked for.
-/

namespace RecordQuery

/-- Why a text is not an integer within its bounds. -/
inductive IntegerError
  | empty
  | invalidDigit
  | tooLarge
  | tooSmall
  deriving DecidableEq, Repr

/-- Why a text is not a floating-point number. -/
inductive FloatError
  | empty
  | invalid
  deriving DecidableEq, Repr

namespace IntegerError

/-- The wording of the error. -/
def message : IntegerError → Text
  | empty => "cannot parse integer from empty string".toList
  | invalidDigit => "invalid digit found in string".toList
  | tooLarge => "number too large to fit in target type".toList
  | tooSmall => "number too small to fit in target type".toList

end IntegerError

namespace FloatError

/-- The wording of the error. -/
def message : FloatError → Text
  | empty => "cannot parse float from empty string".toList
  | invalid => "invalid float literal".toList

end FloatError

/-- The value of a decimal digit. -/
def digitValue (c : Char) : Nat := c.toNat - '0'.toNat

namespace Text

/-! ## Integers -/

/-- Reads digits on from `value`, upwards or downwards from zero, within `[lower, upper]`. -/
def readDigits (lower upper : Int) (negative : Bool) (value : Int) :
    Text → Except IntegerError Int
  | [] => .ok value
  | c :: t =>
    if c.isDigit then
      let next := if negative then value * 10 - digitValue c else value * 10 + digitValue c
      if upper < next then .error .tooLarge
      else if next < lower then .error .tooSmall
      else readDigits lower upper negative next t
    else .error .invalidDigit

/-- Reads an integer within `[lower, upper]`. A sign alone is not a number. -/
def readInt (lower upper : Int) : Text → Except IntegerError Int
  | [] => .error .empty
  | ['+'] | ['-'] => .error .invalidDigit
  | '+' :: t => readDigits lower upper false 0 t
  | '-' :: t => readDigits lower upper true 0 t
  | t => readDigits lower upper false 0 t

/-! ## Floating-point numbers -/

/-- Whether two texts agree up to the case of ASCII letters. -/
def sameLetters (s t : Text) : Bool := s.map Char.toLower == t.map Char.toLower

/-- An exponent: a sign and digits, at least one. -/
def readExponent? (t : Text) : Option Int :=
  let (negative, digits) := match t with
    | '-' :: r => (true, r)
    | '+' :: r => (false, r)
    | _ => (false, t)
  if digits.isEmpty || !digits.all Char.isDigit then none
  else
    let n : Int := (Nat.ofDigitChars 10 digits 0 : Nat)
    some (if negative then -n else n)

/-- The unsigned part of a floating-point number: digits on at least one side of the point, then
an exponent if there is an `e`. -/
def readMagnitude? (f : FloatFormat) (negative : Bool) (t : Text) : Option Binary :=
  if sameLetters t "inf".toList || sameLetters t "infinity".toList then some (.infinite negative)
  else if sameLetters t "nan".toList then some .nan
  else
    let whole := t.takeWhile Char.isDigit
    let (fraction, rest) := match t.dropWhile Char.isDigit with
      | '.' :: r => (r.takeWhile Char.isDigit, r.dropWhile Char.isDigit)
      | r => ([], r)
    if whole.isEmpty && fraction.isEmpty then none
    else
      let exponent? := match rest with
        | [] => some 0
        | 'e' :: r | 'E' :: r => readExponent? r
        | _ => none
      exponent?.map fun exponent =>
        f.ofDecimal negative (Nat.ofDigitChars 10 (whole ++ fraction) 0)
          (exponent - fraction.length)

/-- Reads a floating-point number of a format. -/
def readFloat (f : FloatFormat) : Text → Except FloatError Binary
  | [] => .error .empty
  | '-' :: t => of (readMagnitude? f true t)
  | '+' :: t => of (readMagnitude? f false t)
  | t => of (readMagnitude? f false t)
where
  /-- A magnitude that could not be read is an invalid literal. -/
  of : Option Binary → Except FloatError Binary
    | some x => .ok x
    | none => .error .invalid

end Text

end RecordQuery
