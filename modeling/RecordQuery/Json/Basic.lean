import RecordQuery.Json.Document
import RecordQuery.Number.Decimal

/-!
# JSON values

A value has its objects sorted by key, each key once: of repeated keys the last one counts. A
number is an integer where the digits say so and it fits into 64 bits, signed or unsigned, and a
floating-point number otherwise.

## Numbers

The significand is read as long as it fits into 64 bits; the digits behind it are counted but not
read. It is rounded once, then scaled by one power of ten, which rounds again. This is fast and
nearly exact; where it differs from the nearest number, it is the result of this rule that counts.
A number that leaves the range upwards is refused.
-/

namespace RecordQuery.Json

/-- A number: an integer, or a floating-point number of a format. -/
inductive Number
  | integer (value : Int)
  | real (format : FloatFormat) (value : Binary)
  deriving DecidableEq, Repr

end Json

/-- A JSON value. -/
inductive Json
  | null
  | bool (value : Bool)
  | number (value : Json.Number)
  | string (value : Text)
  | array (items : List Json)
  | object (members : List (Text × Json))

namespace Json

/-! ## Numbers -/

namespace Numeral

/-- The largest significand that is read. -/
def mostSignificand : Nat := Nat.pow 2 64 - 1

/-- The largest exponent that is told apart from larger ones. -/
def mostExponent : Int := Int.pow 2 31 - 1

/-- Reads digits on from a significand as long as it stays in bounds, and gives the digits that
are left over. -/
def extend (significand : Nat) : Text → Nat × Text
  | [] => (significand, [])
  | c :: t =>
    let next := significand * 10 + (c.toNat - '0'.toNat)
    if next ≤ mostSignificand then extend next t else (significand, c :: t)

/-- Powers of ten up to this one are numbers of the double format. -/
def mostPower : Nat := 308

/-- Scales by a power of ten. Far below the range the number is divided in steps, until it
vanishes. -/
def scale? (x : Binary) (exponent : Int) : Option Binary :=
  if exponent.natAbs ≤ mostPower then
    let power := FloatFormat.double.tenPow exponent.natAbs
    if 0 ≤ exponent then
      let y := x.mul .double power
      if y.isFinite then some y else none
    else some (x.div .double power)
  else if x.isZero then some x
  else if 0 ≤ exponent then none
  else scale? (x.div .double (FloatFormat.double.tenPow mostPower)) (exponent + mostPower)
termination_by exponent.natAbs
decreasing_by simp only [mostPower] at *; omega

/-- The floating-point number of a significand and a power of ten. -/
def real? (negative : Bool) (significand : Nat) (exponent : Int) : Option Number :=
  (scale? (FloatFormat.double.round false significand 1) exponent).map fun x =>
    .real .double (if negative then x.negate else x)

/-- The number that digits stand for. -/
def number? (n : Numeral) : Option Number :=
  let (significand, unread) := extend 0 n.whole
  let (significand, unreadFraction) := extend significand n.fraction
  let exponent : Int := unread.length - (n.fraction.length - unreadFraction.length : Nat)
  match n.exponent with
  | some (negative, digits) =>
    let written : Int := (Nat.ofDigitChars 10 digits 0 : Nat)
    if mostExponent < written then
      if significand = 0 || negative then
        some (.real .double (.finite n.negative 0 FloatFormat.double.lowest))
      else none
    else real? n.negative significand (exponent + if negative then -written else written)
  | none =>
    if !n.fraction.isEmpty || !unread.isEmpty then real? n.negative significand exponent
    else if !n.negative then some (.integer significand)
    else if significand = 0 || Nat.pow 2 63 < significand then real? true significand 0
    else some (.integer (-significand))

end Numeral

/-! ## Objects -/

/-- Puts a member into its place among sorted members, instead of one with the same key. -/
def insertMember (key : Text) (value : Json) : List (Text × Json) → List (Text × Json)
  | [] => [(key, value)]
  | (k, v) :: later =>
    if key = k then (key, value) :: later
    else if key.codes < k.codes then (key, value) :: (k, v) :: later
    else (k, v) :: insertMember key value later

/-- The object with the given members, the last one of each key. -/
def ofMembers (members : List (Text × Json)) : Json :=
  .object (members.foldl (fun sorted (k, v) => insertMember k v sorted) [])

/-! ## From documents -/

/-- The value of a document that opens at most `room` containers at once. -/
def ofDocument? : Nat → Document → Option Json
  | _, .null => some .null
  | _, .bool b => some (.bool b)
  | _, .number n => n.number?.map .number
  | _, .string units => (StringUnit.text? units).map .string
  | 0, .array _ => none
  | 0, .object _ => none
  | room + 1, .array items => (items.mapM (ofDocument? room)).map .array
  | room + 1, .object members =>
    (members.mapM fun (units, v) => do
      return (← StringUnit.text? units, ← ofDocument? room v)).map ofMembers

/-- The value that a text stands for. -/
def ofText? (t : Text) : Option Json := (Document.ofText? t).bind (ofDocument? maxDepth)

/-- The value of a key of an object. -/
def field? (key : Text) : Json → Option Json
  | object members => members.lookup key
  | _ => none

end Json

end RecordQuery
