/-!
# Binary floating-point numbers

A finite floating-point number is a sign, a significand and an exponent of two; beside those there
are two infinities and one NaN. The arithmetic is exact: a result is computed as a quotient of
natural numbers and rounded once, to the nearest number of the format, a tie going to the even
significand. So every operation here is an ordinary function on naturals and integers.

## Formats

`FloatFormat.single` and `FloatFormat.double` are the two interchange formats of 32 and 64 bits. A
format is given by the number of bits of its significands and the range of exponents of their last
place.

## Main results

* `Binary.compare?_eq_none_iff`: only a NaN is without an order
-/

namespace RecordQuery

/-- The interchange formats of 32 and 64 bits. -/
inductive FloatFormat
  | single
  | double
  deriving DecidableEq, Repr

/-- A floating-point number. Zero has significand zero and keeps its sign. -/
inductive Binary
  | nan
  | infinite (negative : Bool)
  | finite (negative : Bool) (significand : Nat) (exponent : Int)
  deriving DecidableEq, Repr

/-! ## Rounding -/

/-- The whole number nearest to `n / d`; half way, the even one of the two. -/
def roundHalfEven (n d : Nat) : Nat :=
  let q := n / d
  let r := n % d
  if d < 2 * r || (2 * r = d && q % 2 = 1) then q + 1 else q

namespace FloatFormat

/-- Bits of a significand, the leading one included. -/
def precision : FloatFormat → Nat
  | single => 24
  | double => 53

/-- The smallest exponent of a last place. -/
def lowest : FloatFormat → Int
  | single => -149
  | double => -1074

/-- The largest exponent of a last place. -/
def highest : FloatFormat → Int
  | single => 104
  | double => 971

/-- Bits of the whole interchange form. -/
def width : FloatFormat → Nat
  | single => 32
  | double => 64

/-- The quotient `n / d` in units of `2 ^ e`, as numerator and denominator. -/
def inUnits (n d : Nat) (e : Int) : Nat × Nat :=
  if 0 ≤ e then (n, d * Nat.pow 2 e.toNat) else (n * Nat.pow 2 (-e).toNat, d)

/-- The exponent at which `n / d` has a significand of full precision, or the lowest exponent for
numbers below that. `n / d` lies between two powers of two whose exponents differ by two, so there
are only two candidates. -/
def exponentFor (f : FloatFormat) (n d : Nat) : Int :=
  let e := max f.lowest ((n.log2 : Int) - (d.log2 : Int) - (f.precision : Int))
  let (n', d') := inUnits n d e
  if n' / d' < Nat.pow 2 f.precision then e else e + 1

/-- The number of the format nearest to `n / d`, with the given sign. -/
def round (f : FloatFormat) (negative : Bool) (n d : Nat) : Binary :=
  if n = 0 then .finite negative 0 f.lowest
  else
    let e := f.exponentFor n d
    let (n', d') := inUnits n d e
    let q := roundHalfEven n' d'
    let (q, e) :=
      if q = Nat.pow 2 f.precision then (Nat.pow 2 (f.precision - 1), e + 1) else (q, e)
    if f.highest < e then .infinite negative else .finite negative q e

/-- The number of the format nearest to an integer. -/
def ofInt (f : FloatFormat) (n : Int) : Binary := f.round (n < 0) n.natAbs 1

/-- The number of the format nearest to a power of ten. -/
def tenPow (f : FloatFormat) (k : Nat) : Binary := f.round false (Nat.pow 10 k) 1

end FloatFormat

namespace Binary

/-- The quotient of naturals that a significand and an exponent stand for. -/
def quotient (m : Nat) (e : Int) : Nat × Nat :=
  if 0 ≤ e then (m * Nat.pow 2 e.toNat, 1) else (m, Nat.pow 2 (-e).toNat)

/-- The nearest number of another format. -/
def convert (f : FloatFormat) : Binary → Binary
  | finite s m e => f.round s (quotient m e).1 (quotient m e).2
  | x => x

/-- The product of two numbers in a format. -/
def mul (f : FloatFormat) : Binary → Binary → Binary
  | nan, _ | _, nan => nan
  | infinite s, infinite t => infinite (s != t)
  | infinite s, finite t m _ | finite t m _, infinite s => if m = 0 then nan else infinite (s != t)
  | finite s m e, finite t k g =>
    let (n, d) := quotient m e
    let (n', d') := quotient k g
    f.round (s != t) (n * n') (d * d')

/-- The quotient of two numbers in a format. -/
def div (f : FloatFormat) : Binary → Binary → Binary
  | nan, _ | _, nan => nan
  | infinite _, infinite _ => nan
  | infinite s, finite t _ _ => infinite (s != t)
  | finite s _ _, infinite t => finite (s != t) 0 f.lowest
  | finite s m e, finite t k g =>
    if k = 0 then if m = 0 then nan else infinite (s != t)
    else
      let (n, d) := quotient m e
      let (n', d') := quotient k g
      f.round (s != t) (n * d') (d * n')

/-- The number with its sign turned round. -/
def negate : Binary → Binary
  | nan => nan
  | infinite s => infinite !s
  | finite s m e => finite (!s) m e

/-- Whether a number is a zero of either sign. -/
def isZero : Binary → Bool
  | finite _ m _ => m = 0
  | _ => false

/-- Whether a number is neither infinite nor a NaN. -/
def isFinite : Binary → Bool
  | finite .. => true
  | _ => false

/-! ## Order -/

/-- A signed significand in units of `2 ^ e`, for an `e` not above its own exponent. -/
def scaled (s : Bool) (m : Nat) (own e : Int) : Int :=
  let n : Int := (m * Nat.pow 2 (own - e).toNat : Nat)
  if s then -n else n

/-- The order of two numbers. Zeros of either sign are equal; a NaN has no order. -/
def compare? : Binary → Binary → Option Ordering
  | nan, _ | _, nan => none
  | infinite s, infinite t => some (compare t s)
  | infinite s, finite .. => some (if s then .lt else .gt)
  | finite .., infinite t => some (if t then .gt else .lt)
  | finite s m e, finite t k g =>
    some (compare (scaled s m e (min e g)) (scaled t k g (min e g)))

theorem compare?_eq_none_iff {x y : Binary} : compare? x y = none ↔ x = nan ∨ y = nan := by
  cases x <;> cases y <;> simp [compare?]

/-- Equality of numbers: a NaN equals nothing, and the two zeros are equal. -/
def equals (x y : Binary) : Bool := compare? x y == some .eq

/-! ## The interchange form -/

/-- The bits of a number as a natural number, `none` for a NaN, which has many. -/
def bits (f : FloatFormat) : Binary → Option Nat
  | nan => none
  | infinite s =>
    let fraction := f.precision - 1
    some (sign s + (Nat.pow 2 (f.width - 1 - fraction) - 1) * Nat.pow 2 fraction)
  | finite s m e =>
    let hidden := Nat.pow 2 (f.precision - 1)
    if m < hidden then some (sign s + m)
    else some (sign s + (e - f.lowest + 1).toNat * hidden + (m - hidden))
where
  /-- The sign bit in its place. -/
  sign (s : Bool) : Nat := if s then Nat.pow 2 (f.width - 1) else 0

end Binary

end RecordQuery
