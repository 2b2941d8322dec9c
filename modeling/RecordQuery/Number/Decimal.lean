import RecordQuery.Text.Basic
import RecordQuery.Number.Binary

/-!
# Decimal forms of floating-point numbers

Two directions. `FloatFormat.ofDecimal` gives the number nearest to a decimal, and
`Binary.shortest` gives the decimal with the fewest digits that is read back as the number, the
nearest one if there are several. Two of them may be equally near: `2097152.25` lies halfway
between `2097152.2` and `2097152.3`, and the single format reads both back as it. A `TieRule` says
which one is taken.

A finite number is exactly a whole number times a power of ten (`2 ^ -k` is `5 ^ k * 10 ^ -k`), so
both directions are arithmetic on whole numbers. For the shortest form, the decimals with a given
number of digits are a grid; the numbers that are rounded to `x` form an interval around `x`; and
the interval holds a point of the grid only if it holds one of the two neighbours of `x` on it.
Grids are tried from coarse to fine.
-/

namespace RecordQuery

namespace FloatFormat

/-- The number of the format nearest to `digits * 10 ^ exponent`. Magnitudes far outside both
formats are decided by the count of digits alone, so that no huge power is computed. -/
def ofDecimal (f : FloatFormat) (negative : Bool) (digits : Nat) (exponent : Int) : Binary :=
  let magnitude := ((Text.ofNat digits).length : Int) + exponent
  if digits = 0 || magnitude < -400 then .finite negative 0 f.lowest
  else if 400 < magnitude then .infinite negative
  else if 0 ≤ exponent then f.round negative (digits * Nat.pow 10 exponent.toNat) 1
  else f.round negative digits (Nat.pow 10 (-exponent).toNat)

end FloatFormat

/-- A positive decimal `digits * 10 ^ exponent`, or zero. -/
structure Decimal where
  digits : Nat
  exponent : Int
  deriving DecidableEq, Repr

namespace Decimal

/-- Drops up to `fuel` zeros from the end of the digits. -/
def stripZeros : Nat → Decimal → Decimal
  | 0, d => d
  | fuel + 1, d =>
    if d.digits % 10 = 0 then stripZeros fuel ⟨d.digits / 10, d.exponent + 1⟩ else d

end Decimal

/-- Which of two equally near decimals stands for a number. -/
inductive TieRule
  /-- The one whose last digit is even. -/
  | toEven
  /-- The greater one in magnitude. -/
  | upward
  deriving DecidableEq, Repr

namespace TieRule

/-- Whether the lower one is taken, from its digits. -/
def takesLower : TieRule → Nat → Bool
  | toEven, lower => lower % 2 = 0
  | upward, _ => false

end TieRule

namespace Binary

/-- Most digits that a shortest form can need, for either format. -/
def mostDigits : Nat := 17

/-- The decimal with the fewest digits that is rounded to `significand * 2 ^ exponent`. -/
def shortest (tie : TieRule) (f : FloatFormat) (m : Nat) (e : Int) : Decimal :=
  -- The number, and four times the ends of its interval, in units of `10 ^ min e 0`.
  let unit := if 0 ≤ e then Nat.pow 2 e.toNat else Nat.pow 5 (-e).toNat
  let exact := m * unit
  let high := (4 * m + 2) * unit
  let low := if m = Nat.pow 2 (f.precision - 1) && f.lowest < e then (4 * m - 1) * unit
    else (4 * m - 2) * unit
  let closed := m % 2 = 0
  let inside (n : Nat) : Bool :=
    if closed then low ≤ 4 * n && 4 * n ≤ high else low < 4 * n && 4 * n < high
  let count := (Text.ofNat exact).length
  let point? (places : Nat) : Option Decimal :=
    let step := Nat.pow 10 (count - places)
    let below := exact / step
    let above := below + 1
    let belowFar := exact - below * step
    let aboveFar := above * step - exact
    let at' (g : Nat) : Decimal := ⟨g, min e 0 + ((count - places : Nat) : Int)⟩
    match inside (below * step), inside (above * step) with
    | false, false => none
    | true, false => some (at' below)
    | false, true => some (at' above)
    | true, true =>
      if belowFar < aboveFar || (belowFar = aboveFar && tie.takesLower below) then some (at' below)
      else some (at' above)
  let found := ((List.range mostDigits).map (· + 1)).findSome? point?
  (found.getD ⟨exact, min e 0⟩).stripZeros count

/-! ## Layouts -/

/-- The digits of a decimal with the point in its place, without an exponent. `whole` is put behind
a number that has no fraction. -/
def positional (whole : Text) (d : Decimal) : Text :=
  let digits := Text.ofNat d.digits
  let point := (digits.length : Int) + d.exponent
  if 0 ≤ d.exponent then digits ++ List.replicate d.exponent.toNat '0' ++ whole
  else if 0 < point then digits.take point.toNat ++ ['.'] ++ digits.drop point.toNat
  else ['0', '.'] ++ List.replicate (-point).toNat '0' ++ digits

/-- The first digit, the other digits behind a point, and a signed exponent of ten. -/
def scientific (d : Decimal) : Text :=
  let digits := Text.ofNat d.digits
  let exponent := (digits.length : Int) + d.exponent - 1
  let mantissa := match digits with
    | first :: second :: later => first :: '.' :: second :: later
    | _ => digits
  mantissa ++ ['e', if exponent < 0 then '-' else '+'] ++ Text.ofNat exponent.natAbs

/-- The sign as it stands in front of digits. -/
def signText (negative : Bool) : Text := if negative then ['-'] else []

/-- The plain form: shortest digits, a tie going upward, never an exponent, and no point in a whole
number. -/
def plain (f : FloatFormat) : Binary → Text
  | nan => "NaN".toList
  | infinite s => signText s ++ "inf".toList
  | finite s 0 _ => signText s ++ ['0']
  | finite s m e => signText s ++ positional [] (shortest .upward f m e)

end Binary

end RecordQuery
