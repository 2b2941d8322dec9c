/-!
# Integers of a width

An integer of 8, 16, 32 or 64 bits is a whole number within the bounds of its width; the bounds are
part of the type, and nothing wraps.

## Main results

* `Integer.ofInt?_eq_some_iff`: an integer of a width is made exactly from a number in its range
-/

namespace RecordQuery

/-- The widths of integers. -/
inductive Width
  | w8
  | w16
  | w32
  | w64
  deriving DecidableEq, Repr

namespace Width

/-- The number of bits. -/
def bits : Width → Nat
  | w8 => 8
  | w16 => 16
  | w32 => 32
  | w64 => 64

/-- The least number of a width. -/
def lower (w : Width) : Int := -Int.pow 2 (w.bits - 1)

/-- The greatest number of a width. -/
def upper (w : Width) : Int := Int.pow 2 (w.bits - 1) - 1

end Width

/-- A whole number within the bounds of a width. -/
structure Integer where
  width : Width
  value : Int
  fits : width.lower ≤ value ∧ value ≤ width.upper
  deriving DecidableEq, Repr

namespace Integer

/-- A number as an integer of a width, if it is in range. -/
def ofInt? (w : Width) (n : Int) : Option Integer :=
  if h : w.lower ≤ n ∧ n ≤ w.upper then some ⟨w, n, h⟩ else none

theorem ofInt?_eq_some_iff {w : Width} {n : Int} {i : Integer} :
    ofInt? w n = some i ↔ i.width = w ∧ i.value = n := by
  constructor
  · intro h
    unfold ofInt? at h
    split at h
    · cases h
      exact ⟨rfl, rfl⟩
    · simp at h
  · rintro ⟨rfl, rfl⟩
    simp [ofInt?, i.fits]

end Integer

end RecordQuery
