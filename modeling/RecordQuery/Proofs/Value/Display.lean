import RecordQuery.Proofs.Calendar.Printing
import RecordQuery.Proofs.Value.Integers
import RecordQuery.Proofs.Value.Typing

/-!
# Shown values are read back

Values are shown by one function on all of them, and literals are read type by type. What is shown
of a value is a literal of its type all the same, and is read as the value: for truth values and
symbols that is a matter of spelling, for integers and dates every value has to be within reach of
the reader. It does not matter which literal a value came from; all of them are shown alike.

Strings are not among these types, since quotes are dropped when a literal is read, nor are
instants, which are shown with a zone that is not read.

## Main results

* `ValueType.read_display`: every value of such a type is read back
* `Mapper.map_display`: what is mapped and then shown is mapped to the same value
-/

namespace RecordQuery

/-- The printed form of an integer denotes it. -/
theorem Text.denotesInt_ofInt (n : Int) : DenotesInt (ofInt n) n := by
  cases n with
  | ofNat n =>
    have h := DenotesInt.unsigned (isNumeral_ofNat n).ne_nil (isNumeral_ofNat n).isDigit
    rwa [ofDigitChars_ofNat] at h
  | negSucc n =>
    have h := DenotesInt.minus (isNumeral_ofNat (n + 1)).ne_nil (isNumeral_ofNat (n + 1)).isDigit
    rwa [ofDigitChars_ofNat] at h

namespace ValueType

/-- The types whose values are shown as literals. -/
inductive ReadsBack : ValueType → Prop
  | boolean : ReadsBack .boolean
  | integer (w : Width) : ReadsBack (.integer w)
  | char : ReadsBack .char
  | localDate : ReadsBack .localDate
  | localDateTime : ReadsBack .localDateTime
  | enum (name : Text) (symbols : List Text) : ReadsBack (.enum name symbols)

/-- **Every value of such a type is read back.** -/
theorem read_display {type : ValueType} {v : Value} (htype : type.ReadsBack)
    (hv : v.HasType type) : type.read v.display = .ok v := by
  cases hv with
  | boolean b => cases b <;> rfl
  | integer i => exact read_integer_of_contains (Text.denotesInt_ofInt i.value) i.fits
  | char c => rfl
  | date d => exact congrArg (ofReading _ Value.date) d.ofText_text
  | dateTime t => exact congrArg (ofReading _ Value.dateTime) t.ofText_text
  | enum name hsymbol => exact if_pos hsymbol
  | real | string | timestamp => cases htype

end ValueType

/-- **What is mapped and then shown is mapped to the same value.** -/
theorem Mapper.map_display {m : Mapper} {literal : Text} {v : Value} (htype : m.type.ReadsBack)
    (h : m.map literal = .ok v) : m.map v.display = .ok v := by
  rw [Mapper.map] at h
  split at h
  · next hread =>
    obtain rfl := Except.ok.inj h
    rw [Mapper.map, ValueType.read_display htype (ValueType.hasType_of_read hread)]
  · cases h

/-- A leap second of a year before the year 0. It is shown with two digits more in its numbers and
one more in its fraction. -/
theorem Mapper.map_display_leapSecond :
    ∃ v, (⟨['t'], .localDateTime⟩ : Mapper).map "-44-3-15T23:59:60.25".toList = .ok v ∧
      v.display = "-0044-03-15T23:59:60.250".toList ∧
      (⟨['t'], .localDateTime⟩ : Mapper).map v.display = .ok v := by
  let t : DateTime := ⟨⟨-44, 3, 15, by decide, by decide, by decide⟩,
    ⟨23, 59, 60, 250000000, by decide, by decide, by decide, by decide⟩⟩
  have h : (⟨['t'], .localDateTime⟩ : Mapper).map "-44-3-15T23:59:60.25".toList =
      .ok (.dateTime t) := rfl
  exact ⟨.dateTime t, h, by decide +kernel, Mapper.map_display .localDateTime h⟩

end RecordQuery
