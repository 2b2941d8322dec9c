import Mathlib.Data.List.TakeWhile
import RecordQuery.Proofs.FirstError
import RecordQuery.Proofs.Record.Typing
import RecordQuery.Proofs.Text.Digits
import RecordQuery.Proofs.Value.Integers

/-!
# Integers of rows

The integers of a file are read twice: as numbers of JSON, before anyone knows of a schema, and as
values of the field that they stand in. The first reading keeps an integer exactly if it fits into
64 bits, signed or unsigned, and makes a floating-point number of it otherwise, or nothing at all if
it is too large even for that. The second one takes integers only, within the bounds of a width. So
what the first one has rounded, the second one refuses, and no field holds a number other than the
one that is written in the file.

## Main results

* `Json.Number.ofInt?_cases`: the number of JSON that an integer is read as
* `FieldSpec.load_number`: an integer field has the number in it, or refuses it
* `Record.get_of_holdsInteger`, `Record.ofRow_eq_mismatch`: so does the record of a row
-/

namespace RecordQuery

/-! ## Integers as they are written -/

open Text

namespace Json

/-- An integer as it is written: its digits, and a minus sign if it is negative. -/
def Numeral.ofInt (n : Int) : Numeral := ⟨n < 0, Text.ofNat n.natAbs, [], none⟩

theorem Lexeme.unsigned?_ofNat (negative : Bool) (n : Nat) :
    unsigned? negative (Text.ofNat n) = some ⟨negative, Text.ofNat n, [], none⟩ := by
  have hdigits : ∀ c ∈ Text.ofNat n, c.isDigit = true := fun c => isDigit_of_mem_ofNat
  have hne : Text.ofNat n ≠ [] := Nat.toDigits_ne_nil
  have hzeros : (Text.ofNat n).head? ≠ some '0' ∨ (Text.ofNat n).length = 1 := by
    rcases Nat.eq_zero_or_pos n with rfl | hpos
    · exact .inr rfl
    · exact .inl (head?_ofNat_ne hpos)
  have hform : (!(Text.ofNat n).isEmpty &&
      ((Text.ofNat n).head? ≠ some '0' || (Text.ofNat n).length = 1)) = true := by
    simp [hne, hzeros]
  have htake : (Text.ofNat n).takeWhile Char.isDigit = Text.ofNat n := by
    exact List.takeWhile_eq_self_iff.2 hdigits
  have hdrop : (Text.ofNat n).dropWhile Char.isDigit = [] := by
    exact List.dropWhile_eq_nil_iff.2 hdigits
  rw [unsigned?, htake, hdrop, hform]
  rfl

/-- The written integer is the number with these parts. -/
theorem Lexeme.numeral?_ofInt (n : Int) :
    numeral? (Text.ofInt n) = some (Numeral.ofInt n) := by
  cases n with
  | ofNat n =>
    have hsign : ∀ t, Text.ofNat n ≠ '-' :: t := fun t h => by
      have hdigit : '-'.isDigit = true := isDigit_of_mem_ofNat (h ▸ List.mem_cons_self)
      exact absurd hdigit (by decide)
    rw [Text.ofInt, numeral?]
    · exact unsigned?_ofNat false n
    · exact hsign
  | negSucc n =>
    have hnegative : decide (Int.negSucc n < 0) = true := decide_eq_true (Int.negSucc_lt_zero n)
    rw [Text.ofInt, numeral?, unsigned?_ofNat, Numeral.ofInt, hnegative]
    rfl

namespace Numeral

/-! ## Integers as numbers of JSON -/

theorem extend_of_le {t : Text} {n : Nat} (h : Nat.ofDigitChars 10 t n ≤ mostSignificand) :
    extend n t = (Nat.ofDigitChars 10 t n, []) := by
  induction t generalizing n with
  | nil => rfl
  | cons c t ih =>
    rw [Nat.ofDigitChars_cons, Nat.mul_comm] at h
    have hnext := Nat.le_trans (le_ofDigitChars t _) h
    rw [extend, Nat.ofDigitChars_cons, Nat.mul_comm 10]
    exact (if_pos hnext).trans (ih h)

/-- Digits are left over if there are too many. -/
theorem extend_snd_ne_nil {t : Text} {n : Nat} (hn : n ≤ mostSignificand)
    (h : mostSignificand < Nat.ofDigitChars 10 t n) : (extend n t).2 ≠ [] := by
  induction t generalizing n with
  | nil => exact absurd h (Nat.not_lt.2 hn)
  | cons c t ih =>
    rw [Nat.ofDigitChars_cons, Nat.mul_comm] at h
    rw [extend]
    split
    · next hnext => exact ih hnext h
    · exact List.cons_ne_nil c t

theorem exists_real_of_real? {negative : Bool} {significand : Nat} {exponent : Int} {x : Number}
    (h : real? negative significand exponent = some x) : ∃ f y, x = .real f y := by
  obtain ⟨y, -, rfl⟩ := Option.map_eq_some_iff.1 h
  exact ⟨_, _, rfl⟩

variable {negative : Bool} {digits : Text}

/-- A numeral of digits only, all of which are read. -/
theorem number?_of_extend {significand : Nat} (h : extend 0 digits = (significand, [])) :
    number? ⟨negative, digits, [], none⟩ =
      if !negative then some (.integer significand)
      else if significand = 0 || Nat.pow 2 63 < significand then real? true significand 0
      else some (.integer (-significand)) := by
  simp [number?, h, extend]

/-- A numeral of digits only, some of which are left over. -/
theorem exists_real_of_unread (h : (extend 0 digits).2 ≠ []) {x : Number}
    (hx : number? ⟨negative, digits, [], none⟩ = some x) : ∃ f y, x = .real f y := by
  have hreal : real? negative (extend 0 digits).1 (extend 0 digits).2.length = some x := by
    simpa [number?, extend, h] using hx
  exact exists_real_of_real? hreal

end Numeral

namespace Number

open Numeral

/-- The number that an integer is read as, from its digits and a minus sign if it is negative. -/
def ofInt? (n : Int) : Option Number := (Lexeme.numeral? (Text.ofInt n)).bind Numeral.number?

/-- **An integer is read as itself, or as a floating-point number if it does not fit into 64
bits.** -/
theorem ofInt?_cases (n : Int) :
    ofInt? n = some (.integer n) ∨
      ¬ Width.w64.Contains n ∧ ∀ x, ofInt? n = some x → ∃ f y, x = .real f y := by
  have hlower : Width.w64.lower = -Nat.pow 2 63 := by decide
  have hupper : Width.w64.upper = Nat.pow 2 63 - 1 := by decide
  have hmost : Nat.pow 2 63 ≤ mostSignificand := by decide
  rw [ofInt?, Lexeme.numeral?_ofInt, Option.bind_some, Numeral.ofInt]
  by_cases hfits : n.natAbs ≤ mostSignificand
  · have hextend : extend 0 (Text.ofNat n.natAbs) = (n.natAbs, []) := by
      rw [extend_of_le (by rwa [ofDigitChars_ofNat]), ofDigitChars_ofNat]
    rw [number?_of_extend hextend]
    by_cases hnegative : n < 0
    · by_cases hsmall : Nat.pow 2 63 < n.natAbs
      · -- below the signed range, where nothing is signed any more
        refine .inr ⟨fun hn => ?_, fun x hx => ?_⟩
        · have := hn.1
          omega
        · simp only [hnegative, hsmall] at hx
          exact exists_real_of_real? (by simpa using hx)
      · refine .inl ?_
        have hzero : n.natAbs ≠ 0 := by omega
        have hvalue : -(n.natAbs : Int) = n := by omega
        simp only [hnegative, hzero, hsmall, decide_true, decide_false, Bool.not_true,
          Bool.false_eq_true, Bool.or_self, if_false, hvalue]
    · refine .inl ?_
      have hvalue : (n.natAbs : Int) = n := by omega
      simp only [hnegative, decide_false, Bool.not_false, if_true, hvalue]
  · have hunread : (extend 0 (Text.ofNat n.natAbs)).2 ≠ [] := by
      refine extend_snd_ne_nil (Nat.zero_le _) ?_
      rwa [ofDigitChars_ofNat, ← Nat.not_le]
    refine .inr ⟨fun hn => ?_, fun x hx => exists_real_of_unread hunread hx⟩
    obtain ⟨hn, hn'⟩ := hn
    omega

theorem ofInt?_of_contains {w : Width} {n : Int} (h : w.Contains n) :
    ofInt? n = some (.integer n) :=
  (ofInt?_cases n).resolve_right fun hx => hx.1 h.w64

end Number

/-- A row holds an integer in a field: the number that the integer is read as. -/
def HoldsInteger (field : Text) (n : Int) (row : Json) : Prop :=
  ∃ x, row.field? field = some (.number x) ∧ Number.ofInt? n = some x

theorem HoldsInteger.exists_members {field : Text} {n : Int} {row : Json}
    (h : row.HoldsInteger field n) : ∃ members, row = .object members := by
  obtain ⟨x, hx, -⟩ := h
  cases row with
  | object members => exact ⟨members, rfl⟩
  | _ => cases hx

end Json

open Json

/-! ## Integer fields -/

section

variable {mappers : Mappers} {w : Width} {n : Int}

/-- **An integer field has the number in it or refuses it.** -/
theorem FieldSpec.load_number {spec : FieldSpec} (htype : spec.type = .integer w)
    {x : Json.Number} (hx : Number.ofInt? n = some x) :
    spec.load mappers (.number x) =
      if hn : w.Contains n then .ok (.integer ⟨w, n, hn⟩)
      else .error (.mismatch spec.name (.integer w) (.number x)) := by
  rcases Number.ofInt?_cases n with hinteger | ⟨hout, hreal⟩
  · obtain rfl := Option.some.inj (hinteger.symm.trans hx)
    by_cases hn : w.Contains n
    · simp only [load, htype, ValueType.ofNumber?, Integer.ofInt?_of_contains hn, dif_pos hn,
        Option.map_some]
    · simp only [load, htype, ValueType.ofNumber?, Integer.ofInt?_eq_none hn, dif_neg hn,
        Option.map_none]
  · obtain ⟨f, y, rfl⟩ := hreal x hx
    rw [dif_neg fun hn : w.Contains n => hout hn.w64]
    simp only [load, htype, ValueType.ofNumber?]

namespace Record

variable {schema : Schema} {field : Text} {spec : FieldSpec} {row : Json} {record : Record}

/-- Every declared field of a row can be loaded, one of them perhaps excepted. -/
def LoadsBesides (schema : Schema) (mappers : Mappers) (field : Text) (row : Json) : Prop :=
  ∀ spec ∈ schema.fields, spec.name ≠ field →
    ∃ v, spec.load mappers ((row.field? spec.name).getD .null) = .ok v

/-- What a loaded row holds for a field was loaded for the field. -/
theorem exists_load_of_ofRow (hmappers : schema.mappers = .ok mappers)
    (hfield : schema.field? field = some spec) (h : ofRow schema mappers row = .ok record) :
    ∃ v, spec.load mappers ((row.field? field).getD .null) = .ok v ∧ record.get field = v := by
  obtain rfl : spec.name = field := by simpa using List.find?_some hfield
  cases row with
  | object members =>
    obtain ⟨v, hload, hv⟩ := exists_load_of_fill h (Schema.nodup_of_mappers hmappers)
      (List.mem_of_find?_eq_some hfield)
    exact ⟨v, hload, by rw [get, hv, Option.getD_some]⟩
  | _ => cases h

/-- If a row cannot be loaded but for one field, then that field is at fault. -/
theorem load_eq_error_of_ofRow (hmappers : schema.mappers = .ok mappers)
    (hfield : schema.field? field = some spec) {members : List (Text × Json)}
    (hbesides : LoadsBesides schema mappers field (.object members)) {fault : RowFault}
    (h : ofRow schema mappers (.object members) = .error fault) :
    spec.load mappers ((members.lookup field).getD .null) = .error fault := by
  obtain ⟨i, ⟨other, hother, hfault⟩, -⟩ := fill_eq_error_iff.1 h
  have hmem := List.mem_of_getElem? hother
  by_cases hname : other.name = field
  · obtain rfl := hname
    have hunique := Schema.field?_of_mem (Schema.nodup_of_mappers hmappers) hmem
    obtain rfl := Option.some.inj (hunique.symm.trans hfield)
    exact hfault
  · obtain ⟨v, hv⟩ := hbesides other hmem hname
    cases hv.symm.trans hfault

section

variable (hmappers : schema.mappers = .ok mappers) (hfield : schema.field? field = some spec)
  (htype : spec.type = .integer w) (hrow : row.HoldsInteger field n)

include hmappers hfield htype hrow

/-- **The record of a row has the number of the row.** -/
theorem get_of_holdsInteger (hn : w.Contains n) (h : ofRow schema mappers row = .ok record) :
    record.get field = .integer ⟨w, n, hn⟩ := by
  obtain ⟨x, hfound, hx⟩ := hrow
  obtain ⟨v, hload, rfl⟩ := exists_load_of_ofRow hmappers hfield h
  rw [hfound, Option.getD_some, FieldSpec.load_number htype hx, dif_pos hn] at hload
  exact (Except.ok.inj hload).symm

theorem exists_ofRow_eq_ok (hbesides : LoadsBesides schema mappers field row)
    (hn : w.Contains n) : ∃ record, ofRow schema mappers row = .ok record := by
  obtain ⟨members, rfl⟩ := hrow.exists_members
  obtain ⟨x, hfound, hx⟩ := hrow
  cases h : ofRow schema mappers (.object members) with
  | ok record => exact ⟨record, rfl⟩
  | error fault =>
    have hload := load_eq_error_of_ofRow hmappers hfield hbesides h
    have hlookup : members.lookup field = some (.number x) := hfound
    rw [hlookup, Option.getD_some, FieldSpec.load_number htype hx, dif_pos hn] at hload
    cases hload

/-- **A row with a number out of range has no record.** -/
theorem exists_ofRow_eq_error (hn : ¬ w.Contains n) :
    ∃ fault, ofRow schema mappers row = .error fault := by
  obtain ⟨x, hfound, hx⟩ := hrow
  cases h : ofRow schema mappers row with
  | error fault => exact ⟨fault, rfl⟩
  | ok record =>
    obtain ⟨v, hload, -⟩ := exists_load_of_ofRow hmappers hfield h
    rw [hfound, Option.getD_some, FieldSpec.load_number htype hx, dif_neg hn] at hload
    cases hload

/-- The fault of such a row is the number, if everything else in it can be loaded. -/
theorem ofRow_eq_mismatch (hbesides : LoadsBesides schema mappers field row)
    (hn : ¬ w.Contains n) :
    ∃ x, row.field? field = some x ∧
      ofRow schema mappers row = .error (.mismatch field (.integer w) x) := by
  obtain ⟨fault, h⟩ := exists_ofRow_eq_error hmappers hfield htype hrow hn
  obtain ⟨members, rfl⟩ := hrow.exists_members
  obtain ⟨x, hfound, hx⟩ := hrow
  have hload := load_eq_error_of_ofRow hmappers hfield hbesides h
  have hlookup : members.lookup field = some (.number x) := hfound
  have hname : spec.name = field := by simpa using List.find?_some hfield
  rw [hlookup, Option.getD_some, FieldSpec.load_number htype hx, dif_neg hn, hname] at hload
  obtain rfl := Except.error.inj hload
  exact ⟨_, hfound, h⟩

end

end Record

end

end RecordQuery
