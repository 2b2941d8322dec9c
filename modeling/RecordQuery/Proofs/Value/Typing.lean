import RecordQuery.Mapping.Basic

/-!
# Values of a type

A value is of a type if a field of that type may hold it. Literals are read as values of the type
that is asked for, so what a query compares a field with is of the type of the field; if one cannot
be read, the error is about its text.

The type decides what a value can be used for. Values of one type are of one kind, so two of them
can be compared unless they are symbols of an enum or one of them is a NaN.

## Main results

* `ValueType.yields_read`: what comes of reading a literal
* `Value.HasType.kind_eq`, `Value.HasType.isOrderable_eq_false_iff`: what a type decides
* `Value.compare?_eq_none_iff`: only a NaN keeps two values of a kind that has an order apart
-/

namespace RecordQuery

/-- A field of the type may hold the value. A symbol must be one of those that its enum declares. -/
inductive Value.HasType : Value → ValueType → Prop
  | boolean (b : Bool) : HasType (.boolean b) .boolean
  | integer (i : Integer) : HasType (.integer i) (.integer i.width)
  | real (f : FloatFormat) (x : Binary) : HasType (.real f x) (.real f)
  | char (c : Char) : HasType (.char c) .char
  | string (t : Text) : HasType (.string t) .string
  | timestamp (u : DateTime) : HasType (.timestamp u) .date
  | date (d : Date) : HasType (.date d) .localDate
  | dateTime (t : DateTime) : HasType (.dateTime t) .localDateTime
  | enum {symbols : List Text} {symbol : Text} (name : Text) (h : symbol ∈ symbols) :
    HasType (.enum name symbol) (.enum name symbols)

/-- The kind of the values of a type. -/
def ValueType.kind : ValueType → Kind
  | boolean => .boolean
  | integer w => .integer w
  | real f => .real f
  | char => .char
  | string => .string
  | date => .timestamp
  | localDate => .date
  | localDateTime => .dateTime
  | enum .. => .enum

/-- A cause that says what is wrong with the text of a literal. -/
def MappingCause.IsReading : MappingCause → Prop
  | notOneCharacter => True
  | foreign (.described _) => False
  | foreign _ => True
  | _ => False

/-! ## Reading literals -/

/-- A success is good, and an error is bad. -/
def Yields {ε α : Type} (good : α → Prop) (bad : ε → Prop) : Except ε α → Prop
  | .ok a => good a
  | .error e => bad e

theorem yields_ofReading {ε α : Type} {good : Value → Prop} {bad : MappingCause → Prop}
    {cause : ε → MappingCause} {value : α → Value} (hvalue : ∀ a, good (value a))
    (hcause : ∀ e, bad (cause e)) (outcome : Except ε α) :
    Yields good bad (ofReading cause value outcome) := by
  cases outcome with
  | ok a => exact hvalue a
  | error e => exact hcause e

theorem yields_readInteger (w : Width) (t : Text) :
    Yields (Value.HasType · (.integer w)) MappingCause.IsReading (readInteger w t) := by
  unfold readInteger
  split
  · trivial
  · split
    · next i hi =>
      obtain ⟨rfl, -⟩ := Integer.ofInt?_eq_some_iff.1 hi
      exact .integer i
    · trivial

/-- **A literal is read as a value of the type, or the error is about its text.** -/
theorem ValueType.yields_read (type : ValueType) (literal : Text) :
    Yields (Value.HasType · type) MappingCause.IsReading (type.read literal) := by
  cases type with
  | boolean => exact Value.HasType.boolean _
  | integer w => exact yields_readInteger w literal
  | real f => exact yields_ofReading (.real f) (fun _ => trivial) _
  | char =>
    match literal with
    | [c] => exact Value.HasType.char c
    | [] | _ :: _ :: _ => trivial
  | string => exact Value.HasType.string _
  | date => exact yields_ofReading .timestamp (fun _ => trivial) _
  | localDate => exact yields_ofReading .date (fun _ => trivial) _
  | localDateTime => exact yields_ofReading .dateTime (fun _ => trivial) _
  | enum name symbols =>
    rw [read]
    split
    · next h => exact Value.HasType.enum name h
    · trivial

theorem ValueType.hasType_of_read {type : ValueType} {literal : Text} {v : Value}
    (h : type.read literal = .ok v) : v.HasType type := by
  have hyields := type.yields_read literal
  rwa [h] at hyields

theorem ValueType.isReading_of_read {type : ValueType} {literal : Text} {cause : MappingCause}
    (h : type.read literal = .error cause) : cause.IsReading := by
  have hyields := type.yields_read literal
  rwa [h] at hyields

theorem ValueType.eq_of_read_enum {name literal : Text} {symbols : List Text} {v : Value}
    (h : (enum name symbols).read literal = .ok v) : v = .enum name literal := by
  rw [read] at h
  split at h
  · exact (Except.ok.inj h).symm
  · cases h

/-- No reading error is worded as the refusal of an order is. -/
theorem MappingCause.IsReading.reason_ne {cause : MappingCause} (h : cause.IsReading) :
    cause.reason ≠ "Cannot compare".toList := by
  -- The first letters differ already; the rest may hold the literal.
  have hhead : ∃ c, cause.reason.head? = some c ∧ c ≠ 'C' := by
    match cause with
    | notOneCharacter => exact ⟨'e', rfl, by decide⟩
    | foreign (.integer e) => cases e <;> exact ⟨_, rfl, by decide⟩
    | foreign (.float e) => cases e <;> exact ⟨_, rfl, by decide⟩
    | foreign (.calendar e) => cases e <;> exact ⟨_, rfl, by decide⟩
    | foreign (.instant e) => cases e <;> exact ⟨'I', rfl, by decide⟩
    | foreign (.symbol enumName text) => exact ⟨'U', rfl, by decide⟩
  obtain ⟨c, hhead, hc⟩ := hhead
  intro heq
  rw [heq] at hhead
  exact hc (Option.some.inj hhead).symm

/-! ## What a type decides -/

namespace Value

variable {v w : Value} {type : ValueType}

theorem HasType.kind_eq (h : v.HasType type) : v.kind = type.kind := by
  cases h <;> rfl

theorem HasType.ne_null (h : v.HasType type) : v ≠ .null := by
  cases h <;> simp

theorem HasType.isOrderable_eq_false_iff (h : v.HasType type) :
    v.isOrderable = false ↔ ∃ name symbols, type = .enum name symbols := by
  cases h <;> simp [isOrderable]

theorem exists_string_of_kind (h : v.kind = .string) : ∃ t, v = .string t := by
  cases v <;> cases h
  exact ⟨_, rfl⟩

/-- The value is a NaN. -/
def IsNan (v : Value) : Prop := ∃ f, v = .real f .nan

/-- **Only a NaN keeps two values of one kind apart**, if the kind has an order at all. -/
theorem compare?_eq_none_iff (hkind : v.kind = w.kind) (ho : w.isOrderable = true) :
    compare? v w = none ↔ v.IsNan ∨ w.IsNan := by
  cases v <;> cases w <;> simp only [kind, reduceCtorEq] at hkind <;>
    simp_all [isOrderable, compare?, kind, key?, IsNan, Binary.compare?_eq_none_iff]

end Value

end RecordQuery
