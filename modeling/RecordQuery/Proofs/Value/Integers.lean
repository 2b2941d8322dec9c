import RecordQuery.Mapping.Basic
import RecordQuery.Proofs.Memory.Comparisons

/-!
# Integers of a width and the numbers they are

An integer field is compared in two steps: the literal of the query becomes an integer of the
field's width, and that is compared with the integer of the record. This file says of both steps
what they are on numbers. A decimal literal becomes the number that it denotes, at any width that
has room for it, and otherwise an error that says on which side the number lies; and relations on
integers of one width are the relations on their numbers.

## Reading digit by digit

Reading stops at the first digit that leaves the bounds, with the error for that bound, although it
has not seen the whole number. Digits only take a number further away from zero, and zero is within
the bounds of each width, so the bound that is left first is the one that the whole number is beyond
(`Text.readDigits_of_digits`).

## Main results

* `ValueType.read_integer_of_contains`, `ValueType.read_integer_of_not_contains`: what a decimal
  literal is read as
* `Relation.test_integer`: relations on integers are relations on numbers
-/

namespace RecordQuery

/-! ## Bounds -/

namespace Width

variable {w : Width} {n : Int}

/-- A number is within the bounds of a width. -/
abbrev Contains (w : Width) (n : Int) : Prop := w.lower ≤ n ∧ n ≤ w.upper

theorem lower_nonpos (w : Width) : w.lower ≤ 0 := by cases w <;> decide

theorem upper_nonneg (w : Width) : 0 ≤ w.upper := by cases w <;> decide

theorem Contains.w64 (h : w.Contains n) : Width.w64.Contains n := by
  have hlower : Width.w64.lower ≤ w.lower := by cases w <;> decide
  have hupper : w.upper ≤ Width.w64.upper := by cases w <;> decide
  exact ⟨Int.le_trans hlower h.1, Int.le_trans h.2 hupper⟩

/-- Which bound a number is beyond that is not within them. -/
def excess (w : Width) (n : Int) : IntegerError := if w.upper < n then .tooLarge else .tooSmall

/-- A number that is within the bounds, or which one it is beyond. -/
def judge (w : Width) (n : Int) : Except IntegerError Int :=
  if w.Contains n then .ok n else .error (w.excess n)

theorem judge_of_upper_lt (h : w.upper < n) : w.judge n = .error .tooLarge := by
  rw [judge, if_neg fun hn => absurd hn.2 (Int.not_le.2 h), excess, if_pos h]

theorem judge_of_lt_lower (h : n < w.lower) : w.judge n = .error .tooSmall := by
  have hupper : ¬ w.upper < n := by
    have := w.lower_nonpos
    have := w.upper_nonneg
    omega
  rw [judge, if_neg fun hn => absurd hn.1 (Int.not_le.2 h), excess, if_neg hupper]

end Width

theorem Integer.ofInt?_of_contains {w : Width} {n : Int} (h : w.Contains n) :
    ofInt? w n = some ⟨w, n, h⟩ := dif_pos h

theorem Integer.ofInt?_eq_none {w : Width} {n : Int} (h : ¬ w.Contains n) : ofInt? w n = none :=
  dif_neg h

/-! ## Decimal literals -/

/-- Digits take a number further away from zero. -/
theorem le_ofDigitChars (t : Text) (n : Nat) : n ≤ Nat.ofDigitChars 10 t n := by
  induction t generalizing n with
  | nil => exact Nat.le_refl n
  | cons c t ih =>
    rw [Nat.ofDigitChars_cons]
    exact Nat.le_trans (by omega) (ih (10 * n + (c.toNat - '0'.toNat)))

namespace Text

/-- A text is a decimal literal of a number: digits, at least one, and perhaps a sign. Zeros may
stand in front. -/
inductive DenotesInt : Text → Int → Prop
  | unsigned {digits : Text} (hne : digits ≠ []) (h : ∀ c ∈ digits, c.isDigit = true) :
    DenotesInt digits (Nat.ofDigitChars 10 digits 0 : Nat)
  | plus {digits : Text} (hne : digits ≠ []) (h : ∀ c ∈ digits, c.isDigit = true) :
    DenotesInt ('+' :: digits) (Nat.ofDigitChars 10 digits 0 : Nat)
  | minus {digits : Text} (hne : digits ≠ []) (h : ∀ c ∈ digits, c.isDigit = true) :
    DenotesInt ('-' :: digits) (-(Nat.ofDigitChars 10 digits 0 : Nat))

/-- A magnitude with a sign. -/
def signed (negative : Bool) (n : Nat) : Int := if negative then -n else n

theorem signed_false (n : Nat) : signed false n = n := rfl

theorem signed_true (n : Nat) : signed true n = -n := rfl

/-- **Digits are read as their number**, or as the error of the bound that it is beyond. -/
theorem readDigits_of_digits {w : Width} (negative : Bool) {t : Text}
    (ht : ∀ c ∈ t, c.isDigit = true) {n : Nat} (hn : w.Contains (signed negative n)) :
    readDigits w.lower w.upper negative (signed negative n) t =
      w.judge (signed negative (Nat.ofDigitChars 10 t n)) := by
  have hlower := w.lower_nonpos
  have hupper := w.upper_nonneg
  induction t generalizing n with
  | nil => exact (if_pos hn).symm
  | cons c t ih =>
    obtain ⟨hc, ht⟩ := List.forall_mem_cons.1 ht
    have hnext : (if negative then signed negative n * 10 - digitValue c
        else signed negative n * 10 + digitValue c) =
        signed negative (10 * n + (c.toNat - '0'.toNat)) := by
      cases negative <;> simp only [signed_true, signed_false, digitValue, if_true,
        Bool.false_eq_true, if_false] <;> omega
    rw [readDigits, if_pos hc, hnext, Nat.ofDigitChars_cons]
    have hfurther := le_ofDigitChars t (10 * n + (c.toNat - '0'.toNat))
    generalize 10 * n + (c.toNat - '0'.toNat) = next at hfurther
    by_cases hlarge : w.upper < signed negative next
    · have hfinal : w.upper < signed negative (Nat.ofDigitChars 10 t next) := by
        cases negative <;> simp only [signed_true, signed_false] at * <;> omega
      rw [if_pos hlarge, Width.judge_of_upper_lt hfinal]
    · rw [if_neg hlarge]
      by_cases hsmall : signed negative next < w.lower
      · have hfinal : signed negative (Nat.ofDigitChars 10 t next) < w.lower := by
          cases negative <;> simp only [signed_true, signed_false] at * <;> omega
        rw [if_pos hsmall, Width.judge_of_lt_lower hfinal]
      · rw [if_neg hsmall, ih ht ⟨Int.not_lt.1 hsmall, Int.not_lt.1 hlarge⟩]

theorem readInt_of_denotes {k : Text} {z : Int} (h : DenotesInt k z) (w : Width) :
    readInt w.lower w.upper k = w.judge z := by
  have hzero : ∀ negative, w.Contains (signed negative 0) := by
    have hbounds : w.Contains 0 := ⟨w.lower_nonpos, w.upper_nonneg⟩
    exact fun negative => by cases negative <;> exact hbounds
  cases h with
  | unsigned hne h =>
    have hsign : ∀ c t, k = c :: t → c ≠ '+' ∧ c ≠ '-' := by
      rintro c t rfl
      have hc := h c List.mem_cons_self
      exact ⟨by rintro rfl; exact absurd hc (by decide), by rintro rfl; exact absurd hc (by decide)⟩
    rw [readInt]
    · exact readDigits_of_digits false h (hzero false)
    · exact hne
    · exact fun e => (hsign _ _ e).1 rfl
    · exact fun e => (hsign _ _ e).2 rfl
    · exact fun t e => (hsign _ t e).1 rfl
    · exact fun t e => (hsign _ t e).2 rfl
  | plus hne h =>
    rw [readInt]
    · exact readDigits_of_digits false h (hzero false)
    · exact hne
  | minus hne h =>
    rw [readInt]
    · exact readDigits_of_digits true h (hzero true)
    · exact hne

/-- A decimal literal has no sign or blank at its end and none of the other characters that mean
something in a query. -/
theorem DenotesInt.digit_or_sign {k : Text} {z : Int} (h : DenotesInt k z) :
    k ≠ [] ∧ ∀ c ∈ k, c.isDigit = true ∨ c = '+' ∨ c = '-' := by
  cases h with
  | unsigned hne h => exact ⟨hne, fun c hc => .inl (h c hc)⟩
  | plus _ h =>
    refine ⟨List.cons_ne_nil _ _, List.forall_mem_cons.2 ⟨.inr (.inl rfl), fun c hc => ?_⟩⟩
    exact .inl (h c hc)
  | minus _ h =>
    refine ⟨List.cons_ne_nil _ _, List.forall_mem_cons.2 ⟨.inr (.inr rfl), fun c hc => ?_⟩⟩
    exact .inl (h c hc)

end Text

open Text

section

variable {w : Width} {k : Text} {z : Int}

/-- **A decimal literal becomes its number**, where the width has room for it. -/
theorem ValueType.read_integer_of_contains (hk : DenotesInt k z) (hz : w.Contains z) :
    (ValueType.integer w).read k = .ok (.integer ⟨w, z, hz⟩) := by
  have hjudge : w.judge z = .ok z := if_pos hz
  rw [read, readInteger, readInt_of_denotes hk, hjudge]
  dsimp only
  rw [Integer.ofInt?_of_contains hz]
  rfl

/-- **Otherwise it is an error** that says which bound the number is beyond. -/
theorem ValueType.read_integer_of_not_contains (hk : DenotesInt k z) (hz : ¬ w.Contains z) :
    (ValueType.integer w).read k = .error (.foreign (.integer (w.excess z))) := by
  have hjudge : w.judge z = .error (w.excess z) := if_neg hz
  rw [read, readInteger, readInt_of_denotes hk, hjudge]
  rfl

end

/-! ## Comparing -/

theorem Value.compare?_integer {w : Width} {m n : Int} (hm : w.Contains m) (hn : w.Contains n) :
    compare? (.integer ⟨w, m, hm⟩) (.integer ⟨w, n, hn⟩) = some (compare m n) := by
  have hlexicographic : lexicographic [m] [n] = compare m n := by
    rw [Int.compare_eq_ite_lt]
    rfl
  rw [← hlexicographic]
  simp [compare?, kind, key?]

namespace Relation

/-- What a relation says of two numbers. Patterns say nothing of numbers. -/
def onIntegers? : Relation → Option (Int → Int → Bool)
  | equal => some fun m n => m = n
  | notEqual => some fun m n => m ≠ n
  | greater => some fun m n => n < m
  | greaterOrEqual => some fun m n => n ≤ m
  | less => some fun m n => m < n
  | lessOrEqual => some fun m n => m ≤ n
  | like | notLike => none

variable {relation : Relation} {holds : Int → Int → Bool}

theorem refusal?_integer (h : relation.onIntegers? = some holds) (engine : Wildcard.Engine)
    (field : Text) (i : Integer) : relation.refusal? engine field (.integer i) = none := by
  cases relation <;> first | rfl | cases h

/-- **Relations on integers are relations on their numbers.** -/
theorem test_integer (h : relation.onIntegers? = some holds) (field : Text) {w : Width}
    {m n : Int} (hm : w.Contains m) (hn : w.Contains n) :
    relation.test field (.integer ⟨w, m, hm⟩) (.integer ⟨w, n, hn⟩) = .ok (holds m n) := by
  rcases relation.cases_inequality with ⟨i, rfl⟩ | hequality | hpattern
  · rw [test_inequality, Inequality.test_of_compare? (Value.compare?_integer hm hn)]
    refine congrArg Except.ok (Bool.eq_iff_iff.2 ?_)
    cases i <;> obtain rfl := Option.some.inj h <;>
      simp [Inequality.accepts, Int.compare_eq_gt, Int.compare_eq_lt, Int.isGE_compare,
        Int.isLE_compare]
  · rcases hequality with rfl | rfl <;> obtain rfl := Option.some.inj h <;>
      simp [test, Value.equals]
  · rcases hpattern with rfl | rfl <;> cases h

end Relation

end RecordQuery
