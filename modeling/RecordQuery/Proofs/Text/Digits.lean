import Mathlib.Data.List.Basic
import Mathlib.Data.Nat.Digits.Defs
import RecordQuery.Text.Basic

/-!
# Numbers in digits

A number may be written in more than one way, since zeros may stand in front of it. `IsNumeral` says
of a text that it is one of them, and that is all that a reader of numbers asks of a text. The two
printers of natural numbers write numerals, which differ in their lengths only.

## Main results

* `Text.isNumeral_ofNat`, `Text.isNumeral_ofNatPadded`: what is printed is a numeral of its number
* `Text.IsNumeral.lt_pow_length`: a number has no fewer digits than it needs
-/

namespace RecordQuery.Text

/-! ## The printer -/

theorem isDigit_of_mem_ofNat {n : Nat} {c : Char} (h : c ∈ ofNat n) : c.isDigit = true :=
  Nat.isDigit_of_mem_toDigits (by decide) (by decide) h

theorem ofDigitChars_ofNat (n : Nat) : Nat.ofDigitChars 10 (ofNat n) 0 = n :=
  Nat.ofDigitChars_toDigits (by decide) (by decide)

/-- No zero stands in front of other digits. -/
theorem head?_ofNat_ne {n : Nat} (h : 0 < n) : (ofNat n).head? ≠ some '0' := by
  induction n using Nat.strongRecOn with
  | ind n ih =>
    by_cases hn : n < 10
    · rw [ofNat, Nat.toDigits_of_lt_base hn]
      simpa [Nat.digitChar_eq_zero] using Nat.ne_of_gt h
    · have hne : Nat.toDigits 10 (n / 10) ≠ [] := Nat.toDigits_ne_nil
      rw [ofNat, Nat.toDigits_of_base_le (by decide) (Nat.not_lt.1 hn),
        List.head?_append_of_ne_nil _ hne]
      exact ih (n / 10) (by omega) (by omega)

/-! ## Numerals -/

/-- A text that writes a number: digits, at least one, with the number as their value. -/
structure IsNumeral (n : Nat) (t : Text) : Prop where
  ne_nil : t ≠ []
  isDigit : ∀ c ∈ t, c.isDigit = true
  value : Nat.ofDigitChars 10 t 0 = n

theorem isNumeral_ofNat (n : Nat) : IsNumeral n (ofNat n) :=
  ⟨Nat.toDigits_ne_nil, fun _ => isDigit_of_mem_ofNat, ofDigitChars_ofNat n⟩

theorem ofDigitChars_replicate_zero (k : Nat) (t : Text) :
    Nat.ofDigitChars 10 (List.replicate k '0' ++ t) 0 = Nat.ofDigitChars 10 t 0 := by
  induction k with
  | zero => rfl
  | succ k ih => rw [List.replicate_succ, List.cons_append, Nat.ofDigitChars_cons]; exact ih

theorem isNumeral_ofNatPadded (width n : Nat) : IsNumeral n (ofNatPadded width n) where
  ne_nil := by simp [ofNatPadded, (isNumeral_ofNat n).ne_nil]
  isDigit c hc := by
    rcases List.mem_append.1 hc with h | h
    · rw [List.eq_of_mem_replicate h]; rfl
    · exact isDigit_of_mem_ofNat h
  value := (ofDigitChars_replicate_zero _ _).trans (ofDigitChars_ofNat n)

theorem length_ofNatPadded (width n : Nat) :
    (ofNatPadded width n).length = max width (ofNat n).length := by
  rw [ofNatPadded, List.length_append, List.length_replicate]
  omega

theorem length_ofNatPadded_of_lt {width n : Nat} (hwidth : 0 < width) (h : n < 10 ^ width) :
    (ofNatPadded width n).length = width := by
  rw [length_ofNatPadded]
  exact Nat.max_eq_left ((Nat.length_toDigits_le_iff (by decide) hwidth).2 h)

/-! ## Values -/

theorem ofDigitChars_lt (t : Text) (init : Nat) (h : ∀ c ∈ t, c.isDigit = true) :
    Nat.ofDigitChars 10 t init < (init + 1) * 10 ^ t.length := by
  induction t generalizing init with
  | nil => simp
  | cons c t ih =>
    have hc : c.toNat - '0'.toNat < 10 := by
      have := h c (by simp)
      simp only [Char.isDigit, Bool.and_eq_true, decide_eq_true_eq] at this
      have hle : c.val.toNat ≤ 57 := this.2
      have : c.toNat ≤ 57 := hle
      have : '0'.toNat = 48 := rfl
      omega
    rw [Nat.ofDigitChars_cons]
    refine Nat.lt_of_lt_of_le (ih _ fun d hd => h d (by simp [hd])) ?_
    rw [List.length_cons, Nat.pow_succ, ← Nat.mul_assoc, Nat.mul_right_comm]
    exact Nat.mul_le_mul_right _ (by omega)

namespace IsNumeral

variable {n : Nat} {t : Text}

theorem lt_pow_length (h : IsNumeral n t) : n < 10 ^ t.length := by
  have := ofDigitChars_lt t 0 h.isDigit
  rwa [h.value, Nat.zero_add, Nat.one_mul] at this

theorem length_pos (h : IsNumeral n t) : 0 < t.length := List.length_pos_iff.2 h.ne_nil

/-- Only digits occur in a numeral. -/
theorem not_mem (h : IsNumeral n t) {c : Char} (hc : c.isDigit = false) : c ∉ t := fun hmem => by
  rw [h.isDigit c hmem] at hc
  cases hc

/-- A digit takes one byte. -/
theorem byteLength_eq (h : IsNumeral n t) : t.byteLength = t.length := by
  have hdigit := h.isDigit
  clear h
  induction t with
  | nil => rfl
  | cons c t ih =>
    have hc := hdigit c (by simp)
    simp only [Char.isDigit, Bool.and_eq_true, decide_eq_true_eq] at hc
    have hsize : c.utf8Size = 1 := Char.utf8Size_eq_one_iff.2 (UInt32.le_trans hc.2 (by decide))
    rw [byteLength_cons, List.length_cons, hsize, ih fun d hd => hdigit d (by simp [hd])]
    exact Nat.add_comm 1 t.length

end IsNumeral

/-! ## Numbers of two digits -/

/-- A number below a hundred in one digit, where that is enough, or in two. -/
def IsShort (n : Nat) (t : Text) : Prop := t = ofNat n ∨ t = ofNatPadded 2 n

namespace IsShort

variable {n : Nat} {t : Text}

theorem isNumeral (h : IsShort n t) : IsNumeral n t := by
  rcases h with rfl | rfl
  · exact isNumeral_ofNat n
  · exact isNumeral_ofNatPadded 2 n

theorem length_le (h : IsShort n t) (hn : n < 100) : t.length ≤ 2 := by
  rcases h with rfl | rfl
  · exact (Nat.length_toDigits_le_iff (by decide) (by decide)).2 hn
  · exact Nat.le_of_eq (length_ofNatPadded_of_lt (by decide) hn)

end IsShort

end RecordQuery.Text
