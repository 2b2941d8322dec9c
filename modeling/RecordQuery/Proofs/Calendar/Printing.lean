import RecordQuery.Proofs.Calendar.Agreement

/-!
# Printed dates are read back

Dates and date-times are printed by one set of rules and read by another one. A year is printed in
four digits, or with a sign and as many digits as it needs; the reader takes four digits at most,
or a sign and any number of them. A fraction is printed in three, six or nine digits; the reader
takes any number, and counts them as nanoseconds if zeros followed. Printed texts are within what
is read, part by part, and each part is read as what was printed.

## Main results

* `Reader.run_year_yearText`, `Reader.run_fraction_fractionText`: years and fractions
* `Date.ofText_text`, `DateTime.ofText_text`: every date and every date-time is read back
-/

namespace RecordQuery

open Reader

/-! ## Parts -/

namespace Reader

/-- **A printed year is read as the year**, whatever its sign and length. -/
theorem run_year_yearText {y : Int} (hy : y.natAbs < 2 ^ 31) :
    year.run (yearText y) = .ok (y, []) := by
  have hnumeral := Text.isNumeral_ofNatPadded 4 y.natAbs
  unfold yearText
  split
  · next hfour =>
    have hlength : (Text.ofNatPadded 4 y.natAbs).length = 4 :=
      Text.length_ofNatPadded_of_lt (by decide) (by omega)
    rw [run_year_numeral hnumeral hlength.le, Int.natAbs_of_nonneg hfour.1]
  · by_cases hnegative : y < 0
    · have hread := run_year_signed true hnumeral hy
      rw [if_pos rfl, if_pos rfl] at hread
      rw [if_pos hnegative, hread, Int.ofNat_natAbs_of_nonpos hnegative.le, Int.neg_neg]
    · have hread := run_year_signed false hnumeral hy
      rw [if_neg Bool.false_ne_true, if_neg Bool.false_ne_true] at hread
      rw [if_neg hnegative, hread, Int.natAbs_of_nonneg (Int.not_lt.1 hnegative)]

theorem run_field_padded {least most n : Nat} (hn : least ≤ n ∧ n ≤ most) (hmost : most < 100) :
    (field least most).run (Text.ofNatPadded 2 n) = .ok (n, []) :=
  run_field_numeral (Text.isNumeral_ofNatPadded 2 n)
    (Text.length_ofNatPadded_of_lt (by decide) (by omega)).le hn

/-- A number of nanoseconds is printed in the digits that are not followed by zeros. -/
theorem run_fraction_padded (digits : Nat) {nano : Nat} (hpos : 0 < digits) (hdigits : digits ≤ 9)
    (hnano : nano < 1000000000) (hzeros : nano % 10 ^ (9 - digits) = 0) :
    fraction.run ('.' :: Text.ofNatPadded digits (nano / 10 ^ (9 - digits))) = .ok (nano, []) := by
  have hlt : nano / 10 ^ (9 - digits) < 10 ^ digits := by
    rw [Nat.div_lt_iff_lt_mul (by positivity), ← Nat.pow_add, Nat.add_sub_cancel' hdigits]
    exact hnano
  have hlength : (Text.ofNatPadded digits (nano / 10 ^ (9 - digits))).length = digits :=
    Text.length_ofNatPadded_of_lt hpos hlt
  rw [run_fraction_numeral (Text.isNumeral_ofNatPadded _ _) (hlength.le.trans hdigits), hlength,
    Nat.div_mul_cancel (Nat.dvd_of_mod_eq_zero hzeros)]

/-- **A printed fraction is read as its nanoseconds**, in whatever number of digits. -/
theorem run_fraction_fractionText (u : Time) : fraction.run u.fractionText = .ok (u.nano, []) := by
  have hnano := u.nano_lt
  unfold Time.fractionText
  split
  · next hzero =>
    rw [hzero]
    rfl
  · split
    · next hmillis => exact run_fraction_padded 3 (by decide) (by decide) hnano hmillis
    · split
      · next hmicros => exact run_fraction_padded 6 (by decide) (by decide) hnano hmicros
      · have hread := run_fraction_padded 9 (by decide) (by decide) hnano
          (Nat.mod_one _)
        rwa [Nat.sub_self, Nat.pow_zero, Nat.div_one] at hread

end Reader

/-! ## Dates -/

theorem Date.run_text (d : Date) : (date tight).run d.text = .ok (d.parts, []) := by
  have hyear : d.year.natAbs < 2 ^ 31 := by
    have := d.year_mem
    simp only [leastYear, mostYear] at this
    omega
  have hday : 1 ≤ d.day ∧ d.day ≤ 31 := ⟨d.day_mem.1, d.day_mem.2.trans (daysInMonth_le _ _)⟩
  have htext : d.text = yearText d.year ++
      '-' :: (Text.ofNatPadded 2 d.month ++ '-' :: Text.ofNatPadded 2 d.day) := by
    simp [text]
  rw [htext]
  exact run_date (run_year_yearText hyear) (run_field_padded d.month_mem (by decide))
    (run_field_padded hday (by decide))

/-- **Every date is read back.** -/
theorem Date.ofText_text (d : Date) : Date.ofText d.text = .ok d :=
  Date.ofText_eq_ok_iff.2 d.run_text

/-! ## Date-times -/

theorem Time.isSecondWritten_clockText (u : Time) : u.IsSecondWritten u.clockText := by
  refine ⟨Text.ofNatPadded 2 u.hour ++ ':' :: Text.ofNatPadded 2 u.minute,
    Text.ofNatPadded 2 u.second, ⟨_, _, .inr rfl, .inr rfl, rfl⟩, .inr rfl, ?_⟩
  simp [clockText]

theorem Time.stops_fractionText (u : Time) : Stops u.fractionText := by
  have hpoint : u.fractionText = [] ∨ ∃ digits, u.fractionText = '.' :: digits := by
    unfold fractionText
    split
    · exact .inl rfl
    · refine .inr ?_
      split
      · exact ⟨_, rfl⟩
      · split <;> exact ⟨_, rfl⟩
  rcases hpoint with h | ⟨digits, h⟩
  · rw [h]
    exact stops_nil
  · rw [h]
    rintro c ⟨⟩
    decide

/-- **Every date-time is read back**, leap seconds included. -/
theorem DateTime.ofText_text (t : DateTime) : DateTime.ofText t.text = .ok t := by
  let base : DateTime := ⟨t.date, { t.time with
    nano := 0
    nano_lt := by decide }⟩
  have hbase : ofSecondText (t.date.text ++ 'T' :: t.time.clockText) = .ok base :=
    ofForm_eq_ok_iff.2 (run_form t.date.run_text t.time.isSecondWritten_clockText.run)
  have htext : t.text = (t.date.text ++ 'T' :: t.time.clockText) ++ t.time.fractionText := by
    simp [text]
  rw [htext]
  exact ofText_append hbase t.time.stops_fractionText (run_fraction_fractionText t.time) rfl rfl

/-- A leap second of a year before the year 0, and a year of five digits. -/
example : DateTime.ofText "-0001-06-30T23:59:60.250".toList =
      .ok ⟨⟨-1, 6, 30, by decide, by decide, by decide⟩,
        ⟨23, 59, 60, 250000000, by decide, by decide, by decide, by decide⟩⟩ ∧
    (⟨12345, 1, 2, by decide, by decide, by decide⟩ : Date).text = "+12345-01-02".toList :=
  ⟨rfl, rfl⟩

end RecordQuery
