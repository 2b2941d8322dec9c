import Mathlib.Tactic.Ring
import RecordQuery.Proofs.Value.Order

/-!
# Dates counted in days

A date is moved day by day, and each step looks whether a month or a year ends. The number of days
since the beginning of 1970 is computed at once, from the parts of the date, with one correction for
each sort of leap year. This file compares the two: a step changes the number by one, so moving by
days adds to the number.

Numbers are in the order of dates, hence no two dates have the same number; and the numbers of dates
have no gaps, since every date but the last has a next one. So moving by days fails exactly if the
sum is beyond the number of the first or the last date.

## Main results

* `Date.compare_dayNumber`, `Date.dayNumber_injective`: dates are ordered as their numbers are
* `Date.next?_eq_some_iff`, `Date.previous?_eq_some_iff`: what one step does
* `Date.exists_dayNumber_iff`: which numbers are those of dates
* `Date.addDays?_eq_some_iff`: moving by days adds to the number
-/

namespace RecordQuery

/-! ## Years and months -/

/-- The length of a year. -/
def daysInYear (year : Int) : Nat := if isLeapYear year then 366 else 365

/-- The days from the first of January of the year 1 to that of a year. -/
def daysBeforeYear (year : Int) : Int :=
  365 * (year - 1) + (year - 1) / 4 - (year - 1) / 100 + (year - 1) / 400

theorem daysBeforeYear_succ (year : Int) :
    daysBeforeYear (year + 1) = daysBeforeYear year + daysInYear year := by
  simp only [daysBeforeYear, daysInYear, isLeapYear, Bool.and_eq_true, Bool.or_eq_true,
    decide_eq_true_eq]
  split <;> omega

theorem daysBeforeYear_mono {y z : Int} (h : y ≤ z) : daysBeforeYear y ≤ daysBeforeYear z := by
  obtain ⟨n, rfl⟩ := Int.le.dest h
  clear h
  induction n with
  | zero => simp
  | succ n ih =>
    have hnext := daysBeforeYear_succ (y + n)
    rw [Int.add_assoc] at hnext
    push_cast
    omega

theorem lt_of_daysBeforeYear_lt {y z : Int} (h : daysBeforeYear y < daysBeforeYear z) : y < z :=
  Int.not_le.1 fun hle => Int.not_le.2 h (daysBeforeYear_mono hle)

theorem daysBeforeMonth_one (year : Int) : daysBeforeMonth year 1 = 0 := rfl

theorem daysBeforeMonth_succ (year : Int) {month : Nat} (h : 1 ≤ month) :
    daysBeforeMonth year (month + 1) = daysBeforeMonth year month + daysInMonth year month := by
  obtain ⟨m, rfl⟩ := Nat.exists_eq_add_of_le' h
  simp [daysBeforeMonth, List.range_succ]

theorem daysBeforeMonth_mono (year : Int) {m n : Nat} (h : m ≤ n) :
    daysBeforeMonth year m ≤ daysBeforeMonth year n := by
  induction h with
  | refl => exact Nat.le_refl _
  | @step n _ ih =>
    refine Nat.le_trans ih ?_
    rcases Nat.eq_zero_or_pos n with rfl | hn
    · exact Nat.le_refl _
    · rw [daysBeforeMonth_succ year hn]
      exact Nat.le_add_right _ _

theorem daysBeforeMonth_thirteen (year : Int) : daysBeforeMonth year 13 = daysInYear year := by
  unfold daysInYear
  cases h : isLeapYear year <;> simp [daysBeforeMonth, List.range_succ, daysInMonth, h]

namespace Date

variable {d e : Date}

/-! ## The order of numbers -/

theorem dayNumber_eq (d : Date) :
    d.dayNumber =
      daysBeforeYear d.year + daysBeforeMonth d.year d.month + d.day - 719163 := rfl

theorem key_lt_iff : lexicographic d.key e.key = .lt ↔
    d.year < e.year ∨ d.year = e.year ∧
      (d.month < e.month ∨ d.month = e.month ∧ d.day < e.day) := by
  simp only [key, lexicographic_cons_eq_lt_iff, lexicographic_self, reduceCtorEq, and_false,
    or_false]
  omega

theorem day_le_daysInYear (d : Date) :
    daysBeforeMonth d.year d.month + d.day ≤ daysInYear d.year := by
  have hmonth : daysBeforeMonth d.year (d.month + 1) ≤ daysBeforeMonth d.year 13 :=
    daysBeforeMonth_mono _ (Nat.succ_le_succ d.month_mem.2)
  rw [daysBeforeMonth_succ _ d.month_mem.1, daysBeforeMonth_thirteen] at hmonth
  have := d.day_mem.2
  omega

/-- The number of the last date of a year. -/
theorem dayNumber_of_last (hmonth : d.month = 12) (hday : daysInMonth d.year d.month ≤ d.day) :
    d.dayNumber = daysBeforeYear (d.year + 1) - 719163 := by
  have hyear := daysBeforeMonth_thirteen d.year
  rw [daysBeforeMonth_succ _ (by decide)] at hyear
  have hday' := d.day_mem.2
  rw [dayNumber_eq, daysBeforeYear_succ]
  rw [hmonth] at hday hday' ⊢
  omega

theorem dayNumber_lt (h : lexicographic d.key e.key = .lt) : d.dayNumber < e.dayNumber := by
  rw [dayNumber_eq, dayNumber_eq]
  have hday := e.day_mem.1
  rcases key_lt_iff.1 h with hyear | ⟨hyear, hmonth | ⟨hmonth, hday⟩⟩
  · have := d.day_le_daysInYear
    have hmono : daysBeforeYear (d.year + 1) ≤ daysBeforeYear e.year := daysBeforeYear_mono hyear
    rw [daysBeforeYear_succ] at hmono
    omega
  · rw [← hyear]
    have hmono : daysBeforeMonth d.year (d.month + 1) ≤ daysBeforeMonth d.year e.month :=
      daysBeforeMonth_mono _ hmonth
    rw [daysBeforeMonth_succ _ d.month_mem.1] at hmono
    have := d.day_mem.2
    omega
  · rw [hyear, hmonth]
    omega

/-- **Dates are ordered as their numbers are.** -/
theorem compare_dayNumber (d e : Date) :
    lexicographic [d.dayNumber] [e.dayNumber] = lexicographic d.key e.key :=
  lexicographic_eq_of_lt key_injective
    (fun _ _ h => lexicographic_cons_eq_lt_iff.2 (.inl (dayNumber_lt h))) d e

theorem dayNumber_injective : Function.Injective dayNumber := by
  intro d e h
  have hkey := compare_dayNumber d e
  rw [h, lexicographic_self] at hkey
  exact key_injective (lexicographic_eq_iff.1 hkey.symm)

/-! ## The first and the last date -/

/-- The first date. -/
def least : Date := ⟨leastYear, 1, 1, by decide, by decide, by decide⟩

/-- The last date. -/
def most : Date := ⟨mostYear, 12, 31, by decide, by decide, by decide⟩

theorem least_le (d : Date) : least.dayNumber ≤ d.dayNumber := by
  have hyear : daysBeforeYear leastYear ≤ daysBeforeYear d.year := daysBeforeYear_mono d.year_mem.1
  have := d.day_mem.1
  rw [dayNumber_eq, dayNumber_eq]
  simp only [least, daysBeforeMonth_one]
  omega

theorem dayNumber_most : most.dayNumber = daysBeforeYear (mostYear + 1) - 719163 :=
  dayNumber_of_last rfl (Nat.le_refl 31)

theorem le_most (d : Date) : d.dayNumber ≤ most.dayNumber := by
  have hyear : daysBeforeYear (d.year + 1) ≤ daysBeforeYear (mostYear + 1) :=
    daysBeforeYear_mono (Int.add_le_add_right d.year_mem.2 1)
  have hday := d.day_le_daysInYear
  rw [daysBeforeYear_succ] at hyear
  rw [dayNumber_eq, dayNumber_most]
  omega

/-! ## Neighbours -/

theorem exists_ofParts? {year : Int} {month day : Nat} (hyear : leastYear ≤ year ∧ year ≤ mostYear)
    (hmonth : 1 ≤ month ∧ month ≤ 12) (hday : 1 ≤ day ∧ day ≤ daysInMonth year month) :
    ∃ d, ofParts? year month day = some d :=
  ⟨⟨year, month, day, hyear, hmonth, hday⟩, ofParts?_eq_some_iff.2 ⟨rfl, rfl, rfl⟩⟩

theorem dayNumber_of_next? (h : d.next? = some e) : e.dayNumber = d.dayNumber + 1 := by
  have hlast := d.day_mem.2
  rw [next?] at h
  split at h
  · obtain ⟨hyear, hmonth, hday⟩ := ofParts?_eq_some_iff.1 h
    rw [dayNumber_eq, dayNumber_eq, hyear, hmonth, hday]
    omega
  split at h
  · obtain ⟨hyear, hmonth, hday⟩ := ofParts?_eq_some_iff.1 h
    rw [dayNumber_eq, dayNumber_eq, hyear, hmonth, hday, daysBeforeMonth_succ _ d.month_mem.1]
    omega
  · obtain ⟨hyear, hmonth, hday⟩ := ofParts?_eq_some_iff.1 h
    have hdecember : d.month = 12 := by have := d.month_mem.2; omega
    rw [dayNumber_eq, hyear, hmonth, hday, dayNumber_of_last hdecember (by omega),
      daysBeforeMonth_one]
    omega

theorem exists_next? (h : d.dayNumber < most.dayNumber) : ∃ e, d.next? = some e := by
  have hmonth := d.month_mem
  rw [next?]
  split
  · exact exists_ofParts? d.year_mem hmonth (by omega)
  split
  · have := le_daysInMonth d.year (d.month + 1)
    exact exists_ofParts? d.year_mem (by omega) (by omega)
  · have hyear : d.year + 1 < mostYear + 1 := by
      refine lt_of_daysBeforeYear_lt ?_
      rw [dayNumber_of_last (by omega) (by omega), dayNumber_most] at h
      omega
    have hleast := d.year_mem.1
    have := le_daysInMonth (d.year + 1) 1
    exact exists_ofParts? (by omega) (by decide) (by omega)

theorem dayNumber_of_previous? (h : d.previous? = some e) : e.dayNumber + 1 = d.dayNumber := by
  have hfirst := d.day_mem.1
  rw [previous?] at h
  split at h
  · obtain ⟨hyear, hmonth, hday⟩ := ofParts?_eq_some_iff.1 h
    rw [dayNumber_eq, dayNumber_eq, hyear, hmonth, hday]
    omega
  split at h
  · next hmonth' =>
    obtain ⟨hyear, hmonth, hday⟩ := ofParts?_eq_some_iff.1 h
    have hsucc := @daysBeforeMonth_succ d.year (d.month - 1) (by omega)
    rw [Nat.sub_add_cancel (Nat.le_of_lt hmonth')] at hsucc
    rw [dayNumber_eq, dayNumber_eq, hyear, hmonth, hday, hsucc]
    omega
  · obtain ⟨hyear, hmonth, hday⟩ := ofParts?_eq_some_iff.1 h
    have hjanuary : d.month = 1 := by have := d.month_mem.1; omega
    rw [dayNumber_of_last hmonth (by rw [hmonth, hday]; exact Nat.le_refl 31), dayNumber_eq, hyear,
      hjanuary, Int.sub_add_cancel, daysBeforeMonth_one]
    omega

theorem exists_previous? (h : least.dayNumber < d.dayNumber) : ∃ e, d.previous? = some e := by
  have hmonth := d.month_mem
  have hday := d.day_mem
  rw [previous?]
  split
  · exact exists_ofParts? d.year_mem hmonth (by omega)
  split
  · have := le_daysInMonth d.year (d.month - 1)
    exact exists_ofParts? d.year_mem (by omega) (by omega)
  · have hjanuary : d.month = 1 := by omega
    have hyear : leastYear < d.year := by
      refine lt_of_daysBeforeYear_lt ?_
      rw [dayNumber_eq, dayNumber_eq, hjanuary] at h
      simp only [least, daysBeforeMonth_one] at h
      omega
    have hmost := d.year_mem.2
    exact exists_ofParts? (by omega) (by decide) ⟨by decide, Nat.le_refl 31⟩

/-- **The next date is the one of the next number.** -/
theorem next?_eq_some_iff : d.next? = some e ↔ e.dayNumber = d.dayNumber + 1 := by
  refine ⟨dayNumber_of_next?, fun h => ?_⟩
  have hmost := e.le_most
  obtain ⟨e', he'⟩ := exists_next? (d := d) (by omega)
  rw [he', dayNumber_injective ((dayNumber_of_next? he').trans h.symm)]

theorem previous?_eq_some_iff : d.previous? = some e ↔ e.dayNumber = d.dayNumber + -1 := by
  constructor
  · intro h
    have := dayNumber_of_previous? h
    omega
  · intro h
    have hleast := e.least_le
    obtain ⟨e', he'⟩ := exists_previous? (d := d) (by omega)
    have hnumber : e'.dayNumber = e.dayNumber := by
      have := dayNumber_of_previous? he'
      omega
    rw [he', dayNumber_injective hnumber]

/-! ## Numbers of dates -/

/-- **The numbers of dates have no gaps.** -/
theorem exists_dayNumber_iff {n : Int} :
    (∃ d : Date, d.dayNumber = n) ↔ least.dayNumber ≤ n ∧ n ≤ most.dayNumber := by
  constructor
  · rintro ⟨d, rfl⟩
    exact ⟨d.least_le, d.le_most⟩
  · rintro ⟨hleast, hmost⟩
    induction n, hleast using Int.leInduction with
    | base => exact ⟨least, rfl⟩
    | succ n _ ih =>
      obtain ⟨d, rfl⟩ := ih (by omega)
      obtain ⟨e, he⟩ := exists_next? (d := d) (by omega)
      exact ⟨e, dayNumber_of_next? he⟩

/-- Steps that each change the number by one change it by their number. -/
theorem steps?_eq_some_iff {step : Date → Option Date} {change : Int}
    (hchange : change = 1 ∨ change = -1)
    (hstep : ∀ d e : Date, step d = some e ↔ e.dayNumber = d.dayNumber + change) (n : Nat) :
    steps? step n d = some e ↔ e.dayNumber = d.dayNumber + n * change := by
  induction n generalizing d with
  | zero =>
    have hzero : steps? step 0 d = some e ↔ e = d := by simp [steps?, eq_comm]
    rw [hzero, ← dayNumber_injective.eq_iff]
    simp
  | succ n ih =>
    rw [steps?, Option.bind_eq_some_iff]
    constructor
    · rintro ⟨d', hd', he⟩
      rw [ih.1 he, (hstep d d').1 hd']
      push_cast
      ring
    · intro he
      -- The date after the first step lies between the two.
      have hd := exists_dayNumber_iff.1 ⟨d, rfl⟩
      have he' := exists_dayNumber_iff.1 ⟨e, rfl⟩
      obtain ⟨d', hd'⟩ : ∃ d' : Date, d'.dayNumber = d.dayNumber + change := by
        rw [exists_dayNumber_iff]
        rcases hchange with rfl | rfl <;> omega
      refine ⟨d', (hstep d d').2 hd', ih.2 ?_⟩
      rw [he, hd']
      push_cast
      ring

/-- **Moving by days adds to the number.** -/
theorem addDays?_eq_some_iff {n : Int} :
    d.addDays? n = some e ↔ e.dayNumber = d.dayNumber + n := by
  cases n with
  | ofNat n =>
    rw [addDays?, steps?_eq_some_iff (.inl rfl) fun _ _ => next?_eq_some_iff]
    simp
  | negSucc n =>
    rw [addDays?, steps?_eq_some_iff (.inr rfl) fun _ _ => previous?_eq_some_iff]
    simp [Int.negSucc_eq]

end Date

end RecordQuery
