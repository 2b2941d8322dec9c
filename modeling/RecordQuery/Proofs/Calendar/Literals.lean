import Mathlib.Data.List.Infix
import RecordQuery.Mapping.Basic
import RecordQuery.Proofs.Calendar.Readers
import RecordQuery.Proofs.Text.Occurrence

/-!
# Literals of dates

The form of a literal is guessed before it is read: from its length, from the number of its colons,
and from its first point. So it has to be shown that the guess is right for whatever is written,
with one digit or two in each of its numbers. What is written is described by the forms below, and
each of them is held against the guess by its length and by the characters that do not occur in it.

A fraction is a count of milliseconds here, not a decimal fraction: one to three digits, whose
number counts.

## Main results

* `Instant.ofLiteral_of_length_le`, `Instant.ofLiteral_of_one_colon`,
  `Instant.ofLiteral_of_no_point`, `Instant.ofLiteral_of_point`: what a literal is read by
* `Mapper.map_written`: dates, minutes, seconds and milliseconds are mapped to what is written
-/

namespace RecordQuery

open Reader

/-! ## Milliseconds -/

namespace DateTime

theorem exists_addMillis? (t : DateTime) {millis : Nat} (ht : t.time.nano = 0)
    (hmillis : millis < 1000) :
    ∃ u : Time, t.addMillis? millis = some ⟨t.date, u⟩ ∧
      u.parts = { t.time.parts with nano := millis * 1000000 } := by
  have hnano : t.time.nano + millis * 1000000 < 1000000000 := by omega
  refine ⟨_, addNanos?_eq_some t hnano, ?_⟩
  simp [Time.parts, ht]

end DateTime

namespace Instant

theorem millis?_eq_some_iff {t : Text} {n : Nat} :
    millis? t = some n ↔ t.IsNumeral n ∧ t.length ≤ 3 := by
  rw [millis?]
  constructor
  · intro h
    split at h
    · cases h
    · next hform =>
      simp only [Bool.or_eq_true, List.isEmpty_iff, decide_eq_true_eq, Bool.not_eq_true', not_or,
        Bool.not_eq_false, List.all_eq_true, Nat.not_lt] at hform
      have hnumeral : t.IsNumeral n := ⟨hform.1.1, hform.2, Option.some.inj h⟩
      exact ⟨hnumeral, hnumeral.byteLength_eq ▸ hform.1.2⟩
  · rintro ⟨hnumeral, hlength⟩
    rw [if_neg, hnumeral.value]
    simp [hnumeral.ne_nil, hnumeral.byteLength_eq, hlength, List.all_eq_true.2 hnumeral.isDigit]

theorem lt_of_millis?_eq_some {t : Text} {millis : Nat} (h : millis? t = some millis) :
    millis < 1000 := by
  obtain ⟨hnumeral, hlength⟩ := millis?_eq_some_iff.1 h
  exact hnumeral.lt_pow_length.trans_le (Nat.pow_le_pow_right (by decide) hlength)

theorem millis?_eq_none {t : Text} (h : t = [] ∨ 3 < t.length ∨ ∃ c ∈ t, c.isDigit = false) :
    millis? t = none := by
  cases hmillis : millis? t with
  | none => rfl
  | some n =>
    obtain ⟨hnumeral, hlength⟩ := millis?_eq_some_iff.1 hmillis
    rcases h with h | h | ⟨c, hc, hdigit⟩
    · exact absurd h hnumeral.ne_nil
    · exact absurd hlength (Nat.not_le.2 h)
    · exact absurd hc (hnumeral.not_mem hdigit)

/-! ## Errors of parts -/

theorem naming_eq_ok_iff {α : Type} {error : CalendarError → InstantError}
    {x : Except CalendarError α} {a : α} : naming error x = .ok a ↔ x = .ok a := by
  cases x <;> simp [naming]

theorem naming_eq_error_iff {α : Type} {error : CalendarError → InstantError}
    {x : Except CalendarError α} {e : InstantError} :
    naming error x = .error e ↔ ∃ cause, x = .error cause ∧ error cause = e := by
  cases x <;> simp [naming]

theorem naming_bind_eq_ok_iff {α β : Type} {error : CalendarError → InstantError}
    {x : Except CalendarError α} {f : α → Except InstantError β} {b : β} :
    naming error x >>= f = .ok b ↔ ∃ a, x = .ok a ∧ f a = .ok b := by
  cases x <;> simp [naming, bind, Except.bind]

theorem naming_bind_of_eq_ok {α β : Type} {error : CalendarError → InstantError}
    {x : Except CalendarError α} {a : α} (h : x = .ok a) (f : α → Except InstantError β) :
    naming error x >>= f = f a := by
  rw [h]
  rfl

/-! ## The guess -/

variable {t seconds fraction : Text}

theorem ofLiteral_of_length_le (h : t.length ≤ 10) :
    ofLiteral t = naming (.date t) ((Date.ofText t).map fun d => ⟨d, .midnight⟩) :=
  if_pos h

theorem ofLiteral_of_one_colon (hlength : 10 < t.length) (hcolon : t.count ':' = 1) :
    ofLiteral t = naming (.dateTime t) (DateTime.ofMinuteText t) := by
  rw [ofLiteral, if_neg (show ¬ t.length ≤ mostDateLength from Nat.not_le.2 hlength),
    if_pos hcolon]

theorem cut?_eq_none (h : '.' ∉ t) : Text.cut? ['.'] t = none := by
  rwa [← Option.isNone_iff_eq_none, ← Option.isSome_eq_false_iff, ← Bool.not_eq_true,
    Text.isSome_cut?_iff, List.singleton_infix_iff]

theorem cut?_point (h : '.' ∉ seconds) :
    Text.cut? ['.'] (seconds ++ '.' :: fraction) = some (seconds, fraction) := by
  change Text.cut? ['.'] (seconds ++ (['.'] ++ fraction)) = _
  refine Text.cut?_append fun u hu hne hmark => ?_
  cases u with
  | nil => exact hne rfl
  | cons c u =>
    obtain rfl : '.' = c := (List.cons_prefix_cons.1 hmark).1
    exact h (hu.mem (by simp))

theorem ofLiteral_of_no_point (hlength : 10 < t.length) (hcolon : t.count ':' ≠ 1)
    (hpoint : '.' ∉ t) : ofLiteral t = naming (.dateTime t) (DateTime.ofSecondText t) := by
  rw [ofLiteral, if_neg (show ¬ t.length ≤ mostDateLength from Nat.not_le.2 hlength),
    if_neg hcolon, cut?_eq_none hpoint]

/-! ## Behind the point -/

/-- What is done with a fraction when the text before the point has been read: its milliseconds are
added. -/
def finish (t fraction : Text) (add : Nat → Option DateTime) : Except InstantError DateTime :=
  match millis? fraction with
  | none => .error (.milliseconds t)
  | some millis =>
    match add millis with
    | none => .error (.overflow t)
    | some instant => .ok instant

theorem finish_eq_ok_iff {add : Nat → Option DateTime} {dt : DateTime} :
    finish t fraction add = .ok dt ↔
      ∃ millis, millis? fraction = some millis ∧ add millis = some dt := by
  rw [finish]
  cases millis? fraction with
  | none => simp
  | some millis => cases hadd : add millis <;> simp [hadd]

theorem finish_of_none {add : Nat → Option DateTime} (h : millis? fraction = none) :
    finish t fraction add = .error (.milliseconds t) := by
  rw [finish, h]

theorem ofLiteral_of_point (hlength : 10 < (seconds ++ '.' :: fraction).length)
    (hcolon : (seconds ++ '.' :: fraction).count ':' ≠ 1) (hpoint : '.' ∉ seconds) :
    ofLiteral (seconds ++ '.' :: fraction) =
      naming (.dateTime (seconds ++ '.' :: fraction)) (DateTime.ofSecondText seconds) >>=
        fun base => finish (seconds ++ '.' :: fraction) fraction base.addMillis? := by
  rw [ofLiteral, if_neg (show ¬ _ ≤ mostDateLength from Nat.not_le.2 hlength), if_neg hcolon,
    cut?_point hpoint]
  refine bind_congr fun base => ?_
  -- The sum gets a name of its own, so that nothing starts to divide it.
  obtain ⟨add, hadd⟩ : ∃ add, base.addMillis? = add := ⟨_, rfl⟩
  rw [hadd]
  rfl

end Instant

/-! ## What is written -/

/-- A date as `Y-M-D`: the year in four digits, month and day in one or two. -/
def Date.IsWritten (d : Date) (t : Text) : Prop :=
  (0 ≤ d.year ∧ d.year ≤ 9999) ∧
    ∃ month day, Text.IsShort d.month month ∧ Text.IsShort d.day day ∧
      t = Text.ofNatPadded 4 d.year.toNat ++ '-' :: (month ++ '-' :: day)

/-- A time of day up to its minute as `h:m`, each in one digit or two. -/
def Time.IsMinuteWritten (u : Time) (t : Text) : Prop :=
  ∃ hour minute, Text.IsShort u.hour hour ∧ Text.IsShort u.minute minute ∧
    t = hour ++ ':' :: minute

/-- A time of day up to its second as `h:m:s`, each in one digit or two. -/
def Time.IsSecondWritten (u : Time) (t : Text) : Prop :=
  ∃ minutes second, u.IsMinuteWritten minutes ∧ Text.IsShort u.second second ∧
    t = minutes ++ ':' :: second

namespace Date.IsWritten

variable {d : Date} {t : Text}

theorem run (h : d.IsWritten t) : (date tight).run t = .ok (d.parts, []) := by
  obtain ⟨⟨hleast, hmost⟩, month, day, hmonth, hday, rfl⟩ := h
  have hm : d.month ≤ 12 := d.month_mem.2
  have hd : d.day ≤ 31 := d.day_mem.2.trans (daysInMonth_le _ _)
  have hy : d.year.toNat < 10 ^ 4 := by omega
  refine run_date ?_ ?_ ?_
  · rw [run_year_numeral (Text.isNumeral_ofNatPadded 4 _)
      (Text.length_ofNatPadded_of_lt (by decide) hy).le, Int.toNat_of_nonneg hleast]
    rfl
  · exact run_field_numeral hmonth.isNumeral (hmonth.length_le (by omega)) d.month_mem
  · exact run_field_numeral hday.isNumeral (hday.length_le (by omega)) ⟨d.day_mem.1, hd⟩

theorem ofText (h : d.IsWritten t) : Date.ofText t = .ok d := Date.ofText_eq_ok_iff.2 h.run

theorem length_mem (h : d.IsWritten t) : 8 ≤ t.length ∧ t.length ≤ 10 := by
  obtain ⟨⟨hleast, hmost⟩, month, day, hmonth, hday, rfl⟩ := h
  have hm : d.month ≤ 12 := d.month_mem.2
  have hd : d.day ≤ 31 := d.day_mem.2.trans (daysInMonth_le _ _)
  have hyear : (Text.ofNatPadded 4 d.year.toNat).length = 4 :=
    Text.length_ofNatPadded_of_lt (by decide) (by omega)
  have := hmonth.length_le (by omega)
  have := hmonth.isNumeral.length_pos
  have := hday.length_le (by omega)
  have := hday.isNumeral.length_pos
  simp only [List.length_append, List.length_cons]
  omega

theorem not_mem (h : d.IsWritten t) {c : Char} (hc : c.isDigit = false) (hne : c ≠ '-') :
    c ∉ t := by
  obtain ⟨-, month, day, hmonth, hday, rfl⟩ := h
  simp [(Text.isNumeral_ofNatPadded _ _).not_mem hc, hmonth.isNumeral.not_mem hc,
    hday.isNumeral.not_mem hc, hne]

end Date.IsWritten

namespace Time.IsMinuteWritten

variable {u : Time} {t : Text}

theorem run (h : u.IsMinuteWritten t) :
    (hourMinute tight).run t = .ok ((u.hour, u.minute), []) := by
  obtain ⟨hour, minute, hhour, hminute, rfl⟩ := h
  have hh := u.hour_lt
  have hm := u.minute_lt
  exact run_hourMinute
    (run_field_numeral hhour.isNumeral (hhour.length_le (by omega)) (by omega))
    (run_field_numeral hminute.isNumeral (hminute.length_le (by omega)) (by omega))

theorem le_length (h : u.IsMinuteWritten t) : 3 ≤ t.length := by
  obtain ⟨hour, minute, hhour, hminute, rfl⟩ := h
  have := hhour.isNumeral.length_pos
  have := hminute.isNumeral.length_pos
  simp only [List.length_append, List.length_cons]
  omega

theorem count_colon (h : u.IsMinuteWritten t) : t.count ':' = 1 := by
  obtain ⟨hour, minute, hhour, hminute, rfl⟩ := h
  simp [List.count_eq_zero.2 (hhour.isNumeral.not_mem (c := ':') rfl),
    List.count_eq_zero.2 (hminute.isNumeral.not_mem (c := ':') rfl)]

theorem not_mem (h : u.IsMinuteWritten t) {c : Char} (hc : c.isDigit = false) (hne : c ≠ ':') :
    c ∉ t := by
  obtain ⟨hour, minute, hhour, hminute, rfl⟩ := h
  simp [hhour.isNumeral.not_mem hc, hminute.isNumeral.not_mem hc, hne]

end Time.IsMinuteWritten

namespace Time.IsSecondWritten

variable {u : Time} {t : Text}

theorem run (h : u.IsSecondWritten t) :
    (hourMinuteSecond tight).run t = .ok ({ u.parts with nano := 0 }, []) := by
  obtain ⟨minutes, second, hminutes, hsecond, rfl⟩ := h
  have hs := u.second_le
  have hread : (field 0 60).run second = .ok (u.second, []) :=
    run_field_numeral hsecond.isNumeral (hsecond.length_le (by omega)) (by omega)
  exact run_hourMinuteSecond hminutes.run hread

theorem le_length (h : u.IsSecondWritten t) : 3 ≤ t.length := by
  obtain ⟨minutes, second, hminutes, hsecond, rfl⟩ := h
  exact hminutes.le_length.trans (by simp)

theorem count_colon (h : u.IsSecondWritten t) : t.count ':' = 2 := by
  obtain ⟨minutes, second, hminutes, hsecond, rfl⟩ := h
  simp [hminutes.count_colon, List.count_eq_zero.2 (hsecond.isNumeral.not_mem (c := ':') rfl)]

theorem not_mem (h : u.IsSecondWritten t) {c : Char} (hc : c.isDigit = false) (hne : c ≠ ':') :
    c ∉ t := by
  obtain ⟨minutes, second, hminutes, hsecond, rfl⟩ := h
  simp [hminutes.not_mem hc hne, hsecond.isNumeral.not_mem hc, hne]

end Time.IsSecondWritten

/-! ## The guess is right -/

section

variable {d : Date} {u : Time} {date minute second : Text}

theorem Instant.ofLiteral_dateWritten (hdate : d.IsWritten date) :
    ofLiteral date = .ok ⟨d, .midnight⟩ := by
  rw [ofLiteral_of_length_le hdate.length_mem.2, naming_eq_ok_iff, hdate.ofText]
  rfl

theorem Instant.ofLiteral_minuteWritten (hdate : d.IsWritten date)
    (hminute : u.IsMinuteWritten minute) :
    ∃ v : Time, v.parts = ⟨u.hour, u.minute, 0, 0⟩ ∧
      ofLiteral (date ++ 'T' :: minute) = .ok ⟨d, v⟩ := by
  let v : Time := { u with
    second := 0
    nano := 0
    second_le := by decide
    nano_lt := by decide }
  have hlength : 10 < (date ++ 'T' :: minute).length := by
    have := hdate.length_mem
    have := hminute.le_length
    simp only [List.length_append, List.length_cons]
    omega
  have hcolon : (date ++ 'T' :: minute).count ':' = 1 := by
    simp [hminute.count_colon, List.count_eq_zero.2 (hdate.not_mem (c := ':') rfl (by decide))]
  have hread : minutes.run minute = .ok (v.parts, []) := by
    rw [minutes, run_bind_of_eq_ok hminute.run]
    rfl
  refine ⟨v, rfl, ?_⟩
  rw [ofLiteral_of_one_colon hlength hcolon, naming_eq_ok_iff]
  exact DateTime.ofForm_eq_ok_iff.2 (run_form hdate.run hread)

/-- What the forms with seconds have in common. -/
theorem Instant.secondWritten (hdate : d.IsWritten date) (hsecond : u.IsSecondWritten second) :
    ∃ v : Time, v.parts = { u.parts with nano := 0 } ∧
      DateTime.ofSecondText (date ++ 'T' :: second) = .ok ⟨d, v⟩ ∧
      10 < (date ++ 'T' :: second).length ∧ (date ++ 'T' :: second).count ':' = 2 ∧
      '.' ∉ date ++ 'T' :: second := by
  refine ⟨{ u with nano := 0, nano_lt := by decide }, rfl,
    DateTime.ofForm_eq_ok_iff.2 (run_form hdate.run hsecond.run), ?_, ?_, ?_⟩
  · have := hdate.length_mem
    have := hsecond.le_length
    simp only [List.length_append, List.length_cons]
    omega
  · simp [hsecond.count_colon, List.count_eq_zero.2 (hdate.not_mem (c := ':') rfl (by decide))]
  · simp [hdate.not_mem (c := '.') rfl (by decide), hsecond.not_mem (c := '.') rfl (by decide)]

theorem Instant.ofLiteral_secondWritten (hdate : d.IsWritten date)
    (hsecond : u.IsSecondWritten second) :
    ∃ v : Time, v.parts = { u.parts with nano := 0 } ∧
      ofLiteral (date ++ 'T' :: second) = .ok ⟨d, v⟩ := by
  obtain ⟨v, hv, hread, hlength, hcolon, hpoint⟩ := secondWritten hdate hsecond
  refine ⟨v, hv, ?_⟩
  rw [ofLiteral_of_no_point hlength (by omega) hpoint, naming_eq_ok_iff]
  exact hread

/-- A fraction is looked at when the text before the point has been read. -/
theorem Instant.ofLiteral_fractionWritten (hdate : d.IsWritten date)
    (hsecond : u.IsSecondWritten second) (fraction : Text) :
    (∀ millis, millis? fraction = some millis →
      ∃ v : Time, v.parts = { u.parts with nano := millis * 1000000 } ∧
        ofLiteral (date ++ 'T' :: (second ++ '.' :: fraction)) = .ok ⟨d, v⟩) ∧
    (millis? fraction = none →
      ofLiteral (date ++ 'T' :: (second ++ '.' :: fraction)) =
        .error (.milliseconds (date ++ 'T' :: (second ++ '.' :: fraction)))) := by
  obtain ⟨v, hv, hread, hlength, hcolon, hpoint⟩ := secondWritten hdate hsecond
  have heq : date ++ 'T' :: (second ++ '.' :: fraction) =
      (date ++ 'T' :: second) ++ '.' :: fraction := by simp
  have hlength' : 10 < ((date ++ 'T' :: second) ++ '.' :: fraction).length := by
    rw [List.length_append]
    omega
  have hcolon' : ((date ++ 'T' :: second) ++ '.' :: fraction).count ':' ≠ 1 := by
    rw [List.count_append]
    omega
  rw [heq, ofLiteral_of_point hlength' hcolon' hpoint, naming_bind_of_eq_ok hread]
  constructor
  · intro millis hmillis
    have hnano : v.nano = 0 := congrArg TimeParts.nano hv
    obtain ⟨w, hadd, hw⟩ :=
      DateTime.exists_addMillis? ⟨d, v⟩ hnano (lt_of_millis?_eq_some hmillis)
    exact ⟨w, hw.trans (by rw [hv]), finish_eq_ok_iff.2 ⟨millis, hmillis, hadd⟩⟩
  · exact finish_of_none

theorem Mapper.map_date (name literal : Text) :
    (⟨name, .date⟩ : Mapper).map literal =
      match Instant.ofLiteral literal with
      | .ok t => .ok (.timestamp t)
      | .error e => .error ⟨name, literal, .foreign (.instant e)⟩ := by
  simp only [Mapper.map, ValueType.read]
  cases Instant.ofLiteral literal <;> rfl

/-- **What is written in one of the four forms is mapped to what it says.** A date is mapped to its
midnight, a date-time to its minute, its second or its millisecond, with no difference between
numbers in one digit and in two. A fraction has one to three digits, or it is refused. -/
theorem Mapper.map_written (name : Text) (hdate : d.IsWritten date)
    (hminute : u.IsMinuteWritten minute) (hsecond : u.IsSecondWritten second) :
    let mapper : Mapper := ⟨name, .date⟩
    mapper.map date = .ok (.timestamp ⟨d, .midnight⟩) ∧
    (∃ v : Time, v.parts = ⟨u.hour, u.minute, 0, 0⟩ ∧
      mapper.map (date ++ 'T' :: minute) = .ok (.timestamp ⟨d, v⟩)) ∧
    (∃ v : Time, v.parts = ⟨u.hour, u.minute, u.second, 0⟩ ∧
      mapper.map (date ++ 'T' :: second) = .ok (.timestamp ⟨d, v⟩)) ∧
    ∀ fraction : Text,
      let literal := date ++ 'T' :: (second ++ '.' :: fraction)
      (1 ≤ fraction.length → fraction.length ≤ 3 → (∀ c ∈ fraction, c.isDigit = true) →
        ∃ v : Time,
          v.parts = ⟨u.hour, u.minute, u.second, Nat.ofDigitChars 10 fraction 0 * 1000000⟩ ∧
          mapper.map literal = .ok (.timestamp ⟨d, v⟩)) ∧
      (fraction = [] ∨ 3 < fraction.length ∨ (∃ c ∈ fraction, c.isDigit = false) →
        mapper.map literal =
          .error ⟨name, literal, .foreign (.instant (.milliseconds literal))⟩) := by
  refine ⟨?_, ?_, ?_, fun fraction => ⟨fun hpos hlength hdigit => ?_, fun hbad => ?_⟩⟩
  · rw [map_date, Instant.ofLiteral_dateWritten hdate]
  · obtain ⟨v, hv, h⟩ := Instant.ofLiteral_minuteWritten hdate hminute
    exact ⟨v, hv, by rw [map_date, h]⟩
  · obtain ⟨v, hv, h⟩ := Instant.ofLiteral_secondWritten hdate hsecond
    exact ⟨v, hv, by rw [map_date, h]⟩
  · have hnumeral : fraction.IsNumeral (Nat.ofDigitChars 10 fraction 0) :=
      ⟨List.length_pos_iff.1 hpos, hdigit, rfl⟩
    obtain ⟨v, hv, h⟩ := (Instant.ofLiteral_fractionWritten hdate hsecond fraction).1 _
      (Instant.millis?_eq_some_iff.2 ⟨hnumeral, hlength⟩)
    exact ⟨v, hv, by rw [map_date, h]⟩
  · have h := (Instant.ofLiteral_fractionWritten hdate hsecond fraction).2
      (Instant.millis?_eq_none hbad)
    rw [map_date, h]

/-- The 29th of February, its numbers in one digit and in two. -/
theorem Mapper.map_written_leapDay :
    (∃ v : Time, v.parts = ⟨7, 5, 9, 17000000⟩ ∧
      (⟨['d'], .date⟩ : Mapper).map "2020-2-29T07:5:09.17".toList =
        .ok (.timestamp ⟨⟨2020, 2, 29, by decide, by decide, by decide⟩, v⟩)) ∧
    ∃ e, (⟨['d'], .date⟩ : Mapper).map "2020-2-29T07:5:09.1700".toList = .error e := by
  have hdate : (⟨2020, 2, 29, by decide, by decide, by decide⟩ : Date).IsWritten
      "2020-2-29".toList := ⟨by decide, ['2'], ['2', '9'], .inl rfl, .inl rfl, rfl⟩
  have hminute : (⟨7, 5, 9, 0, by decide, by decide, by decide, by decide⟩ : Time).IsMinuteWritten
      "07:5".toList := ⟨['0', '7'], ['5'], .inr rfl, .inl rfl, rfl⟩
  have h := Mapper.map_written ['d'] hdate hminute ⟨_, ['0', '9'], hminute, .inr rfl, rfl⟩
  exact ⟨(h.2.2.2 ['1', '7']).1 (by decide) (by decide) (List.all_eq_true.1 rfl),
    _, (h.2.2.2 ['1', '7', '0', '0']).2 (.inr (.inl (by decide)))⟩

end

end RecordQuery
