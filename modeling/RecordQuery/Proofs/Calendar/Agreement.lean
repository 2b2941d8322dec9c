import RecordQuery.Proofs.Calendar.Literals
import RecordQuery.Sql.Fragment

/-!
# Two readers of date-times

The literals of instants and those of date-times without a zone are read in different ways. One
reader cuts the literal at its first point, reads what stands before, and adds what stands behind as
milliseconds; the other one reads seconds and fraction in one go, and reads hours and minutes only
if that fails. They are the same forms nevertheless, each going on where the next shorter one ends.
So they agree on all that both accept, if a fraction has three digits: with fewer, one of them
counts milliseconds and the other one tenths or hundredths of a second.

## Main results

* `Instant.ofLiteral_eq_ok_cases`: the ways in which a literal is an instant
* `DateTime.ofText_of_ofMinuteText` and the lemmas after it: each is the same date-time, read as one
  without a zone
* `Mapper.map_date_eq_map_localDateTime`: the two mappers, and the parameters that are bound
-/

namespace RecordQuery

open Reader

/-! ## The ways of an instant -/

theorem Instant.ofLiteral_eq_ok_cases {t : Text} {dt : DateTime} (h : ofLiteral t = .ok dt) :
    (∃ d, Date.ofText t = .ok d) ∨ DateTime.ofMinuteText t = .ok dt ∨
      DateTime.ofSecondText t = .ok dt ∨
      ∃ seconds fraction base millis, t = seconds ++ '.' :: fraction ∧ '.' ∉ seconds ∧
        DateTime.ofSecondText seconds = .ok base ∧ millis? fraction = some millis ∧
        base.addMillis? millis = some dt := by
  by_cases hlength : t.length ≤ 10
  · rw [ofLiteral_of_length_le hlength, naming_eq_ok_iff] at h
    cases hd : Date.ofText t with
    | ok d => exact .inl ⟨d, rfl⟩
    | error e =>
      rw [hd] at h
      cases h
  rw [Nat.not_le] at hlength
  by_cases hcolon : t.count ':' = 1
  · rw [ofLiteral_of_one_colon hlength hcolon, naming_eq_ok_iff] at h
    exact .inr (.inl h)
  by_cases hpoint : '.' ∈ t
  · obtain ⟨seconds, fraction, rfl, hseconds⟩ := List.eq_append_cons_of_mem hpoint
    rw [ofLiteral_of_point hlength hcolon hseconds, naming_bind_eq_ok_iff] at h
    obtain ⟨base, hbase, h⟩ := h
    obtain ⟨millis, hmillis, hadd⟩ := finish_eq_ok_iff.1 h
    exact .inr (.inr (.inr ⟨seconds, fraction, base, millis, rfl, hseconds, hbase, hmillis, hadd⟩))
  · rw [ofLiteral_of_no_point hlength hcolon hpoint, naming_eq_ok_iff] at h
    exact .inr (.inr (.inl h))

namespace DateTime

/-! ## The local reader -/

variable {t seconds fraction : Text} {dt base : DateTime}

theorem ofText_of_ofForm_time (h : ofForm tight (Reader.time tight) t = .ok dt) :
    ofText t = .ok dt := by
  rw [ofText, h]

/-- A date leaves no time of day to be read. -/
theorem ofForm_ne_ok_of_date {d : Date} (h : Date.ofText t = .ok d) (time : Reader TimeParts) :
    ofForm tight time t ≠ .ok dt := fun hform => by
  obtain ⟨parts, rest, hdate, hrest⟩ := run_bind_eq_ok_iff.1 (ofForm_eq_ok_iff.1 hform)
  cases (Date.ofText_eq_ok_iff.1 h).symm.trans hdate
  obtain ⟨_, _, htight, hmark⟩ := run_bind_eq_ok_iff.1 hrest
  cases htight
  obtain ⟨_, _, hmark, -⟩ := run_bind_eq_ok_iff.1 hmark
  cases hmark

theorem ofText_ne_ok_of_date {d : Date} (h : Date.ofText t = .ok d) : ofText t ≠ .ok dt := by
  rw [ofText]
  split
  · next dt' hform => exact absurd hform (ofForm_ne_ok_of_date h _)
  · exact ofForm_ne_ok_of_date h _

/-- A text with minutes leaves no seconds to be read. -/
theorem ofText_of_ofMinuteText (h : ofMinuteText t = .ok dt) : ofText t = .ok dt := by
  rw [ofText]
  split
  · next dt' hform =>
    rw [ofForm_eq_ok_iff, form_time, form_hourMinuteSecond] at hform
    obtain ⟨_, _, hsecond, -⟩ := run_bind_eq_ok_iff.1 hform
    obtain ⟨_, rest, hminute, hrest⟩ := run_bind_eq_ok_iff.1 hsecond
    cases (ofForm_eq_ok_iff.1 h).symm.trans hminute
    obtain ⟨_, _, hmark, -⟩ := run_bind_eq_ok_iff.1 hrest
    cases hmark
  · exact h

theorem nano_of_ofSecondText (h : ofSecondText t = .ok dt) : dt.time.nano = 0 :=
  yields_form tight (yields_hourMinuteSecond tight) _ _ _ (ofForm_eq_ok_iff.1 h)

/-- A fraction goes on where the seconds end. -/
theorem ofText_append {nano : Nat} (h : ofSecondText seconds = .ok base) (hstops : Stops fraction)
    (hfraction : Reader.fraction.run fraction = .ok (nano, []))
    (hdate : dt.date = base.date) (htime : dt.time.parts = { base.time.parts with nano := nano }) :
    ofText (seconds ++ fraction) = .ok dt := by
  refine ofText_of_ofForm_time (ofForm_eq_ok_iff.2 ?_)
  have hrun := stable_form stable_hourMinuteSecond _ _ _ (ofForm_eq_ok_iff.1 h) fraction hstops
  rw [form_time, run_bind_of_eq_ok hrun, hdate, htime]
  exact run_bind_of_eq_ok hfraction _

theorem ofText_of_ofSecondText (h : ofSecondText t = .ok dt) : ofText t = .ok dt := by
  have hparts : dt.time.parts = { dt.time.parts with nano := 0 } := by
    simp [Time.parts, nano_of_ofSecondText h]
  have hread := ofText_append h stops_nil rfl rfl hparts
  rwa [List.append_nil] at hread

/-- Three digits are the same as a decimal fraction and as a count of milliseconds. -/
theorem ofText_of_addMillis? {millis : Nat} (h : ofSecondText seconds = .ok base)
    (hmillis : fraction.IsNumeral millis) (hlength : fraction.length = 3)
    (hadd : base.addMillis? millis = some dt) : ofText (seconds ++ '.' :: fraction) = .ok dt := by
  have hlt : millis < 1000 := by
    have := hmillis.lt_pow_length
    rwa [hlength] at this
  obtain ⟨u, hu, htime⟩ := exists_addMillis? base (nano_of_ofSecondText h) hlt
  obtain rfl := Option.some.inj (hu.symm.trans hadd)
  have hfraction := run_fraction_numeral hmillis (hlength.le.trans (by decide))
  rw [hlength] at hfraction
  have hstops : Stops ('.' :: fraction) := by
    rintro c ⟨⟩
    decide
  exact ofText_append h hstops hfraction rfl htime

end DateTime

/-! ## Agreement -/

/-- A text without a fraction, or with one of three digits. -/
def HasWholeMillis (t : Text) : Prop :=
  '.' ∉ t ∨ ∃ whole fraction : Text, t = whole ++ '.' :: fraction ∧
    fraction.length = 3 ∧ ∀ c ∈ fraction, c.isDigit = true

theorem HasWholeMillis.length_eq {seconds fraction : Text} {millis : Nat}
    (h : HasWholeMillis (seconds ++ '.' :: fraction)) (hpoint : '.' ∉ seconds)
    (hnumeral : fraction.IsNumeral millis) : fraction.length = 3 := by
  rcases h with h | ⟨whole, digits, heq, hlength, -⟩
  · simp at h
  · obtain ⟨-, -, rfl⟩ :=
      (List.append_cons_inj_of_notMem hpoint (hnumeral.not_mem (c := '.') rfl)).1 heq
    exact hlength

theorem DateTime.ofText_eq_of_ofLiteral {t : Text} {dt dt' : DateTime} (ht : HasWholeMillis t)
    (h : Instant.ofLiteral t = .ok dt) (h' : ofText t = .ok dt') : dt' = dt := by
  have heq : ofText t = .ok dt := by
    rcases Instant.ofLiteral_eq_ok_cases h with ⟨d, hdate⟩ | hminute | hsecond |
      ⟨seconds, fraction, base, millis, rfl, hpoint, hbase, hmillis, hadd⟩
    · exact absurd h' (ofText_ne_ok_of_date hdate)
    · exact ofText_of_ofMinuteText hminute
    · exact ofText_of_ofSecondText hsecond
    · have hnumeral := (Instant.millis?_eq_some_iff.1 hmillis).1
      exact ofText_of_addMillis? hbase hnumeral (ht.length_eq hpoint hnumeral) hadd
  exact Except.ok.inj (h'.symm.trans heq)

theorem Mapper.map_localDateTime (name literal : Text) :
    (⟨name, .localDateTime⟩ : Mapper).map literal =
      match DateTime.ofText literal with
      | .ok t => .ok (.dateTime t)
      | .error e => .error ⟨name, literal, .foreign (.calendar e)⟩ := by
  simp only [Mapper.map, ValueType.read]
  cases DateTime.ofText literal <;> rfl

/-- **The two readers of date-times agree.** A literal that both mappers accept, without a fraction
or with one of three digits, is the same date-time for both, and in UTC the same parameter is bound
for it. -/
theorem Mapper.map_date_eq_map_localDateTime {name name' literal : Text} {v v' : Value}
    (h : (⟨name, .date⟩ : Mapper).map literal = .ok v)
    (h' : (⟨name', .localDateTime⟩ : Mapper).map literal = .ok v')
    (hmillis : HasWholeMillis literal) :
    ∃ t : DateTime, v = .timestamp t ∧ v' = .dateTime t ∧
      ∀ (dialect : Sql.Dialect) (f : Sql.Fragment),
        f.addParam ⟨dialect, .utc⟩ v' = f.addParam ⟨dialect, .utc⟩ v := by
  rw [map_date] at h
  rw [map_localDateTime] at h'
  split at h
  · next t hinstant =>
    split at h'
    · next t' hlocal =>
      obtain rfl := DateTime.ofText_eq_of_ofLiteral hmillis hinstant hlocal
      cases h
      cases h'
      exact ⟨t', rfl, rfl, fun _ _ => rfl⟩
    · cases h'
  · cases h

/-- A leap second in the year before the year 0, with a blank in front of some of its numbers. -/
theorem Mapper.map_date_eq_map_localDateTime_leapSecond :
    let literal := "-1-12- 31T23: 59:60.500".toList
    ∃ t : DateTime,
      (⟨['d'], .date⟩ : Mapper).map literal = .ok (.timestamp t) ∧
      (⟨['e'], .localDateTime⟩ : Mapper).map literal = .ok (.dateTime t) ∧
      Sql.Fragment.empty.addParam ⟨.generic, .utc⟩ (.dateTime t) =
        Sql.Fragment.empty.addParam ⟨.generic, .utc⟩ (.timestamp t) := by
  let t : DateTime := ⟨⟨-1, 12, 31, by decide, by decide, by decide⟩,
    ⟨23, 59, 60, 500000000, by decide, by decide, by decide, by decide⟩⟩
  let literal := "-1-12- 31T23: 59:60.500".toList
  have hdate : (⟨['d'], .date⟩ : Mapper).map literal = .ok (.timestamp t) := rfl
  have hlocal : (⟨['e'], .localDateTime⟩ : Mapper).map literal = .ok (.dateTime t) := rfl
  obtain ⟨t', h, h', hbound⟩ := Mapper.map_date_eq_map_localDateTime hdate hlocal
    (.inr ⟨"-1-12- 31T23: 59:60".toList, ['5', '0', '0'], rfl, rfl, List.all_eq_true.1 rfl⟩)
  exact ⟨t', hdate.trans (congrArg Except.ok h), hlocal.trans (congrArg Except.ok h'),
    by rw [← h, ← h']; exact hbound .generic .empty⟩

end RecordQuery
