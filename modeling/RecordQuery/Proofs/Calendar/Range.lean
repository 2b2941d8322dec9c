import RecordQuery.Proofs.Calendar.Agreement
import RecordQuery.Proofs.Calendar.Seconds

/-!
# Instants in range

Dates reach from the year -262143 to the year 262142, and what is added to a date-time can lead out
of that range. Nanoseconds are carried into whole seconds first, so it is the seconds carried which
decide that (`DateTime.exists_addNanos?_iff`).

The milliseconds of a literal are never carried. What stands before the point is read without a
fraction, so it is the beginning of a second, and three digits count less than a second. This is so
in a leap second too, whose nanoseconds are counted from the second before it, and in the last
second of the range. So no reading ends with the error that an addition has left the range.

## Main results

* `DateTime.addSeconds?_eq_some_iff_of_pos`: moving forwards, also out of a leap second
* `DateTime.exists_addNanos?_iff`: when there is somewhere to move to
* `DateTime.unix_of_addMillis?`: milliseconds of one second are added to the nanoseconds alone
* `Instant.ofLiteral_ne_overflow`: no literal leads out of the range
* `Mapper.map_date_inRange`: the mapper of dates, and the additions that it makes
-/

namespace RecordQuery

namespace DateTime

variable {t u : DateTime}

/-! ## Additions -/

/-- A leap second counts as the second before it, which is in range. -/
theorem inRange_unixSeconds (t : DateTime) : InRange t.unixSeconds :=
  (exists_unix_iff t.time.nano_lt).1
    ⟨_, unix_ofSecondOfDay t.date t.time.secondOfDay_lt t.time.nano_lt⟩

/-- **Moving forwards adds to the count**, from a leap second as from the second before it. -/
theorem addSeconds?_eq_some_iff_of_pos {s : Int} (hs : 0 < s) :
    t.addSeconds? s = some u ↔
      u.unixSeconds = t.unixSeconds + s ∧ u.unixNanos = t.time.nano := by
  have hne : s ≠ 0 := by omega
  have hforwards : ¬ s < 0 := by omega
  have hcount : t.unixSeconds = t.date.dayNumber * 86400 + t.time.secondOfDay := rfl
  simp only [addSeconds?, if_neg hne, hforwards, decide_false, Bool.and_false, Bool.false_eq_true,
    if_false]
  rw [ofSeconds?_eq_some_iff, hcount]
  omega

/-- **An addition stays in range if the seconds that are carried do.** -/
theorem exists_addNanos?_iff {nanos : Nat} : (∃ u, t.addNanos? nanos = some u) ↔
    InRange (t.unixSeconds + ((t.time.nano + nanos) / 1000000000 : Nat)) := by
  rw [addNanos?]
  generalize (t.time.nano + nanos) / 1000000000 = carried
  have hnano : (t.time.nano + nanos) % 1000000000 < 1000000000 := Nat.mod_lt _ (by decide)
  cases carried with
  | zero =>
    rw [Int.natCast_zero, Int.add_zero]
    exact iff_of_true ⟨_, addSeconds?_zero _⟩ t.inRange_unixSeconds
  | succ n =>
    rw [← exists_unix_iff hnano]
    exact exists_congr fun u => addSeconds?_eq_some_iff_of_pos (by omega)

example : most.addMillis? 1 = none := by decide +kernel

/-- The milliseconds of one second are added to the nanoseconds, and nothing is carried. -/
theorem unix_of_addMillis? {millis : Nat} (ht : t.time.nano = 0) (hmillis : millis < 1000)
    (h : t.addMillis? millis = some u) :
    u.date = t.date ∧ u.unixSeconds = t.unixSeconds ∧
      u.unixNanos = t.unixNanos + millis * 1000000 := by
  obtain ⟨v, hv, hparts⟩ := exists_addMillis? t ht hmillis
  obtain rfl := Option.some.inj (hv.symm.trans h)
  obtain ⟨hhour, hminute, hsecond, hnano⟩ := Reader.TimeParts.mk.inj hparts
  refine ⟨rfl, ?_, ?_⟩
  · simp only [unixSeconds, Time.secondOfDay, hhour, hminute, hsecond]
    rfl
  · simp only [unixNanos_eq, hnano, hsecond, ht, Time.parts]
    omega

end DateTime

/-! ## Literals -/

namespace Instant

/-- **What is added to the base of a literal stays in range**: the base begins a second, and less
than a second is added. -/
theorem exists_addMillis?_of_read {seconds fraction : Text} {base : DateTime} {millis : Nat}
    (hbase : DateTime.ofSecondText seconds = .ok base) (hmillis : millis? fraction = some millis) :
    ∃ sum, base.addMillis? millis = some sum := by
  have hnano := DateTime.nano_of_ofSecondText hbase
  have hlt := lt_of_millis?_eq_some hmillis
  rw [DateTime.addMillis?]
  refine DateTime.exists_addNanos?_iff.2 ?_
  rw [hnano, Nat.div_eq_of_lt (by omega), Int.natCast_zero, Int.add_zero]
  exact base.inRange_unixSeconds

/-- **No literal leads out of the range.** -/
theorem ofLiteral_ne_overflow (t text : Text) : ofLiteral t ≠ .error (.overflow text) := by
  intro h
  by_cases hlength : t.length ≤ 10
  · rw [ofLiteral_of_length_le hlength, naming_eq_error_iff] at h
    obtain ⟨_, -, h⟩ := h
    cases h
  rw [Nat.not_le] at hlength
  by_cases hcolon : t.count ':' = 1
  · rw [ofLiteral_of_one_colon hlength hcolon, naming_eq_error_iff] at h
    obtain ⟨_, -, h⟩ := h
    cases h
  by_cases hpoint : '.' ∈ t
  · obtain ⟨seconds, fraction, rfl, hseconds⟩ := List.eq_append_cons_of_mem hpoint
    rw [ofLiteral_of_point hlength hcolon hseconds] at h
    cases hbase : DateTime.ofSecondText seconds with
    | error cause =>
      rw [hbase] at h
      cases h
    | ok base =>
      rw [naming_bind_of_eq_ok hbase] at h
      cases hmillis : millis? fraction with
      | none =>
        rw [finish_of_none hmillis] at h
        cases h
      | some millis =>
        obtain ⟨sum, hsum⟩ := exists_addMillis?_of_read hbase hmillis
        cases (finish_eq_ok_iff.2 ⟨millis, hmillis, hsum⟩).symm.trans h
  · rw [ofLiteral_of_no_point hlength hcolon hpoint, naming_eq_error_iff] at h
    obtain ⟨_, -, h⟩ := h
    cases h

end Instant

/-- **Reading a date stays in range.** Every literal is mapped to an instant or refused with an
error, and never because an addition has left the range. Where milliseconds are added, the base
begins a second, a leap second perhaps, and the sum lies in the same one: it is of the same date and
has the same count of seconds. It is what the literal is mapped to. -/
theorem Mapper.map_date_inRange :
    (∀ name literal : Text,
      (∃ t, (⟨name, .date⟩ : Mapper).map literal = .ok (.timestamp t)) ∨
      ∃ e, (⟨name, .date⟩ : Mapper).map literal = .error ⟨name, literal, .foreign (.instant e)⟩ ∧
        ∀ text, e ≠ .overflow text) ∧
    ∀ (seconds fraction : Text) (base : DateTime) (millis : Nat),
      DateTime.ofSecondText seconds = .ok base → Instant.millis? fraction = some millis →
      base.time.nano = 0 ∧ millis ≤ 999 ∧
      ∃ sum, base.addMillis? millis = some sum ∧ sum.date = base.date ∧
        sum.unixSeconds = base.unixSeconds ∧
        sum.unixNanos = base.unixNanos + millis * 1000000 ∧
        (-262143 ≤ sum.date.year ∧ sum.date.year ≤ 262142) ∧
        ∀ name : Text, '.' ∉ seconds → 10 < (seconds ++ '.' :: fraction).length →
          (seconds ++ '.' :: fraction).count ':' ≠ 1 →
          (⟨name, .date⟩ : Mapper).map (seconds ++ '.' :: fraction) = .ok (.timestamp sum) := by
  refine ⟨fun name literal => ?_, fun seconds fraction base millis hbase hmillis => ?_⟩
  · rw [map_date]
    cases hread : Instant.ofLiteral literal with
    | ok t => exact .inl ⟨t, rfl⟩
    | error e =>
      refine .inr ⟨e, rfl, ?_⟩
      rintro text rfl
      exact Instant.ofLiteral_ne_overflow literal text hread
  · have hnano := DateTime.nano_of_ofSecondText hbase
    have hlt := Instant.lt_of_millis?_eq_some hmillis
    obtain ⟨sum, hsum⟩ := Instant.exists_addMillis?_of_read hbase hmillis
    obtain ⟨hdate, hseconds, hnanos⟩ := DateTime.unix_of_addMillis? hnano hlt hsum
    refine ⟨hnano, Nat.le_of_lt_succ hlt, sum, hsum, hdate, hseconds, hnanos, sum.date.year_mem,
      fun name hpoint hlength hcolon => ?_⟩
    rw [map_date, Instant.ofLiteral_of_point hlength hcolon hpoint,
      Instant.naming_bind_of_eq_ok hbase, Instant.finish_eq_ok_iff.2 ⟨millis, hmillis, hsum⟩]

/-- The last second of the range, which is a leap second; the first one; and a year behind the
last. -/
theorem Mapper.map_date_inRange_ends :
    let mapper : Mapper := ⟨['d'], .date⟩
    let late : Text := "+262143-1-1T0:0:0.1".toList
    (∃ sum : DateTime, sum.date = .most ∧ sum.unixNanos = 1999000000 ∧
      mapper.map "+262142-12-31T23:59:60.999".toList = .ok (.timestamp sum)) ∧
    (∃ sum : DateTime, sum.date = .least ∧ sum.unixNanos = 1000000 ∧
      mapper.map "-262143-1-1T0:0:0.1".toList = .ok (.timestamp sum)) ∧
    ∃ e, mapper.map late = .error ⟨['d'], late, .foreign (.instant e)⟩ ∧
      ∀ text, e ≠ .overflow text := by
  intro mapper late
  obtain ⟨hmap, hsum⟩ := Mapper.map_date_inRange
  have hlast : DateTime.ofSecondText "+262142-12-31T23:59:60".toList =
      .ok ⟨.most, ⟨23, 59, 60, 0, by decide, by decide, by decide, by decide⟩⟩ := rfl
  have hfirst : DateTime.ofSecondText "-262143-1-1T0:0:0".toList = .ok .least := rfl
  have hlate : mapper.map late =
      .error ⟨['d'], late, .foreign (.instant (.dateTime late .outOfRange))⟩ := rfl
  obtain ⟨-, -, last, -, hdate, -, hnanos, -, hread⟩ :=
    hsum _ ['9', '9', '9'] _ 999 hlast (by decide)
  obtain ⟨-, -, first, -, hdate', -, hnanos', -, hread'⟩ := hsum _ ['1'] _ 1 hfirst (by decide)
  refine ⟨⟨last, hdate, hnanos, hread ['d'] (by decide) (by decide) (by decide)⟩,
    ⟨first, hdate', hnanos', hread' ['d'] (by decide) (by decide) (by decide)⟩,
    (hmap ['d'] late).resolve_left ?_⟩
  rintro ⟨t, ht⟩
  cases hlate.symm.trans ht

end RecordQuery
