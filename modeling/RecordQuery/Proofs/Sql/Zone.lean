import RecordQuery.Proofs.Calendar.Seconds
import RecordQuery.Sql.Fragment

/-!
# Date-times of a zone

A date-time without a zone is bound as the instant at which clocks of the zone show it. That is a
date-time in UTC, earlier by the offset. Offsets reach almost a day either way, so the instant may
lie in another year, or beyond the range of dates; in that case the date-time is bound as it is.

On the count of seconds the conversion is a subtraction. So it can be undone, and since every
date-time is moved by the same offset, the instants are in the order of the local times.

## Main results

* `ZoneOffset.toUtc?_eq_some_iff`, `ZoneOffset.exists_toUtc?_iff`: which instant it is, and when
  there is one
* `ZoneOffset.addSeconds?_of_toUtc?`, `ZoneOffset.compare_toUtc?`: the way back, and the order
* `Sql.Style.bound_in_zone`: the parameters that are bound
-/

namespace RecordQuery

namespace ZoneOffset

variable {offset : ZoneOffset} {t t' u u' : DateTime}

/-- **The instant of a local time is earlier by the offset.** -/
theorem toUtc?_eq_some_iff (ht : t.time.isLeapSecond = false) :
    offset.toUtc? t = some u ↔
      u.unixSeconds = t.unixSeconds - offset.seconds ∧ u.unixNanos = t.unixNanos :=
  DateTime.addSeconds?_eq_some_iff ht

theorem exists_toUtc?_iff (ht : t.time.isLeapSecond = false) :
    (∃ u, offset.toUtc? t = some u) ↔ DateTime.InRange (t.unixSeconds - offset.seconds) :=
  DateTime.exists_addSeconds?_iff ht

/-- **Moving back by the offset** gives the local time. -/
theorem addSeconds?_of_toUtc? (ht : t.time.isLeapSecond = false) (h : offset.toUtc? t = some u) :
    u.addSeconds? offset.seconds = some t := by
  obtain ⟨hseconds, hnanos⟩ := (toUtc?_eq_some_iff ht).1 h
  have hu : u.time.isLeapSecond = false := by
    rw [DateTime.isLeapSecond_eq_false_iff, hnanos, ← DateTime.isLeapSecond_eq_false_iff, ht]
  rw [DateTime.addSeconds?_eq_some_iff hu, hseconds, hnanos]
  exact ⟨(Int.sub_add_cancel _ _).symm, rfl⟩

theorem lexicographic_sub (m n k : Int) (xs ys : List Int) :
    lexicographic ((m - k) :: xs) ((n - k) :: ys) = lexicographic (m :: xs) (n :: ys) := by
  simp only [lexicographic, Int.sub_lt_sub_right_iff]

/-- **Instants are in the order of the local times.** -/
theorem compare_toUtc? (ht : t.time.isLeapSecond = false) (ht' : t'.time.isLeapSecond = false)
    (h : offset.toUtc? t = some u) (h' : offset.toUtc? t' = some u') :
    lexicographic u.key u'.key = lexicographic t.key t'.key := by
  obtain ⟨hseconds, hnanos⟩ := (toUtc?_eq_some_iff ht).1 h
  obtain ⟨hseconds', hnanos'⟩ := (toUtc?_eq_some_iff ht').1 h'
  rw [← DateTime.compare_unix, ← DateTime.compare_unix, hseconds, hseconds', hnanos, hnanos',
    lexicographic_sub]

end ZoneOffset

namespace Sql.Style

variable {style : Style} {t u : DateTime}

/-! ## Parameters -/

/-- Only date-times without a zone are bound as something else. -/
theorem bound_of_ne {v : Value} (h : ∀ t, v ≠ .dateTime t) : style.bound v = v := by
  cases v with
  | dateTime t => exact absurd rfl (h t)
  | _ => rfl

theorem bound_of_toUtc? (h : style.zone.toUtc? t = some u) :
    style.bound (.dateTime t) = .timestamp u := by
  rw [bound, h]

theorem bound_of_not_exists (h : ¬ ∃ u, style.zone.toUtc? t = some u) :
    style.bound (.dateTime t) = .dateTime t := by
  have hnone : style.zone.toUtc? t = none := by
    rw [Option.eq_none_iff_forall_ne_some]
    exact fun u hu => h ⟨u, hu⟩
  rw [bound, hnone]

/-- **Parameters of a zone are exact and in order.** What a fragment takes for a value is the value
itself, unless it is a date-time without a zone. For one that is no leap second it is the instant
earlier by the offset, at the same nanosecond, from which moving by the offset leads back; if dates
do not reach that far it is the date-time itself. Two instants compare as the local times do. -/
theorem bound_in_zone (style : Style) :
    (∀ (f : Fragment) (v : Value), (f.addParam style v).params = f.params ++ [style.bound v]) ∧
    (∀ v : Value, (∀ t, v ≠ .dateTime t) → style.bound v = v) ∧
    (∀ t : DateTime, t.time.isLeapSecond = false →
      (DateTime.InRange (t.unixSeconds - style.zone.seconds) →
        ∃ u : DateTime, style.bound (.dateTime t) = .timestamp u ∧
          u.unixSeconds = t.unixSeconds - style.zone.seconds ∧ u.unixNanos = t.unixNanos ∧
          u.addSeconds? style.zone.seconds = some t) ∧
      (¬ DateTime.InRange (t.unixSeconds - style.zone.seconds) →
        style.bound (.dateTime t) = .dateTime t)) ∧
    ∀ t t' : DateTime, t.time.isLeapSecond = false → t'.time.isLeapSecond = false →
      DateTime.InRange (t.unixSeconds - style.zone.seconds) →
      DateTime.InRange (t'.unixSeconds - style.zone.seconds) →
      Value.compare? (style.bound (.dateTime t)) (style.bound (.dateTime t')) =
        Value.compare? (.dateTime t) (.dateTime t') := by
  refine ⟨fun _ _ => rfl, fun _ => bound_of_ne, fun t ht => ⟨fun hrange => ?_, fun hrange => ?_⟩,
    fun t t' ht ht' hrange hrange' => ?_⟩
  · obtain ⟨u, hu⟩ := (ZoneOffset.exists_toUtc?_iff ht).2 hrange
    obtain ⟨hseconds, hnanos⟩ := (ZoneOffset.toUtc?_eq_some_iff ht).1 hu
    exact ⟨u, bound_of_toUtc? hu, hseconds, hnanos, ZoneOffset.addSeconds?_of_toUtc? ht hu⟩
  · exact bound_of_not_exists fun hu => hrange ((ZoneOffset.exists_toUtc?_iff ht).1 hu)
  · obtain ⟨u, hu⟩ := (ZoneOffset.exists_toUtc?_iff ht).2 hrange
    obtain ⟨u', hu'⟩ := (ZoneOffset.exists_toUtc?_iff ht').2 hrange'
    rw [bound_of_toUtc? hu, bound_of_toUtc? hu']
    exact congrArg some (ZoneOffset.compare_toUtc? ht ht' hu hu')

/-- An hour east of UTC, the first half hour of a year is bound in the year before, and the first
instant of all is bound as it is. -/
theorem bound_in_zone_newYear :
    let style : Style := ⟨.generic, ⟨3600, by decide⟩⟩
    let t : DateTime := ⟨⟨2021, 1, 1, by decide, by decide, by decide⟩,
      ⟨0, 29, 59, 500000000, by decide, by decide, by decide, by decide⟩⟩
    let u : DateTime := ⟨⟨2020, 12, 31, by decide, by decide, by decide⟩,
      ⟨23, 29, 59, 500000000, by decide, by decide, by decide, by decide⟩⟩
    style.bound (.dateTime t) = .timestamp u ∧ u.addSeconds? 3600 = some t ∧
      style.bound (.dateTime .least) = .dateTime .least ∧
      Value.compare? (style.bound (.dateTime t)) (style.bound (.dateTime .most)) = some .lt ∧
      style.bound .null = .null := by
  intro style t u
  obtain ⟨-, hother, hlocal, horder⟩ := bound_in_zone style
  have hrange : DateTime.InRange (t.unixSeconds - style.zone.seconds) := by
    unfold DateTime.InRange
    decide +kernel
  have hrangeMost : DateTime.InRange (DateTime.most.unixSeconds - style.zone.seconds) := by
    unfold DateTime.InRange
    decide +kernel
  have hrangeLeast : ¬ DateTime.InRange (DateTime.least.unixSeconds - style.zone.seconds) := by
    unfold DateTime.InRange
    decide +kernel
  obtain ⟨u', hbound, hseconds, hnanos, hback⟩ := (hlocal t rfl).1 hrange
  obtain rfl : u' = u :=
    DateTime.eq_of_unix (hseconds.trans (by decide +kernel)) (hnanos.trans rfl)
  refine ⟨hbound, hback, (hlocal .least rfl).2 hrangeLeast, ?_, hother .null (by simp)⟩
  rw [horder t .most rfl rfl hrange hrangeMost]
  rfl

end Sql.Style

end RecordQuery
