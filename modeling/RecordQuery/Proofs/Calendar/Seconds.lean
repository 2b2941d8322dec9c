import RecordQuery.Proofs.Calendar.Days

/-!
# Date-times counted in seconds

A date-time is counted in seconds since the beginning of 1970, of which every day has 86400, and in
nanoseconds. A leap second has the seconds of the second before it and a whole second more of
nanoseconds, so no two date-times have the same count, and the counts are in the order of the
date-times.

Moving by seconds carries over minutes, hours, days, months and years. On the count it is an
addition, unless a leap second is left.

## Main results

* `DateTime.compare_unix`, `DateTime.eq_of_unix`: date-times are ordered as their counts are
* `DateTime.addSeconds?_eq_some_iff`: moving by seconds adds to the count
* `DateTime.exists_addSeconds?_iff`: when there is somewhere to move to
-/

namespace RecordQuery

namespace Time

variable {s nano : Nat}

theorem secondOfDay_lt (t : Time) : t.secondOfDay < 86400 := by
  have := t.hour_lt
  have := t.minute_lt
  unfold secondOfDay
  omega

theorem secondOfDay_ofSecondOfDay (hs : s < 86400) (hnano : nano < 1000000000) :
    (ofSecondOfDay s nano hnano).secondOfDay = s := by
  simp only [secondOfDay, ofSecondOfDay]
  omega

end Time

namespace DateTime

variable {t u : DateTime} {s : Int}

/-! ## The count of seconds -/

theorem unixNanos_eq (t : DateTime) :
    t.unixNanos = t.time.nano + (t.time.second - 59) * 1000000000 := by
  have := t.time.second_le
  by_cases h : t.time.second = 60
  · simp [unixNanos, Time.isLeapSecond, h]
  · simp [unixNanos, Time.isLeapSecond, h, show t.time.second - 59 = 0 by omega]

theorem isLeapSecond_eq_false_iff : t.time.isLeapSecond = false ↔ t.unixNanos < 1000000000 := by
  have := t.time.nano_lt
  cases h : t.time.isLeapSecond <;> simp [unixNanos, h]
  omega

theorem key_lt_iff : lexicographic t.key u.key = .lt ↔
    lexicographic t.date.key u.date.key = .lt ∨ t.date = u.date ∧
      (t.time.hour < u.time.hour ∨ t.time.hour = u.time.hour ∧
        (t.time.minute < u.time.minute ∨ t.time.minute = u.time.minute ∧
          (t.time.second < u.time.second ∨ t.time.second = u.time.second ∧
            t.time.nano < u.time.nano))) := by
  rw [key, key,
    lexicographic_append_eq_lt_iff (show t.date.key.length = u.date.key.length from rfl),
    Date.key_injective.eq_iff]
  simp only [Time.key, lexicographic_cons_eq_lt_iff, lexicographic_self, reduceCtorEq, and_false,
    or_false, Int.ofNat_lt, Int.ofNat_inj]

theorem unix_lt (h : lexicographic t.key u.key = .lt) :
    t.unixSeconds < u.unixSeconds ∨
      t.unixSeconds = u.unixSeconds ∧ t.unixNanos < u.unixNanos := by
  have := t.time.secondOfDay_lt
  have := u.time.second_le
  have := t.time.nano_lt
  have := u.time.minute_lt
  have := t.time.minute_lt
  rw [unixNanos_eq, unixNanos_eq]
  rcases key_lt_iff.1 h with hdate | ⟨hdate, htime⟩
  · have := Date.dayNumber_lt hdate
    rw [unixSeconds, unixSeconds]
    omega
  · rw [unixSeconds, unixSeconds, hdate]
    simp only [Time.secondOfDay]
    omega

/-- **Date-times are ordered as their counts of seconds and nanoseconds are**, leap seconds too. -/
theorem compare_unix (t u : DateTime) :
    lexicographic [t.unixSeconds, t.unixNanos] [u.unixSeconds, u.unixNanos] =
      lexicographic t.key u.key := by
  have hgrows (t u : DateTime) (h : lexicographic t.key u.key = .lt) :
      lexicographic [t.unixSeconds, t.unixNanos] [u.unixSeconds, u.unixNanos] = .lt := by
    rw [lexicographic_cons_eq_lt_iff, lexicographic_cons_eq_lt_iff]
    have := unix_lt h
    omega
  exact lexicographic_eq_of_lt key_injective hgrows t u

theorem eq_of_unix (hseconds : t.unixSeconds = u.unixSeconds) (hnanos : t.unixNanos = u.unixNanos) :
    t = u := by
  have hkey := compare_unix t u
  rw [hseconds, hnanos, lexicographic_self] at hkey
  exact key_injective (lexicographic_eq_iff.1 hkey.symm)

/-! ## Moving by seconds -/

/-- The counts of a time that is given by its second of the day. -/
theorem unix_ofSecondOfDay (d : Date) {second nano : Nat} (hsecond : second < 86400)
    (hnano : nano < 1000000000) :
    let u : DateTime := ⟨d, .ofSecondOfDay second nano hnano⟩
    u.unixSeconds = d.dayNumber * 86400 + second ∧ u.unixNanos = nano := by
  intro u
  have hleap : second % 60 - 59 = 0 := by omega
  constructor
  · rw [unixSeconds, Time.secondOfDay_ofSecondOfDay hsecond]
  · simp [unixNanos_eq, u, Time.ofSecondOfDay, hleap]

theorem ofSeconds?_eq_some_iff {d : Date} {nano : Nat} (hnano : nano < 1000000000) :
    ofSeconds? d s nano hnano = some u ↔
      u.unixSeconds = d.dayNumber * 86400 + s ∧ u.unixNanos = nano := by
  have hday (e : Date) := unix_ofSecondOfDay e (show (s % 86400).toNat < 86400 by omega) hnano
  rw [ofSeconds?, Option.map_eq_some_iff]
  constructor
  · rintro ⟨e, he, rfl⟩
    obtain ⟨hseconds, hnanos⟩ := hday e
    refine ⟨?_, hnanos⟩
    rw [hseconds, Date.addDays?_eq_some_iff.1 he]
    omega
  · rintro ⟨hseconds, hnanos⟩
    have hsecond := u.time.secondOfDay_lt
    have hmoved : u.date.dayNumber = d.dayNumber + s / 86400 := by
      rw [unixSeconds] at hseconds
      omega
    refine ⟨u.date, Date.addDays?_eq_some_iff.2 hmoved, eq_of_unix ?_ ?_⟩
    · rw [(hday u.date).1, hseconds, hmoved]
      omega
    · rw [(hday u.date).2, hnanos]

/-- **Moving by seconds adds to the count and keeps the nanoseconds**, if no leap second is left. -/
theorem addSeconds?_eq_some_iff (ht : t.time.isLeapSecond = false) :
    t.addSeconds? s = some u ↔
      u.unixSeconds = t.unixSeconds + s ∧ u.unixNanos = t.unixNanos := by
  have hnanos : t.unixNanos = t.time.nano := by simp [unixNanos, ht]
  by_cases hs : s = 0
  · rw [hs, addSeconds?_zero, Option.some.injEq, Int.add_zero]
    constructor
    · rintro rfl
      exact ⟨rfl, rfl⟩
    · rintro ⟨hseconds, hnanos⟩
      exact eq_of_unix hseconds.symm hnanos.symm
  · simp only [addSeconds?, hs, ht, if_false, Bool.false_and, Bool.false_eq_true]
    rw [ofSeconds?_eq_some_iff, hnanos]
    have hcount : t.unixSeconds = t.date.dayNumber * 86400 + t.time.secondOfDay := rfl
    omega

/-! ## The range -/

/-- The first date-time. -/
def least : DateTime := ⟨.least, .midnight⟩

/-- The last date-time. -/
def most : DateTime :=
  ⟨.most, ⟨23, 59, 59, 999999999, by decide, by decide, by decide, by decide⟩⟩

/-- A count of seconds that date-times reach. -/
def InRange (seconds : Int) : Prop := least.unixSeconds ≤ seconds ∧ seconds ≤ most.unixSeconds

/-- **The counts in range are those of date-times**, with any nanoseconds. -/
theorem exists_unix_iff {nano : Nat} (hnano : nano < 1000000000) :
    (∃ u : DateTime, u.unixSeconds = s ∧ u.unixNanos = nano) ↔ InRange s := by
  have hleast : least.unixSeconds = Date.least.dayNumber * 86400 := by
    simp [unixSeconds, least, Time.secondOfDay, Time.midnight]
  have hmost : most.unixSeconds = Date.most.dayNumber * 86400 + 86399 := by
    simp [unixSeconds, most, Time.secondOfDay]
  rw [InRange, hleast, hmost]
  constructor
  · rintro ⟨u, rfl, -⟩
    have := u.date.least_le
    have := u.date.le_most
    have := u.time.secondOfDay_lt
    rw [unixSeconds]
    omega
  · intro hs
    obtain ⟨d, hd⟩ := Date.exists_dayNumber_iff.2 (show _ ≤ s / 86400 ∧ s / 86400 ≤ _ by omega)
    obtain ⟨hseconds, hnanos⟩ :=
      unix_ofSecondOfDay d (show (s % 86400).toNat < 86400 by omega) hnano
    exact ⟨_, by rw [hseconds, hd]; omega, hnanos⟩

example : least.unixSeconds = -8334601228800 ∧ most.unixSeconds = 8210266876799 := by
  decide +kernel

theorem exists_addSeconds?_iff (ht : t.time.isLeapSecond = false) :
    (∃ u, t.addSeconds? s = some u) ↔ InRange (t.unixSeconds + s) := by
  rw [← exists_unix_iff (isLeapSecond_eq_false_iff.1 ht)]
  exact exists_congr fun u => addSeconds?_eq_some_iff ht

end DateTime

end RecordQuery
