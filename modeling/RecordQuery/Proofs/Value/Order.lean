import Mathlib.Data.List.Basic
import RecordQuery.Value.Basic

/-!
# The order of values

Values of a kind that has an order are ordered by a key, and the order of keys is lexicographic. So
the laws of the order need two facts about keys: every kind has them but floating-point numbers,
symbols and `null`, and among the values of one kind no two have the same key. The second is what
makes the order agree with equality: a text is its code points, a leap second is not the second
after it, and the parts of a date are all there is to it.

Floating-point numbers have no keys. Their order is not total, and two zeros are equal in it. It can
still be read from either side, so that equality is symmetric on all values.

## Main results

* `Value.compare?_eq_some_iff`: two values are compared by their keys
* `Value.isSome_compare?_iff`: which values are compared
* `Value.compare?_swap`, `Value.compare?_trans`: the laws of an order
* `Value.equals_eq_of_compare?`: values are equal exactly if they are so in the order
* `Value.equals_comm`: which of two values is held and which is asked for is all the same
-/

namespace RecordQuery

/-! ## Keys -/

/-- A text is its code points. -/
theorem Text.codes_injective : Function.Injective Text.codes := by
  refine List.map_injective_iff.2 fun c d h => ?_
  have hnat : c.toNat = d.toNat := Int.ofNat.inj h
  exact Char.toNat_inj.1 hnat

theorem Date.key_injective : Function.Injective Date.key := by
  rintro ⟨y, m, d, _, _, _⟩ ⟨y', m', d', _, _, _⟩ h
  obtain ⟨hy, hm, hd⟩ : y = y' ∧ (m : Int) = m' ∧ (d : Int) = d' := by simpa [key] using h
  obtain rfl := hy
  obtain rfl : m = m' := Int.ofNat.inj hm
  obtain rfl : d = d' := Int.ofNat.inj hd
  rfl

theorem Time.key_injective : Function.Injective Time.key := by
  rintro ⟨h, m, s, n, _, _, _, _⟩ ⟨h', m', s', n', _, _, _, _⟩ heq
  obtain ⟨hh, hm, hs, hn⟩ : (h : Int) = h' ∧ (m : Int) = m' ∧ (s : Int) = s' ∧ (n : Int) = n' := by
    simpa [key] using heq
  obtain rfl : h = h' := Int.ofNat.inj hh
  obtain rfl : m = m' := Int.ofNat.inj hm
  obtain rfl : s = s' := Int.ofNat.inj hs
  obtain rfl : n = n' := Int.ofNat.inj hn
  rfl

theorem DateTime.key_injective : Function.Injective DateTime.key := by
  rintro ⟨d, t⟩ ⟨d', t'⟩ h
  -- The keys of dates are of one length, so the two parts can be told apart.
  obtain ⟨hd, ht⟩ := List.append_inj h rfl
  obtain rfl : d = d' := Date.key_injective hd
  obtain rfl : t = t' := Time.key_injective ht
  rfl

/-! ## Floating-point numbers -/

namespace Binary

theorem compare?_swap (x y : Binary) : compare? y x = (compare? x y).map Ordering.swap := by
  cases x with
  | nan => cases y <;> rfl
  | infinite s =>
    cases y with
    | nan => rfl
    | infinite t => exact congrArg some Std.OrientedCmp.eq_swap
    | finite => cases s <;> rfl
  | finite s m e =>
    cases y with
    | nan => rfl
    | infinite t => cases t <;> rfl
    | finite t k g =>
      rw [compare?, compare?, Int.min_comm]
      exact congrArg some Std.OrientedCmp.eq_swap

theorem equals_comm (x y : Binary) : equals x y = equals y x := by
  rw [equals, equals, compare?_swap x y]
  rcases compare? x y with _ | _ | _ | _ <;> rfl

end Binary

namespace Value

variable {a b c : Value} {o p : Ordering}

/-- The value is a floating-point number. -/
def IsReal (v : Value) : Prop := ∃ f x, v = .real f x

/-- Every value has a key but floating-point numbers, symbols and `null`. -/
theorem isSome_key?_iff (h : ¬ a.IsReal) :
    a.key?.isSome = true ↔ a.kind ≠ .enum ∧ a.kind ≠ .null := by
  cases a with
  | real f x => exact absurd ⟨f, x, rfl⟩ h
  | _ => simp [key?, kind]

/-- Among the values of one kind no two have the same key. -/
theorem eq_of_key? {k : List Int} (hkind : a.kind = b.kind) (ha : a.key? = some k)
    (hb : b.key? = some k) : a = b := by
  have hkey : a.key? = b.key? := ha.trans hb.symm
  cases a <;> cases b <;> simp only [kind, key?, reduceCtorEq] at hkind hkey ha
  case boolean.boolean x y => cases x <;> cases y <;> simp_all
  case integer.integer i j =>
    obtain ⟨w, n, _⟩ := i
    obtain ⟨w', n', _⟩ := j
    obtain rfl : w = w' := by simpa using hkind
    obtain rfl : n = n' := by simpa using hkey
    rfl
  case char.char x y =>
    have hnat : (x.toNat : Int) = y.toNat := by simpa using hkey
    rw [Char.toNat_inj.1 (Int.ofNat.inj hnat)]
  case string.string s t => rw [Text.codes_injective (Option.some.inj hkey)]
  case timestamp.timestamp s t => rw [DateTime.key_injective (Option.some.inj hkey)]
  case date.date s t => rw [Date.key_injective (Option.some.inj hkey)]
  case dateTime.dateTime s t => rw [DateTime.key_injective (Option.some.inj hkey)]

/-! ## The laws of the order -/

/-- **Two values are compared by their keys**, if they are of one kind. -/
theorem compare?_eq_some_iff (h : ¬ a.IsReal) :
    compare? a b = some o ↔ a.kind = b.kind ∧
      ∃ j k, a.key? = some j ∧ b.key? = some k ∧ lexicographic j k = o := by
  unfold compare?
  split
  · next f x g y => exact absurd ⟨f, x, rfl⟩ h
  · by_cases hkind : a.kind = b.kind
    · rw [if_pos hkind]
      cases a.key? <;> cases b.key? <;> simp [hkind]
    · simp [hkind]

/-- **Two values are compared exactly if they are of one kind, and it has an order.** -/
theorem isSome_compare?_iff (ha : ¬ a.IsReal) (hb : ¬ b.IsReal) :
    (compare? a b).isSome = true ↔ a.kind = b.kind ∧ a.kind ≠ .enum ∧ a.kind ≠ .null := by
  rw [Option.isSome_iff_exists, ← isSome_key?_iff ha]
  constructor
  · rintro ⟨o, h⟩
    obtain ⟨hkind, j, k, hj, -, -⟩ := (compare?_eq_some_iff ha).1 h
    exact ⟨hkind, by rw [hj, Option.isSome_some]⟩
  · rintro ⟨hkind, hsome⟩
    obtain ⟨j, hj⟩ := Option.isSome_iff_exists.1 hsome
    rw [isSome_key?_iff ha, hkind, ← isSome_key?_iff hb] at hsome
    obtain ⟨k, hk⟩ := Option.isSome_iff_exists.1 hsome
    exact ⟨lexicographic j k, (compare?_eq_some_iff ha).2 ⟨hkind, j, k, hj, hk, rfl⟩⟩

theorem compare?_swap_of_eq_some (ha : ¬ a.IsReal) (hb : ¬ b.IsReal) (h : compare? a b = some o) :
    compare? b a = some o.swap := by
  obtain ⟨hkind, j, k, hj, hk, rfl⟩ := (compare?_eq_some_iff ha).1 h
  exact (compare?_eq_some_iff hb).2 ⟨hkind.symm, k, j, hk, hj, lexicographic_swap j k⟩

/-- **The order read from the other side.** -/
theorem compare?_swap (ha : ¬ a.IsReal) (hb : ¬ b.IsReal) :
    compare? b a = (compare? a b).map Ordering.swap := by
  cases hab : compare? a b with
  | some o => exact compare?_swap_of_eq_some ha hb hab
  | none =>
    cases hba : compare? b a with
    | none => rfl
    | some o =>
      have hswap := compare?_swap_of_eq_some hb ha hba
      rw [hab] at hswap
      cases hswap

theorem compare?_eq_some_eq_iff (ha : ¬ a.IsReal) (hsome : (compare? a b).isSome = true) :
    compare? a b = some .eq ↔ a = b := by
  obtain ⟨o, ho⟩ := Option.isSome_iff_exists.1 hsome
  obtain ⟨hkind, j, k, hj, hk, rfl⟩ := (compare?_eq_some_iff ha).1 ho
  rw [ho, Option.some.injEq, lexicographic_eq_iff]
  constructor
  · rintro rfl
    exact eq_of_key? hkind hj hk
  · rintro rfl
    exact Option.some.inj (hj.symm.trans hk)

/-- **The order is transitive**, for each of its three outcomes and with equal values on either
side. -/
theorem compare?_trans (ha : ¬ a.IsReal) (hb : ¬ b.IsReal) (hab : compare? a b = some o)
    (hbc : compare? b c = some p) (h : o = p ∨ o = .eq ∨ p = .eq) :
    compare? a c = some (o.then p) := by
  obtain ⟨hkind, j, k, hj, hk, rfl⟩ := (compare?_eq_some_iff ha).1 hab
  obtain ⟨hkind', k', l, hk', hl, rfl⟩ := (compare?_eq_some_iff hb).1 hbc
  obtain rfl : k = k' := Option.some.inj (hk.symm.trans hk')
  refine (compare?_eq_some_iff ha).2 ⟨hkind.trans hkind', j, l, hj, hl, ?_⟩
  rcases h with h | h | h
  · cases hjk : lexicographic j k with
    | lt =>
      have hkl : lexicographic k l = .lt := h.symm.trans hjk
      rw [lexicographic_trans hjk hkl]
      rfl
    | eq =>
      rw [lexicographic_eq_iff.1 hjk]
      rfl
    | gt =>
      -- The other way round it is the first case.
      have hkl : lexicographic k l = .gt := h.symm.trans hjk
      have hkj : lexicographic k j = .lt := by rw [lexicographic_swap j k, hjk]; rfl
      have hlk : lexicographic l k = .lt := by rw [lexicographic_swap k l, hkl]; rfl
      rw [lexicographic_swap l j, lexicographic_trans hlk hkj]
      rfl
  · rw [h, lexicographic_eq_iff.1 h]
    rfl
  · rw [h, ← lexicographic_eq_iff.1 h]
    cases lexicographic j k <;> rfl

/-! ## Order and equality -/

theorem equals_iff (h : ¬ (a.IsReal ∧ b.IsReal)) : equals a b = true ↔ a = b := by
  unfold equals
  split
  · next f x g y => exact absurd ⟨⟨f, x, rfl⟩, g, y, rfl⟩ h
  · exact decide_eq_true_iff

theorem equals_comm (a b : Value) : equals a b = equals b a := by
  by_cases h : a.IsReal ∧ b.IsReal
  · obtain ⟨⟨f, x, rfl⟩, g, y, rfl⟩ := h
    rw [equals, equals, Binary.equals_comm x y, decide_eq_decide.2 eq_comm]
  · have h' : ¬ (b.IsReal ∧ a.IsReal) := fun hba => h hba.symm
    rw [Bool.eq_iff_iff, equals_iff h, equals_iff h', eq_comm]

/-- A floating-point number is compared with those of its format. -/
theorem exists_real_of_compare? {f : FloatFormat} {x : Binary}
    (h : compare? (.real f x) b = some o) : ∃ y, b = .real f y ∧ Binary.compare? x y = some o := by
  cases b with
  | real g y =>
    rw [compare?] at h
    split at h
    · next hfg => exact ⟨y, by rw [hfg], h⟩
    · cases h
  | _ => cases (compare?_eq_none_of_kind_ne (by simp [kind])).symm.trans h

theorem isOrderable_of_compare? (h : compare? a b = some o) : b.isOrderable = true := by
  by_cases ha : a.IsReal
  · obtain ⟨f, x, rfl⟩ := ha
    obtain ⟨y, rfl, -⟩ := exists_real_of_compare? h
    rfl
  · obtain ⟨-, j, k, -, hk, -⟩ := (compare?_eq_some_iff ha).1 h
    exact isOrderable_of_key? hk

/-- **Values that are compared are equal exactly if they are so in the order**, floating-point
numbers too. -/
theorem equals_eq_of_compare? (h : compare? a b = some o) : equals a b = (o == .eq) := by
  by_cases ha : a.IsReal
  · obtain ⟨f, x, rfl⟩ := ha
    obtain ⟨y, rfl, hxy⟩ := exists_real_of_compare? h
    simp [equals, Binary.equals, hxy]
  · have hsome : (compare? a b).isSome = true := by rw [h, Option.isSome_some]
    have hiff := compare?_eq_some_eq_iff ha hsome
    rw [h, Option.some.injEq, ← equals_iff fun hboth => ha hboth.1] at hiff
    rw [Bool.eq_iff_iff, ← hiff, beq_iff_eq]

end Value

end RecordQuery
