/-!
# Lexicographic order

The order of lists of integers by their first difference, a list before its extensions. Texts,
dates and times are all ordered by lists of integers that stand for them, so the laws of their
orders are the laws of this one.

## Main results

* `lexicographic_eq_iff`: only equal lists are equal in the order
* `lexicographic_swap`: the order read from the other side
* `lexicographic_trans`: the order is transitive
* `lexicographic_cons_eq_lt_iff`, `lexicographic_append_eq_lt_iff`: which list comes first
* `lexicographic_eq_of_lt`: what grows with a list that stands for it is ordered as it is
-/

namespace RecordQuery

/-- The order of two lists of integers. -/
def lexicographic : List Int → List Int → Ordering
  | [], [] => .eq
  | [], _ :: _ => .lt
  | _ :: _, [] => .gt
  | x :: xs, y :: ys => if x < y then .lt else if y < x then .gt else lexicographic xs ys

@[simp] theorem lexicographic_self (xs : List Int) : lexicographic xs xs = .eq := by
  induction xs with
  | nil => rfl
  | cons x xs ih => simp [lexicographic, ih]

theorem lexicographic_eq_iff {xs ys : List Int} : lexicographic xs ys = .eq ↔ xs = ys := by
  constructor
  · intro h
    induction xs generalizing ys with
    | nil =>
      cases ys with
      | nil => rfl
      | cons y ys => simp [lexicographic] at h
    | cons x xs ih =>
      cases ys with
      | nil => simp [lexicographic] at h
      | cons y ys =>
        simp only [lexicographic] at h
        split at h
        · simp at h
        · split at h
          · simp at h
          · rw [ih h, show x = y by omega]
  · rintro rfl
    exact lexicographic_self xs

theorem lexicographic_swap (xs ys : List Int) :
    lexicographic ys xs = (lexicographic xs ys).swap := by
  induction xs generalizing ys with
  | nil => cases ys <;> rfl
  | cons x xs ih =>
    cases ys with
    | nil => rfl
    | cons y ys =>
      rcases Int.lt_trichotomy x y with h | h | h
      · simp [lexicographic, h, show ¬ y < x by omega]
      · simp [lexicographic, h, ih]
      · simp [lexicographic, h, show ¬ x < y by omega]

theorem lexicographic_trans {xs ys zs : List Int} (hxy : lexicographic xs ys = .lt)
    (hyz : lexicographic ys zs = .lt) : lexicographic xs zs = .lt := by
  induction xs generalizing ys zs with
  | nil =>
    cases zs with
    | nil => cases ys <;> simp [lexicographic] at hxy hyz
    | cons z zs => rfl
  | cons x xs ih =>
    cases ys with
    | nil => simp [lexicographic] at hxy
    | cons y ys =>
      cases zs with
      | nil => simp [lexicographic] at hyz
      | cons z zs =>
        simp only [lexicographic] at hxy hyz ⊢
        by_cases h₁ : x < y
        · by_cases h₂ : y < z
          · simp [show x < z by omega]
          · by_cases h₃ : z < y
            · simp [h₂, h₃] at hyz
            · simp [show x < z by omega]
        · by_cases h₂ : y < x
          · simp [h₁, h₂] at hxy
          · by_cases h₃ : y < z
            · simp [show x < z by omega]
            · by_cases h₄ : z < y
              · simp [h₃, h₄] at hyz
              · simp only [h₁, h₂, h₃, h₄, if_false] at hxy hyz
                simp [show ¬ x < z by omega, show ¬ z < x by omega, ih hxy hyz]

/-! ## The smaller list -/

theorem lexicographic_cons_eq_lt_iff {x y : Int} {xs ys : List Int} :
    lexicographic (x :: xs) (y :: ys) = .lt ↔ x < y ∨ x = y ∧ lexicographic xs ys = .lt := by
  rw [lexicographic]
  rcases Int.lt_trichotomy x y with h | rfl | h
  · simp [h]
  · simp
  · simp [h, show ¬ x < y by omega, show x ≠ y by omega]

theorem lexicographic_append_eq_lt_iff {xs ys us vs : List Int} (h : xs.length = ys.length) :
    lexicographic (xs ++ us) (ys ++ vs) = .lt ↔
      lexicographic xs ys = .lt ∨ xs = ys ∧ lexicographic us vs = .lt := by
  induction xs generalizing ys with
  | nil =>
    obtain rfl := List.eq_nil_of_length_eq_zero h.symm
    simp
  | cons x xs ih =>
    cases ys with
    | nil => simp at h
    | cons y ys =>
      rw [List.cons_append, List.cons_append, lexicographic_cons_eq_lt_iff,
        lexicographic_cons_eq_lt_iff, ih (by simpa using h), List.cons.injEq]
      constructor
      · rintro (hxy | ⟨hxy, hlt | ⟨heq, hlt⟩⟩)
        · exact .inl (.inl hxy)
        · exact .inl (.inr ⟨hxy, hlt⟩)
        · exact .inr ⟨⟨hxy, heq⟩, hlt⟩
      · rintro ((hxy | ⟨hxy, hlt⟩) | ⟨⟨hxy, heq⟩, hlt⟩)
        · exact .inl hxy
        · exact .inr ⟨hxy, .inl hlt⟩
        · exact .inr ⟨hxy, .inr ⟨heq, hlt⟩⟩

/-- If lists stand for things, and other lists grow with them, then both are in the same order. -/
theorem lexicographic_eq_of_lt {α : Type} {key number : α → List Int}
    (hkey : Function.Injective key)
    (hlt : ∀ a b, lexicographic (key a) (key b) = .lt →
      lexicographic (number a) (number b) = .lt) (a b : α) :
    lexicographic (number a) (number b) = lexicographic (key a) (key b) := by
  cases h : lexicographic (key a) (key b) with
  | lt => exact hlt a b h
  | eq =>
    obtain rfl := hkey (lexicographic_eq_iff.1 h)
    exact lexicographic_self _
  | gt =>
    rw [lexicographic_swap (key b) (key a), Ordering.swap_eq_gt] at h
    rw [lexicographic_swap (number b) (number a), hlt b a h]
    rfl

end RecordQuery
