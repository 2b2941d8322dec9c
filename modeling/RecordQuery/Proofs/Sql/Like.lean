import Mathlib.Order.CompletePartialOrder
import RecordQuery.Proofs.Memory.Wildcard
import RecordQuery.Sql.Condition

/-!
# `LIKE` and wildcard patterns

In a pattern of `LIKE`, `%` stands for any run of characters and `_` for any single one; no clause
says how to write either as itself. A pattern of a query becomes one of `LIKE` by writing `%` for
each star, and everything else stays as it is.

## When the two agree

What a pattern matches in memory, `LIKE` matches too. The converse needs that the pattern has no
`%` and no `_` of its own: in memory these stand for themselves, for the database they do not. A
text that tells the two apart is the pattern without its runs and with another character for each
`_` (`sample`).

## Main results

* `accepts_iff_like_iff`: what each of the two matches, and for which patterns it is the same
-/

namespace RecordQuery.Sql

/-! ## The languages of `LIKE` -/

/-- The texts of a single character. -/
def singleCharacter : Language Char := {t : Text | t.length = 1}

/-- The texts that a character of a pattern of `LIKE` stands for. -/
def likeMeaning (c : Char) : Language Char :=
  if c = '%' then ⊤ else if c = '_' then singleCharacter else {[c]}

/-- The texts that are like a pattern. -/
def likeLanguage (pattern : Text) : Language Char := (pattern.map likeMeaning).prod

@[simp] theorem likeLanguage_cons (c : Char) (pattern : Text) :
    likeLanguage (c :: pattern) = likeMeaning c * likeLanguage pattern := by
  rw [likeLanguage, List.map_cons, List.prod_cons, likeLanguage]

/-! ## Patterns of queries -/

/-- The character of `LIKE` for a character of a pattern. -/
def likeCharacter (c : Char) : Char := if c = '*' then '%' else c

@[simp] theorem likePattern_cons (c : Char) (pattern : Text) :
    likePattern (c :: pattern) = likeCharacter c :: likePattern pattern := by
  simp only [likePattern, Text.replace, List.flatMap_cons, likeCharacter]
  split <;> rfl

theorem likeMeaning_likeCharacter {c : Char} (hrun : c ≠ '%') (hsingle : c ≠ '_') :
    likeMeaning (likeCharacter c) = Wildcard.meaning c := by
  unfold likeCharacter Wildcard.meaning Wildcard.star
  split
  · rfl
  · rw [likeMeaning, if_neg hrun, if_neg hsingle]

theorem meaning_le_likeMeaning (c : Char) :
    Wildcard.meaning c ≤ likeMeaning (likeCharacter c) := by
  by_cases hrun : c = '%'
  · subst hrun
    exact le_top
  by_cases hsingle : c = '_'
  · subst hsingle
    rintro t rfl
    rfl
  exact (likeMeaning_likeCharacter hrun hsingle).ge

/-- What a pattern stands for in memory, it stands for in the database. -/
theorem language_le_likeLanguage (pattern : Text) :
    Wildcard.language pattern ≤ likeLanguage (likePattern pattern) := by
  induction pattern with
  | nil => exact le_refl _
  | cons c pattern ih =>
    rw [Wildcard.language_cons, likePattern_cons, likeLanguage_cons]
    exact mul_le_mul' (meaning_le_likeMeaning c) ih

theorem likeLanguage_eq_language {pattern : Text} (hrun : '%' ∉ pattern) (hsingle : '_' ∉ pattern) :
    likeLanguage (likePattern pattern) = Wildcard.language pattern := by
  induction pattern with
  | nil => rfl
  | cons c pattern ih =>
    rw [List.mem_cons, not_or] at hrun hsingle
    rw [Wildcard.language_cons, likePattern_cons, likeLanguage_cons, ih hrun.2 hsingle.2,
      likeMeaning_likeCharacter (Ne.symm hrun.1) (Ne.symm hsingle.1)]

/-! ## A text that tells the two apart -/

/-- A text that is like a pattern and has no `%` and no `_`. -/
def sample (pattern : Text) : Text :=
  pattern.flatMap fun c => if c = '*' ∨ c = '%' then [] else if c = '_' then ['a'] else [c]

theorem sample_mem_likeLanguage (pattern : Text) :
    sample pattern ∈ likeLanguage (likePattern pattern) := by
  induction pattern with
  | nil => rfl
  | cons c pattern ih =>
    rw [likePattern_cons, likeLanguage_cons, sample, List.flatMap_cons]
    refine Language.append_mem_mul ?_ ih
    unfold likeCharacter
    by_cases hstar : c = '*'
    · simp only [hstar]
      trivial
    by_cases hrun : c = '%'
    · simp only [hrun]
      trivial
    by_cases hsingle : c = '_'
    · simp only [hsingle]
      rfl
    simp only [hstar, hrun, hsingle, or_self, if_false, likeMeaning]
    rfl

theorem not_mem_sample {c : Char} (h : c = '%' ∨ c = '_') (pattern : Text) :
    c ∉ sample pattern := by
  intro hc
  obtain ⟨d, -, hd⟩ := List.mem_flatMap.1 hc
  split at hd
  · cases hd
  · next hrun =>
    split at hd
    · obtain rfl : c = 'a' := by simpa using hd
      revert h
      decide
    · next hsingle =>
      obtain rfl : c = d := by simpa using hd
      rcases h with rfl | rfl
      · exact hrun (.inr rfl)
      · exact hsingle rfl

/-- **What patterns match in memory and in the database.** A text that a pattern accepts in memory
is like the pattern's form for the database, and the two match the same texts exactly if the pattern
has neither of the wildcards of `LIKE`. -/
theorem accepts_iff_like_iff (pattern : Text) :
    (∀ t, Wildcard.accepts pattern t = true → t ∈ likeLanguage (likePattern pattern)) ∧
      ((∀ t, Wildcard.accepts pattern t = true ↔ t ∈ likeLanguage (likePattern pattern)) ↔
        '%' ∉ pattern ∧ '_' ∉ pattern) := by
  refine ⟨fun t h => ?_, fun h => ?_, fun ⟨hrun, hsingle⟩ t => ?_⟩
  · exact language_le_likeLanguage pattern ((Wildcard.accepts_iff_mem_language pattern t).1 h)
  · have hsample : sample pattern ∈ Wildcard.language pattern :=
      (Wildcard.accepts_iff_mem_language pattern _).1 ((h _).2 (sample_mem_likeLanguage pattern))
    constructor
    · intro hmem
      exact not_mem_sample (.inl rfl) pattern
        (Wildcard.mem_of_mem_language hmem (by decide) hsample)
    · intro hmem
      exact not_mem_sample (.inr rfl) pattern
        (Wildcard.mem_of_mem_language hmem (by decide) hsample)
  · rw [Wildcard.accepts_iff_mem_language, likeLanguage_eq_language hrun hsingle]

/-- A pattern that refuses a text in memory and matches it in the database. -/
theorem like_underscore_not_accepts :
    "aab".toList ∈ likeLanguage (likePattern "a_b".toList) ∧
      Wildcard.accepts "a_b".toList "aab".toList = false :=
  ⟨sample_mem_likeLanguage "a_b".toList, by decide⟩

end RecordQuery.Sql
