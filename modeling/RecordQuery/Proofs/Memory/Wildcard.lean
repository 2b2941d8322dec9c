import Mathlib.Computability.Language
import RecordQuery.Memory.Wildcard
import RecordQuery.Proofs.Text.Occurrence

/-!
# What wildcard patterns mean

A pattern is a product of languages, one for each of its characters: a star stands for all texts,
any other character for itself alone. Matching works on the pieces between the stars and never goes
back behind a piece that it has placed. That it finds every match all the same is what this file
shows.

## Why it need not go back

Behind the first piece, what is asked of the rest of the text begins with a run of any characters.
So a longer rest is at least as good (`followedBy_append`), and the leftmost place of a piece leaves
the longest rest.

## Main results

* `Wildcard.accepts_iff_mem_language`: a pattern matches exactly the texts of its language
-/

namespace RecordQuery.Wildcard

/-! ## Languages of patterns -/

/-- The texts that a character of a pattern stands for. -/
def meaning (c : Char) : Language Char := if c = star then ⊤ else {[c]}

/-- The texts that a pattern stands for. -/
def language (pattern : Text) : Language Char := (pattern.map meaning).prod

@[simp] theorem language_cons (c : Char) (pattern : Text) :
    language (c :: pattern) = meaning c * language pattern := by
  rw [language, List.map_cons, List.prod_cons, language]

theorem singleton_mul_singleton (s t : Text) :
    ({s} : Language Char) * {t} = {s ++ t} := Set.image2_singleton

/-- A character of a pattern that is no star is in every text of the pattern. -/
theorem mem_of_mem_language {c : Char} {pattern t : Text} (hc : c ∈ pattern) (hstar : c ≠ star)
    (h : t ∈ language pattern) : c ∈ t := by
  induction pattern generalizing t with
  | nil => simp at hc
  | cons d pattern ih =>
    rw [language_cons, Language.mem_mul] at h
    obtain ⟨s, hs, u, hu, rfl⟩ := h
    rcases List.mem_cons.1 hc with rfl | hc
    · rw [meaning, if_neg hstar] at hs
      obtain rfl : s = [c] := hs
      simp
    · exact List.mem_append_right s (ih hc hu)

/-! ## Languages of pieces -/

/-- The texts that hold pieces one behind the other, the last one at the end. -/
def spread (pieces : List Text) : Language Char := (pieces.map fun piece => ⊤ * {piece}).prod

@[simp] theorem spread_nil : spread [] = 1 := rfl

@[simp] theorem spread_cons (piece : Text) (later : List Text) :
    spread (piece :: later) = ⊤ * {piece} * spread later := by
  rw [spread, List.map_cons, List.prod_cons, spread]

theorem mem_spread_cons {piece : Text} {later : List Text} {t : Text} :
    t ∈ spread (piece :: later) ↔ ∃ run rest, t = run ++ (piece ++ rest) ∧ rest ∈ spread later := by
  rw [spread_cons, mul_assoc, Language.mem_mul]
  constructor
  · rintro ⟨run, -, u, hu, rfl⟩
    obtain ⟨p, hp, rest, hrest, rfl⟩ := Language.mem_mul.1 hu
    obtain rfl : p = piece := hp
    exact ⟨run, rest, rfl, hrest⟩
  · rintro ⟨run, rest, rfl, hrest⟩
    exact ⟨run, trivial, piece ++ rest, Language.append_mem_mul rfl hrest, rfl⟩

/-- A longer text is at least as good. -/
theorem append_mem_spread {piece : Text} {later : List Text} {t : Text} (s : Text)
    (h : t ∈ spread (piece :: later)) : s ++ t ∈ spread (piece :: later) := by
  obtain ⟨run, rest, rfl, hrest⟩ := mem_spread_cons.1 h
  exact mem_spread_cons.2 ⟨s ++ run, rest, by simp, hrest⟩

theorem followedBy_iff_mem_spread (pieces : List Text) (t : Text) :
    followedBy pieces t = true ↔ t ∈ spread pieces := by
  fun_induction followedBy pieces t with
  | case1 t => rw [spread_nil, Language.mem_one, List.isEmpty_iff]
  | case2 last t =>
    rw [List.isSuffixOf_iff_suffix, mem_spread_cons]
    constructor
    · rintro ⟨run, rfl⟩
      exact ⟨run, [], by simp, rfl⟩
    · rintro ⟨run, rest, rfl, rfl⟩
      exact ⟨run, by simp⟩
  | case3 piece later t hne hcut =>
    rw [mem_spread_cons]
    refine iff_of_false (by simp) ?_
    rintro ⟨run, rest, rfl, -⟩
    have hinfix : piece <:+: run ++ (piece ++ rest) := ⟨run, rest, by simp⟩
    rw [← Text.isSome_cut?_iff, hcut] at hinfix
    cases hinfix
  | case4 piece later t hne before rest hcut ih =>
    rw [ih, mem_spread_cons]
    constructor
    · intro h
      exact ⟨before, rest, by simpa using Text.eq_of_cut? hcut, h⟩
    · -- The cut is leftmost, so its rest is the longest one.
      rintro ⟨run, rest', ht, hrest'⟩
      obtain ⟨extra, rfl⟩ := Text.suffix_of_cut? hcut ht
      cases later with
      | nil => exact absurd rfl hne
      | cons next later => exact append_mem_spread extra hrest'

/-- The stars cut a pattern into a piece at the front and pieces that are spread behind it. -/
theorem language_eq_mul_spread {pattern first : Text} {later : List Text}
    (h : Text.pieces star pattern = first :: later) :
    language pattern = {first} * spread later := by
  induction pattern generalizing first later with
  | nil =>
    obtain ⟨rfl, rfl⟩ : [] = first ∧ [] = later := by simpa [Text.pieces] using h
    rw [spread_nil, mul_one]
    rfl
  | cons c pattern ih =>
    rw [Text.pieces] at h
    obtain ⟨front, behind, hp⟩ := List.exists_cons_of_ne_nil (Text.pieces_ne_nil star pattern)
    rw [hp] at h
    rw [language_cons, ih hp, meaning]
    split
    · next hc =>
      obtain ⟨rfl, rfl⟩ : [] = first ∧ front :: behind = later := by simpa [hc] using h
      rw [spread_cons, mul_assoc]
      exact (one_mul _).symm
    · next hc =>
      obtain ⟨rfl, rfl⟩ : c :: front = first ∧ behind = later := by simpa [hc] using h
      rw [← mul_assoc, singleton_mul_singleton]
      rfl

/-- **Matching never needs to go back.** A pattern matches a text exactly if the text is in the
pattern's language. -/
theorem accepts_iff_mem_language (pattern t : Text) :
    accepts pattern t = true ↔ t ∈ language pattern := by
  obtain ⟨first, later, hp⟩ := List.exists_cons_of_ne_nil (Text.pieces_ne_nil star pattern)
  rw [language_eq_mul_spread hp, Language.mem_mul]
  simp only [accepts, hp]
  cases ha : Text.after? first t with
  | none =>
    refine iff_of_false Bool.false_ne_true ?_
    rintro ⟨s, rfl, rest, -, rfl⟩
    simp at ha
  | some rest =>
    obtain rfl := Text.after?_eq_some_iff.1 ha
    rw [followedBy_iff_mem_spread]
    constructor
    · intro h
      exact ⟨first, rfl, rest, h, rfl⟩
    · rintro ⟨s, rfl, rest', h, heq⟩
      rwa [List.append_cancel_left heq] at h

end RecordQuery.Wildcard
