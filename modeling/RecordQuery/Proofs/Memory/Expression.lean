import RecordQuery.Proofs.Memory.Wildcard
import RecordQuery.Proofs.Text.Pieces

/-!
# Patterns as expressions

A pattern can be said without its language. With its pieces in hand, a text matches if some run of
characters can be put in the place of each star. And it can be handed to a search for regular
expressions: every piece literally, between two of them a run of any characters, and the whole held
to the beginning and the end of the text.

A search is free to begin anywhere, to take a piece at any of its places and to stop early; matching
has one way through the text. That the expression is held at both ends is what makes the search ask
about the whole text, and `language` is what the two are compared by.

## Main results

* `Wildcard.found_expression_iff`: what a search for the expression finds
* `Wildcard.accepts_iff_exists_runs`: matching is putting runs in the place of the stars, and it is
  searching for the expression
-/

namespace RecordQuery.Wildcard

/-! ## Expressions -/

/-- The parts of an expression. -/
inductive Part
  /-- The beginning of the text. -/
  | start
  /-- The end of the text. -/
  | stop
  | literal (piece : Text)
  /-- Any characters, line breaks among them, as many as there are. -/
  | run
  deriving DecidableEq, Repr

/-- A part takes a stretch of a text, with `before` in front of it and `rest` behind. -/
def Part.Takes (before taken rest : Text) : Part → Prop
  | start => before = [] ∧ taken = []
  | stop => taken = [] ∧ rest = []
  | literal piece => taken = piece
  | run => True

/-- Parts take a stretch of a text, one part behind the other. -/
def Takes : List Part → Text → Text → Text → Prop
  | [], _, taken, _ => taken = []
  | part :: later, before, taken, rest =>
    ∃ front behind, taken = front ++ behind ∧ part.Takes before front (behind ++ rest) ∧
      Takes later (before ++ front) behind rest

/-- A search finds an expression in a text if its parts take a stretch of it. -/
def Found (parts : List Part) (t : Text) : Prop :=
  ∃ before taken rest, t = before ++ (taken ++ rest) ∧ Takes parts before taken rest

/-- The expression of a pattern: the pieces between its stars with runs in between, from the
beginning of the text to its end. -/
def expression (pattern : Text) : List Part :=
  .start :: (((Text.pieces star pattern).map .literal).intersperse .run ++ [.stop])

section Takes

variable {parts : List Part} {before taken rest : Text}

theorem takes_start_cons :
    Takes (.start :: parts) before taken rest ↔ before = [] ∧ Takes parts [] taken rest := by
  constructor
  · rintro ⟨front, behind, rfl, ⟨rfl, rfl⟩, h⟩
    exact ⟨rfl, h⟩
  · rintro ⟨rfl, h⟩
    exact ⟨[], taken, rfl, ⟨rfl, rfl⟩, h⟩

theorem takes_stop : Takes [.stop] before taken rest ↔ taken = [] ∧ rest = [] := by
  constructor
  · rintro ⟨front, behind, rfl, ⟨rfl, hrest⟩, rfl⟩
    exact ⟨rfl, hrest⟩
  · rintro ⟨rfl, rfl⟩
    exact ⟨[], [], rfl, ⟨rfl, rfl⟩, rfl⟩

theorem takes_literal_cons {piece : Text} :
    Takes (.literal piece :: parts) before taken rest ↔
      ∃ behind, taken = piece ++ behind ∧ Takes parts (before ++ piece) behind rest := by
  constructor
  · rintro ⟨front, behind, rfl, rfl, h⟩
    exact ⟨behind, rfl, h⟩
  · rintro ⟨behind, rfl, h⟩
    exact ⟨piece, behind, rfl, rfl, h⟩

theorem takes_run_cons :
    Takes (.run :: parts) before taken rest ↔
      ∃ run behind, taken = run ++ behind ∧ Takes parts (before ++ run) behind rest := by
  constructor
  · rintro ⟨run, behind, rfl, -, h⟩
    exact ⟨run, behind, rfl, h⟩
  · rintro ⟨run, behind, rfl, h⟩
    exact ⟨run, behind, rfl, trivial, h⟩

end Takes

/-- Pieces with runs in between take a stretch up to the end of the text, and any stretch that the
pieces are spread over. -/
theorem takes_pieces_iff (first : Text) (later : List Text) (before taken rest : Text) :
    Takes (((first :: later).map .literal).intersperse .run ++ [.stop]) before taken rest ↔
      rest = [] ∧ ∃ behind ∈ spread later, taken = first ++ behind := by
  induction later generalizing first before taken with
  | nil =>
    show Takes [.literal first, .stop] before taken rest ↔ _
    rw [takes_literal_cons]
    constructor
    · rintro ⟨behind, rfl, h⟩
      obtain ⟨rfl, rfl⟩ := takes_stop.1 h
      exact ⟨rfl, [], rfl, rfl⟩
    · rintro ⟨rfl, behind, rfl, rfl⟩
      exact ⟨[], rfl, takes_stop.2 ⟨rfl, rfl⟩⟩
  | cons next later ih =>
    show Takes (.literal first :: .run ::
      (((next :: later).map .literal).intersperse .run ++ [.stop])) before taken rest ↔ _
    rw [takes_literal_cons]
    constructor
    · rintro ⟨_, rfl, hrun⟩
      obtain ⟨run, behind, rfl, hnext⟩ := takes_run_cons.1 hrun
      obtain ⟨rfl, tail, htail, rfl⟩ := (ih _ _ _).1 hnext
      exact ⟨rfl, _, mem_spread_cons.2 ⟨run, tail, rfl, htail⟩, rfl⟩
    · rintro ⟨rfl, _, hspread, rfl⟩
      obtain ⟨run, tail, rfl, htail⟩ := mem_spread_cons.1 hspread
      exact ⟨_, rfl, takes_run_cons.2 ⟨run, _, rfl, (ih _ _ _).2 ⟨rfl, tail, htail, rfl⟩⟩⟩

/-- **A search finds the expression of a pattern exactly in the texts of its language.** -/
theorem found_expression_iff (pattern t : Text) :
    Found (expression pattern) t ↔ t ∈ language pattern := by
  obtain ⟨first, later, hpieces⟩ := List.exists_cons_of_ne_nil (Text.pieces_ne_nil star pattern)
  rw [language_eq_mul_spread hpieces, Language.mem_mul, expression, hpieces]
  constructor
  · rintro ⟨before, taken, rest, rfl, hstart⟩
    obtain ⟨rfl, htaken⟩ := takes_start_cons.1 hstart
    obtain ⟨rfl, behind, hbehind, rfl⟩ := (takes_pieces_iff first later _ _ _).1 htaken
    exact ⟨first, rfl, behind, hbehind, by simp⟩
  · rintro ⟨s, hs, behind, hbehind, rfl⟩
    obtain rfl : first = s := Eq.symm hs
    have htaken := (takes_pieces_iff first later [] (first ++ behind) []).2
      ⟨rfl, behind, hbehind, rfl⟩
    exact ⟨[], first ++ behind, [], by simp, takes_start_cons.2 ⟨rfl, htaken⟩⟩

/-! ## Runs in the place of stars -/

theorem mem_spread_iff_exists_runs {later : List Text} {t : Text} :
    t ∈ spread later ↔ ∃ runs : List Text,
      runs.length = later.length ∧ t = (List.zipWith (· ++ ·) runs later).flatten := by
  induction later generalizing t with
  | nil =>
    rw [spread_nil, Language.mem_one]
    constructor
    · intro h
      exact ⟨[], rfl, h⟩
    · rintro ⟨runs, -, rfl⟩
      simp
  | cons piece later ih =>
    rw [mem_spread_cons]
    constructor
    · rintro ⟨run, rest, rfl, hrest⟩
      obtain ⟨runs, hlength, rfl⟩ := ih.1 hrest
      exact ⟨run :: runs, by simp [hlength], by simp⟩
    · rintro ⟨runs, hlength, rfl⟩
      obtain ⟨run, runs, rfl⟩ := List.exists_cons_of_length_eq_add_one hlength
      exact ⟨run, _, by simp, ih.2 ⟨runs, by simpa using hlength, rfl⟩⟩

/-- **Matching is putting runs in the place of the stars.** Every pattern is cut at its stars in one
way into pieces without stars, one more than there are stars, and it matches exactly the texts that
are its pieces with some run between any two neighbours. These are also the texts in which a search
for its expression succeeds. -/
theorem accepts_iff_exists_runs (pattern : Text) :
    ∃ (first : Text) (later : List Text),
      (∀ f l, (∀ piece ∈ f :: l, star ∉ piece) ∧ Text.join [star] (f :: l) = pattern ↔
        f = first ∧ l = later) ∧
      later.length = pattern.count star ∧
      ∀ t,
        (accepts pattern t = true ↔ ∃ runs : List Text, runs.length = later.length ∧
          t = first ++ (List.zipWith (· ++ ·) runs later).flatten) ∧
        (accepts pattern t = true ↔ Found (expression pattern) t) := by
  obtain ⟨first, later, hpieces⟩ := List.exists_cons_of_ne_nil (Text.pieces_ne_nil star pattern)
  refine ⟨first, later, fun f l => ?_, ?_, fun t => ⟨?_, ?_⟩⟩
  · have hiff : Text.pieces star pattern = f :: l ↔ f :: l ≠ [] ∧
        (∀ piece ∈ f :: l, star ∉ piece) ∧ Text.join [star] (f :: l) = pattern :=
      Text.pieces_eq_iff
    rw [hpieces, List.cons.injEq] at hiff
    constructor
    · intro h
      obtain ⟨hf, hl⟩ := hiff.2 ⟨List.cons_ne_nil f l, h⟩
      exact ⟨hf.symm, hl.symm⟩
    · rintro ⟨rfl, rfl⟩
      exact (hiff.1 ⟨rfl, rfl⟩).2
  · have hlength := Text.length_pieces star pattern
    rw [hpieces, List.length_cons] at hlength
    omega
  · rw [accepts_iff_mem_language, language_eq_mul_spread hpieces, Language.mem_mul]
    constructor
    · rintro ⟨_, rfl, behind, hbehind, rfl⟩
      obtain ⟨runs, hlength, rfl⟩ := mem_spread_iff_exists_runs.1 hbehind
      exact ⟨runs, hlength, rfl⟩
    · rintro ⟨runs, hlength, rfl⟩
      exact ⟨first, rfl, _, mem_spread_iff_exists_runs.2 ⟨runs, hlength, rfl⟩, rfl⟩
  · rw [accepts_iff_mem_language, found_expression_iff]

/-- The pieces at both ends may not lie over each other. -/
example : accepts "ab*ba".toList "aba".toList = false := by decide

end RecordQuery.Wildcard
