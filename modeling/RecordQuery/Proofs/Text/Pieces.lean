import Mathlib.Data.List.Basic
import RecordQuery.Text.Basic

/-!
# Texts cut at a separator

The stars of a pattern and the commas of a list cut a text into pieces. What the cut gives needs no
recursion to be said: the pieces are the only texts without the separator that give the text back
when they are joined. So whoever writes a text by joining pieces knows what it is cut into.

## Main results

* `Text.pieces_eq_iff`: the pieces of a text are those that it is joined from
* `Text.length_pieces`: one piece more than there are separators
-/

namespace RecordQuery.Text

variable {separator : Char}

theorem pieces_eq_splitOn (separator : Char) (t : Text) :
    pieces separator t = t.splitOn separator := by
  induction t with
  | nil => rfl
  | cons c t ih =>
    rw [pieces, List.splitOn_cons_eq_if_modifyHead, ih]
    by_cases hc : c = separator
    · simp [hc]
    · obtain ⟨piece, later, hpieces⟩ := List.exists_cons_of_ne_nil (List.splitOn_ne_nil separator t)
      simp [hc, hpieces]

theorem join_cons_cons (between piece next : Text) (later : List Text) :
    join between (piece :: next :: later) = piece ++ (between ++ join between (next :: later)) :=
  List.append_assoc piece between _

theorem join_eq_intercalate (between : Text) (ps : List Text) :
    join between ps = between.intercalate ps := by
  induction ps with
  | nil => rfl
  | cons piece later ih =>
    cases later with
    | nil => simp [join]
    | cons next later =>
      rw [join_cons_cons, ih, List.intercalate_cons_cons, List.append_assoc]

/-- Pieces without the separator are the pieces of what they are joined to. -/
theorem pieces_join {ps : List Text} (hne : ps ≠ []) (h : ∀ piece ∈ ps, separator ∉ piece) :
    pieces separator (join [separator] ps) = ps := by
  rw [pieces_eq_splitOn, join_eq_intercalate]
  exact List.splitOn_intercalate separator h hne

theorem not_mem_of_mem_pieces {t piece : Text} (h : piece ∈ pieces separator t) :
    separator ∉ piece := by
  induction t generalizing piece with
  | nil =>
    obtain rfl : piece = [] := by simpa [pieces] using h
    simp
  | cons c t ih =>
    obtain ⟨first, later, hpieces⟩ := List.exists_cons_of_ne_nil (pieces_ne_nil separator t)
    rw [pieces, hpieces] at h
    rw [hpieces] at ih
    by_cases hc : c = separator
    · rw [if_pos hc] at h
      rcases List.mem_cons.1 h with rfl | h
      · simp
      · exact ih h
    · rw [if_neg hc] at h
      rcases List.mem_cons.1 h with rfl | h
      · have hfirst : separator ∉ first := ih List.mem_cons_self
        simp [Ne.symm hc, hfirst]
      · exact ih (List.mem_cons_of_mem first h)

/-- **The pieces of a text are those that it is joined from.** -/
theorem pieces_eq_iff {t : Text} {ps : List Text} :
    pieces separator t = ps ↔
      ps ≠ [] ∧ (∀ piece ∈ ps, separator ∉ piece) ∧ join [separator] ps = t := by
  constructor
  · rintro rfl
    exact ⟨pieces_ne_nil separator t, fun _ => not_mem_of_mem_pieces, join_pieces separator t⟩
  · rintro ⟨hne, h, rfl⟩
    exact pieces_join hne h

theorem length_pieces (separator : Char) (t : Text) :
    (pieces separator t).length = t.count separator + 1 := by
  induction t with
  | nil => rfl
  | cons c t ih =>
    obtain ⟨first, later, hpieces⟩ := List.exists_cons_of_ne_nil (pieces_ne_nil separator t)
    rw [hpieces] at ih
    rw [pieces, hpieces, List.count_cons]
    by_cases hc : c = separator
    · simp [hc, ← ih]
    · simpa [hc] using ih

end RecordQuery.Text
