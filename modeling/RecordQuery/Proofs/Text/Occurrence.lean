import RecordQuery.Text.Blank

/-!
# Occurrences of a mark

Looking for a symbol in a text goes through `after?` and `cut?`. This file says what they find in
terms of infixes of lists: a text can be cut at a mark exactly if the mark is an infix of it, and
the cut is at the leftmost place.

## Separators

A mark that lacks a character cannot lie across it. So in a text that is put together with
separators, a mark occurs only in one of the parts, and blanks separate all marks that have none.

## Main results

* `Text.isSome_cut?_iff`: a text can be cut where the mark occurs
* `Text.cut?_append`: a cut at the first of several places
* `Text.infix_append_cons_iff`: a mark in a text with a separator is in one of the two parts
-/

namespace RecordQuery.Text

/-! ## Cutting at a mark -/

theorem isSome_after?_iff {mark t : Text} : (after? mark t).isSome = true ↔ mark <+: t := by
  rw [Option.isSome_iff_exists]
  simp only [after?_eq_some_iff]
  exact ⟨fun ⟨rest, h⟩ => ⟨rest, h.symm⟩, fun ⟨rest, h⟩ => ⟨rest, h.symm⟩⟩

theorem after?_eq_none_iff {mark t : Text} : after? mark t = none ↔ ¬ mark <+: t := by
  rw [← isSome_after?_iff, Bool.not_eq_true, Option.isSome_eq_false_iff, Option.isNone_iff_eq_none]

/-- A text can be cut exactly where the mark occurs. -/
theorem isSome_cut?_iff {mark t : Text} : (cut? mark t).isSome = true ↔ mark <:+: t := by
  induction t with
  | nil => rw [cut?, Option.isSome_map, isSome_after?_iff, List.prefix_nil, List.infix_nil]
  | cons c t ih =>
    rw [cut?, List.infix_cons_iff]
    cases ha : after? mark (c :: t) with
    | none => simp [after?_eq_none_iff.1 ha, ih]
    | some rest =>
      have : mark <+: c :: t := isSome_after?_iff.1 (by simp [ha])
      simp [this]

/-- The cut is at the leftmost place: the mark does not occur before it. -/
theorem not_infix_of_cut? {mark t before rest : Text} (hne : mark ≠ [])
    (h : cut? mark t = some (before, rest)) : ¬ mark <:+: before := by
  induction t generalizing before with
  | nil =>
    rw [cut?, after?_eq_none_iff.2 (by simpa using hne)] at h
    simp at h
  | cons c t ih =>
    rw [cut?] at h
    cases ha : after? mark (c :: t) with
    | some r =>
      obtain ⟨rfl, rfl⟩ : [] = before ∧ r = rest := by simpa [ha] using h
      simpa using hne
    | none =>
      obtain ⟨b, hb, rfl⟩ : ∃ b, cut? mark t = some (b, rest) ∧ c :: b = before := by
        simpa [ha] using h
      rw [List.infix_cons_iff, not_or]
      refine ⟨fun hp => after?_eq_none_iff.1 ha ?_, ih hb⟩
      rw [eq_of_cut? hb, List.append_assoc]
      exact List.prefix_append_of_prefix hp

/-- The cut is at the leftmost place: what follows another occurrence of the mark ends what follows
the cut. -/
theorem suffix_of_cut? {mark t before rest run later : Text}
    (h : cut? mark t = some (before, rest)) (ht : t = run ++ (mark ++ later)) : later <:+ rest := by
  induction t generalizing before run with
  | nil =>
    obtain ⟨-, -, rfl⟩ : run = [] ∧ mark = [] ∧ later = [] := by simpa using ht.symm
    exact List.nil_suffix
  | cons c t ih =>
    rw [cut?] at h
    cases ha : after? mark (c :: t) with
    | some r =>
      obtain ⟨rfl, rfl⟩ : [] = before ∧ r = rest := by simpa [ha] using h
      have hr : c :: t = mark ++ r := after?_eq_some_iff.1 ha
      have hlater : later <:+ c :: t := ⟨run ++ mark, by simp [ht]⟩
      have hrest : r <:+ c :: t := ⟨mark, hr.symm⟩
      have hlength := congrArg List.length (ht.symm.trans hr)
      simp only [List.length_append] at hlength
      exact List.suffix_of_suffix_length_le hlater hrest (by omega)
    | none =>
      obtain ⟨b, hb, rfl⟩ : ∃ b, cut? mark t = some (b, rest) ∧ c :: b = before := by
        simpa [ha] using h
      cases run with
      | nil => exact absurd ⟨later, ht.symm⟩ (after?_eq_none_iff.1 ha)
      | cons d run => exact ih hb (List.cons.inj ht).2

/-- A text is cut at the first place of several, if the mark occurs nowhere before. -/
theorem cut?_append {mark before rest : Text}
    (h : ∀ u : Text, u <:+ before → u ≠ [] → ¬ mark <+: u ++ (mark ++ rest)) :
    cut? mark (before ++ (mark ++ rest)) = some (before, rest) := by
  induction before with
  | nil =>
    cases ht : mark ++ rest with
    | nil => simp_all [cut?]
    | cons c t =>
      rw [List.nil_append, cut?, ← ht, after?_append]
  | cons c before ih =>
    have hnone : after? mark (c :: (before ++ (mark ++ rest))) = none :=
      after?_eq_none_iff.2 (h (c :: before) List.suffix_rfl (by simp))
    rw [List.cons_append, cut?, hnone, ih fun u hu => h u (hu.trans (List.suffix_cons c before))]
    rfl

/-! ## Separators -/

/-- A mark that lacks a character does not lie across it. -/
theorem prefix_of_prefix_append_cons {b : Char} {mark s t : Text} (hb : b ∉ mark)
    (h : mark <+: s ++ b :: t) : mark <+: s := by
  refine List.prefix_of_prefix_length_le h (List.prefix_append s (b :: t)) ?_
  refine Nat.le_of_not_lt fun hlt => hb ?_
  have hpre : s ++ [b] <+: mark :=
    List.prefix_of_prefix_length_le ⟨t, by simp⟩ h (by simpa using Nat.succ_le_of_lt hlt)
  exact hpre.mem (by simp)

/-- A mark in a text with a separator is in one of the two parts. -/
theorem infix_append_cons_iff {b : Char} {mark s t : Text} (hb : b ∉ mark) (hne : mark ≠ []) :
    mark <:+: s ++ b :: t ↔ mark <:+: s ∨ mark <:+: t := by
  constructor
  · intro h
    rw [List.infix_append_iff_ne_nil, List.infix_cons_iff] at h
    have hnil : ∀ {m : Text}, (∀ c ∈ m, c ∈ mark) → m <+: b :: t → m = [] := by
      intro m hm hp
      cases m with
      | nil => rfl
      | cons c m =>
        obtain rfl : c = b := (List.cons_prefix_cons.1 hp).1
        exact absurd (hm c (by simp)) hb
    rcases h with h | (h | h) | ⟨l, r, _, hr, rfl, _, hp⟩
    · exact .inl h
    · exact absurd (hnil (fun _ hc => hc) h) hne
    · exact .inr h
    · exact absurd (hnil (fun _ hc => by simp [hc]) hp) hr
  · rintro (h | h)
    · exact List.infix_append_of_infix_left h
    · exact List.infix_append_of_infix_right (List.infix_cons h)

/-- A mark that has no character in common with a separating text is in one of the two parts. -/
theorem infix_append_append_iff {mark s t u : Text} (hu : u ≠ []) (hne : mark ≠ [])
    (h : ∀ c ∈ mark, c ∉ u) : mark <:+: s ++ (u ++ t) ↔ mark <:+: s ∨ mark <:+: t := by
  induction u generalizing s with
  | nil => exact absurd rfl hu
  | cons b u ih =>
    have hb : b ∉ mark := fun hc => h b hc (by simp)
    rw [List.cons_append, infix_append_cons_iff hb hne]
    cases u with
    | nil => rfl
    | cons c u =>
      have := ih (s := []) (by simp) fun d hd hu => h d hd (List.mem_cons_of_mem b hu)
      rw [List.nil_append, List.infix_nil] at this
      simp only [this, hne, false_or]

end RecordQuery.Text
