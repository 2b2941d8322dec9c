import RecordQuery.Text.Basic

/-!
# Blank characters

The characters with the Unicode property `White_Space`, and trimming. The zero-width space, the
byte order mark and the separators U+001C to U+001F do not have the property, so they are
ordinary text here.

## Main results

* `Text.trim_trim`: trimming is idempotent
* `Text.eq_append_trim`: a text is its trimmed form between two blank runs
* `Text.trim_append_append`: blanks around a text are trimmed away
-/

namespace RecordQuery

/-- The Unicode property `White_Space`. -/
def isBlank (c : Char) : Bool :=
  let n := c.toNat
  (9 ≤ n && n ≤ 13) || n = 0x20 || n = 0x85 || n = 0xA0 || n = 0x1680
    || (0x2000 ≤ n && n ≤ 0x200A) || n = 0x2028 || n = 0x2029 || n = 0x202F || n = 0x205F
    || n = 0x3000

namespace Text

/-- Whether a text has no character other than blanks. -/
def isBlank (t : Text) : Bool := t.all RecordQuery.isBlank

/-- Drops the blanks at the front. -/
def trimStart (t : Text) : Text := t.dropWhile RecordQuery.isBlank

/-- Drops the blanks at the end. -/
def trimEnd (t : Text) : Text := (trimStart t.reverse).reverse

/-- Drops the blanks at both ends. -/
def trim (t : Text) : Text := trimEnd (trimStart t)

theorem isBlank_space : isBlank [' '] = true := by decide

theorem isBlank_append (s t : Text) : isBlank (s ++ t) = (s.isBlank && t.isBlank) :=
  List.all_append

@[simp] theorem trimStart_nil : trimStart [] = [] := rfl

@[simp] theorem trimEnd_nil : trimEnd [] = [] := rfl

@[simp] theorem trim_nil : trim [] = [] := rfl

theorem trimStart_cons (c : Char) (t : Text) :
    trimStart (c :: t) = if RecordQuery.isBlank c then trimStart t else c :: t := by
  simp [trimStart, List.dropWhile_cons]

/-! ## What trimming keeps -/

theorem trimStart_eq_self_iff {t : Text} :
    trimStart t = t ↔ ∀ c ∈ t.head?, RecordQuery.isBlank c = false := by
  cases t with
  | nil => simp
  | cons c t =>
    rw [trimStart_cons]
    by_cases h : RecordQuery.isBlank c
    · have hlen : (trimStart t).length ≤ t.length :=
        (List.dropWhile_sublist _).length_le
      have : trimStart t ≠ c :: t := fun e => by
        rw [e, List.length_cons] at hlen
        omega
      simp [h, this]
    · simp [h]

theorem head?_trimStart (t : Text) : ∀ c ∈ (trimStart t).head?, RecordQuery.isBlank c = false := by
  induction t with
  | nil => simp
  | cons c t ih =>
    rw [trimStart_cons]
    split
    · exact ih
    · next h => simpa using h

@[simp] theorem trimStart_trimStart (t : Text) : trimStart (trimStart t) = trimStart t :=
  trimStart_eq_self_iff.2 (head?_trimStart t)

@[simp] theorem trimEnd_trimEnd (t : Text) : trimEnd (trimEnd t) = trimEnd t := by
  simp [trimEnd]

theorem eq_append_trimStart (t : Text) :
    ∃ before : Text, before.isBlank = true ∧ t = before ++ trimStart t :=
  ⟨t.takeWhile RecordQuery.isBlank, List.all_takeWhile, List.takeWhile_append_dropWhile.symm⟩

theorem eq_trimEnd_append (t : Text) :
    ∃ after : Text, after.isBlank = true ∧ t = trimEnd t ++ after := by
  obtain ⟨before, hb, h⟩ := eq_append_trimStart t.reverse
  refine ⟨before.reverse, ?_, ?_⟩
  · simpa [isBlank] using hb
  · have := congrArg List.reverse h
    simpa [trimEnd] using this

/-- A text is its trimmed form between two runs of blanks. -/
theorem eq_append_trim (t : Text) :
    ∃ before after : Text, before.isBlank = true ∧ after.isBlank = true ∧
      t = before ++ trim t ++ after := by
  obtain ⟨before, hb, h⟩ := eq_append_trimStart t
  obtain ⟨after, ha, h'⟩ := eq_trimEnd_append (trimStart t)
  refine ⟨before, after, hb, ha, ?_⟩
  rw [List.append_assoc, trim, ← h', ← h]

theorem trimEnd_eq_self_iff {t : Text} :
    trimEnd t = t ↔ ∀ c ∈ t.getLast?, RecordQuery.isBlank c = false := by
  rw [trimEnd, ← List.head?_reverse, ← trimStart_eq_self_iff, List.reverse_eq_iff]

theorem getLast?_trimEnd (t : Text) : ∀ c ∈ (trimEnd t).getLast?, RecordQuery.isBlank c = false :=
  trimEnd_eq_self_iff.1 (trimEnd_trimEnd t)

/-- Dropping the blanks at the end keeps the front. -/
@[simp] theorem trimStart_trim (t : Text) : trimStart (trim t) = trim t := by
  rw [trimStart_eq_self_iff]
  intro c hc
  obtain ⟨after, _, h⟩ := eq_trimEnd_append (trimStart t)
  apply head?_trimStart t
  rw [h]
  simp only [trim] at hc
  cases hu : trimEnd (trimStart t) with
  | nil => simp [hu] at hc
  | cons d u => simpa [hu] using hc

@[simp] theorem trimEnd_trim (t : Text) : trimEnd (trim t) = trim t := trimEnd_trimEnd _

@[simp] theorem trim_trim (t : Text) : trim (trim t) = trim t := by
  rw [trim, trimStart_trim, trimEnd_trim]

/-- A text is trimmed if it has no blank at either end. -/
theorem trim_eq_self {t : Text} (hs : ∀ c ∈ t.head?, RecordQuery.isBlank c = false)
    (he : ∀ c ∈ t.getLast?, RecordQuery.isBlank c = false) : trim t = t := by
  rw [trim, trimStart_eq_self_iff.2 hs, trimEnd_eq_self_iff.2 he]

theorem head?_trim (t : Text) : ∀ c ∈ (trim t).head?, RecordQuery.isBlank c = false :=
  trimStart_eq_self_iff.1 (trimStart_trim t)

theorem getLast?_trim (t : Text) : ∀ c ∈ (trim t).getLast?, RecordQuery.isBlank c = false :=
  getLast?_trimEnd _

/-- A text that begins with no blank has blanks to trim only at its end. -/
theorem eq_trim_append {t : Text} (h : ∀ c ∈ t.head?, RecordQuery.isBlank c = false) :
    ∃ after : Text, after.isBlank = true ∧ t = trim t ++ after := by
  obtain ⟨after, ha, ht⟩ := eq_trimEnd_append t
  exact ⟨after, ha, by rwa [trim, trimStart_eq_self_iff.2 h]⟩

/-- A text that ends with no blank has blanks to trim only at its front. -/
theorem eq_append_trim_of_getLast? {t : Text}
    (h : ∀ c ∈ t.getLast?, RecordQuery.isBlank c = false) :
    ∃ before : Text, before.isBlank = true ∧ t = before ++ trim t := by
  obtain ⟨before, hb, ht⟩ := eq_append_trimStart t
  refine ⟨before, hb, ?_⟩
  rw [trim, trimEnd_eq_self_iff.2, ← ht]
  intro c hc
  refine h c ?_
  rw [ht, List.getLast?_append, hc]
  rfl

/-! ## Blanks around a text -/

theorem trimStart_eq_nil_iff {t : Text} : trimStart t = [] ↔ t.isBlank = true := by
  induction t with
  | nil => simp [isBlank]
  | cons c t ih =>
    rw [trimStart_cons]
    by_cases h : RecordQuery.isBlank c
    · simpa [h, isBlank] using ih
    · simp [h, isBlank]

theorem trim_eq_nil_iff {t : Text} : trim t = [] ↔ t.isBlank = true := by
  constructor
  · intro h
    obtain ⟨before, after, hb, ha, ht⟩ := eq_append_trim t
    rw [ht, h, List.append_nil, isBlank_append, hb, ha]
    rfl
  · intro h
    rw [trim, trimStart_eq_nil_iff.2 h, trimEnd_nil]

theorem trimStart_append_of_trimStart_ne_nil {t : Text} (h : trimStart t ≠ []) (u : Text) :
    trimStart (t ++ u) = trimStart t ++ u := by
  simp only [trimStart] at h ⊢
  rw [List.dropWhile_append, if_neg (by simpa using h)]

theorem trimStart_append {s : Text} (hs : s.isBlank = true) (t : Text) :
    trimStart (s ++ t) = trimStart t := by
  have h := trimStart_eq_nil_iff.2 hs
  simp only [trimStart] at h ⊢
  rw [List.dropWhile_append, h]
  rfl

theorem trimEnd_append {s : Text} (hs : s.isBlank = true) (t : Text) :
    trimEnd (t ++ s) = trimEnd t := by
  have hs' : isBlank s.reverse = true := by simpa [isBlank] using hs
  rw [trimEnd, List.reverse_append, trimStart_append hs', ← trimEnd]

/-- Blanks around a text are trimmed away. -/
theorem trim_append_append {s u : Text} (hs : s.isBlank = true) (hu : u.isBlank = true) (t : Text) :
    trim (s ++ (t ++ u)) = trim t := by
  rw [trim, trimStart_append hs]
  by_cases ht : trimStart t = []
  · have hblank : isBlank (t ++ u) = true := by
      rw [isBlank, List.all_append, Bool.and_eq_true]
      exact ⟨trimStart_eq_nil_iff.1 ht, hu⟩
    rw [trimStart_eq_nil_iff.2 hblank, trim, ht]
  · rw [trimStart_append_of_trimStart_ne_nil ht, trimEnd_append hu, trim]

theorem trim_append {s : Text} (hs : s.isBlank = true) (t : Text) : trim (t ++ s) = trim t :=
  by
  have := trim_append_append (s := []) rfl hs t
  rwa [List.nil_append] at this

theorem trim_append_left {s : Text} (hs : s.isBlank = true) (t : Text) :
    trim (s ++ t) = trim t := by
  rw [trim, trimStart_append hs, trim]

end Text

end RecordQuery
