/-!
# Text

A text is the list of its characters, so that every reader and printer of this library is a
recursion on a list. Positions that leave the library are byte offsets of the UTF-8 form, which
`Text.byteLength` counts.

## Cutting

`after?` and `cut?` are the two ways in which a text is taken apart at a given mark: at its front,
and at the leftmost place where the mark occurs. Everything that looks for a symbol (comparison
operators, wildcards) goes through them.

## Main results

* `Text.after?_eq_some_iff`: `after?` undoes `++`
* `Text.eq_of_cut?`: a cut loses nothing but the mark
* `Text.pieces_ne_nil`, `Text.join_pieces`: the pieces at a separator are never none, and joining
  them gives the text back
-/

namespace RecordQuery

/-- A text: its characters in order. -/
abbrev Text := List Char

namespace Text

/-- Whether a text is in a list. -/
instance decidableMem (t : Text) (ts : List Text) : Decidable (t ∈ ts) :=
  List.instDecidableMemOfLawfulBEq t ts

/-! ## Measures and order -/

/-- The number of bytes of the UTF-8 form. -/
def byteLength (t : Text) : Nat := t.foldr (fun c n => c.utf8Size + n) 0

@[simp] theorem byteLength_nil : byteLength [] = 0 := rfl

@[simp] theorem byteLength_cons (c : Char) (t : Text) :
    byteLength (c :: t) = c.utf8Size + byteLength t := rfl

@[simp] theorem byteLength_append (s t : Text) :
    byteLength (s ++ t) = byteLength s + byteLength t := by
  induction s with
  | nil => simp
  | cons c s ih => simp [ih, Nat.add_assoc]

/-- The code points of a text. Texts are ordered as these lists are, which is also the order of
their UTF-8 forms. -/
def codes (t : Text) : List Int := t.map fun c => (c.toNat : Int)

/-! ## The front of a text -/

/-- What follows `front` in a text that begins with it. -/
def after? : Text → Text → Option Text
  | [], t => some t
  | _ :: _, [] => none
  | f :: front, c :: t => if f = c then after? front t else none

@[simp] theorem after?_nil (t : Text) : after? [] t = some t := by
  cases t <;> rfl

@[simp] theorem after?_append (front t : Text) : after? front (front ++ t) = some t := by
  induction front with
  | nil => simp
  | cons f front ih => simp [after?, ih]

theorem after?_eq_some_iff {front t rest : Text} :
    after? front t = some rest ↔ t = front ++ rest := by
  constructor
  · intro h
    induction front generalizing t with
    | nil => simpa using h
    | cons f front ih =>
      cases t with
      | nil => simp [after?] at h
      | cons c t =>
        simp only [after?] at h
        split at h
        · next hc => rw [hc, List.cons_append, ih h]
        · simp at h
  · rintro rfl
    exact after?_append front rest

/-- Whether `t` begins with `front`. -/
def startsWith (front t : Text) : Bool := (after? front t).isSome

/-! ## The leftmost occurrence of a mark -/

/-- Cuts a text at the leftmost occurrence of `mark` into what stands before it and after it. -/
def cut? (mark : Text) : Text → Option (Text × Text)
  | [] => (after? mark []).map fun rest => ([], rest)
  | c :: t =>
    match after? mark (c :: t) with
    | some rest => some ([], rest)
    | none => (cut? mark t).map fun (before, rest) => (c :: before, rest)

theorem eq_of_cut? {mark t before rest : Text} (h : cut? mark t = some (before, rest)) :
    t = before ++ mark ++ rest := by
  induction t generalizing before with
  | nil =>
    simp only [cut?, Option.map_eq_some_iff] at h
    obtain ⟨r, hr, he⟩ := h
    obtain ⟨rfl, rfl⟩ := Prod.mk.inj he
    simpa using after?_eq_some_iff.1 hr
  | cons c t ih =>
    simp only [cut?] at h
    split at h
    · next r hr =>
      simp only [Option.some.injEq, Prod.mk.injEq] at h
      obtain ⟨rfl, rfl⟩ := h
      simpa using after?_eq_some_iff.1 hr
    · simp only [Option.map_eq_some_iff] at h
      obtain ⟨⟨b, r⟩, hb, he⟩ := h
      obtain ⟨rfl, rfl⟩ := Prod.mk.inj he
      simp [ih hb]

/-! ## Separators of one character -/

/-- The pieces of a text between the occurrences of a separator. -/
def pieces (separator : Char) : Text → List Text
  | [] => [[]]
  | c :: t =>
    if c = separator then [] :: pieces separator t
    else
      match pieces separator t with
      | [] => [[c]]
      | piece :: later => (c :: piece) :: later

/-- Joins pieces with a text between neighbours. -/
def join (between : Text) : List Text → Text
  | [] => []
  | [piece] => piece
  | piece :: later => piece ++ between ++ join between later

theorem pieces_ne_nil (separator : Char) (t : Text) : pieces separator t ≠ [] := by
  cases t with
  | nil => simp [pieces]
  | cons c t =>
    simp only [pieces]
    split
    · simp
    · split <;> simp

theorem join_pieces (separator : Char) (t : Text) :
    join [separator] (pieces separator t) = t := by
  induction t with
  | nil => rfl
  | cons c t ih =>
    have hne := pieces_ne_nil separator t
    simp only [pieces]
    cases hp : pieces separator t with
    | nil => exact absurd hp hne
    | cons piece later =>
      rw [hp] at ih
      split
      · next hc => simp [join, ih, hc]
      · cases later with
        | nil => simp [join] at ih ⊢; exact ih
        | cons next later => simp [join] at ih ⊢; exact ih

/-- Writes `by'` for every occurrence of one character. -/
def replace (c : Char) (by' : Text) (t : Text) : Text :=
  t.flatMap fun d => if d = c then by' else [d]

theorem replace_cons_self (c : Char) (by' t : Text) :
    replace c by' (c :: t) = by' ++ replace c by' t := by
  rw [replace, List.flatMap_cons, if_pos rfl]
  rfl

theorem replace_cons_of_ne {c d : Char} (h : d ≠ c) (by' t : Text) :
    replace c by' (d :: t) = d :: replace c by' t := by
  rw [replace, List.flatMap_cons, if_neg h]
  rfl

/-! ## Decimal digits -/

/-- A natural number in decimal digits, without leading zeros. -/
def ofNat (n : Nat) : Text := Nat.toDigits 10 n

/-- An integer in decimal digits, with a minus sign if it is negative. -/
def ofInt : Int → Text
  | .ofNat n => ofNat n
  | .negSucc n => '-' :: ofNat (n + 1)

/-- A natural number in at least `width` decimal digits, zeros in front. -/
def ofNatPadded (width n : Nat) : Text :=
  List.replicate (width - (ofNat n).length) '0' ++ ofNat n

end Text

end RecordQuery
