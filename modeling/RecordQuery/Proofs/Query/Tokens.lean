import RecordQuery.Query.Token

/-!
# How a text is cut

The kinds of the tokens of a text, part by part: a part without delimiters that is followed by a
delimiter, or by nothing, is one fragment, or no token at all if it is blank. Conversely every
fragment of a text is such a part.

## Seams

A delimiter of two characters may lie across the place where two texts meet: `b&` followed by `&& c`
is cut one character too early. `Seam` excludes that. Whoever writes a blank between two texts gets
it for nothing.

## Main results

* `TokenKind.ofText_append_connective`, `TokenKind.ofText_append_leftParen`,
  `TokenKind.ofText_append_rightParen`: a text is cut at its first delimiter
* `TokenKind.undelimited_of_mem_ofText`: a fragment holds no delimiter
-/

namespace RecordQuery

namespace Text

/-! ## Texts without delimiters -/

/-- No delimiter occurs in a text. -/
structure Undelimited (t : Text) : Prop where
  connective : ∀ c : Connective, ¬ c.symbol <:+: t
  leftParen : '(' ∉ t
  rightParen : ')' ∉ t

/-- No connective lies across the place where two texts meet. -/
def Seam (s t : Text) : Prop := ∀ c ∈ s.getLast?, c ∈ t.head? → c ≠ '&' ∧ c ≠ '|'

@[simp] theorem seam_nil_left (t : Text) : Seam [] t := by simp [Seam]

@[simp] theorem seam_nil_right (s : Text) : Seam s [] := by simp [Seam]

theorem seam_cons_right {s t : Text} {c : Char} (ha : c ≠ '&') (hb : c ≠ '|') :
    Seam s (c :: t) := by
  intro d _ hd
  obtain rfl : c = d := by simpa using hd
  exact ⟨ha, hb⟩

theorem seam_append_singleton {s t : Text} {c : Char} (ha : c ≠ '&') (hb : c ≠ '|') :
    Seam (s ++ [c]) t := by
  intro d hd _
  obtain rfl : c = d := by simpa using hd
  exact ⟨ha, hb⟩

theorem Seam.of_append {r s t : Text} (h : Seam r (s ++ t)) : Seam r s := by
  intro c hc hd
  refine h c hc ?_
  rw [List.head?_append, hd]
  rfl

theorem undelimited_nil : Undelimited [] where
  connective c h := by cases c <;> simp [Connective.symbol] at h
  leftParen := by simp
  rightParen := by simp

theorem undelimited_singleton {c : Char} (hl : c ≠ '(') (hr : c ≠ ')') : Undelimited [c] where
  connective k h := by cases k <;> exact absurd h.length_le (by simp [Connective.symbol])
  leftParen := by simpa using Ne.symm hl
  rightParen := by simpa using Ne.symm hr

theorem Undelimited.of_infix {s t : Text} (ht : Undelimited t) (h : s <:+: t) : Undelimited s where
  connective c hc := ht.connective c (hc.trans h)
  leftParen hp := ht.leftParen (h.mem hp)
  rightParen hp := ht.rightParen (h.mem hp)

/-- A symbol of two characters that occurs in neither of two texts occurs in both together only
across their seam. -/
theorem infix_append_of_pair {a b : Char} {s t : Text} (h : [a, b] <:+: s ++ t)
    (hs : ¬ [a, b] <:+: s) (ht : ¬ [a, b] <:+: t) : s.getLast? = some a ∧ t.head? = some b := by
  induction s with
  | nil => exact absurd h ht
  | cons c s ih =>
    have hs' : ¬ [a, b] <:+: s := fun h => hs (List.infix_cons h)
    rcases List.infix_cons_iff.1 (List.cons_append ▸ h) with h | h
    · cases s with
      | nil =>
        cases t with
        | nil => simp at h
        | cons d t => simp_all
      | cons d s =>
        refine absurd (List.IsPrefix.isInfix ?_) hs
        simp only [List.cons_append, List.cons_prefix_cons] at h
        simp [h.1, h.2.1]
    · obtain ⟨hl, hh⟩ := ih h hs'
      cases s with
      | nil => simp at hl
      | cons d s => exact ⟨by simpa using hl, hh⟩

theorem Undelimited.append {s t : Text} (hs : Undelimited s) (ht : Undelimited t)
    (h : Seam s t) : Undelimited (s ++ t) where
  connective c hc := by
    cases c with
    | and =>
      obtain ⟨hl, hh⟩ := infix_append_of_pair hc (hs.connective .and) (ht.connective .and)
      exact (h _ hl hh).1 rfl
    | or =>
      obtain ⟨hl, hh⟩ := infix_append_of_pair hc (hs.connective .or) (ht.connective .or)
      exact (h _ hl hh).2 rfl
  leftParen hp := (List.mem_append.1 hp).elim hs.leftParen ht.leftParen
  rightParen hp := (List.mem_append.1 hp).elim hs.rightParen ht.rightParen

/-- Characters that are part of no delimiter make a text without delimiters. -/
theorem undelimited_of_forall {t : Text}
    (h : ∀ c ∈ t, c ≠ '&' ∧ c ≠ '|' ∧ c ≠ '(' ∧ c ≠ ')') : Undelimited t where
  connective c hc := by
    cases c with
    | and => exact (h '&' (hc.mem (by simp [Connective.symbol]))).1 rfl
    | or => exact (h '|' (hc.mem (by simp [Connective.symbol]))).2.1 rfl
  leftParen hp := (h _ hp).2.2.1 rfl
  rightParen hp := (h _ hp).2.2.2 rfl

end Text

open Text

namespace Token

/-! ## Scanning -/

/-- A character that begins no delimiter is held. -/
theorem scan_cons {start : Nat} {held : Text} {c : Char} {t : Text} (hl : c ≠ '(') (hr : c ≠ ')')
    (ha : c = '&' → t.head? ≠ some '&') (ho : c = '|' → t.head? ≠ some '|') :
    scan start held (c :: t) = scan start (c :: held) t := by
  rw [scan]
  · rintro t rfl rfl
    exact ha rfl rfl
  · rintro t rfl rfl
    exact ho rfl rfl
  · exact hl
  · exact hr

/-- A part without delimiters is held as a whole. -/
theorem scan_append {s t : Text} (hs : Undelimited s) (h : Seam s t) (start : Nat) (held : Text) :
    scan start held (s ++ t) = scan start (s.reverse ++ held) t := by
  induction s generalizing held with
  | nil => rfl
  | cons c s ih =>
    have hs' : Undelimited s := hs.of_infix (List.infix_cons List.infix_rfl)
    have hseam : Seam s t := by
      cases s with
      | nil => exact seam_nil_left t
      | cons d s => simpa [Seam] using h
    -- the next character is the next one of `s`, or the first one behind the seam
    have hnext : ∀ (k : Connective), k.symbol = [c, c] → c = '&' ∨ c = '|' →
        (s ++ t).head? ≠ some c := by
      intro k hk hc hh
      cases s with
      | nil =>
        have := h c (by simp) hh
        rcases hc with rfl | rfl <;> simp at this
      | cons d s =>
        obtain rfl : d = c := by simpa using hh
        exact hs.connective k (hk ▸ ⟨[], s, by simp⟩)
    rw [List.cons_append, scan_cons, ih hs' hseam]
    · simp
    · rintro rfl
      exact hs.leftParen (by simp)
    · rintro rfl
      exact hs.rightParen (by simp)
    · rintro rfl
      exact hnext .and rfl (.inl rfl)
    · rintro rfl
      exact hnext .or rfl (.inr rfl)

/-- The kinds of the tokens do not depend on where the text started. -/
theorem map_kind_scan (start start' : Nat) (held t : Text) :
    (scan start held t).map kind = (scan start' held t).map kind := by
  have hfragments : ∀ (t : Text) (i j : Nat),
      (fragments t i).map kind = (fragments t j).map kind := by
    intro t i j
    unfold fragments
    split <;> rfl
  have hcut : ∀ (i j : Nat) (held : Text) (k : TokenKind),
      (scan.cut i held k).map kind = (scan.cut j held k).map kind := by
    intro i j held k
    simp only [scan.cut, List.map_append, hfragments _ i j, List.map_cons, List.map_nil]
  fun_induction scan start held t generalizing start' with
  | case1 start held => exact hfragments _ _ _
  | case2 start held t ih | case3 start held t ih | case4 start held t ih | case5 start held t ih =>
    simp only [scan, List.map_append, hcut start start']
    rw [ih]
  | case6 start held c t hand hor hl hr ih =>
    rw [ih start', scan]
    · exact hand
    · exact hor
    · exact hl
    · exact hr

end Token

namespace TokenKind

/-- The token of a text without delimiters, unless the text is blank. -/
def fragments (t : Text) : List TokenKind := if t.isBlank then [] else [.fragment t]

theorem fragments_of_isBlank {t : Text} (h : t.isBlank = true) : fragments t = [] := if_pos h

theorem fragments_of_isBlank_eq_false {t : Text} (h : t.isBlank = false) :
    fragments t = [.fragment t] :=
  if_neg (Bool.eq_false_iff.1 h)

theorem map_kind_fragments (t : Text) (start : Nat) :
    (Token.fragments t start).map Token.kind = fragments t := by
  unfold Token.fragments fragments
  split <;> rfl

/-! ## Cutting -/

@[simp] theorem ofText_nil : ofText [] = [] := rfl

/-- What is scanned behind a part without delimiters. -/
theorem ofText_append {s t : Text} (hs : Undelimited s) (h : Seam s t) :
    ofText (s ++ t) = (Token.scan 0 s.reverse t).map Token.kind := by
  rw [ofText, Token.ofText, Token.scan_append hs h, List.append_nil]

theorem ofText_of_undelimited {s : Text} (hs : Undelimited s) : ofText s = fragments s := by
  rw [← List.append_nil s, ofText_append hs (seam_nil_right s), Token.scan, map_kind_fragments,
    List.reverse_reverse, List.append_nil]

/-- A delimiter ends the fragment before it, and the rest is cut on its own. -/
theorem map_kind_cut_append (held : Text) (delimiter : TokenKind) (start : Nat) (t : Text) :
    (Token.scan.cut 0 held.reverse delimiter ++ Token.scan start [] t).map Token.kind =
      fragments held ++ delimiter :: ofText t := by
  rw [List.map_append, Token.scan.cut, List.map_append, map_kind_fragments, List.reverse_reverse,
    Token.map_kind_scan start 0, List.append_assoc]
  rfl

theorem ofText_append_leftParen {s : Text} (hs : Undelimited s) (t : Text) :
    ofText (s ++ '(' :: t) = fragments s ++ .leftParen :: ofText t := by
  rw [ofText_append hs (seam_cons_right (by decide) (by decide)), Token.scan, map_kind_cut_append]

theorem ofText_append_rightParen {s : Text} (hs : Undelimited s) (t : Text) :
    ofText (s ++ ')' :: t) = fragments s ++ .rightParen :: ofText t := by
  rw [ofText_append hs (seam_cons_right (by decide) (by decide)), Token.scan, map_kind_cut_append]

theorem ofText_rightParen (t : Text) : ofText (')' :: t) = .rightParen :: ofText t :=
  ofText_append_rightParen undelimited_nil t

theorem ofText_append_connective {s : Text} (hs : Undelimited s) (c : Connective)
    (h : Seam s c.symbol) (t : Text) :
    ofText (s ++ (c.symbol ++ t)) = fragments s ++ .connective c :: ofText t := by
  have hseam : Seam s (c.symbol ++ t) := by
    cases c <;> exact h
  rw [ofText_append hs hseam]
  cases c with
  | and | or =>
    rw [Connective.symbol, List.cons_append, List.singleton_append, Token.scan,
      map_kind_cut_append]

/-! ## The first delimiter and the last part

What a text is cut into depends on nothing behind it but for its last part, the one after its last
delimiter, which goes on in whatever text follows. -/

/-- What can stand directly behind a part that it ends. -/
inductive Ends (s : Text) : TokenKind → Prop
  | connective (c : Connective) (h : Seam s c.symbol) : Ends s (.connective c)
  | leftParen : Ends s .leftParen
  | rightParen : Ends s .rightParen

theorem ofText_append_of_ends {s : Text} (hs : Undelimited s) {d : TokenKind} (h : Ends s d)
    (t : Text) : ofText (s ++ (d.text ++ t)) = fragments s ++ d :: ofText t := by
  cases h with
  | connective c h => exact ofText_append_connective hs c h t
  | leftParen => exact ofText_append_leftParen hs t
  | rightParen => exact ofText_append_rightParen hs t

/-- A text has no delimiter, or it has a first one. -/
theorem undelimited_or_exists_ends (t : Text) :
    Undelimited t ∨ ∃ s d u, Undelimited s ∧ Ends s d ∧ t = s ++ (d.text ++ u) := by
  induction t with
  | nil => exact .inl undelimited_nil
  | cons c t ih =>
    by_cases hl : c = '('
    · exact .inr ⟨[], .leftParen, t, undelimited_nil, .leftParen, by rw [hl]; rfl⟩
    by_cases hr : c = ')'
    · exact .inr ⟨[], .rightParen, t, undelimited_nil, .rightParen, by rw [hr]; rfl⟩
    by_cases hk : ∃ (k : Connective) (u : Text), c :: t = k.symbol ++ u
    · obtain ⟨k, u, hu⟩ := hk
      exact .inr ⟨[], .connective k, u, undelimited_nil, .connective k (seam_nil_left _), hu⟩
    -- no delimiter begins here, so the character belongs to the part before the first one
    have hc := undelimited_singleton hl hr
    have hseam : Seam [c] t := by
      intro d hd hh
      obtain rfl : c = d := by simpa using hd
      obtain ⟨u, rfl⟩ := List.head?_eq_some_iff.1 hh
      exact ⟨fun e => hk ⟨.and, u, e ▸ rfl⟩, fun e => hk ⟨.or, u, e ▸ rfl⟩⟩
    rcases ih with ht | ⟨s, d, u, hs, hd, rfl⟩
    · exact .inl (hc.append ht hseam)
    refine .inr ⟨c :: s, d, u, hc.append hs hseam.of_append, ?_, rfl⟩
    cases hd with
    | connective k h =>
      refine .connective k ?_
      cases s with
      | nil => exact Seam.of_append (s := k.symbol) (t := u) hseam
      | cons e s => simpa [Seam] using h
    | leftParen => exact .leftParen
    | rightParen => exact .rightParen

theorem Ends.text_ne_nil {s : Text} {d : TokenKind} (h : Ends s d) : d.text ≠ [] := by
  cases h with
  | connective c => cases c <;> exact List.cons_ne_nil _ _
  | leftParen | rightParen => exact List.cons_ne_nil _ _

/-- Induction along the delimiters of a text, from the left to the right. -/
@[elab_as_elim]
theorem parts_induction {motive : Text → Prop} (last : ∀ s, Undelimited s → motive s)
    (cut : ∀ s d u, Undelimited s → Ends s d → motive u → motive (s ++ (d.text ++ u)))
    (t : Text) : motive t := by
  rcases undelimited_or_exists_ends t with ht | ⟨s, d, u, hs, hd, rfl⟩
  · exact last t ht
  · exact cut s d u hs hd (parts_induction last cut u)
termination_by t.length
decreasing_by
  subst_vars
  have hpos := List.length_pos_iff.2 hd.text_ne_nil
  simp only [List.length_append]
  omega

/-- **The last part of a text.** The tokens before it are there whatever follows the text, and what
follows continues the last part. -/
theorem exists_ofText_append (s : Text) :
    ∃ ts last, Undelimited last ∧ ∀ t, ofText (s ++ t) = ts ++ ofText (last ++ t) := by
  induction s using parts_induction with
  | last s hs => exact ⟨[], s, hs, fun _ => rfl⟩
  | cut r d u hr hd ih =>
    obtain ⟨ts, last, hlast, h⟩ := ih
    refine ⟨fragments r ++ d :: ts, last, hlast, fun t => ?_⟩
    rw [List.append_assoc, List.append_assoc, ofText_append_of_ends hr hd, h, List.append_assoc,
      List.cons_append]

/-! ## Fragments -/

theorem mem_fragments {t text : Text} :
    .fragment text ∈ fragments t ↔ text = t ∧ t.isBlank = false := by
  unfold fragments
  split
  · next h => simp [h]
  · next h => simp [h]

/-- What is held holds no delimiter and does not begin one with what follows, so no fragment that
comes out of the scan holds one. -/
theorem undelimited_of_mem_scan {start : Nat} {held t text : Text}
    (hheld : Undelimited held.reverse) (hseam : Seam held.reverse t)
    (h : .fragment text ∈ (Token.scan start held t).map Token.kind) :
    Undelimited text ∧ text.isBlank = false := by
  have hcut : ∀ {start i : Nat} {held t : Text} {d : TokenKind}, Undelimited held.reverse →
      (.fragment text ∈ (Token.scan i [] t).map Token.kind →
        Undelimited text ∧ text.isBlank = false) → d ≠ .fragment text →
      .fragment text ∈ (Token.scan.cut start held d ++ Token.scan i [] t).map Token.kind →
      Undelimited text ∧ text.isBlank = false := by
    intro start i held t d hheld hrest hd hmem
    rw [List.map_append, Token.scan.cut, List.map_append, map_kind_fragments, List.append_assoc,
      List.mem_append, mem_fragments] at hmem
    rcases hmem with ⟨rfl, hb⟩ | hmem
    · exact ⟨hheld, hb⟩
    · simp only [List.map_cons, List.map_nil, List.singleton_append, List.mem_cons] at hmem
      exact hmem.elim (fun he => absurd he.symm hd) hrest
  fun_induction Token.scan start held t with
  | case1 start held =>
    rw [map_kind_fragments, mem_fragments] at h
    obtain ⟨rfl, hb⟩ := h
    exact ⟨hheld, hb⟩
  | case2 start held t ih | case3 start held t ih | case4 start held t ih | case5 start held t ih =>
    exact hcut hheld (ih undelimited_nil (seam_nil_left t)) (by simp) h
  | case6 start held c t hand hor hl hr ih =>
    refine ih ?_ ?_ h
    · rw [List.reverse_cons]
      exact hheld.append (undelimited_singleton hl hr) (by simpa [Seam] using hseam)
    · rw [List.reverse_cons]
      intro d hd hh
      obtain rfl : c = d := by simpa using hd
      obtain ⟨u, rfl⟩ : ∃ u, t = c :: u := by
        cases t with
        | nil => simp at hh
        | cons e u => exact ⟨u, by simpa using hh⟩
      exact ⟨fun e => hand u e (e ▸ rfl), fun e => hor u e (e ▸ rfl)⟩

/-- **Fragments hold no delimiter.** -/
theorem undelimited_of_mem_ofText {t text : Text} (h : .fragment text ∈ ofText t) :
    Undelimited text ∧ text.isBlank = false := by
  have hheld : Undelimited (List.reverse []) := undelimited_nil
  exact undelimited_of_mem_scan hheld (seam_nil_left t) h

end TokenKind

end RecordQuery
