import RecordQuery.Proofs.Query.Display

/-!
# Queries put together

A program that narrows down somebody's query writes a connective and its own query in parentheses
behind it. Both are texts, and the program parses neither. This file says that nothing can go wrong:
if each text is a query on its own, then the whole is the tree that was meant, whatever characters
the texts begin and end with.

## What the seams do to the tokens

The tokens of the first text are not quite those that it has on its own. Its last fragment takes the
blank in front of the connective, and without that blank a text that ends in `&` would be cut one
character too early. So tokens are compared up to blanks at the ends of fragments, which no
comparison is read from (`Grammar.Derives.of_map_trimmed`). At the parentheses nothing happens at
all.

## Main results

* `TokenKind.ofText_append_space_connective`, `TokenKind.ofText_append_closed`: the tokens of a text
  that a connective or a parenthesis follows
* `Query.parse_composed`: the trees of composed queries, and the limits that admit them
-/

namespace RecordQuery

open Text Grammar

/-! ## Blanks at the ends of fragments -/

theorem Fragment.parse_of_trim_eq {s t : Text} (h : s.trim = t.trim) : parse s = parse t := by
  rw [parse, parse, h]

namespace TokenKind

/-- A kind of token without the blanks at the ends of its fragment. -/
def trimmed : TokenKind → TokenKind
  | fragment text => fragment text.trim
  | kind => kind

@[simp] theorem trimmed_eq_connective_iff {k : TokenKind} {c : Connective} :
    k.trimmed = connective c ↔ k = connective c := by
  cases k <;> simp [trimmed]

@[simp] theorem trimmed_eq_leftParen_iff {k : TokenKind} :
    k.trimmed = leftParen ↔ k = leftParen := by
  cases k <;> simp [trimmed]

@[simp] theorem trimmed_eq_rightParen_iff {k : TokenKind} :
    k.trimmed = rightParen ↔ k = rightParen := by
  cases k <;> simp [trimmed]

theorem trimmed_eq_fragment_iff {k : TokenKind} {s : Text} :
    k.trimmed = fragment s ↔ ∃ t, k = fragment t ∧ t.trim = s := by
  cases k <;> simp [trimmed]

end TokenKind

open TokenKind

/-- **Blanks at the ends of fragments do not matter to a derivation.** -/
theorem Grammar.Derives.of_map_trimmed {p : Phrase} {ts us : List TokenKind} {q : Query}
    (h : Derives p ts q) (hu : us.map trimmed = ts.map trimmed) : Derives p us q := by
  induction h generalizing us with
  | @fragment text q h =>
    obtain ⟨k, rfl, hk⟩ := List.map_eq_singleton_iff.1 hu
    obtain ⟨t, rfl, ht⟩ := trimmed_eq_fragment_iff.1 hk
    exact .fragment (Fragment.parse_of_trim_eq ht ▸ h)
  | group _ ih =>
    rw [List.map_cons, List.map_append, List.map_singleton] at hu
    obtain ⟨k, vs, rfl, hk, hvs⟩ := List.map_eq_cons_iff.1 hu
    obtain ⟨us, ws, rfl, hus, hws⟩ := List.map_eq_append_iff.1 hvs
    obtain ⟨k', rfl, hk'⟩ := List.map_eq_singleton_iff.1 hws
    obtain rfl := trimmed_eq_leftParen_iff.1 hk
    obtain rfl := trimmed_eq_rightParen_iff.1 hk'
    exact .group (ih hus)
  | operand _ ih => exact .operand (ih hu)
  | joined c _ _ ihl ihr =>
    rw [List.map_append, List.map_cons] at hu
    obtain ⟨us, vs, rfl, hus, hvs⟩ := List.map_eq_append_iff.1 hu
    obtain ⟨k, ws, rfl, hk, hws⟩ := List.map_eq_cons_iff.1 hvs
    obtain rfl := trimmed_eq_connective_iff.1 hk
    exact .joined c (ihl hus) (ihr hws)

namespace TokenKind

theorem map_trimmed_fragments_append {w : Text} (hw : w.isBlank = true) (s : Text) :
    (fragments (s ++ w)).map trimmed = (fragments s).map trimmed := by
  have hblank : Text.isBlank (s ++ w) = s.isBlank := by
    rw [Text.isBlank_append, hw, Bool.and_true]
  unfold fragments
  rw [hblank]
  split
  · rfl
  · simp [trimmed, trim_append hw]

/-! ## Texts and what follows them -/

/-- Blanks behind a text are blanks behind its last fragment, or nothing. -/
theorem map_trimmed_ofText_append {w : Text} (hw : w.isBlank = true) (s : Text) :
    (ofText (s ++ w)).map trimmed = (ofText s).map trimmed := by
  obtain ⟨ts, last, hlast, h⟩ := exists_ofText_append s
  have hs : ofText s = ts ++ fragments last := by
    rw [← List.append_nil s, h, List.append_nil, ofText_of_undelimited hlast]
  rw [h, hs, ofText_of_undelimited (hlast.append_blank hw), List.map_append, List.map_append,
    map_trimmed_fragments_append hw]

/-- A connective behind a text and a blank is found where it stands. -/
theorem ofText_append_space_connective (s : Text) (c : Connective) (t : Text) :
    ofText (s ++ [' '] ++ (c.symbol ++ t)) = ofText (s ++ [' ']) ++ .connective c :: ofText t := by
  obtain ⟨ts, last, hlast, h⟩ := exists_ofText_append s
  have hends := ofText_append_connective hlast.append_space c (seam_append_space last c.symbol) t
  rw [List.append_assoc s, h, ← List.append_assoc last, hends, h,
    ofText_of_undelimited hlast.append_space, List.append_assoc]

/-- So is a parenthesis that closes a group, blank or not. -/
theorem ofText_append_closed (s t : Text) :
    ofText (s ++ ')' :: t) = ofText s ++ .rightParen :: ofText t := by
  obtain ⟨ts, last, hlast, h⟩ := exists_ofText_append s
  have hs : ofText s = ts ++ fragments last := by
    rw [← List.append_nil s, h, List.append_nil, ofText_of_undelimited hlast]
  rw [h, hs, ofText_append_rightParen hlast, List.append_assoc]

/-- A text in parentheses, with blanks in front. -/
theorem ofText_parenthesised {w : Text} (hw : w.isBlank = true) (s : Text) :
    ofText (w ++ ('(' :: (s ++ [')']))) = .leftParen :: (ofText s ++ [.rightParen]) := by
  rw [ofText_append_leftParen (undelimited_of_isBlank hw), fragments_of_isBlank hw,
    ofText_append_closed]
  rfl

end TokenKind

namespace Query

/-! ## Composed queries -/

/-- A query whose tokens derive a tree is parsed to that tree and no other, within the limits that
admit it. -/
theorem parse_eq_ok_iff_of_derives {text : Text} {tree : Query}
    (h : Derives .query (ofText text) tree) (limits : Limits) (q : Query) :
    parse limits text = .ok q ↔
      q = tree ∧ tree.depth ≤ limits.maxDepth ∧ tree.height ≤ limits.maxHeight := by
  rw [parse_eq_ok_iff]
  constructor
  · rintro ⟨hq, hd, hh⟩
    obtain rfl := hq.unique h
    exact ⟨rfl, by omega, hh⟩
  · rintro ⟨rfl, hd, hh⟩
    exact ⟨h, by omega, hh⟩

/-- **Queries compose by their texts.** Of two texts that are parsed on their own, within whatever
limits, the second one can be put in parentheses, and behind the first one with a connective. The
result is parsed exactly within the limits that admit the tree it is meant for, and to that tree:
neither text changes how the other one is grouped. The depth of the first tree is admitted wherever
its own text is parsed, so only limits that are too small for that text make a difference there. -/
theorem parse_composed {limits₁ limits₂ : Limits} {text₁ text₂ : Text} {q₁ q₂ : Query}
    (h₁ : parse limits₁ text₁ = .ok q₁) (h₂ : parse limits₂ text₂ = .ok q₂) (limits : Limits) :
    (∀ (c : Connective) (q : Query),
      parse limits (text₁ ++ [' '] ++ c.symbol ++ [' ', '('] ++ text₂ ++ [')']) = .ok q ↔
        q = .joined c q₁ (.group q₂) ∧
          (q₁.depth ≤ limits.maxDepth ∧ q₂.depth + 1 ≤ limits.maxDepth) ∧
          1 + max q₁.height (q₂.height + 1) ≤ limits.maxHeight) ∧
    ∀ q, parse limits (['('] ++ text₂ ++ [')']) = .ok q ↔
      q = .group q₂ ∧ q₂.depth + 1 ≤ limits.maxDepth ∧ q₂.height + 1 ≤ limits.maxHeight := by
  obtain ⟨hd₁, -⟩ := parse_eq_ok_iff.1 h₁
  obtain ⟨hd₂, -⟩ := parse_eq_ok_iff.1 h₂
  refine ⟨fun c q => ?_, fun q => ?_⟩
  · have htokens : ofText (text₁ ++ [' '] ++ c.symbol ++ [' ', '('] ++ text₂ ++ [')']) =
        ofText (text₁ ++ [' ']) ++
          .connective c :: .leftParen :: (ofText text₂ ++ [.rightParen]) := by
      rw [← ofText_parenthesised isBlank_space, ← ofText_append_space_connective]
      simp
    have hleft := hd₁.of_map_trimmed (map_trimmed_ofText_append isBlank_space text₁)
    have htree : Derives .query _ (.joined c q₁ (.group q₂)) := .joined c hleft (.group hd₂)
    rw [← htokens] at htree
    rw [parse_eq_ok_iff_of_derives htree, depth, depth, height, height, Nat.max_le, Nat.add_comm 1]
  · have htree : Derives .query _ (.group q₂) := .operand (.group hd₂)
    rw [← ofText_parenthesised (w := []) rfl] at htree
    exact parse_eq_ok_iff_of_derives htree limits q

/-- Two queries that end and begin with halves of connectives, within limits that are met exactly
and within smaller ones. -/
theorem parse_composed_half_connectives :
    let q₁ : Query := .comparison (.relation .equal) ['a'] "b&".toList
    let q₂ : Query := .comparison (.relation .less) "|c".toList ['&']
    parse ⟨0, 0⟩ "a = b&".toList = .ok q₁ ∧ parse ⟨0, 0⟩ "|c < &".toList = .ok q₂ ∧
      parse ⟨1, 2⟩ "a = b& && (|c < &)".toList = .ok (.joined .and q₁ (.group q₂)) ∧
      parse ⟨1, 1⟩ "(|c < &)".toList = .ok (.group q₂) ∧
      ∀ q, parse ⟨1, 1⟩ "a = b& || (|c < &)".toList ≠ .ok q := by
  intro q₁ q₂
  have h₁ : parse ⟨0, 0⟩ "a = b&".toList = .ok q₁ := by decide +kernel
  have h₂ : parse ⟨0, 0⟩ "|c < &".toList = .ok q₂ := by decide +kernel
  refine ⟨h₁, h₂, ((parse_composed h₁ h₂ ⟨1, 2⟩).1 .and _).2 ⟨rfl, by decide, by decide⟩,
    ((parse_composed h₁ h₂ ⟨1, 1⟩).2 _).2 ⟨rfl, by decide, by decide⟩, fun q hq => ?_⟩
  obtain ⟨-, -, hheight⟩ := ((parse_composed h₁ h₂ ⟨1, 1⟩).1 .or q).1 hq
  exact absurd hheight (by decide)

end Query

end RecordQuery
