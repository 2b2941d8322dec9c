import Mathlib.Data.List.Basic
import RecordQuery.Proofs.Query.Fragment
import RecordQuery.Proofs.Query.Grammar
import RecordQuery.Proofs.Query.Tokens

/-!
# Reading a written query again

A tree that was parsed is parsed again from its written form. The written form has one blank on
either side of an operator and no blank inside a parenthesis, so its tokens are not those of the
text that was parsed. But they derive the same tree, and that is all that the parser asks for.

## What follows a query

The written form of a tree stands between blanks and what comes behind it, and the blank before a
connective belongs to the fragment in front of it. `Follows` lists what can come: nothing, the
parenthesis that closes a group, or a blank and a connective. In each case the tokens of the written
form end where the form does, up to blanks, so the induction on a derivation goes from part to part.

## Main results

* `Grammar.Derives.display`: the tokens of the written form derive the tree
* `Query.parse_display`: parsing undoes writing, and no two parsed trees are written alike
-/

namespace RecordQuery

open Text Grammar

namespace Text

/-- A blank is part of no delimiter. -/
theorem ne_of_isBlank {c : Char} (h : RecordQuery.isBlank c = true) :
    c ≠ '&' ∧ c ≠ '|' ∧ c ≠ '(' ∧ c ≠ ')' := by
  refine ⟨?_, ?_, ?_, ?_⟩ <;> rintro rfl <;> exact absurd h (by decide)

theorem seam_of_isBlank {s : Text} (hs : s.isBlank = true) (t : Text) : Seam s t := by
  intro c hc _
  obtain ⟨ha, ho, -⟩ := ne_of_isBlank (List.all_eq_true.1 hs c (List.mem_of_getLast? hc))
  exact ⟨ha, ho⟩

theorem seam_of_isBlank_right (s : Text) {t : Text} (ht : t.isBlank = true) : Seam s t := by
  intro c _ hc
  obtain ⟨ha, ho, -⟩ := ne_of_isBlank (List.all_eq_true.1 ht c (List.mem_of_head? hc))
  exact ⟨ha, ho⟩

/-- A blank keeps apart what is before it and what is behind it. -/
theorem seam_append_space (s t : Text) : Seam (s ++ [' ']) t :=
  seam_append_singleton (by decide) (by decide)

theorem undelimited_of_isBlank {s : Text} (hs : s.isBlank = true) : Undelimited s :=
  undelimited_of_forall fun c hc => ne_of_isBlank (List.all_eq_true.1 hs c hc)

theorem Undelimited.append_blank {s w : Text} (hs : Undelimited s) (hw : w.isBlank = true) :
    Undelimited (s ++ w) :=
  hs.append (undelimited_of_isBlank hw) (seam_of_isBlank_right s hw)

theorem Undelimited.append_space {s : Text} (hs : Undelimited s) : Undelimited (s ++ [' ']) :=
  hs.append_blank isBlank_space

end Text

/-! ## Comparisons -/

theorem Comparator.undelimited_symbol (op : Comparator) : Undelimited op.symbol := by
  have key : ∀ op ∈ all,
      op.symbol.all (fun c => c ≠ '&' && c ≠ '|' && c ≠ '(' && c ≠ ')') = true := by
    decide
  refine undelimited_of_forall fun c hc => ?_
  simpa [and_assoc] using List.all_eq_true.1 (key op (mem_all op)) c hc

theorem Fragment.isBlank_of_parse {text : Text} {q : Query} (h : parse text = .ok q) :
    text.isBlank = false := by
  obtain ⟨op, field, literal, rfl, hf, _⟩ := exists_comparison_of_parse h
  obtain ⟨-, -, w, w', -, -, htext⟩ := parts_of_parse h
  refine Bool.eq_false_iff.2 fun hb => hf ?_
  rw [trim_eq_nil_iff.2 hb] at htext
  exact (List.append_eq_nil_iff.1 htext.symm).1

/-- A comparison that was read from a text without delimiters is written without delimiters: the
blanks keep those of its parts that end or begin with half a connective apart. -/
theorem Fragment.undelimited_display {text field literal : Text} {op : Comparator}
    (h : parse text = .ok (.comparison op field literal)) (ht : Undelimited text) :
    Undelimited (Query.comparison op field literal).display := by
  obtain ⟨-, -, w, w', -, -, htext⟩ := parts_of_parse h
  obtain ⟨before, after, -, -, heq⟩ := eq_append_trim text
  have htrim : Undelimited (trim text) := ht.of_infix ⟨before, after, heq.symm⟩
  have hfield : Undelimited field := htrim.of_infix ⟨[], _, by rw [htext]; rfl⟩
  have hliteral : Undelimited literal :=
    htrim.of_infix ⟨field ++ (w ++ (op.symbol ++ w')), [], by simp [htext]⟩
  have hleft : Undelimited (field ++ [' '] ++ (op.symbol ++ [' '])) :=
    hfield.append_space.append op.undelimited_symbol.append_space (seam_append_space _ _)
  rw [← List.append_assoc] at hleft
  exact hleft.append hliteral (seam_append_space _ _)

/-! ## Derivations -/

namespace TokenKind

/-- What can follow a query where it is written. -/
inductive Follows : Text → Prop
  | nothing : Follows []
  | rightParen (t : Text) : Follows (')' :: t)
  | connective (c : Connective) (t : Text) : Follows (' ' :: (c.symbol ++ t))

theorem ofText_space_append_connective (c : Connective) (t : Text) :
    ofText (' ' :: (c.symbol ++ t)) = .connective c :: ofText t := by
  have := ofText_append_connective (undelimited_of_isBlank isBlank_space) c
    (seam_append_space [] c.symbol) t
  rwa [List.singleton_append, fragments_of_isBlank isBlank_space, List.nil_append] at this

/-- What follows a query ends the fragment before it. The fragment takes the blank before a
connective. -/
theorem ofText_append_follows {s rest : Text} (hs : Undelimited s) (h : Follows rest) :
    ∃ post : Text, post.isBlank = true ∧
      ofText (s ++ rest) = fragments (s ++ post) ++ ofText rest := by
  cases h with
  | nothing => exact ⟨[], rfl, by simp [ofText_of_undelimited hs]⟩
  | rightParen t =>
    refine ⟨[], rfl, ?_⟩
    rw [ofText_append_rightParen hs, ofText_rightParen, List.append_nil]
  | connective c t =>
    refine ⟨[' '], isBlank_space, ?_⟩
    rw [List.append_cons, ofText_append_connective hs.append_space c (seam_append_space s _),
      ofText_space_append_connective]

end TokenKind

open TokenKind

/-- **The tokens of the written form derive the tree**, whatever blanks stand before it. -/
theorem Grammar.Derives.display {p : Phrase} {ts : List TokenKind} {q : Query} (h : Derives p ts q)
    (hts : ∀ text, .fragment text ∈ ts → Undelimited text) {s rest : Text}
    (hs : s.isBlank = true) (hrest : Follows rest) :
    ∃ us, Derives p us q ∧ ofText (s ++ (q.display ++ rest)) = us ++ ofText rest := by
  induction h generalizing s rest with
  | @fragment text q h =>
    obtain ⟨op, field, literal, rfl, _, _⟩ := Fragment.exists_comparison_of_parse h
    have hund : Undelimited (s ++ (Query.comparison op field literal).display) :=
      (undelimited_of_isBlank hs).append
        (Fragment.undelimited_display h (hts text (by simp))) (seam_of_isBlank hs _)
    obtain ⟨post, hpost, htext⟩ := ofText_append_follows hund hrest
    have hparse := Fragment.parse_display_of_parse h hs hpost
    rw [List.append_assoc] at htext
    refine ⟨_, .fragment hparse, ?_⟩
    rw [htext, List.append_assoc,
      fragments_of_isBlank_eq_false (Fragment.isBlank_of_parse hparse)]
  | @group ts q h ih =>
    obtain ⟨us, hus, htext⟩ := ih (fun text ht => hts text (by simp [ht])) (s := []) rfl
      (.rightParen rest)
    refine ⟨_, .group hus, ?_⟩
    have hform : (Query.group q).display ++ rest = '(' :: (q.display ++ ')' :: rest) := by
      simp [Query.display]
    rw [List.nil_append, ofText_rightParen] at htext
    rw [hform, ofText_append_leftParen (undelimited_of_isBlank hs), fragments_of_isBlank hs, htext]
    simp
  | operand h ih =>
    obtain ⟨us, hus, htext⟩ := ih hts hs hrest
    exact ⟨us, .operand hus, htext⟩
  | @joined ts us l r c hl hr ihl ihr =>
    obtain ⟨vs, hvs, hltext⟩ := ihl (fun text ht => hts text (by simp [ht])) hs
      (.connective c (' ' :: (r.display ++ rest)))
    obtain ⟨ws, hws, hrtext⟩ := ihr (fun text ht => hts text (by simp [ht])) isBlank_space hrest
    have hform : (Query.joined c l r).display ++ rest =
        l.display ++ ' ' :: (c.symbol ++ ' ' :: (r.display ++ rest)) := by
      simp [Query.display]
    rw [List.singleton_append] at hrtext
    refine ⟨_, .joined c hvs hws, ?_⟩
    rw [hform, hltext, ofText_space_append_connective, hrtext]
    simp

namespace Query

/-- **Parsing undoes writing.** A tree that was parsed is parsed from its written form as well, and
parsed trees that are written alike are the same. -/
theorem parse_display {limits : Limits} {text : Text} {q : Query}
    (h : parse limits text = .ok q) :
    parse limits q.display = .ok q ∧
      ∀ limits' text' q', parse limits' text' = .ok q' → q'.display = q.display → q' = q := by
  have hderives : ∀ {limits text q}, parse limits text = .ok q →
      Derives .query (ofText q.display) q := by
    intro limits text q h
    obtain ⟨hd, _⟩ := parse_eq_ok_iff.1 h
    obtain ⟨us, hus, htext⟩ := hd.display (fun text ht => (undelimited_of_mem_ofText ht).1)
      (s := []) rfl .nothing
    rw [List.nil_append, List.append_nil, ofText_nil, List.append_nil] at htext
    rwa [htext]
  refine ⟨parse_eq_ok_iff.2 ⟨hderives h, (parse_eq_ok_iff.1 h).2⟩, ?_⟩
  intro limits' text' q' h' heq
  have hq' := hderives h'
  rw [heq] at hq'
  exact hq'.unique (hderives h)

/-- A literal that is part of the operator before it is written and read again. -/
theorem parse_display_half_symbol :
    ∃ q, parse {} "b>=5 &&( c∈x,y||a>=> )".toList = .ok q ∧
      q.display = "b >= 5 && (c ∈ x,y || a >= >)".toList ∧ parse {} q.display = .ok q := by
  have h : parse {} "b>=5 &&( c∈x,y||a>=> )".toList = .ok (.joined .and
      (.comparison (.relation .greaterOrEqual) ['b'] ['5'])
      (.group (.joined .or (.comparison .member ['c'] "x,y".toList)
        (.comparison (.relation .greaterOrEqual) ['a'] ['>'])))) := by
    decide +kernel
  exact ⟨_, h, by decide +kernel, (parse_display h).1⟩

end Query

end RecordQuery
