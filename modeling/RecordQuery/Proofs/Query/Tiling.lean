import Mathlib.Data.List.Chain
import Mathlib.Data.List.Forall2
import RecordQuery.Proofs.Query.Blanks
import RecordQuery.Query.Lexer

/-!
# Tokens as a tiling of the text

The tokens of a text stand one behind the other with nothing but blanks between them. `Token.Tiles`
says so from the left to the right, with the offset at which the text begins, and the scan keeps to
it because a part that it drops is blank (`Token.tiles_scan`). What one wants to know about spans
follows by induction on the tiling, without another look at the scan.

## Cutting again

A text without the blanks between its tokens has the same tokens. A part that is dropped is blank
and has a delimiter behind it or nothing, so what comes to stand side by side are delimiters, and
each is found where it begins whatever stood before it.

## Main results

* `Token.tiles_scan`: tokens and blanks make up the text
* `TokenKind.ofText_flatMap_text`: the texts of the tokens are cut into the same tokens
* `Lexer.tokenizeAll_cutInto`: what a lexer gives for texts one after the other
-/

namespace RecordQuery

open Text

namespace Text

theorem byteLength_pos {t : Text} (h : t ≠ []) : 0 < t.byteLength := by
  obtain ⟨c, t, rfl⟩ := List.exists_cons_of_ne_nil h
  have := c.utf8Size_pos
  rw [byteLength_cons]
  omega

/-- A character of two texts put together is one of the first or one of the second. -/
theorem append_eq_append_cons {s t before after : Text} {c : Char}
    (h : s ++ t = before ++ c :: after) :
    (∃ rest, s = before ++ c :: rest) ∨ ∃ front, before = s ++ front ∧ t = front ++ c :: after := by
  rcases List.append_eq_append_iff.1 h with ⟨front, hbefore, ht⟩ | ⟨rest, hs, hrest⟩
  · exact .inr ⟨front, hbefore, ht⟩
  · cases rest with
    | nil => exact .inr ⟨[], by simpa using hs.symm, by simpa using hrest.symm⟩
    | cons d rest =>
      obtain ⟨rfl, -⟩ := List.cons_eq_cons.1 hrest
      exact .inl ⟨rest, hs⟩

end Text

namespace Token

/-! ## Tilings -/

/-- Tokens make up a text that begins at an offset, each behind blanks or nothing. -/
inductive Tiles : Nat → Text → List Token → Prop
  | blank {start : Nat} {w : Text} (hw : w.isBlank = true) : Tiles start w []
  | token {start : Nat} {w text : Text} {t : Token} {tokens : List Token} (hw : w.isBlank = true)
    (hstart : t.start = start + w.byteLength) (hne : t.lexeme ≠ [])
    (rest : Tiles t.stop text tokens) : Tiles start (w ++ (t.lexeme ++ text)) (t :: tokens)

/-- A fragment where the text begins. -/
theorem Tiles.fragment {start : Nat} {s text : Text} {tokens : List Token}
    (hs : s.isBlank = false) (rest : Tiles (start + s.byteLength) text tokens) :
    Tiles start (s ++ text) (⟨.fragment s, start⟩ :: tokens) := by
  have hne : s ≠ [] := by
    rintro rfl
    cases hs
  exact .token (w := []) (t := ⟨.fragment s, start⟩) rfl rfl hne rest

/-- **Tokens and blanks make up the text.** -/
theorem tiles_scan (start : Nat) (text : Text) : Tiles start text (scan start [] text) := by
  have hfragments : ∀ {s : Text} {start : Nat}, s.isBlank = false →
      fragments s start = [⟨.fragment s, start⟩] := fun hs => if_neg (Bool.eq_false_iff.1 hs)
  induction text using TokenKind.parts_induction generalizing start with
  | last s hs =>
    have hscan : scan start [] s = fragments s start := by
      rw [← List.append_nil s, scan_append hs (seam_nil_right s), scan]
      simp
    rw [hscan]
    cases hblank : s.isBlank with
    | true =>
      rw [fragments, if_pos hblank]
      exact .blank hblank
    | false =>
      rw [hfragments hblank, ← List.append_nil s]
      simpa using Tiles.fragment hblank (.blank (w := []) rfl)
  | cut s d u hs hd ih =>
    have hdelimiter : ∀ {w : Text}, w.isBlank = true →
        Tiles start (w ++ (d.text ++ u)) (⟨d, start + w.byteLength⟩ ::
          scan (start + w.byteLength + d.text.byteLength) [] u) := fun {w} hw =>
      .token (t := ⟨d, start + w.byteLength⟩) hw rfl hd.text_ne_nil (ih _)
    rw [scan_append_of_ends hs hd]
    cases hblank : s.isBlank with
    | true =>
      rw [fragments, if_pos hblank]
      exact hdelimiter hblank
    | false =>
      rw [hfragments hblank]
      refine .fragment hblank ?_
      exact .token (w := []) (t := ⟨d, start + s.byteLength⟩) rfl rfl hd.text_ne_nil (ih _)

namespace Tiles

variable {start : Nat} {text : Text} {tokens : List Token}

/-- **A token covers what it stands for**, where its offset says. -/
theorem slice (h : Tiles start text tokens) {t : Token} (ht : t ∈ tokens) :
    ∃ before after, text = before ++ t.lexeme ++ after ∧ start + before.byteLength = t.start := by
  induction h with
  | blank hw => cases ht
  | @token start w text s tokens hw hstart hne rest ih =>
    rcases List.mem_cons.1 ht with rfl | ht
    · exact ⟨w, text, by simp, hstart.symm⟩
    · obtain ⟨before, after, rfl, hbefore⟩ := ih ht
      refine ⟨w ++ s.lexeme ++ before, after, by simp, ?_⟩
      rw [byteLength_append, byteLength_append, ← hbefore, stop, hstart]
      omega

theorem start_lt_stop (h : Tiles start text tokens) {t : Token} (ht : t ∈ tokens) :
    t.start < t.stop := by
  induction h with
  | blank hw => cases ht
  | @token start w text s tokens hw hstart hne rest ih =>
    rcases List.mem_cons.1 ht with rfl | ht
    · have := byteLength_pos hne
      rw [stop]
      omega
    · exact ih ht

theorem le_start (h : Tiles start text tokens) {t : Token} (ht : t ∈ tokens) : start ≤ t.start := by
  obtain ⟨before, after, -, hstart⟩ := h.slice ht
  omega

/-- Tokens do not overlap, and come in their order. -/
theorem pairwise (h : Tiles start text tokens) :
    tokens.Pairwise fun s t => s.stop ≤ t.start := by
  induction h with
  | blank hw => exact .nil
  | token hw hstart hne rest ih => exact .cons (fun t ht => rest.le_start ht) ih

/-- **What no token covers is blank.** -/
theorem isBlank_of_outside (h : Tiles start text tokens) {before after : Text} {c : Char}
    (htext : text = before ++ c :: after)
    (hout : ∀ t ∈ tokens, start + before.byteLength < t.start ∨
      t.stop ≤ start + before.byteLength) : RecordQuery.isBlank c = true := by
  induction h generalizing before with
  | blank hw => exact List.all_eq_true.1 hw c (by simp [htext])
  | @token start w text t tokens hw hstart hne rest ih =>
    rcases append_eq_append_cons htext with ⟨r, rfl⟩ | ⟨front, rfl, hbehind⟩
    · exact List.all_eq_true.1 hw c (by simp)
    rcases append_eq_append_cons hbehind with ⟨r, hlexeme⟩ | ⟨front, rfl, hrest⟩
    · -- the token would cover the character
      have hpos := c.utf8Size_pos
      have hout := hout t List.mem_cons_self
      rw [stop, hlexeme, hstart] at hout
      simp only [byteLength_append, byteLength_cons] at hout
      omega
    · have hoffset : t.stop + byteLength front =
          start + byteLength (w ++ (t.lexeme ++ front)) := by
        simp only [stop, hstart, byteLength_append]
        omega
      refine ih hrest fun s hs => ?_
      rw [hoffset]
      exact hout s (List.mem_cons_of_mem t hs)

end Tiles

end Token

namespace TokenKind

/-! ## Cutting again -/

theorem Ends.isDelimiter {s : Text} {d : TokenKind} (h : Ends s d) : d.isDelimiter = true := by
  cases h <;> rfl

/-- The text of the token of a part is the part, unless it is blank. -/
theorem flatMap_text_fragments (s : Text) :
    (fragments s).flatMap text = if s.isBlank then [] else s := by
  unfold fragments
  split <;> simp [text]

/-- **The texts of the tokens are cut into the same tokens.** -/
theorem ofText_flatMap_text (t : Text) : ofText ((ofText t).flatMap text) = ofText t := by
  induction t using parts_induction with
  | last s hs =>
    rw [ofText_of_undelimited hs, flatMap_text_fragments]
    split
    · next hblank => rw [fragments_of_isBlank hblank, ofText_nil]
    · exact ofText_of_undelimited hs
  | cut s d u hs hd ih =>
    rw [ofText_append_of_ends hs hd, List.flatMap_append, List.flatMap_cons, flatMap_text_fragments]
    split
    · next hblank =>
      have hnil : Ends [] d := hd.of_isBlank rfl
      rw [ofText_append_of_ends undelimited_nil hnil, ih, fragments_of_isBlank hblank]
      rfl
    · rw [ofText_append_of_ends hs hd, ih]

/-- Two fragments are never neighbours: what is between them has a delimiter. -/
theorem isChain_ofText (t : Text) :
    (ofText t).IsChain fun j k => j.isDelimiter = true ∨ k.isDelimiter = true := by
  have hcons : ∀ {k : TokenKind} {ks : List TokenKind}, k.isDelimiter = true →
      ks.IsChain (fun j k => j.isDelimiter = true ∨ k.isDelimiter = true) →
        (k :: ks).IsChain fun j k => j.isDelimiter = true ∨ k.isDelimiter = true := by
    intro k ks hk hks
    cases ks with
    | nil => exact .singleton k
    | cons j ks => exact .cons_cons (.inl hk) hks
  induction t using parts_induction with
  | last s hs =>
    rw [ofText_of_undelimited hs]
    unfold fragments
    split
    · exact .nil
    · exact .singleton _
  | cut s d u hs hd ih =>
    rw [ofText_append_of_ends hs hd]
    unfold fragments
    split
    · exact hcons hd.isDelimiter ih
    · exact .cons_cons (.inr hd.isDelimiter) (hcons hd.isDelimiter ih)

/-- The delimiters, and how they are written. -/
def delimiters : List (TokenKind × Text) :=
  [(connective .and, "&&".toList), (connective .or, "||".toList), (leftParen, "(".toList),
    (rightParen, ")".toList)]

end TokenKind

/-! ## Lexers -/

/-- Tokens cut a text: each covers its own text where it stands, they do not overlap and come in
their order, and between them there is nothing but blanks. -/
structure Text.CutInto (text : Text) (tokens : List Token) : Prop where
  /-- The offsets of a token are ends of characters, and its lexeme is what is between them. -/
  slice : ∀ t ∈ tokens, ∃ before after, text = before ++ t.lexeme ++ after ∧
    before.byteLength = t.start ∧ (before ++ t.lexeme).byteLength = t.stop
  start_lt_stop : ∀ t ∈ tokens, t.start < t.stop
  ordered : tokens.Pairwise fun s t => s.stop ≤ t.start
  outside : ∀ (before : Text) (c : Char) (after : Text), text = before ++ c :: after →
    (∀ t ∈ tokens, before.byteLength < t.start ∨ t.stop ≤ before.byteLength) →
      RecordQuery.isBlank c = true
  delimiter : ∀ t ∈ tokens, ∀ symbol, (t.kind, symbol) ∈ TokenKind.delimiters → t.lexeme = symbol
  fragment : ∀ t ∈ tokens, ∀ s, t.kind = .fragment s →
    t.lexeme = s ∧ s.isBlank = false ∧ Undelimited s
  apart : tokens.IsChain fun s t => s.kind.isDelimiter = true ∨ t.kind.isDelimiter = true

theorem Token.cutInto_ofText (text : Text) : text.CutInto (ofText text) where
  slice t ht := by
    obtain ⟨before, after, htext, hstart⟩ := (tiles_scan 0 text).slice ht
    rw [Nat.zero_add] at hstart
    exact ⟨before, after, htext, hstart, by rw [byteLength_append, hstart, stop]⟩
  start_lt_stop t ht := (tiles_scan 0 text).start_lt_stop ht
  ordered := (tiles_scan 0 text).pairwise
  outside before c after htext hout := by
    refine (tiles_scan 0 text).isBlank_of_outside htext fun t ht => ?_
    rw [Nat.zero_add]
    exact hout t ht
  delimiter t _ symbol hsymbol := by
    simp only [TokenKind.delimiters, List.mem_cons, Prod.mk.injEq, List.not_mem_nil, or_false]
      at hsymbol
    rcases hsymbol with ⟨hkind, rfl⟩ | ⟨hkind, rfl⟩ | ⟨hkind, rfl⟩ | ⟨hkind, rfl⟩ <;>
      rw [lexeme, hkind] <;> rfl
  fragment t ht s hs := by
    have hmem : .fragment s ∈ TokenKind.ofText text := hs ▸ List.mem_map_of_mem ht
    obtain ⟨hundelimited, hblank⟩ := TokenKind.undelimited_of_mem_ofText hmem
    exact ⟨by rw [lexeme, hs]; rfl, hblank, hundelimited⟩
  apart := (List.isChain_map Token.kind).1 (TokenKind.isChain_ofText text)

/-- **What a lexer gives for texts one after the other.** Each text is cut by its own tokens, and
the lexemes put together are cut into tokens of the same kinds and lexemes again, by whatever lexer.
-/
theorem Lexer.tokenizeAll_cutInto (lexer : Lexer) (texts : List Text) :
    List.Forall₂ (fun text tokens => text.CutInto tokens ∧ ∀ other : Lexer,
        (other.tokenize (tokens.flatMap Token.lexeme)).1.map (fun t => (t.kind, t.lexeme)) =
          tokens.map fun t => (t.kind, t.lexeme))
      texts (lexer.tokenizeAll texts).1 := by
  rw [tokenizeAll_fst, List.forall₂_map_right_iff, List.forall₂_same]
  intro text _
  refine ⟨Token.cutInto_ofText text, fun other => ?_⟩
  -- a lexeme is the text of a kind, so kinds are all that matters
  have hkinds : ∀ tokens : List Token, tokens.map (fun t => (t.kind, t.lexeme)) =
      (tokens.map Token.kind).map fun k => (k, k.text) := by simp [Token.lexeme]
  have hagain := TokenKind.ofText_flatMap_text text
  rw [TokenKind.ofText, TokenKind.ofText, List.flatMap_map] at hagain
  rw [tokenize_fst, hkinds, hkinds]
  exact congrArg (List.map fun k => (k, k.text)) hagain

end RecordQuery
