import RecordQuery.Proofs.Query.Composition

/-!
# Blanks where tokens meet

Blanks can be put at either end of a query and on either side of a delimiter, and nothing comes out
differently: the same tree, or the same error about the same part. Inside a fragment that is not so,
since a blank may be part of a literal, and inside a delimiter it would take the delimiter apart.

## Why nothing changes

The cut goes from the left to the right, so a delimiter stands behind tokens that nothing behind it
can change (`Token.exists_of_mem_scan`). Blanks in front of it make the fragment before it longer,
or are a blank part of their own and no token. Blanks behind it do the same to what is cut next, and
since they are part of no delimiter, the first delimiter there is the one that was there before. A
run such as `&&&` is the case to think of: a blank behind its first two characters leaves the third
one in the fragment that it was in.

So the tokens are the same up to blanks at the ends of fragments, and no part of the parser sees
these: reading a fragment trims it, and the texts that its errors carry are trimmed.

## Main results

* `Token.exists_of_mem_scan`: where a delimiter stands, and what is cut before it
* `TokenKind.map_trimmed_ofText_insert`: the tokens of a text with blanks put in
* `Parser.build_map_trimmed`: the loop sees no blanks at the ends of fragments
* `Query.parse_blank_inserted`: the outcome for a text with blanks put in
-/

namespace RecordQuery

open Text

namespace Text

/-! ## Beginnings of texts -/

@[simp] theorem byteLength_reverse (t : Text) : byteLength t.reverse = byteLength t := by
  induction t with
  | nil => rfl
  | cons c t ih => simp [ih, Nat.add_comm]

/-- Two beginnings of one text that end at the same byte are the same. -/
theorem append_inj_of_byteLength {s s' t t' : Text} (h : s ++ t = s' ++ t')
    (hlen : s.byteLength = s'.byteLength) : s = s' ∧ t = t' := by
  induction s generalizing s' with
  | nil =>
    cases s' with
    | nil => exact ⟨rfl, h⟩
    | cons c s' =>
      have hpos := c.utf8Size_pos
      simp only [byteLength_nil, byteLength_cons] at hlen
      omega
  | cons c s ih =>
    cases s' with
    | nil =>
      have hpos := c.utf8Size_pos
      simp only [byteLength_nil, byteLength_cons] at hlen
      omega
    | cons c' s' =>
      obtain ⟨rfl, hrest⟩ := List.cons_eq_cons.1 h
      obtain ⟨rfl, ht⟩ := ih hrest (Nat.add_left_cancel hlen)
      exact ⟨rfl, ht⟩

theorem Seam.append_left {s t u : Text} (hs : Seam s u) (ht : Seam t u) : Seam (s ++ t) u := by
  intro c hc hd
  rw [List.getLast?_append] at hc
  rcases Option.or_eq_some_iff.1 hc with hc | ⟨-, hc⟩
  · exact ht c hc hd
  · exact hs c hc hd

end Text

/-! ## Where delimiters stand -/

/-- Whether a kind of token separates fragments. -/
def TokenKind.isDelimiter : TokenKind → Bool
  | fragment _ => false
  | connective _ | leftParen | rightParen => true

namespace TokenKind

theorem Ends.append {s t : Text} {d : TokenKind} (hs : Ends s d) (ht : Ends t d) :
    Ends (s ++ t) d := by
  cases hs with
  | connective c hs =>
    cases ht with
    | connective _ ht => exact .connective c (hs.append_left ht)
  | leftParen => exact .leftParen
  | rightParen => exact .rightParen

/-- Blanks are ended by whatever ends a part. -/
theorem Ends.of_isBlank {s w : Text} {d : TokenKind} (h : Ends s d) (hw : w.isBlank = true) :
    Ends w d := by
  cases h with
  | connective c => exact .connective c (seam_of_isBlank hw c.symbol)
  | leftParen => exact .leftParen
  | rightParen => exact .rightParen

end TokenKind

namespace Token

open TokenKind (Ends)

/-- A part that a delimiter ends, the delimiter with its place, and what is scanned behind it. -/
theorem scan_append_of_ends {s : Text} (hs : Undelimited s) {d : TokenKind} (h : Ends s d)
    (start : Nat) (u : Text) :
    scan start [] (s ++ (d.text ++ u)) =
      fragments s start ++ ⟨d, start + s.byteLength⟩ ::
        scan (start + s.byteLength + d.text.byteLength) [] u := by
  have hseam : Seam s (d.text ++ u) := by
    cases h with
    | connective c h => cases c <;> exact h
    | leftParen | rightParen => exact seam_cons_right (by decide) (by decide)
  rw [scan_append hs hseam, List.append_nil]
  have hcut : scan.cut start s.reverse d = fragments s start ++ [⟨d, start + s.byteLength⟩] := by
    rw [scan.cut, List.reverse_reverse, byteLength_reverse]
  rw [List.append_cons, ← hcut, ← byteLength_reverse s]
  cases h with
  | connective c => cases c <;> exact scan.eq_def start _ _
  | leftParen | rightParen => exact scan.eq_def start _ _

/-- **Where a delimiter stands.** It follows the part of the text before its offset, and what is cut
before it is there whatever follows that part. -/
theorem exists_of_mem_scan {d : Token} (hkind : d.kind.isDelimiter = true) {start : Nat}
    {text : Text} (h : d ∈ scan start [] text) :
    ∃ s u, text = s ++ (d.lexeme ++ u) ∧ start + s.byteLength = d.start ∧
      ∃ ts last, Undelimited last ∧ Ends last d.kind ∧
        ∀ t, TokenKind.ofText (s ++ t) = ts ++ TokenKind.ofText (last ++ t) := by
  have hfragments : ∀ {s : Text} {i : Nat}, d ∉ fragments s i := by
    intro s i hd
    unfold fragments at hd
    split at hd
    · cases hd
    · obtain rfl := List.mem_singleton.1 hd
      cases hkind
  induction text using TokenKind.parts_induction generalizing start with
  | last s hs =>
    have hscan : scan start [] s = fragments s start := by
      rw [← List.append_nil s, scan_append hs (seam_nil_right s), scan]
      simp
    exact absurd (hscan ▸ h) hfragments
  | cut r e v hr he ih =>
    rw [scan_append_of_ends hr he, List.mem_append, List.mem_cons] at h
    rcases h with h | rfl | h
    · exact absurd h hfragments
    · exact ⟨r, v, rfl, rfl, [], r, hr, he, fun _ => rfl⟩
    · obtain ⟨s, u, rfl, hstart, ts, last, hlast, hends, htokens⟩ := ih h
      refine ⟨r ++ (e.text ++ s), u, by simp, ?_, TokenKind.fragments r ++ e :: ts, last, hlast,
        hends, fun t => ?_⟩
      · rw [byteLength_append, byteLength_append, ← hstart]
        omega
      · rw [List.append_assoc, List.append_assoc, TokenKind.ofText_append_of_ends hr he, htokens,
          List.append_assoc, List.cons_append]

end Token

/-- The place between two texts is an end of the text that they make, or an end of one of its
delimiters. -/
inductive Text.Boundary (s t : Text) : Prop
  | start (h : s = [])
  | stop (h : t = [])
  | before (d : Token) (hd : d ∈ Token.ofText (s ++ t)) (hkind : d.kind.isDelimiter = true)
    (h : s.byteLength = d.start)
  | behind (d : Token) (hd : d ∈ Token.ofText (s ++ t)) (hkind : d.kind.isDelimiter = true)
    (h : s.byteLength = d.stop)

/-! ## Blanks put in -/

namespace TokenKind

theorem map_trimmed_fragments_append_left {w : Text} (hw : w.isBlank = true) (s : Text) :
    (fragments (w ++ s)).map trimmed = (fragments s).map trimmed := by
  have hblank : Text.isBlank (w ++ s) = s.isBlank := by
    rw [Text.isBlank_append, hw, Bool.true_and]
  unfold fragments
  rw [hblank]
  split
  · rfl
  · simp [trimmed, trim_append_left hw]

/-- Blanks in front of a text are blanks in front of its first part. -/
theorem map_trimmed_ofText_append_left {w : Text} (hw : w.isBlank = true) (t : Text) :
    (ofText (w ++ t)).map trimmed = (ofText t).map trimmed := by
  have hundelimited : ∀ {s}, Undelimited s → Undelimited (w ++ s) := fun hs =>
    (undelimited_of_isBlank hw).append hs (seam_of_isBlank hw _)
  rcases undelimited_or_exists_ends t with ht | ⟨s, d, u, hs, hd, rfl⟩
  · rw [ofText_of_undelimited (hundelimited ht), ofText_of_undelimited ht,
      map_trimmed_fragments_append_left hw]
  · have hends : Ends (w ++ s) d := (hd.of_isBlank hw).append hd
    rw [← List.append_assoc, ofText_append_of_ends (hundelimited hs) hends,
      ofText_append_of_ends hs hd, List.map_append, List.map_append,
      map_trimmed_fragments_append_left hw]

/-- **Blanks put in where tokens meet** are blanks at the ends of fragments, or nothing. -/
theorem map_trimmed_ofText_insert {s t w : Text} (h : Boundary s t) (hw : w.isBlank = true) :
    (ofText (s ++ (w ++ t))).map trimmed = (ofText (s ++ t)).map trimmed := by
  cases h with
  | start h =>
    obtain rfl := h
    exact map_trimmed_ofText_append_left hw t
  | stop h =>
    obtain rfl := h
    rw [List.append_nil, List.append_nil, map_trimmed_ofText_append hw]
  | before d hd hkind h =>
    obtain ⟨s', u, htext, hstart, ts, last, hlast, hends, htokens⟩ :=
      Token.exists_of_mem_scan hkind hd
    obtain ⟨rfl, rfl⟩ := append_inj_of_byteLength htext (by omega)
    have hends' : Ends (last ++ w) d.kind := hends.append (hends.of_isBlank hw)
    rw [htokens, htokens, Token.lexeme, ofText_append_of_ends hlast hends, ← List.append_assoc last,
      ofText_append_of_ends (hlast.append_blank hw) hends']
    simp only [List.map_append, map_trimmed_fragments_append hw]
  | behind d hd hkind h =>
    obtain ⟨s', u, htext, hstart, ts, last, hlast, hends, htokens⟩ :=
      Token.exists_of_mem_scan hkind hd
    rw [← List.append_assoc] at htext
    have hlen : s.byteLength = (s' ++ d.lexeme).byteLength := by
      rw [byteLength_append, h, Token.stop]
      omega
    obtain ⟨rfl, rfl⟩ := append_inj_of_byteLength htext hlen
    rw [List.append_assoc, List.append_assoc, htokens, htokens, Token.lexeme,
      ofText_append_of_ends hlast hends, ofText_append_of_ends hlast hends]
    simp only [List.map_append, List.map_cons, map_trimmed_ofText_append_left hw]

end TokenKind

/-! ## The loop and blanks -/

namespace Parser

open TokenKind (trimmed)

theorem closeGroup_map_trimmed (inside : Nat) (ts : List TokenKind) :
    closeGroup inside (ts.map trimmed) =
      (closeGroup inside ts).map (Prod.map (List.map trimmed) (List.map trimmed)) := by
  fun_induction closeGroup inside ts with
  | case1 => rfl
  | case2 inside ts ih =>
    change closeGroup inside (.leftParen :: ts.map trimmed) = _
    rw [closeGroup, ih]
    simp [Option.map_map, Function.comp_def, trimmed]
  | case3 ts => rfl
  | case4 ts inside ih =>
    change closeGroup (inside + 1) (.rightParen :: ts.map trimmed) = _
    rw [closeGroup, ih]
    simp [Option.map_map, Function.comp_def, trimmed]
  | case5 inside t ts hl hr ih =>
    rw [List.map_cons, closeGroup, ih]
    · simp [Option.map_map, Function.comp_def]
    · exact fun h => hl (TokenKind.trimmed_eq_leftParen_iff.1 h)
    · exact fun h => hr (TokenKind.trimmed_eq_rightParen_iff.1 h)

/-- **The loop sees no blanks at the ends of fragments.** -/
theorem build_map_trimmed (limits : Limits) (depth : Nat) (current : Option Subtree)
    (ts : List TokenKind) :
    build limits depth current (ts.map trimmed) = build limits depth current ts := by
  fun_induction build limits depth current ts with
  | case1 depth current => rw [List.map_nil, build]
  | case2 depth current ts hlt =>
    change build limits depth current (.leftParen :: ts.map trimmed) = _
    rw [build, if_pos hlt]
  | case3 depth current ts hle hclose =>
    change build limits depth current (.leftParen :: ts.map trimmed) = _
    rw [build_leftParen (by omega), closeGroup_map_trimmed, hclose]
    rfl
  | case4 depth current ts hle group rest hclose ihinner ihrest =>
    change build limits depth current (.leftParen :: ts.map trimmed) = _
    rw [build_leftParen (by omega), closeGroup_map_trimmed, hclose]
    simp only [Option.map_some, Prod.map, ihinner, ihrest]
  | case5 depth current ts =>
    change build limits depth current (.rightParen :: ts.map trimmed) = _
    rw [build]
  | case6 depth current c ts ih =>
    change build limits depth current (.connective c :: ts.map trimmed) = _
    rw [build]
    simp only [ih]
  -- a fragment is trimmed before it is read
  | case7 depth current text ts e hleaf =>
    rw [List.map_cons, trimmed, build, Fragment.parse_of_trim_eq (trim_trim text), hleaf]
  | case8 depth current text ts leaf hleaf ih =>
    rw [List.map_cons, trimmed, build, Fragment.parse_of_trim_eq (trim_trim text), hleaf]
    simp only [ih]

theorem build_of_map_trimmed {ts us : List TokenKind} (h : us.map trimmed = ts.map trimmed)
    (limits : Limits) (depth : Nat) (current : Option Subtree) :
    build limits depth current us = build limits depth current ts := by
  rw [← build_map_trimmed, h, build_map_trimmed]

end Parser

/-- An error that shows another text where it shows the text of the whole query. -/
def ParseError.withQuery (query : Text) : ParseError → ParseError
  | illegalQuery _ reason => illegalQuery query reason
  | illegalPart fragment => illegalPart fragment
  | invalidPart fragment => invalidPart fragment
  | tooDeep _ limit => tooDeep query limit

theorem ParseError.withQuery_ofFailure (query text : Text) (failure : Parser.Failure) :
    (ofFailure text failure).withQuery query = ofFailure query failure := by
  cases failure with
  | fault | tooDeep => rfl
  | fragment e => cases e <;> rfl

namespace Query

/-- **Blanks where tokens meet do not matter.** Put in at an end of a text or of one of its
delimiters, they change neither the tree nor the error, whatever the limits are; only where an error
shows the whole query it shows it as it is now. -/
theorem parse_blank_inserted {s t w : Text} (h : Boundary s t) (hw : w.isBlank = true)
    (limits : Limits) :
    parse limits (s ++ (w ++ t)) =
      (parse limits (s ++ t)).mapError (ParseError.withQuery (s ++ (w ++ t))) := by
  have htokens := TokenKind.map_trimmed_ofText_insert h hw
  rw [parse, parse, Parser.build_of_map_trimmed htokens]
  split
  · rfl
  · exact congrArg Except.error (ParseError.withQuery_ofFailure _ _ _).symm

/-- Two blanks in a run of three `&`, behind the two that are the connective, and a line break
between two connectives that touch. -/
theorem parse_blank_inserted_run :
    let run : Text := "é = 1 &&".toList
    let pair : Text := "(a = 1) ||".toList
    Boundary run "& b = 2".toList ∧
      parse {} (run ++ ("\u3000\n".toList ++ "& b = 2".toList)) =
        .ok (.joined .and (.comparison (.relation .equal) ['é'] ['1'])
          (.comparison (.relation .equal) "& b".toList ['2'])) ∧
      Boundary pair "|| b = 2".toList ∧
      parse {} (pair ++ (['\n'] ++ "|| b = 2".toList)) =
        .error (.illegalQuery "(a = 1) ||\n|| b = 2".toList
          "consecutive logical operators at '||'".toList) := by
  intro run pair
  have hrun : Boundary run "& b = 2".toList :=
    .behind ⟨.connective .and, 7⟩ (by decide +kernel) rfl (by decide +kernel)
  have hpair : Boundary pair "|| b = 2".toList :=
    .before ⟨.connective .or, 10⟩ (by decide +kernel) rfl (by decide +kernel)
  have hok : parse {} (run ++ "& b = 2".toList) =
      .ok (.joined .and (.comparison (.relation .equal) ['é'] ['1'])
        (.comparison (.relation .equal) "& b".toList ['2'])) := by decide +kernel
  have herror : parse {} (pair ++ "|| b = 2".toList) =
      .error (.illegalQuery "(a = 1) |||| b = 2".toList
        "consecutive logical operators at '||'".toList) := by
    decide +kernel
  refine ⟨hrun, ?_, hpair, ?_⟩
  · rw [parse_blank_inserted hrun (by decide), hok]
    rfl
  · rw [parse_blank_inserted hpair (by decide), herror]
    rfl

end Query

end RecordQuery
