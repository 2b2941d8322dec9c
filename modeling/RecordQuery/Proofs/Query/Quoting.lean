import RecordQuery.Proofs.Compile.Lists
import RecordQuery.Proofs.Compile.Recursion
import RecordQuery.Proofs.Query.Display

/-!
# Strings in query text

A string is written into a query between double quotes that stand between single quotes. Then it
comes out of the query as it was put in, whatever blanks and quotes are at its ends: trimming stops
at the single quotes, and unquoting takes away one quote of each sort from each end. A list of
strings is written in brackets with commas between them.

## What a string may not hold

Quotes do not keep the text between them from being read. A delimiter of queries cuts a literal, the
symbol of an operator makes it a comparison of another sort, and a comma ends an element of a list.
`Text.Inert` says that a text holds no delimiter and no character that every symbol has one of.

## Main results

* `unquote_quoted`: quotes come off
* `isList_bracketed`, `listElements?_bracketed`: the elements of a written list
* `Query.parse_comparison`: a comparison of inert texts is parsed within any limits
* `Backend.compileText_quoted`: compiling such a comparison is one request, with the strings
-/

namespace RecordQuery

open Text

/-! ## Enclosed texts -/

namespace Text

/-- Characters that are not blank keep the blanks between them. -/
theorem trim_enclosed {a b : Char} (ha : RecordQuery.isBlank a = false)
    (hb : RecordQuery.isBlank b = false) (t : Text) :
    trim (a :: (t ++ [b])) = a :: (t ++ [b]) := by
  refine trim_eq_self (fun c hc => ?_) fun c hc => ?_
  · obtain rfl : a = c := by simpa using hc
    exact ha
  · rw [← List.cons_append, List.getLast?_concat] at hc
    obtain rfl : b = c := by simpa using hc
    exact hb

end Text

/-! ## Inert texts -/

/-- The characters of symbols. Each symbol has one of them. -/
def signs : List Char := ['=', '>', '<', '≈', '∈']

theorem Comparator.exists_sign (op : Comparator) : ∃ c ∈ signs, c ∈ op.symbol := by
  have key : ∀ op ∈ all, signs.any (· ∈ op.symbol) = true := by decide
  simpa using key op (mem_all op)

/-- A symbol chooses its own operator. -/
theorem Comparator.chosen_symbol (op : Comparator) :
    Chosen (fun d => d.symbol <:+: op.symbol) op where
  symbol := List.infix_rfl
  longer := by
    have key : ∀ op ∈ all, ∀ d ∈ op.longer, ¬ d.symbol <:+: op.symbol := by decide
    exact key op (mem_all op)
  earlier := by
    have key : ∀ op ∈ all, ∀ e ∈ op.earlier, e.symbol <:+: op.symbol →
        ∃ d ∈ e.longer, d.symbol <:+: op.symbol := by
      decide
    exact key op (mem_all op)

/-- Text without the delimiters of queries and without signs of comparisons. -/
structure Text.Inert (t : Text) : Prop where
  undelimited : Undelimited t
  signs : ∀ c ∈ signs, c ∉ t

namespace Text.Inert

variable {s t : Text}

theorem append (hs : Inert s) (ht : Inert t) (h : Seam s t) : Inert (s ++ t) where
  undelimited := hs.undelimited.append ht.undelimited h
  signs c hc hmem := (List.mem_append.1 hmem).elim (hs.signs c hc) (ht.signs c hc)

/-- Texts of characters that are part of no delimiter and of no symbol. -/
theorem of_forall (h : ∀ c ∈ t, c ≠ '&' ∧ c ≠ '|' ∧ c ≠ '(' ∧ c ≠ ')' ∧ c ∉ RecordQuery.signs) :
    Inert t where
  undelimited := undelimited_of_forall fun c hc =>
    ⟨(h c hc).1, (h c hc).2.1, (h c hc).2.2.1, (h c hc).2.2.2.1⟩
  signs c hc hmem := (h c hmem).2.2.2.2 hc

theorem not_infix (h : Inert t) (op : Comparator) : ¬ op.symbol <:+: t := by
  obtain ⟨c, hsign, hc⟩ := op.exists_sign
  exact fun hi => h.signs c hsign (hi.mem hc)

end Text.Inert

/-! ## Quotes -/

/-- A string as it is written in a query. -/
def quoted (s : Text) : Text := ['\'', '"'] ++ s ++ ['"', '\'']

/-- **Quotes come off**, and no more than those that were put on. -/
theorem unquote_quoted (s : Text) : unquote (quoted s) = s := by
  have hfirst : ∀ (c : Char) (t : Text), unquote.dropFirst c (c :: t) = t := by
    simp [unquote.dropFirst, after?]
  have hlast : ∀ (c : Char) (t : Text), unquote.dropLast c (t ++ [c]) = t := by
    simp [unquote.dropLast, after?]
  have hform : quoted s = '\'' :: (('"' :: (s ++ ['"'])) ++ ['\'']) := by simp [quoted]
  rw [unquote, hform, hfirst, hlast, hfirst, hlast]

theorem trim_quoted (s : Text) : (quoted s).trim = quoted s := by
  have hform : quoted s = '\'' :: ('"' :: (s ++ ['"']) ++ ['\'']) := by simp [quoted]
  rw [hform, trim_enclosed (by decide) (by decide)]

theorem inert_quoted {s : Text} (hs : s.Inert) : (quoted s).Inert := by
  have hfront : Inert (['\'', '"'] ++ s) :=
    (Inert.of_forall (by simp [signs])).append hs
      (seam_append_singleton (s := ['\'']) (by decide) (by decide))
  exact hfront.append (.of_forall (by simp [signs])) (seam_cons_right (by decide) (by decide))

/-! ## Lists -/

/-- A list as it is written in a query. -/
def bracketed (ts : List Text) : Text := ['['] ++ join [',', ' '] ts ++ [']']

theorem trim_bracketed (ts : List Text) : (bracketed ts).trim = bracketed ts :=
  trim_enclosed (by decide) (by decide) (join [',', ' '] ts)

/-- The blank behind a comma is one in front of the next element. -/
theorem join_comma_space (t : Text) (later : List Text) :
    join [','] (t :: later.map (' ' :: ·)) = join [',', ' '] (t :: later) := by
  induction later generalizing t with
  | nil => rfl
  | cons u later ih =>
    have hnext : join [','] ((' ' :: u) :: later.map (' ' :: ·)) =
        ' ' :: join [','] (u :: later.map (' ' :: ·)) := by
      cases later <;> simp [join]
    rw [List.map_cons, join_cons_cons, join_cons_cons, hnext, ih u]
    rfl

theorem isList_bracketed {ts : List Text} (hne : ts ≠ [])
    (h : ∀ t ∈ ts, t ≠ [] ∧ ',' ∉ t ∧ t.trim = t) : IsList ts (bracketed ts) := by
  obtain ⟨t, later, rfl⟩ := List.exists_cons_of_ne_nil hne
  obtain ⟨ht, -, -⟩ := h t List.mem_cons_self
  have hspace (e : Text) : Padded e (' ' :: e) := ⟨[' '], [], rfl, rfl, by simp⟩
  have hpadded : List.Forall₂ Padded (t :: later) (t :: later.map (' ' :: ·)) := by
    refine .cons ⟨[], [], rfl, rfl, by simp⟩ ?_
    rw [List.forall₂_map_right_iff, List.forall₂_same]
    exact fun e _ => hspace e
  refine ⟨hne, fun hblank => ht (List.cons.inj hblank).1,
    fun e he => ⟨(h e he).2.2, (h e he).2.1⟩, _, hpadded, ?_⟩
  rw [join_comma_space, bracketed]
  rfl

/-- **The elements of a written list.** -/
theorem listElements?_bracketed {ts : List Text} (hne : ts ≠ [])
    (h : ∀ t ∈ ts, t ≠ [] ∧ ',' ∉ t ∧ t.trim = t) : listElements? (bracketed ts) = some ts :=
  listElements?_eq_some_iff_isList.2 (isList_bracketed hne h)

theorem inert_join {ts : List Text} (h : ∀ t ∈ ts, t.Inert) : (join [',', ' '] ts).Inert := by
  induction ts with
  | nil => exact .of_forall nofun
  | cons t later ih =>
    obtain ⟨ht, hlater⟩ := List.forall_mem_cons.1 h
    cases later with
    | nil => exact ht
    | cons u later =>
      have hcomma : Inert (t ++ [',', ' ']) :=
        ht.append (.of_forall (by simp [signs])) (seam_cons_right (by decide) (by decide))
      refine hcomma.append (ih hlater) ?_
      rw [List.append_cons]
      exact seam_append_singleton (by decide) (by decide)

theorem inert_bracketed {ts : List Text} (h : ∀ t ∈ ts, t.Inert) : (bracketed ts).Inert := by
  have hfront : Inert (['['] ++ join [',', ' '] ts) :=
    (Inert.of_forall (by simp [signs])).append (inert_join h)
      (seam_append_singleton (s := []) (by decide) (by decide))
  exact hfront.append (.of_forall (by simp [signs])) (seam_cons_right (by decide) (by decide))

/-- A list of strings as it is written in a query. -/
def listed (ss : List Text) : Text := ['['] ++ join [',', ' '] (ss.map quoted) ++ [']']

theorem trim_listed (ss : List Text) : (listed ss).trim = listed ss :=
  trim_bracketed (ss.map quoted)

theorem listElements?_listed {ss : List Text} (hne : ss ≠ []) (h : ∀ s ∈ ss, ',' ∉ s) :
    listElements? (listed ss) = some (ss.map quoted) := by
  refine listElements?_bracketed (by simpa using hne) fun t ht => ?_
  obtain ⟨s, hs, rfl⟩ := List.mem_map.1 ht
  exact ⟨by simp [quoted], by simp [quoted, h s hs], trim_quoted s⟩

theorem inert_listed {ss : List Text} (h : ∀ s ∈ ss, s.Inert) : (listed ss).Inert := by
  refine inert_bracketed fun t ht => ?_
  obtain ⟨s, hs, rfl⟩ := List.mem_map.1 ht
  exact inert_quoted (h s hs)

/-! ## Comparisons of inert texts -/

section Comparison

variable {op : Comparator} {field literal : Text}

/-- The parts of a comparison that is written with inert texts. -/
theorem Fragment.parts_of_inert (hfield : field.Inert) (hliteral : literal.Inert)
    (hf : field ≠ []) (hl : literal ≠ []) (htf : field.trim = field)
    (htl : literal.trim = literal) : Parts op field literal :=
  ⟨hf, hl, htf, htl, hfield.not_infix op, hliteral.not_infix op⟩

/-- The only symbols inside are those in the operator's own, so the operator is the choice. -/
theorem Fragment.operator?_of_inert (hfield : field.Inert) (hliteral : literal.Inert)
    (h : Parts op field literal) :
    operator? (Query.comparison op field literal).display = some op := by
  have hthere : ∀ d : Comparator, d.symbol <:+: inside (Query.comparison op field literal).display ↔
      d.symbol <:+: op.symbol := by
    intro d
    have hleft : ¬ d.symbol <:+: field.tail := fun hi =>
      hfield.not_infix d (hi.trans (List.tail_suffix field).isInfix)
    have hright : ¬ d.symbol <:+: literal.dropLast := fun hi =>
      hliteral.not_infix d (hi.trans (List.dropLast_prefix literal).isInfix)
    rw [infix_inside_display_iff h.field_ne_nil h.literal_ne_nil]
    simp [hleft, hright]
  rw [operator?_eq_some_iff, h.trim_display]
  simpa only [hthere] using op.chosen_symbol

theorem Fragment.undelimited_of_inert (hfield : field.Inert) (hliteral : literal.Inert) :
    Undelimited (Query.comparison op field literal).display := by
  have hleft : Undelimited (field ++ [' '] ++ (op.symbol ++ [' '])) :=
    hfield.undelimited.append_space.append op.undelimited_symbol.append_space
      (seam_append_space _ _)
  rw [← List.append_assoc] at hleft
  exact hleft.append hliteral.undelimited (seam_append_space _ _)

/-- **A comparison of inert texts is parsed**, within any limits. -/
theorem Query.parse_comparison (limits : Limits) (hfield : field.Inert) (hliteral : literal.Inert)
    (h : Fragment.Parts op field literal) :
    parse limits (comparison op field literal).display = .ok (.comparison op field literal) := by
  have hparse := h.parse_written (Fragment.operator?_of_inert hfield hliteral h)
  have htokens : TokenKind.ofText (comparison op field literal).display =
      [.fragment (comparison op field literal).display] := by
    rw [TokenKind.ofText_of_undelimited (Fragment.undelimited_of_inert hfield hliteral),
      TokenKind.fragments_of_isBlank_eq_false (Fragment.isBlank_of_parse hparse)]
  refine parse_eq_ok_iff.2 ⟨?_, Nat.zero_le _, Nat.zero_le _⟩
  rw [htokens]
  exact .operand (.fragment hparse)

end Comparison

/-! ## Mapping written strings -/

section Mapping

variable {mappers : Mappers} {field : Text}

theorem Mappers.map_quoted (h : mappers.find? field = some (Mapper.reader ⟨field, .string⟩))
    (s : Text) : Mappers.map mappers field (quoted s) = .ok (.string s) := by
  simp only [Mappers.map, h, Mapper.map_reader, Mapper.map, ValueType.read, unquote_quoted]

theorem mapLiterals_quoted (h : mappers.find? field = some (Mapper.reader ⟨field, .string⟩))
    (ss : List Text) :
    mapLiterals mappers field (ss.map quoted) = .ok (ss.map .string) := by
  rw [mapLiterals_eq_ok_iff, List.map_map, List.map_map]
  exact List.map_congr_left fun s _ => Mappers.map_quoted h s

end Mapping

/-! ## One request -/

namespace Backend

variable {m : Type → Type} [Monad m] {P : Type}

/-- Compiling a text is one request: its answer is the outcome, and nothing else is asked for. -/
structure AsksOnce (backend : Backend m P) (mappers : Mappers) (limits : Limits) (text : Text)
    (request : Request P) : Prop where
  outcome : backend.compileText mappers limits text = backend.answer request
  requests : ∀ before, (backend.logged.compileText mappers limits text).run.run before =
    (fun outcome => (outcome, before ++ [request])) <$> (backend.answer request).run

variable [LawfulMonad m]

/-- A compilation that is a request whatever the backend is one request only. -/
theorem asksOnce_of_forall {mappers : Mappers} {limits : Limits} {text : Text} {request : Request P}
    (h : ∀ {m : Type → Type} [Monad m] [LawfulMonad m] (backend : Backend m P),
      backend.compileText mappers limits text = backend.answer request) (backend : Backend m P) :
    backend.AsksOnce mappers limits text request where
  outcome := h backend
  requests before := by rw [h backend.logged, run_answer_logged]

/-- A comparison of inert texts is compiled as its parts say, within any limits. -/
theorem compileText_comparison (backend : Backend m P) (mappers : Mappers) (limits : Limits)
    {op : Comparator} {field literal : Text} (hfield : field.Inert) (hliteral : literal.Inert)
    (h : Fragment.Parts op field literal) :
    backend.compileText mappers limits (Query.comparison op field literal).display =
      backend.comparison mappers op field literal := by
  rw [compileText, Query.parse_comparison limits hfield hliteral h]
  exact backend.compile_comparison mappers op field literal

section Quoted

variable {mappers : Mappers} {field : Text}

theorem compileText_relation_quoted (backend : Backend m P) (limits : Limits)
    (hname : field.Inert) (hne : field ≠ []) (htrim : field.trim = field)
    (hreader : mappers.find? field = some (Mapper.reader ⟨field, .string⟩)) (relation : Relation)
    {s : Text} (hs : s.Inert) :
    backend.compileText mappers limits (field ++ [' '] ++ relation.symbol ++ [' '] ++ quoted s) =
      backend.answer (.scalar relation field (.string s)) := by
  have hparts : Fragment.Parts (.relation relation) field (quoted s) :=
    Fragment.parts_of_inert hname (inert_quoted hs) hne (by simp [quoted]) htrim (trim_quoted s)
  have hcompile := backend.compileText_comparison mappers limits hname (inert_quoted hs) hparts
  rw [Query.display, Comparator.symbol] at hcompile
  rw [hcompile, comparison_relation, Mappers.map_quoted hreader, ofMapping, pure_bind, answer]

theorem compileText_member_listed (backend : Backend m P) (limits : Limits)
    (hname : field.Inert) (hne : field ≠ []) (htrim : field.trim = field)
    (hreader : mappers.find? field = some (Mapper.reader ⟨field, .string⟩)) {ss : List Text}
    (hss : ss ≠ []) (h : ∀ s ∈ ss, s.Inert ∧ ',' ∉ s) :
    backend.compileText mappers limits (field ++ [' ', '∈', ' '] ++ listed ss) =
      backend.answer (.member field (ss.map .string)) := by
  have hinert := inert_listed fun s hs => (h s hs).1
  have hparts : Fragment.Parts .member field (listed ss) :=
    Fragment.parts_of_inert hname hinert hne (by simp [listed]) htrim (trim_listed ss)
  have hform : field ++ [' ', '∈', ' '] ++ listed ss =
      (Query.comparison .member field (listed ss)).display := by
    simp [Query.display, Comparator.symbol]
  rw [hform, backend.compileText_comparison mappers limits hname hinert hparts, comparison_member,
    listElements?_listed hss fun s hs => (h s hs).2]
  dsimp only
  rw [mapLiterals_quoted hreader, ofMapping, pure_bind, answer]

/-- **Strings survive the trip through the text of a query.** A string in both sorts of quotes
behind a field of strings and a relation is one request to any backend, for that relation of the
field and the string as it is; and a list of them is one request for membership among the strings.
The field and the strings are inert, and the strings of a list hold no comma; blanks at their ends,
line breaks and quotes are all the same. -/
theorem compileText_quoted (backend : Backend m P) (limits : Limits)
    (hname : field.Inert) (hne : field ≠ []) (htrim : field.trim = field)
    (hreader : mappers.find? field = some (Mapper.reader ⟨field, .string⟩)) :
    (∀ (relation : Relation) (s : Text), s.Inert →
      backend.AsksOnce mappers limits (field ++ [' '] ++ relation.symbol ++ [' '] ++ quoted s)
        (.scalar relation field (.string s))) ∧
    ∀ ss : List Text, ss ≠ [] → (∀ s ∈ ss, s.Inert ∧ ',' ∉ s) →
      backend.AsksOnce mappers limits (field ++ [' ', '∈', ' '] ++ listed ss)
        (.member field (ss.map .string)) := by
  refine ⟨fun relation s hs => ?_, fun ss hss h => ?_⟩
  · exact asksOnce_of_forall (fun backend =>
      backend.compileText_relation_quoted limits hname hne htrim hreader relation hs) backend
  · exact asksOnce_of_forall (fun backend =>
      backend.compileText_member_listed limits hname hne htrim hreader hss h) backend

/-- A string with a line break in front, half a delimiter and quotes inside and a blank at its end,
for a field whose name ends as a symbol begins; and a list of the empty string and blanks. -/
theorem compileText_quoted_blanks :
    let field : Text := ['n', ' ', '!']
    let s : Text := ['\n', '"', 'a', ' ', '&', '\'', ' ']
    let ss : List Text := [[], [' ', ' ']]
    let mappers : Mappers := Table.empty.insert field (Mapper.reader ⟨field, .string⟩)
    let backend := Trace.backend none
    (field.Inert ∧ field ≠ [] ∧ field.trim = field ∧
      mappers.find? field = some (Mapper.reader ⟨field, .string⟩)) ∧
    (s.Inert ∧ ss ≠ [] ∧ ∀ s ∈ ss, s.Inert ∧ ',' ∉ s) ∧
    (backend.compileText mappers ⟨0, 0⟩ "n ! != '\"\n\"a &' \"'".toList).run.run [] =
      (.ok 0, [.scalar .notEqual field (.string s)]) ∧
    (backend.compileText mappers ⟨0, 0⟩ "n ! ∈ ['\"\"', '\"  \"']".toList).run.run [] =
      (.ok 0, [.member field (ss.map .string)]) := by
  intro field s ss mappers backend
  have hname : field.Inert := .of_forall (by simp [signs, field])
  have htrim : field.trim = field := by decide
  have hreader : mappers.find? field = some (Mapper.reader ⟨field, .string⟩) := rfl
  have hs : s.Inert := by
    refine ⟨⟨fun c => ?_, by decide, by decide⟩, by simp [signs, s]⟩
    cases c <;> decide
  have hss : ∀ s ∈ ss, s.Inert ∧ ',' ∉ s := by
    have hempty : Inert [] := .of_forall nofun
    have hblanks : Inert [' ', ' '] := .of_forall (by simp [signs])
    simp [ss, hempty, hblanks]
  have h := backend.compileText_quoted ⟨0, 0⟩ hname (by decide) htrim hreader
  refine ⟨⟨hname, by decide, htrim, hreader⟩, ⟨hs, by decide, hss⟩, ?_, ?_⟩
  · have htext : "n ! != '\"\n\"a &' \"'".toList =
        field ++ [' '] ++ Relation.symbol .notEqual ++ [' '] ++ quoted s := rfl
    rw [htext, (h.1 .notEqual s hs).outcome]
    rfl
  · have htext : "n ! ∈ ['\"\"', '\"  \"']".toList = field ++ [' ', '∈', ' '] ++ listed ss := rfl
    rw [htext, (h.2 ss (by decide) hss).outcome]
    rfl

end Quoted

end Backend

end RecordQuery
