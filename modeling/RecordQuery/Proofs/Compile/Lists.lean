import Mathlib.Data.List.Forall2
import RecordQuery.Proofs.Compile.Outcomes
import RecordQuery.Proofs.FirstError
import RecordQuery.Proofs.Text.Pieces

/-!
# List literals

The literal of a membership test is a list: elements with commas between them, in brackets, and
blanks around each as one likes. `IsList` says how a list is written, and every literal is written
from at most one list of elements, the one that it is read as.

Two lists look alike. The brackets with nothing but blanks inside would be a list of the empty text;
they are read as no list at all. So an empty text is an element only beside others, and there it is
mapped as any other text.

## Main results

* `listElements?_eq_some_iff_isList`: a literal is read as the elements that it is written from
* `Backend.asks_member`: a list is mapped element by element and asked for at once; any other
  literal is an error and nothing is asked for
-/

namespace RecordQuery

/-! ## Blanks around a text -/

namespace Text

/-- A text with blanks around it. -/
def Padded (t padded : Text) : Prop :=
  ∃ before after : Text, before.isBlank = true ∧ after.isBlank = true ∧
    padded = before ++ (t ++ after)

variable {t padded : Text}

theorem padded_trim (t : Text) : Padded t.trim t := by
  obtain ⟨before, after, hbefore, hafter, h⟩ := eq_append_trim t
  exact ⟨before, after, hbefore, hafter, by rw [← List.append_assoc, ← h]⟩

theorem Padded.trim_eq (h : Padded t padded) : padded.trim = t.trim := by
  obtain ⟨before, after, hbefore, hafter, rfl⟩ := h
  exact trim_append_append hbefore hafter t

theorem not_mem_of_isBlank {c : Char} (hc : RecordQuery.isBlank c = false)
    (h : t.isBlank = true) : c ∉ t := by
  intro hmem
  have hblank : RecordQuery.isBlank c = true := List.all_eq_true.1 h c hmem
  rw [hc] at hblank
  cases hblank

theorem Padded.mem_iff {c : Char} (hc : RecordQuery.isBlank c = false) (h : Padded t padded) :
    c ∈ padded ↔ c ∈ t := by
  obtain ⟨before, after, hbefore, hafter, rfl⟩ := h
  simp [not_mem_of_isBlank hc hbefore, not_mem_of_isBlank hc hafter]

/-- The pieces of a text are blank and one exactly if the text is blank. -/
theorem map_trim_pieces_eq_iff {separator : Char}
    (hseparator : RecordQuery.isBlank separator = false) (t : Text) :
    (pieces separator t).map trim = [[]] ↔ t.isBlank = true := by
  constructor
  · intro h
    obtain ⟨piece, hpieces, htrim⟩ := List.map_eq_singleton_iff.1 h
    obtain ⟨-, -, rfl⟩ := pieces_eq_iff.1 hpieces
    exact trim_eq_nil_iff.1 htrim
  · intro h
    have hpieces : pieces separator t = [t] :=
      pieces_eq_iff.2 ⟨by simp, by simpa using not_mem_of_isBlank hseparator h, rfl⟩
    rw [hpieces, List.map_singleton, trim_eq_nil_iff.2 h]

end Text

/-! ## Written lists -/

open Text

/-- A literal is written from a list of trimmed elements without commas, other than the empty text
alone: blanks around each element, commas between them, and brackets around it all. -/
structure IsList (elements : List Text) (literal : Text) : Prop where
  ne_nil : elements ≠ []
  ne_blank : elements ≠ [[]]
  plain : ∀ e ∈ elements, e.trim = e ∧ ',' ∉ e
  written : ∃ padded : List Text, List.Forall₂ Padded elements padded ∧
    literal = '[' :: (join [','] padded ++ [']'])

/-- Trimmed elements with blanks around them are what trimming gives back. -/
theorem map_trim_of_padded {elements padded : List Text} (h : List.Forall₂ Padded elements padded)
    (hplain : ∀ e ∈ elements, e.trim = e ∧ ',' ∉ e) :
    padded.map trim = elements ∧ ∀ p ∈ padded, ',' ∉ p := by
  induction h with
  | nil => exact ⟨rfl, nofun⟩
  | cons h _ ih =>
    obtain ⟨⟨htrim, hcomma⟩, hlater⟩ := List.forall_mem_cons.1 hplain
    obtain ⟨hmap, hcommas⟩ := ih hlater
    refine ⟨by rw [List.map_cons, h.trim_eq, htrim, hmap], List.forall_mem_cons.2 ⟨?_, hcommas⟩⟩
    rwa [h.mem_iff (by decide)]

/-- **A literal is read as the elements that it is written from.** -/
theorem listElements?_eq_some_iff_isList {elements : List Text} {literal : Text} :
    listElements? literal = some elements ↔ IsList elements literal := by
  rw [listElements?_eq_some_iff]
  constructor
  · rintro ⟨inner, rfl, hblank, rfl⟩
    refine ⟨by simp [pieces_ne_nil], fun h => ?_, fun e he => ?_, pieces ',' inner, ?_, ?_⟩
    · rw [map_trim_pieces_eq_iff (by decide), hblank] at h
      cases h
    · obtain ⟨piece, hpiece, rfl⟩ := List.mem_map.1 he
      refine ⟨trim_trim piece, ?_⟩
      rw [← (padded_trim piece).mem_iff (by decide)]
      exact not_mem_of_mem_pieces hpiece
    · rw [List.forall₂_map_left_iff, List.forall₂_same]
      exact fun piece _ => padded_trim piece
    · rw [join_pieces]
  · rintro ⟨hne, hblank, hplain, padded, hpadded, rfl⟩
    obtain ⟨hmap, hcommas⟩ := map_trim_of_padded hpadded hplain
    have hne' : padded ≠ [] := by
      rintro rfl
      exact hne hmap.symm
    have hpieces : pieces ',' (join [','] padded) = padded := pieces_join hne' hcommas
    refine ⟨join [','] padded, rfl, Bool.eq_false_iff.2 fun h => hblank ?_, ?_⟩
    · have htrim : (pieces ',' (join [','] padded)).map trim = [[]] :=
        (map_trim_pieces_eq_iff (by decide) _).2 h
      rwa [hpieces, hmap] at htrim
    · rw [hpieces, hmap]

/-- What is no list has no pair of brackets around it, or only blanks in them. -/
theorem forall_not_isList_iff {literal : Text} :
    (∀ elements, ¬ IsList elements literal) ↔
      ∀ inner : Text, literal = '[' :: (inner ++ [']']) → inner.isBlank = true := by
  simp only [← listElements?_eq_some_iff_isList, listElements?_eq_some_iff]
  constructor
  · intro h inner hliteral
    by_contra hblank
    exact h _ ⟨inner, hliteral, by simpa using hblank, rfl⟩
  · rintro h elements ⟨inner, hliteral, hblank, -⟩
    rw [h inner hliteral] at hblank
    cases hblank

/-! ## Requests -/

namespace Backend

variable {m : Type → Type} [Monad m] {P : Type}

/-- What compiling a tree comes to: its outcome, and what is asked for on the way. -/
structure Asks (backend : Backend m P) (mappers : Mappers) (q : Query)
    (requests : List (Request P)) (outcome : ExceptT QueryError m P) : Prop where
  compile_eq : backend.compile mappers q = outcome
  requests_eq : ∀ before, (backend.logged.compile mappers q).run.run before =
    (fun result => (result, before ++ requests)) <$> outcome.run

variable [LawfulMonad m]

/-- A comparison asks for one thing, or for nothing if its literal cannot be mapped. -/
theorem asks_query (backend : Backend m P) (mappers : Mappers) (c : Comparison) :
    backend.Asks mappers c.query (c.request mappers).toOption.toList
      (backend.compile mappers c.query) where
  compile_eq := rfl
  requests_eq := backend.run_compile_logged_query mappers c

/-- **A list is asked for at once, and what is no list is not asked for.** If a literal is a list of
elements, either each of them is mapped to a value and there is one request, with these values in
order, or the first element that cannot be mapped is the error and there is none. Every other
literal is an error that holds the literal, whatever the mappers would make of its elements. -/
theorem asks_member (backend : Backend m P) (mappers : Mappers) (field literal : Text) :
    (∀ elements, IsList elements literal →
      (∃ values, elements.map (Mappers.map mappers field) = values.map .ok ∧
        backend.Asks mappers (.comparison .member field literal) [.member field values]
          (backend.member field values)) ∨
      ∃ i e, FirstError (Mappers.map mappers field) elements i e ∧
        backend.Asks mappers (.comparison .member field literal) [] (throw (.mapping e))) ∧
    ((∀ elements, ¬ IsList elements literal) ↔
      ∀ inner : Text, literal = '[' :: (inner ++ [']']) → inner.isBlank = true) ∧
    ((∀ elements, ¬ IsList elements literal) →
      backend.Asks mappers (.comparison .member field literal) []
        (throw (.malformedList field literal))) := by
  let c : Comparison := ⟨.member, field, literal⟩
  have hasks := backend.asks_query mappers c
  refine ⟨fun elements hlist => ?_, forall_not_isList_iff, fun hlist => ?_⟩
  · have helements := listElements?_eq_some_iff_isList.2 hlist
    cases hmap : mapLiterals mappers field elements with
    | ok values =>
      have hrequest : c.request mappers = .ok (.member field values : Request P) := by
        simp only [c, Comparison.request, helements, hmap]
      rw [compile_query, hrequest] at hasks
      exact .inl ⟨values, mapLiterals_eq_ok_iff.1 hmap, hasks⟩
    | error e =>
      obtain ⟨i, hfirst⟩ := mapLiterals_eq_error_iff.1 hmap
      have hrequest : (c.request mappers : Except QueryError (Request P)) =
          .error (.mapping e) := by
        simp only [c, Comparison.request, helements, hmap]
      rw [compile_query, hrequest] at hasks
      exact .inr ⟨i, e, hfirst, hasks⟩
  · have hnone : listElements? literal = none := by
      rw [Option.eq_none_iff_forall_ne_some]
      exact fun elements h => hlist elements (listElements?_eq_some_iff_isList.1 h)
    have hrequest : (c.request mappers : Except QueryError (Request P)) =
        .error (.malformedList field literal) := by
      simp only [c, Comparison.request, hnone]
    rw [compile_query, hrequest] at hasks
    exact hasks

/-- Brackets inside a list of two strings, a list of numbers with nothing between two commas, and a
bracket that is never closed. -/
theorem asks_member_edges :
    let age : Text := "age".toList
    let mappers : Mappers := Table.empty.insert age (Mapper.reader ⟨age, .integer .w8⟩)
    let backend := Trace.backend none
    (IsList ["[a]".toList, ['b']] "[[a],\n b ]".toList ∧
      backend.Asks mappers (.comparison .member ['n'] "[[a],\n b ]".toList)
        [.member ['n'] [.string "[a]".toList, .string ['b']]]
        (backend.member ['n'] [.string "[a]".toList, .string ['b']])) ∧
    (IsList [['1'], [], ['x']] "[1 , ,x]".toList ∧
      ∃ i e, FirstError (Mappers.map mappers age) [['1'], [], ['x']] i e ∧
        backend.Asks mappers (.comparison .member age "[1 , ,x]".toList) [] (throw (.mapping e))) ∧
    (∀ elements, ¬ IsList elements ['[']) ∧
      backend.Asks mappers (.comparison .member age ['[']) []
        (throw (.malformedList age ['['])) := by
  intro age mappers backend
  have hstrings : IsList ["[a]".toList, ['b']] "[[a],\n b ]".toList :=
    listElements?_eq_some_iff_isList.1 (by decide)
  have hnumbers : IsList [['1'], [], ['x']] "[1 , ,x]".toList :=
    listElements?_eq_some_iff_isList.1 (by decide)
  have hopen : ∀ elements, ¬ IsList elements ['['] :=
    forall_not_isList_iff.2 fun inner h => by simp at h
  refine ⟨⟨hstrings, ?_⟩, ⟨hnumbers, ?_⟩, hopen, (asks_member backend mappers age _).2.2 hopen⟩
  · rcases (asks_member backend mappers ['n'] _).1 _ hstrings with
      ⟨values, hvalues, hasks⟩ | ⟨i, e, hfirst, -⟩
    · have hmap : Except.ok [.string "[a]".toList, .string ['b']] = Except.ok values :=
        mapLiterals_eq_ok_iff.2 hvalues
      rwa [← Except.ok.inj hmap] at hasks
    · obtain ⟨element, -, herror⟩ := hfirst.fails
      cases herror
  · rcases (asks_member backend mappers age _).1 _ hnumbers with ⟨values, hvalues, -⟩ | hfails
    · cases mapLiterals_eq_ok_iff.2 hvalues
    · exact hfails

end Backend

end RecordQuery
