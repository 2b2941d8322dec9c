import RecordQuery.Proofs.Compile.Outcomes
import RecordQuery.Proofs.FirstError
import RecordQuery.Sql.Condition

/-!
# The order of compiling

The comparisons of a tree stand in the text in the order from left to right. Compiling tries them in
this order too, so the error of a text with several faults is the error of the comparison that is at
fault first, and nothing behind it is asked for.

Whether a comparison is at fault must not depend on when the backend is asked. `Backend.Steady` says
so: if the same request ends in two ways, it is accepted in both, or refused with the same error.
A backend without effects is steady.

## Main results

* `Grammar.Derives.map_parse_fragments`: the comparisons of a tree are the fragments of the text
* `Comparison.located_of_request`: where an error of mapping points
* `Backend.compileText_stopsAt`: the first comparison at fault decides
-/

namespace RecordQuery

open MonadAttach (CanReturn)

/-! ## The order of the text -/

/-- The fragments among derived tokens are read as the comparisons of the tree, in order. -/
theorem Grammar.Derives.map_parse_fragments {p : Phrase} {ts : List TokenKind} {q : Query}
    (h : Derives p ts q) :
    (ts.filterMap TokenKind.fragment?).map Fragment.parse =
      q.comparisons.map fun c => .ok c.query := by
  induction h with
  | fragment h =>
    obtain ⟨op, field, literal, rfl, -, -⟩ := Fragment.exists_comparison_of_parse h
    simp [TokenKind.fragment?, h, Query.comparisons, Comparison.query]
  | group _ ih => simpa [List.filterMap_cons, TokenKind.fragment?, Query.comparisons] using ih
  | operand _ ih => exact ih
  | joined c _ _ ihl ihr =>
    simp [List.filterMap_cons, TokenKind.fragment?, Query.comparisons, ihl, ihr]

/-! ## Where errors of mapping point -/

/-- The error of a standard reader names the field and the literal that it was given. -/
theorem Mappers.names_of_map_eq_error {mappers : Mappers} {field literal : Text} {type : ValueType}
    {e : MappingError} (hreader : mappers.find? field = some (Mapper.reader ⟨field, type⟩))
    (h : Mappers.map mappers field literal = .error e) : e.field = field ∧ e.literal = literal := by
  simp only [Mappers.map, hreader, Mapper.map_reader, Mapper.map] at h
  split at h
  · cases h
  · obtain rfl := Except.error.inj h
    exact ⟨rfl, rfl⟩

namespace Comparison

/-- An error of mapping points at the field of a comparison, and at its literal or at the first
element of its list that is no value of the field. -/
inductive Located (mappers : Mappers) (c : Comparison) (e : MappingError) : Prop
  | literal {relation : Relation} (hoperator : c.operator = .relation relation)
      (hfield : e.field = c.field) (hliteral : e.literal = c.literal)
  | element {inner : Text} {i : Nat} (hoperator : c.operator = .member)
      (hfield : e.field = c.field) (hlist : c.literal = '[' :: (inner ++ [']']))
      (hfirst : FirstError (Mappers.map mappers c.field)
        ((Text.pieces ',' inner).map Text.trim) i e)
      (hliteral : ((Text.pieces ',' inner).map Text.trim)[i]? = some e.literal)

theorem located_of_request {P : Type} {mappers : Mappers} {c : Comparison} {type : ValueType}
    {e : MappingError} (hreader : mappers.find? c.field = some (Mapper.reader ⟨c.field, type⟩))
    (h : (c.request mappers : Except QueryError (Request P)) = .error (.mapping e)) :
    c.Located mappers e := by
  unfold Comparison.request at h
  split at h
  · next relation hoperator =>
    split at h
    · cases h
    · next hmap =>
      obtain rfl := QueryError.mapping.inj (Except.error.inj h)
      obtain ⟨hfield, hliteral⟩ := Mappers.names_of_map_eq_error hreader hmap
      exact .literal hoperator hfield hliteral
  · next hoperator =>
    split at h
    · cases h
    · next elements helements =>
      split at h
      · cases h
      · next hmap =>
        obtain rfl := QueryError.mapping.inj (Except.error.inj h)
        obtain ⟨inner, hlist, -, rfl⟩ := listElements?_eq_some_iff.1 helements
        obtain ⟨i, hfirst⟩ := mapLiterals_eq_error_iff.1 hmap
        obtain ⟨element, helement, hfails⟩ := hfirst.fails
        obtain ⟨hfield, rfl⟩ := Mappers.names_of_map_eq_error hreader hfails
        exact .element hoperator hfield hlist hfirst helement

end Comparison

namespace Backend

/-! ## Steady backends -/

section

variable {m : Type → Type} [Monad m] [MonadAttach m] {P : Type}

/-- Whether a comparison that is asked for is refused, and with which error, depends on nothing but
the request. -/
def Steady (backend : Backend m P) : Prop :=
  ∀ request : Request P, request.isComparison = true → ∀ outcome outcome' : Except QueryError P,
    CanReturn (backend.answer request).run outcome →
      CanReturn (backend.answer request).run outcome' → error? outcome = error? outcome'

/-- A backend without effects is steady. -/
theorem steady_id (backend : Backend Id P) : backend.Steady := by
  rintro request - _ _ rfl rfl
  rfl

/-- Compiling stops at a comparison: those in front of it are accepted, it gives its error and
nothing else, and what was asked for is what they ask for, and what it asks for if its literal is
mapped. -/
structure StopsAt (backend : Backend m P) (mappers : Mappers) (cs : List Comparison) (k : Nat)
    (c : Comparison) (e : QueryError) (asked : List (Request P)) : Prop where
  place : cs[k]? = some c
  accepted : ∀ b ∈ cs.take k, backend.Accepts mappers b
  refused : ∀ outcome, backend.Gives mappers c outcome ↔ outcome = .error e
  asked_eq : ∃ made, (cs.take k).map (Comparison.request mappers) = made.map .ok ∧
    asked = made ++ (c.request mappers).toOption.toList

end

variable {m : Type → Type} [Monad m] [LawfulMonad m] [MonadAttach m] [LawfulMonadAttach m]
  {P : Type} {backend : Backend m P} {mappers : Mappers} {cs : List Comparison} {c : Comparison}
  {e : QueryError} {requests : List (Request P)}

theorem Steady.error?_of_gives (h : backend.Steady) {outcome outcome' : Except QueryError P}
    (hgives : backend.Gives mappers c outcome) (hgives' : backend.Gives mappers c outcome') :
    error? outcome = error? outcome' := by
  cases hr : (c.request mappers : Except QueryError (Request P)) with
  | error e => rw [hgives.eq_error hr, hgives'.eq_error hr]
  | ok request =>
    rw [Gives, compile_query, hr] at hgives hgives'
    exact h request (Comparison.isComparison_of_request hr) outcome outcome' hgives hgives'

theorem Steady.gives_iff (h : backend.Steady) (hgives : backend.Gives mappers c (.error e))
    (outcome : Except QueryError P) : backend.Gives mappers c outcome ↔ outcome = .error e := by
  constructor
  · intro hgives'
    have herror := h.error?_of_gives hgives' hgives
    cases outcome with
    | ok p => cases herror
    | error e' => rw [Option.some.inj herror]
  · rintro rfl
    exact hgives

theorem Tried.exists_stopsAt (h : Tried backend mappers cs (some e) requests)
    (hsteady : backend.Steady) : ∃ k c, backend.StopsAt mappers cs k c e requests := by
  obtain ⟨before, c, later, made, rfl, hbefore, hgives, rfl⟩ := h.exists_refused
  obtain ⟨haccepted, hmade⟩ := hbefore.accepted_all
  refine ⟨before.length, c, ?_, ?_, hsteady.gives_iff hgives, made, ?_, rfl⟩
  · simp
  · simpa using haccepted
  · simpa using hmade

/-- **The first comparison at fault decides.** For a backend that is steady and a text that parses,
the comparisons of the tree are the fragments of the text in order, and keeping a list of the
requests changes nothing else. Whatever a compilation ends with, it is a success exactly if each
comparison is accepted on its own, and then all of them were asked for; otherwise it stopped at the
first one that is not. If a standard reader could not map the literal of that one, the error says
where. -/
theorem compileText_stopsAt (hsteady : backend.Steady) (mappers : Mappers) {limits : Limits}
    {text : Text} {q : Query} (hparse : Query.parse limits text = .ok q) :
    ((TokenKind.ofText text).filterMap TokenKind.fragment?).map Fragment.parse =
        q.comparisons.map (fun c => .ok c.query) ∧
      Prod.fst <$> (backend.logged.compileText mappers limits text).run.run [] =
        (backend.compileText mappers limits text).run ∧
      ∀ outcome requests,
        CanReturn ((backend.logged.compileText mappers limits text).run.run [])
          (outcome, requests) →
        ((∃ p, outcome = .ok p) ↔ ∀ c ∈ q.comparisons, backend.Accepts mappers c) ∧
        (∀ p, outcome = .ok p → q.comparisons.map (Comparison.request mappers) =
          (requests.filter Request.isComparison).map .ok) ∧
        ∀ e, outcome = .error e → ∃ k c,
          backend.StopsAt mappers q.comparisons k c e (requests.filter Request.isComparison) ∧
          ∀ type error, mappers.find? c.field = some (Mapper.reader ⟨c.field, type⟩) →
            (c.request mappers : Except QueryError (Request P)) = .error (.mapping error) →
              e = .mapping error ∧ c.Located mappers error := by
  obtain ⟨hderives, -⟩ := Query.parse_eq_ok_iff.1 hparse
  have hcompile {n : Type → Type} [Monad n] (backend : Backend n P) :
      backend.compileText mappers limits text = backend.compile mappers q := by
    rw [compileText, hparse]
  rw [hcompile, hcompile]
  refine ⟨hderives.map_parse_fragments, backend.does_compile_logged mappers q [],
    fun outcome requests h => ?_⟩
  obtain ⟨requests, rfl, htried⟩ := tried_of_compile_logged hderives.dangles h
  cases outcome with
  | ok p =>
    obtain ⟨haccepted, hmade⟩ := htried.accepted_all
    exact ⟨iff_of_true ⟨p, rfl⟩ haccepted, fun _ _ => hmade, nofun⟩
  | error e =>
    obtain ⟨k, c, hstops⟩ := htried.exists_stopsAt hsteady
    have hrefused : ¬ backend.Accepts mappers c := by
      rintro ⟨p, hp⟩
      cases (hstops.refused _).1 hp
    have hmem : c ∈ q.comparisons := List.mem_of_getElem? hstops.place
    refine ⟨iff_of_false nofun fun haccepted => hrefused (haccepted c hmem), nofun, ?_⟩
    rintro _ ⟨⟩
    refine ⟨k, c, hstops, fun type error hreader hrequest => ⟨?_, ?_⟩⟩
    · have hgives := (hstops.refused (.error e)).2 rfl
      exact Except.error.inj (hgives.eq_error hrequest)
    · exact Comparison.located_of_request hreader hrequest

/-- A list with an element that is no number, behind two comparisons that are accepted and in front
of two that are not: neither it nor anything behind it is asked for. -/
theorem compileText_stopsAt_element :
    let age : Text := "age".toList
    let name : Text := "name".toList
    let text : Text := "age > 1 && (name ≈ x || age ∈ [2, x, y]) && age = z && zip = 3".toList
    let mappers : Mappers := Table.empty.insert age (Mapper.reader ⟨age, .integer .w8⟩)
    let backend := Sql.backend (Table.ofList [(age, age), (name, name)])
    let q : Query := .joined .and (.joined .and (.joined .and
      (.comparison (.relation .greater) age ['1'])
      (.group (.joined .or (.comparison (.relation .like) name ['x'])
        (.comparison .member age "[2, x, y]".toList))))
      (.comparison (.relation .equal) age ['z']))
      (.comparison (.relation .equal) "zip".toList ['3'])
    let e : QueryError := .mapping ⟨age, ['x'], .foreign (.integer .invalidDigit)⟩
    let requests : List (Request Sql.Condition) :=
      [.scalar .greater age (.integer ⟨.w8, 1, by decide⟩), .scalar .like name (.string ['x'])]
    backend.Steady ∧ Query.parse {} text = .ok q ∧
      (backend.logged.compileText mappers {} text).run.run [] = (.error e, requests) ∧
      ∃ k c, backend.StopsAt mappers q.comparisons k c e requests := by
  intro age name text mappers backend q e requests
  have hparse : Query.parse {} text = .ok q := by decide +kernel
  have hrun : (backend.logged.compileText mappers {} text).run.run [] = (.error e, requests) := by
    rw [compileText, hparse]
    rfl
  obtain ⟨-, -, h⟩ := compileText_stopsAt backend.steady_id mappers hparse
  obtain ⟨-, -, hstops⟩ := h (.error e) requests hrun
  obtain ⟨k, c, hstops, -⟩ := hstops e rfl
  exact ⟨backend.steady_id, hparse, hrun, k, c, hstops⟩

end Backend

end RecordQuery
