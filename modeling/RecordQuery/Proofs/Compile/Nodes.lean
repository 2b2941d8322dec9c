import RecordQuery.Compile.Backend
import RecordQuery.Proofs.Query.Grammar

/-!
# Compiling node by node

A chain is walked down to its leftmost operand while the operands that were passed wait in a list.
What comes of it is what plain recursion gives: the operands that wait are joined to the predicate
of the tree in hand, whatever the tree is.

## Main results

* `listElements?_eq_some_iff`: a list literal and its elements
* `mapLiterals_eq_ok_iff`: literals are mapped one by one
* `Backend.compileChain_eq`: the operands that wait are joined to the compiled tree
* `Backend.comparison_relation`, `Backend.comparison_member`: mapping, then a request to the backend
* `Backend.compile_comparison`, `Backend.compile_joined`, `Backend.compile_group`: one equation for
  each complete node, from its parts
* `Backend.compileText_eq_ok_iff`: a text compiles if it parses and its tree compiles
-/

namespace RecordQuery

/-! ## Lists -/

theorem listElements?_eq_some_iff {literal : Text} {elements : List Text} :
    listElements? literal = some elements ↔
      ∃ inner : Text, literal = '[' :: (inner ++ [']']) ∧ inner.isBlank = false ∧
        (Text.pieces ',' inner).map Text.trim = elements := by
  simp only [listElements?, Option.bind_eq_bind, Option.bind_eq_some_iff, Text.after?_eq_some_iff]
  constructor
  · rintro ⟨rest, rfl, reversed, hrest, h⟩
    split at h
    · cases h
    · next hblank =>
      refine ⟨reversed.reverse, ?_, by simpa using hblank, Option.some.inj h⟩
      simpa using congrArg List.reverse hrest
  · rintro ⟨inner, rfl, hblank, rfl⟩
    exact ⟨inner ++ [']'], rfl, inner.reverse, by simp, by simp [hblank]⟩

theorem listElements?_ne_nil {literal : Text} {elements : List Text}
    (h : listElements? literal = some elements) : elements ≠ [] := by
  obtain ⟨inner, -, -, rfl⟩ := listElements?_eq_some_iff.1 h
  simp [Text.pieces_ne_nil]

theorem mapLiterals_eq_ok_iff {mappers : Mappers} {field : Text} {literals : List Text}
    {values : List Value} :
    mapLiterals mappers field literals = .ok values ↔
      literals.map (Mappers.map mappers field) = values.map .ok := by
  induction literals generalizing values with
  | nil => cases values <;> simp [mapLiterals]
  | cons literal later ih =>
    rw [mapLiterals, bind_eq_ok_iff]
    constructor
    · rintro ⟨value, hvalue, hlater⟩
      obtain ⟨values, hvalues, hcons⟩ := bind_eq_ok_iff.1 hlater
      obtain rfl := Except.ok.inj hcons
      rw [List.map_cons, List.map_cons, hvalue, ih.1 hvalues]
    · intro h
      cases values with
      | nil => cases h
      | cons value values =>
        obtain ⟨hvalue, hvalues⟩ := List.cons.inj h
        exact ⟨value, hvalue, bind_eq_ok_iff.2 ⟨values, ih.2 hvalues, rfl⟩⟩

theorem length_of_mapLiterals {mappers : Mappers} {field : Text} {literals : List Text}
    {values : List Value} (h : mapLiterals mappers field literals = .ok values) :
    values.length = literals.length := by
  have hlength := congrArg List.length (mapLiterals_eq_ok_iff.1 h)
  rw [List.length_map, List.length_map] at hlength
  exact hlength.symm

namespace Backend

variable {m : Type → Type} [Monad m] [LawfulMonad m] {P : Type}

theorem throw_bind {α β ε : Type} (e : ε) (f : α → ExceptT ε m β) :
    (throw e : ExceptT ε m α) >>= f = throw e := by
  apply ExceptT.ext
  simp

/-! ## Comparisons -/

/-- A mapped literal, or the error of mapping as an error of the query. -/
def ofMapping {m : Type → Type} [Monad m] {α : Type} :
    Except MappingError α → ExceptT QueryError m α
  | .ok a => pure a
  | .error e => throw (.mapping e)

theorem ofMapping_bind {α β : Type} (x : Except MappingError α)
    (f : α → Except MappingError β) :
    (ofMapping (x >>= f) : ExceptT QueryError m β) = ofMapping x >>= fun a => ofMapping (f a) := by
  cases x with
  | ok a =>
    rw [ofMapping, pure_bind]
    rfl
  | error e =>
    rw [ofMapping, throw_bind]
    rfl

theorem comparison_relation (backend : Backend m P) (mappers : Mappers) (relation : Relation)
    (field literal : Text) :
    backend.comparison mappers (.relation relation) field literal =
      ofMapping (Mappers.map mappers field literal) >>= backend.scalar relation field := by
  rw [comparison]
  cases Mappers.map mappers field literal with
  | ok value => rw [ofMapping, pure_bind]
  | error e => rw [ofMapping, throw_bind]

theorem comparison_member (backend : Backend m P) (mappers : Mappers) (field literal : Text) :
    backend.comparison mappers .member field literal =
      match listElements? literal with
      | none => throw (.malformedList field literal)
      | some elements =>
        ofMapping (mapLiterals mappers field elements) >>= backend.member field := by
  rw [comparison]
  cases listElements? literal with
  | none => rfl
  | some elements =>
    dsimp only
    cases mapLiterals mappers field elements with
    | ok values => rw [ofMapping, pure_bind]
    | error e => rw [ofMapping, throw_bind]

/-! ## Chains -/

/-- **The walk down a chain is plain recursion.** -/
theorem compileChain_eq (backend : Backend m P) (mappers : Mappers) (q : Query)
    (later : List (Connective × ExceptT QueryError m P)) :
    backend.compileChain mappers q later = (do
      backend.joinAll (← backend.compile mappers q) later) := by
  induction q generalizing later with
  | comparison operator field literal =>
    rw [compile, compileChain_comparison, compileChain_comparison]
    simp
  | joined connective left right ih =>
    rw [compile, compileChain_joined, compileChain_joined, ih, ih [_]]
    simp [joinAll_cons]
  | dangling connective left =>
    rw [compile, compileChain_dangling, compileChain_dangling, throw_bind]
  | group inner =>
    rw [compile, compileChain_group, compileChain_group]
    simp

/-! ## Nodes -/

theorem compile_comparison (backend : Backend m P) (mappers : Mappers) (operator : Comparator)
    (field literal : Text) :
    backend.compile mappers (.comparison operator field literal) =
      backend.comparison mappers operator field literal := by
  rw [compile, compileChain_comparison]
  simp

theorem compile_joined (backend : Backend m P) (mappers : Mappers) (connective : Connective)
    (left right : Query) :
    backend.compile mappers (.joined connective left right) = (do
      let l ← backend.compile mappers left
      let r ← backend.compile mappers right
      backend.join connective l r) := by
  rw [compile, compileChain_joined, compileChain_eq]
  simp [joinAll_cons]

theorem compile_group (backend : Backend m P) (mappers : Mappers) (inner : Query) :
    backend.compile mappers (.group inner) = (do
      let predicate ← backend.compile mappers inner
      backend.group predicate) := by
  rw [compile, compileChain_group]
  simp

/-! ## Backends without effects -/

variable {backend : Backend Id P} {mappers : Mappers} {p : P}

/-- A compilation without effects that succeeds has succeeded in both its halves. -/
theorem bind_id_eq_ok_iff {ε α β : Type} {x : ExceptT ε Id α} {f : α → ExceptT ε Id β} {b : β} :
    x >>= f = .ok b ↔ ∃ a, x = .ok a ∧ f a = .ok b := by
  constructor
  · intro h
    change Except ε α at x
    cases x with
    | error e => cases h
    | ok a => exact ⟨a, rfl, h⟩
  · rintro ⟨a, rfl, h⟩
    exact h

theorem bind_id_eq_error_iff {ε α β : Type} {x : ExceptT ε Id α} {f : α → ExceptT ε Id β} {e : ε} :
    x >>= f = .error e ↔ x = .error e ∨ ∃ a, x = .ok a ∧ f a = .error e := by
  constructor
  · intro h
    change Except ε α at x
    cases x with
    | error e' =>
      cases h
      exact .inl rfl
    | ok a => exact .inr ⟨a, rfl, h⟩
  · rintro (rfl | ⟨a, rfl, h⟩)
    · rfl
    · exact h

theorem ofMapping_eq_ok_iff {α : Type} {outcome : Except MappingError α} {a : α} :
    (ofMapping outcome : ExceptT QueryError Id α) = .ok a ↔ outcome = .ok a := by
  cases outcome with
  | ok a' => exact ⟨fun h => congrArg _ (Except.ok.inj h), fun h => congrArg _ (Except.ok.inj h)⟩
  | error e => exact iff_of_false nofun nofun

theorem ofMapping_eq_error_iff {α : Type} {outcome : Except MappingError α} {e : QueryError} :
    (ofMapping outcome : ExceptT QueryError Id α) = .error e ↔
      ∃ error, outcome = .error error ∧ .mapping error = e := by
  cases outcome with
  | ok a => exact iff_of_false nofun nofun
  | error error =>
    constructor
    · intro h
      exact ⟨error, rfl, Except.error.inj h⟩
    · rintro ⟨_, h, rfl⟩
      rw [Except.error.inj h]
      rfl

theorem compile_joined_eq_ok_iff {c : Connective} {l r : Query} :
    backend.compile mappers (.joined c l r) = .ok p ↔
      ∃ pl pr, backend.compile mappers l = .ok pl ∧ backend.compile mappers r = .ok pr ∧
        backend.join c pl pr = p := by
  simp only [compile_joined, bind_id_eq_ok_iff]
  constructor
  · rintro ⟨pl, hl, pr, hr, h⟩
    exact ⟨pl, pr, hl, hr, Except.ok.inj h⟩
  · rintro ⟨pl, pr, hl, hr, rfl⟩
    exact ⟨pl, hl, pr, hr, rfl⟩

theorem compile_group_eq_ok_iff {q : Query} :
    backend.compile mappers (.group q) = .ok p ↔
      ∃ inner, backend.compile mappers q = .ok inner ∧ backend.group inner = p := by
  simp only [compile_group, bind_id_eq_ok_iff]
  constructor
  · rintro ⟨inner, hq, h⟩
    exact ⟨inner, hq, Except.ok.inj h⟩
  · rintro ⟨inner, hq, rfl⟩
    exact ⟨inner, hq, rfl⟩

theorem compile_joined_eq_error_iff {c : Connective} {l r : Query} {e : QueryError} :
    backend.compile mappers (.joined c l r) = .error e ↔
      backend.compile mappers l = .error e ∨
        (∃ pl, backend.compile mappers l = .ok pl) ∧ backend.compile mappers r = .error e := by
  simp only [compile_joined, bind_id_eq_error_iff]
  constructor
  · rintro (h | ⟨pl, hl, h | ⟨pr, -, h⟩⟩)
    · exact .inl h
    · exact .inr ⟨⟨pl, hl⟩, h⟩
    · cases h
  · rintro (h | ⟨⟨pl, hl⟩, h⟩)
    · exact .inl h
    · exact .inr ⟨pl, hl, .inl h⟩

theorem compile_group_eq_error_iff {q : Query} {e : QueryError} :
    backend.compile mappers (.group q) = .error e ↔ backend.compile mappers q = .error e := by
  simp only [compile_group, bind_id_eq_error_iff]
  constructor
  · rintro (h | ⟨p, -, h⟩)
    · exact h
    · cases h
  · exact .inl

theorem compileText_eq_ok_iff {limits : Limits} {text : Text} :
    backend.compileText mappers limits text = .ok p ↔
      ∃ q, Query.parse limits text = .ok q ∧ backend.compile mappers q = .ok p := by
  rw [compileText]
  cases hq : Query.parse limits text with
  | ok q => simp
  | error e =>
    constructor
    · intro h
      cases h
    · rintro ⟨_, h, _⟩
      cases h

end Backend

end RecordQuery
