import RecordQuery.Proofs.Compile.Lists

/-!
# Compiling trees that wait for an operand

A tree that was built by hand may have a connective whose right operand is missing, anywhere in it.
The compiler looks for such a connective in one place only, on the walk down the left operands from
the root of a chain. This is enough: every connective of a tree is on such a walk, since the
operands that are passed and what stands in groups are compiled as chains of their own, and none of
them can be left out if there is to be a predicate.

Which error comes first depends on the order of the walks. On the walk from the root the error comes
at once, and whatever else is wrong with the tree is not seen. Elsewhere the comparisons that are
compiled before may be refused first: by a mapping, by the backend, or because the literal of a
membership test is no list.

## Main results

* `Query.dangles_iff`: a tree dangles if one of its nodes waits
* `Backend.compile_of_spine`: a node that waits on the walk from the root is the error, and nothing
  else happens
* `Backend.blames_of_canReturn`: an error is that of a comparison, or of a node that waits
* `Backend.compile_of_isOpen`: what compiling a tree with a node that waits ends with
-/

namespace RecordQuery

open MonadAttach (CanReturn)

/-! ## Nodes of a tree -/

namespace Query

/-- The nodes of a tree, each in front of those below it. -/
def nodes : Query → List Query
  | q@(comparison ..) => [q]
  | q@(joined _ left right) => q :: (left.nodes ++ right.nodes)
  | q@(dangling _ left) => q :: left.nodes
  | q@(group inner) => q :: inner.nodes

/-- The connectives on the walk from the root down the left operands, the root first. -/
def spine : Query → List Query
  | q@(joined _ left _) => q :: left.spine
  | q@(dangling _ left) => q :: left.spine
  | _ => []

/-- **A tree dangles if one of its nodes waits.** -/
theorem dangles_iff {q : Query} : q.dangles = true ↔ ∃ node ∈ q.nodes, node.isOpen = true := by
  induction q with
  | comparison => simp [dangles, nodes, isOpen]
  | joined c l r ihl ihr =>
    simp [dangles, nodes, isOpen, ihl, ihr, or_and_right, exists_or]
  | dangling c l => simp [dangles, nodes, isOpen]
  | group inner ih => simp [dangles, nodes, isOpen, ih]

end Query

/-- Why a comparison is refused before the backend is asked. -/
theorem Comparison.cases_of_request_error {P : Type} {mappers : Mappers} {c : Comparison}
    {e : QueryError} (h : (c.request mappers : Except QueryError (Request P)) = .error e) :
    (∃ error, e = .mapping error) ∨ c.operator = .member ∧
      (∀ elements, ¬ IsList elements c.literal) ∧ e = .malformedList c.field c.literal := by
  unfold Comparison.request at h
  split at h
  · split at h
    · cases h
    · exact .inl ⟨_, (Except.error.inj h).symm⟩
  · next hoperator =>
    split at h
    · next hnone =>
      refine .inr ⟨hoperator, fun elements hlist => ?_, (Except.error.inj h).symm⟩
      rw [listElements?_eq_some_iff_isList.2 hlist] at hnone
      cases hnone
    · split at h
      · cases h
      · exact .inl ⟨_, (Except.error.inj h).symm⟩

namespace Backend

variable {m : Type → Type} [Monad m] {P : Type}

/-! ## The walk from the root -/

theorem compileChain_of_spine (backend : Backend m P) (mappers : Mappers) {q node : Query}
    (h : q.spine.find? Query.isOpen = some node)
    (later : List (Connective × ExceptT QueryError m P)) :
    backend.compileChain mappers q later = throw (.incomplete node.display) := by
  induction q generalizing later with
  | comparison => cases h
  | joined c l r ihl =>
    rw [compileChain_joined]
    exact ihl h _
  | dangling c l =>
    obtain rfl := Option.some.inj h
    rw [compileChain_dangling]
  | group => cases h

/-- **A node that waits on the walk from the root is the error**, and nothing else happens. -/
theorem compile_of_spine (backend : Backend m P) (mappers : Mappers) {q node : Query}
    (h : q.spine.find? Query.isOpen = some node) :
    backend.compile mappers q = throw (.incomplete node.display) :=
  backend.compileChain_of_spine mappers h []

/-- Nothing is asked for on the way to a node that waits. -/
theorem asks_of_spine [LawfulMonad m] (backend : Backend m P) (mappers : Mappers) {q node : Query}
    (h : q.spine.find? Query.isOpen = some node) :
    backend.Asks mappers q [] (throw (.incomplete node.display)) where
  compile_eq := backend.compile_of_spine mappers h
  requests_eq before := by simp [compile_of_spine _ mappers h]

/-! ## Where errors come from -/

section

variable [MonadAttach m]

/-- What an error of compiling a tree is about. -/
inductive Blames (backend : Backend m P) (mappers : Mappers) (q : Query) (e : QueryError) : Prop
  /-- A comparison of the tree is refused on its own. -/
  | refused {c : Comparison} (hc : c ∈ q.comparisons) (h : backend.Gives mappers c (.error e))
  /-- A node of the tree waits. -/
  | incomplete {node : Query} (hnode : node ∈ q.nodes) (hopen : node.isOpen = true)
      (he : e = .incomplete node.display)

/-- What is found in a part of a tree is found in the tree. -/
theorem Blames.of_subset {backend : Backend m P} {mappers : Mappers} {part q : Query}
    {e : QueryError} (h : backend.Blames mappers part e)
    (hcomparisons : part.comparisons ⊆ q.comparisons) (hnodes : part.nodes ⊆ q.nodes) :
    backend.Blames mappers q e := by
  cases h with
  | refused hc h => exact .refused (hcomparisons hc) h
  | incomplete hnode hopen he => exact .incomplete (hnodes hnode) hopen he

end

variable [LawfulMonad m] [MonadAttach m] [LawfulMonadAttach m] {backend : Backend m P}
  {mappers : Mappers}

/-- A computation that goes on has ended with an error at once, or goes on with a value. -/
theorem canReturn_bind {α β : Type} {x : ExceptT QueryError m α}
    {f : α → ExceptT QueryError m β} {outcome : Except QueryError β}
    (h : CanReturn (x >>= f).run outcome) :
    (∃ e, outcome = .error e ∧ CanReturn x.run (.error e)) ∨
      ∃ a, CanReturn x.run (.ok a) ∧ CanReturn (f a).run outcome := by
  rw [ExceptT.run_bind] at h
  obtain ⟨first, hx, hf⟩ := LawfulMonadAttach.canReturn_bind_imp' h
  cases first with
  | ok a => exact .inr ⟨a, hx, hf⟩
  | error e => exact .inl ⟨e, (LawfulMonadAttach.eq_of_canReturn_pure hf).symm, hx⟩

/-- **A tree that compiles has no node that waits.** -/
theorem dangles_eq_false_of_canReturn {q : Query} {p : P}
    (h : CanReturn (backend.compile mappers q).run (.ok p)) : q.dangles = false := by
  induction q generalizing p with
  | comparison => rfl
  | joined c l r ihl ihr =>
    rw [compile_joined] at h
    rcases canReturn_bind h with ⟨_, he, -⟩ | ⟨pl, hl, h⟩
    · cases he
    rcases canReturn_bind h with ⟨_, he, -⟩ | ⟨pr, hr, -⟩
    · cases he
    rw [Query.dangles, ihl hl, ihr hr]
    rfl
  | dangling c l => cases LawfulMonadAttach.eq_of_canReturn_pure h
  | group inner ih =>
    rw [compile_group] at h
    rcases canReturn_bind h with ⟨_, he, -⟩ | ⟨pi, hi, -⟩
    · cases he
    exact ih hi

/-- **An error is about a comparison that is refused, or about a node that waits.** -/
theorem blames_of_canReturn {q : Query} {e : QueryError}
    (h : CanReturn (backend.compile mappers q).run (.error e)) : backend.Blames mappers q e := by
  induction q generalizing e with
  | comparison operator field literal =>
    have hmem : (⟨operator, field, literal⟩ : Comparison) ∈
        (Query.comparison operator field literal).comparisons := List.mem_singleton_self _
    exact .refused hmem h
  | joined c l r ihl ihr =>
    rw [compile_joined] at h
    rcases canReturn_bind h with ⟨_, ⟨⟩, hl⟩ | ⟨pl, -, h⟩
    · exact (ihl hl).of_subset (List.subset_append_left _ _)
        (List.subset_cons_of_subset _ (List.subset_append_left _ _))
    rcases canReturn_bind h with ⟨_, ⟨⟩, hr⟩ | ⟨pr, -, h⟩
    · exact (ihr hr).of_subset (List.subset_append_right _ _)
        (List.subset_cons_of_subset _ (List.subset_append_right _ _))
    exact absurd h not_canReturn_lift
  | dangling c l =>
    obtain he := Except.error.inj (LawfulMonadAttach.eq_of_canReturn_pure h)
    exact .incomplete List.mem_cons_self rfl he.symm
  | group inner ih =>
    rw [compile_group] at h
    rcases canReturn_bind h with ⟨_, ⟨⟩, hi⟩ | ⟨pi, -, h⟩
    · exact (ih hi).of_subset (List.Subset.refl _) (List.subset_cons_self _ _)
    exact absurd h not_canReturn_lift

/-- The tracing backend that knows every field refuses nothing. -/
theorem not_canReturn_trace (request : Request Nat) (e : QueryError) :
    ¬ CanReturn ((Trace.backend none).answer request).run (.error e) := by
  rintro ⟨calls, calls', h⟩
  cases request <;> cases h

/-- What a comparison that is not refused by a mapping or by the backend can be refused for. -/
theorem Gives.malformed {c : Comparison} {e : QueryError}
    (h : backend.Gives mappers c (.error e))
    (hmapping : ∀ error : MappingError,
      (c.request mappers : Except QueryError (Request P)) ≠ .error (.mapping error))
    (hanswer : ∀ (request : Request P) (e : QueryError),
      ¬ CanReturn (backend.answer request).run (.error e)) :
    c.operator = .member ∧ (∀ elements, ¬ IsList elements c.literal) ∧
      e = .malformedList c.field c.literal := by
  cases hr : (c.request mappers : Except QueryError (Request P)) with
  | ok request =>
    rw [Gives, compile_query, hr] at h
    exact absurd h (hanswer request e)
  | error e' =>
    obtain rfl := Except.error.inj (h.eq_error hr)
    rcases Comparison.cases_of_request_error hr with ⟨error, rfl⟩ | hmalformed
    · exact absurd hr (hmapping error)
    · exact hmalformed

/-! ## Trees with a node that waits -/

/-- **A tree with a node that waits has no predicate.** Whatever compiling it ends with is an error.
If no mapping and no request to the backend fails, it is the error about a node of the tree that
waits, with the text of that node, or the error about the literal of a membership test of the tree
that is no list. If a node waits on the walk from the root down the left operands, the outermost one
is the error whatever the mappers are, and the backend is asked for nothing. -/
theorem compile_of_isOpen (backend : Backend m P) (mappers : Mappers) {q : Query}
    (hq : ∃ node ∈ q.nodes, node.isOpen = true) :
    (∀ outcome, CanReturn (backend.compile mappers q).run outcome → ∃ e, outcome = .error e) ∧
    ((∀ c ∈ q.comparisons, ∀ error : MappingError,
        (c.request mappers : Except QueryError (Request P)) ≠ .error (.mapping error)) →
      (∀ (request : Request P) (e : QueryError),
        ¬ CanReturn (backend.answer request).run (.error e)) →
      ∀ e, CanReturn (backend.compile mappers q).run (.error e) →
        (∃ node ∈ q.nodes, node.isOpen = true ∧ e = .incomplete node.display ∧
          e.fragment = node.display) ∨
        ∃ c ∈ q.comparisons, c.operator = .member ∧ (∀ elements, ¬ IsList elements c.literal) ∧
          e = .malformedList c.field c.literal) ∧
    ∀ node, q.spine.find? Query.isOpen = some node → ∀ table : Mappers,
      backend.Asks table q [] (throw (.incomplete node.display)) := by
  refine ⟨fun outcome h => ?_, fun hmapping hanswer e h => ?_, fun node hnode table => ?_⟩
  · cases outcome with
    | error e => exact ⟨e, rfl⟩
    | ok p =>
      have hdangles := Query.dangles_iff.2 hq
      rw [dangles_eq_false_of_canReturn h] at hdangles
      cases hdangles
  · cases blames_of_canReturn h with
    | refused hc hgives => exact .inr ⟨_, hc, hgives.malformed (hmapping _ hc) hanswer⟩
    | @incomplete node hnode hopen he =>
      subst he
      exact .inl ⟨node, hnode, hopen, rfl, rfl⟩
  · exact backend.asks_of_spine table hnode

/-- A literal that is no list comes before the node that waits: no literal is mapped and the backend
is asked for nothing, and still the error is not about the node. -/
theorem compile_malformedList_of_isOpen :
    let backend := Trace.backend none
    let q : Query := .joined .and (.comparison .member ['a'] ['x'])
      (.dangling .and (.comparison (.relation .equal) ['b'] ['1']))
    (∃ node ∈ q.nodes, node.isOpen = true) ∧
      (∀ field literal, ∃ value, Mappers.map .empty field literal = .ok value) ∧
      (∀ (request : Request Nat) (e : QueryError),
        ¬ CanReturn (backend.answer request).run (.error e)) ∧
      (backend.compile .empty q).run.run [] = (.error (.malformedList ['a'] ['x']), []) ∧
      ¬ ∀ e, CanReturn (backend.compile .empty q).run (.error e) →
        ∃ node ∈ q.nodes, node.isOpen = true ∧ e = .incomplete node.display := by
  intro backend q
  have hrun : (backend.compile .empty q).run.run [] =
      (.error (.malformedList ['a'] ['x']), []) := rfl
  refine ⟨Query.dangles_iff.1 rfl, fun field literal => ⟨.string literal, rfl⟩,
    not_canReturn_trace, hrun, fun h => ?_⟩
  obtain ⟨node, -, -, he⟩ := h _ ⟨[], [], hrun⟩
  cases he

/-- A node that waits in a group, behind a comparison that is asked for; and a chain in which two
nodes wait behind a literal that cannot be mapped. -/
theorem compile_of_isOpen_nested :
    let age : Text := "age".toList
    let mappers : Mappers := Table.empty.insert age (Mapper.reader ⟨age, .integer .w8⟩)
    let backend := Trace.backend none
    let q : Query := .joined .and (.comparison (.relation .greater) age ['3'])
      (.group (.dangling .or (.comparison .member age "[1, 2]".toList)))
    let outer : Query := .dangling .or (.dangling .and (.comparison (.relation .less) age ['z']))
    let chain : Query := .joined .and outer (.comparison (.relation .equal) age ['4'])
    ((∃ node ∈ q.nodes, node.isOpen = true) ∧
      (∀ c ∈ q.comparisons, ∀ error : MappingError,
        (c.request mappers : Except QueryError (Request Nat)) ≠ .error (.mapping error)) ∧
      (∀ (request : Request Nat) (e : QueryError),
        ¬ CanReturn (backend.answer request).run (.error e)) ∧
      ∀ outcome, CanReturn (backend.compile mappers q).run outcome →
        ∃ node ∈ q.nodes, node.isOpen = true ∧ outcome = .error (.incomplete node.display)) ∧
    (∃ node ∈ chain.nodes, node.isOpen = true) ∧
      chain.spine.find? Query.isOpen = some outer ∧
      backend.Asks mappers chain [] (throw (.incomplete outer.display)) := by
  intro age mappers backend q outer chain
  have hq : ∃ node ∈ q.nodes, node.isOpen = true := Query.dangles_iff.1 rfl
  have hchain : ∃ node ∈ chain.nodes, node.isOpen = true := Query.dangles_iff.1 rfl
  have hmapping : ∀ c ∈ q.comparisons, ∀ error : MappingError,
      (c.request mappers : Except QueryError (Request Nat)) ≠ .error (.mapping error) := by
    intro c hc error h
    rcases List.mem_cons.1 hc with rfl | hc
    · cases h
    · obtain rfl := List.mem_singleton.1 hc
      cases h
  obtain ⟨herror, hincomplete, -⟩ := compile_of_isOpen backend mappers hq
  refine ⟨⟨hq, hmapping, not_canReturn_trace, fun outcome houtcome => ?_⟩, hchain, rfl,
    (compile_of_isOpen backend mappers hchain).2.2 outer rfl mappers⟩
  obtain ⟨e, rfl⟩ := herror outcome houtcome
  rcases hincomplete hmapping not_canReturn_trace e houtcome with
    ⟨node, hnode, hopen, rfl, -⟩ | ⟨c, hc, hoperator, hlist, -⟩
  · exact ⟨node, hnode, hopen, rfl⟩
  · rcases List.mem_cons.1 hc with rfl | hc
    · cases hoperator
    · obtain rfl := List.mem_singleton.1 hc
      exact absurd (listElements?_eq_some_iff_isList.1 rfl) (hlist [['1'], ['2']])

end Backend

end RecordQuery
