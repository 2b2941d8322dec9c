import RecordQuery.Compile.Trace
import RecordQuery.Proofs.Compile.Nodes

/-!
# Compiling by plain recursion

The rule of compiling is recursion on the tree: a connective compiles its left operand, then its
right one, and joins them; a group compiles what is inside it; a comparison maps its literal and
asks the backend. Walking down a chain with a list of waiting operands is another order of work, and
this file says that nobody can tell the two apart.

## What can be told

The predicate or the error that comes out is one thing. The other is what the backend is asked for
on the way, also when the compilation fails later. So any backend can be made to keep a list of its
requests, with all their operands, while it does what it does otherwise.

## Main results

* `Backend.does_compileTree_logged`: keeping the list changes nothing else
* `Backend.compile_eq_compileTree`: the same outcome and the same requests as plain recursion
-/

namespace RecordQuery

/-- What a backend is asked for. Operands are the predicates that it gave before. -/
inductive Request (P : Type)
  | scalar (relation : Relation) (field : Text) (value : Value)
  | member (field : Text) (values : List Value)
  | join (connective : Connective) (left right : P)
  | group (inner : P)

/-! ## Mapping a list of literals -/

theorem mapLiterals_eq_mapM (mappers : Mappers) (field : Text) (literals : List Text) :
    mapLiterals mappers field literals = literals.mapM (Mappers.map mappers field) := by
  induction literals with
  | nil => rfl
  | cons literal later ih => rw [mapLiterals, List.mapM_cons, ih]

namespace Backend

variable {m : Type → Type} [Monad m] {P : Type}

/-! ## Plain recursion -/

/-- Compiles a tree by recursion on it. A connective without its right operand is an error. -/
def compileTree (backend : Backend m P) (mappers : Mappers) : Query → ExceptT QueryError m P
  | .comparison (.relation relation) field literal => do
    let value ← ofMapping (Mappers.map mappers field literal)
    backend.scalar relation field value
  | .comparison .member field literal => do
    match listElements? literal with
    | none => throw (.malformedList field literal)
    | some elements =>
      let values ← ofMapping (elements.mapM (Mappers.map mappers field))
      backend.member field values
  | .joined connective left right => do
    let l ← compileTree backend mappers left
    let r ← compileTree backend mappers right
    backend.join connective l r
  | .dangling connective left => throw (.incomplete (Query.dangling connective left).display)
  | .group inner => do
    let predicate ← compileTree backend mappers inner
    backend.group predicate

/-! ## Keeping a list of the requests -/

/-- What a backend answers to a request. -/
def answer (backend : Backend m P) : Request P → ExceptT QueryError m P
  | .scalar relation field value => backend.scalar relation field value
  | .member field values => backend.member field values
  | .join connective left right => backend.join connective left right
  | .group inner => backend.group inner

/-- Puts a request at the end of the list and does something. -/
def noting {α : Type} (request : Request P) (answer : m α) : StateT (List (Request P)) m α :=
  fun requests => do return (← answer, requests ++ [request])

/-- A backend that does what another one does and keeps a list of what it was asked for. -/
def logged (backend : Backend m P) : Backend (StateT (List (Request P)) m) P where
  scalar relation field value :=
    .mk (noting (.scalar relation field value) (backend.scalar relation field value).run)
  member field values := .mk (noting (.member field values) (backend.member field values).run)
  join connective left right :=
    noting (.join connective left right) (backend.join connective left right)
  group inner := noting (.group inner) (backend.group inner)

variable [LawfulMonad m]

/-- Without its list, one computation is another one. -/
def Does {σ α : Type} (x : ExceptT QueryError (StateT σ m) α) (y : ExceptT QueryError m α) : Prop :=
  ∀ s, Prod.fst <$> x.run.run s = y.run

section Does

variable {σ α β : Type}

theorem does_pure (a : α) :
    Does (pure a : ExceptT QueryError (StateT σ m) α) (pure a : ExceptT QueryError m α) := by
  intro s
  simp

theorem does_throw (e : QueryError) :
    Does (throw e : ExceptT QueryError (StateT σ m) α) (throw e : ExceptT QueryError m α) := by
  intro s
  simp

theorem does_ofMapping (outcome : Except MappingError α) :
    Does (ofMapping outcome : ExceptT QueryError (StateT σ m) α)
      (ofMapping outcome : ExceptT QueryError m α) := by
  cases outcome with
  | ok a => exact does_pure a
  | error e => exact does_throw (.mapping e)

theorem Does.bind {x : ExceptT QueryError (StateT σ m) α} {y : ExceptT QueryError m α}
    {f : α → ExceptT QueryError (StateT σ m) β} {g : α → ExceptT QueryError m β}
    (h : Does x y) (hf : ∀ a, Does (f a) (g a)) : Does (x >>= f) (y >>= g) := by
  intro s
  rw [ExceptT.run_bind, ExceptT.run_bind, ← h s, StateT.run_bind, map_bind, bind_map_left]
  refine bind_congr fun ⟨outcome, s'⟩ => ?_
  cases outcome with
  | ok a => exact hf a s'
  | error e => simp

end Does

theorem run_noting_eq_map {α : Type} (request : Request P) (answer : m α)
    (before : List (Request P)) :
    (noting request answer).run before = (fun a => (a, before ++ [request])) <$> answer := by
  simp [noting, StateT.run]

theorem run_noting {α : Type} (request : Request P) (answer : m α)
    (requests : List (Request P)) :
    Prod.fst <$> (noting request answer).run requests = answer := by
  simp [run_noting_eq_map]

theorem does_noting {α : Type} (request : Request P) (answer : ExceptT QueryError m α) :
    Does (.mk (noting request answer.run)) answer := by
  intro requests
  exact run_noting request answer.run requests

theorem does_lift_noting (request : Request P) (answer : m P) :
    Does (ExceptT.lift (noting request answer)) (ExceptT.lift answer) := by
  intro requests
  have h := congrArg (Functor.map (@Except.ok QueryError P)) (run_noting request answer requests)
  simpa using h

/-- A backend that keeps a list of its requests puts each at the end. -/
theorem run_answer_logged (backend : Backend m P) (request : Request P)
    (before : List (Request P)) :
    (backend.logged.answer request).run.run before =
      (fun outcome => (outcome, before ++ [request])) <$> (backend.answer request).run := by
  cases request with
  | scalar | member => exact run_noting_eq_map _ _ before
  | join | group => simp [answer, logged, run_noting_eq_map]

/-- **Keeping a list of the requests changes nothing else.** -/
theorem does_compileTree_logged (backend : Backend m P) (mappers : Mappers) (q : Query) :
    Does (backend.logged.compileTree mappers q) (backend.compileTree mappers q) := by
  induction q with
  | comparison op field literal =>
    cases op with
    | relation relation =>
      rw [compileTree, compileTree]
      exact (does_ofMapping _).bind fun value => does_noting _ (backend.scalar relation field value)
    | member =>
      rw [compileTree, compileTree]
      cases listElements? literal with
      | none => exact does_throw _
      | some elements =>
        exact (does_ofMapping _).bind fun values => does_noting _ (backend.member field values)
  | joined connective left right ihl ihr =>
    rw [compileTree, compileTree]
    refine ihl.bind fun l => ihr.bind fun r => ?_
    exact does_lift_noting _ (backend.join connective l r)
  | dangling connective left => exact does_throw _
  | group inner ih =>
    rw [compileTree, compileTree]
    exact ih.bind fun predicate => does_lift_noting _ (backend.group predicate)

/-! ## The two ways of compiling -/

theorem compileTree_comparison (backend : Backend m P) (mappers : Mappers) (op : Comparator)
    (field literal : Text) :
    backend.compileTree mappers (.comparison op field literal) =
      backend.comparison mappers op field literal := by
  cases op with
  | relation relation => rw [compileTree, comparison_relation]
  | member =>
    rw [compileTree, comparison_member]
    cases listElements? literal with
    | none => rfl
    | some elements =>
      dsimp only
      rw [mapLiterals_eq_mapM]

theorem compileTree_eq_compile (backend : Backend m P) (mappers : Mappers) (q : Query) :
    backend.compileTree mappers q = backend.compile mappers q := by
  induction q with
  | comparison op field literal => rw [compileTree_comparison, compile_comparison]
  | joined connective left right ihl ihr => rw [compileTree, ihl, ihr, compile_joined]
  | dangling connective left => rfl
  | group inner ih => rw [compileTree, ih, compile_group]

theorem does_compile_logged (backend : Backend m P) (mappers : Mappers) (q : Query) :
    Does (backend.logged.compile mappers q) (backend.compile mappers q) := by
  rw [← compileTree_eq_compile, ← compileTree_eq_compile]
  exact backend.does_compileTree_logged mappers q

/-- **Compiling is plain recursion on the tree.** For every backend in every monad, every table of
readers and every tree, also one that waits for operands, the walk down the chains has the outcome
and the effects of recursion on the tree. In particular a backend that keeps a list of its requests
has the same list in the end, whether the compilation succeeds or fails on the way, and but for the
list it does what the backend does. -/
theorem compile_eq_compileTree (backend : Backend m P) (mappers : Mappers) (q : Query) :
    backend.compile mappers q = backend.compileTree mappers q ∧
      backend.logged.compile mappers q = backend.logged.compileTree mappers q ∧
      ∀ requests, Prod.fst <$> (backend.logged.compile mappers q).run.run requests =
        (backend.compile mappers q).run := by
  refine ⟨(backend.compileTree_eq_compile mappers q).symm,
    (backend.logged.compileTree_eq_compile mappers q).symm, ?_⟩
  rw [← compileTree_eq_compile, ← compileTree_eq_compile]
  exact backend.does_compileTree_logged mappers q

/-- A tree that leans to the right and fails on the way: only its first comparison is asked for, in
both ways of compiling. -/
theorem compile_eq_compileTree_right_nested :
    let backend := Trace.backend (some ["a".toList])
    let q : Query := .joined .and (.comparison (.relation .equal) "a".toList "1".toList)
      (.joined .or (.comparison .member "b".toList "[2]".toList)
        (.comparison (.relation .like) "a".toList "3".toList))
    let asked := (.error (.unknownField "b".toList),
      [Call.scalar .equal "a".toList (.string "1".toList)])
    (backend.compile .empty q).run.run [] = asked ∧
      (backend.compileTree .empty q).run.run [] = asked := by
  intro backend q asked
  have htree : (backend.compileTree .empty q).run.run [] = asked := rfl
  exact ⟨(backend.compile_eq_compileTree .empty q).1 ▸ htree, htree⟩

end Backend

end RecordQuery
