import RecordQuery.Compile.Error
import RecordQuery.Mapping.Basic
import RecordQuery.Query.Parser

/-!
# Compiling queries

A backend says what a comparison, a connective and a group become. Compiling maps every literal to
a value of its field's type and hands the values to the backend, in the order in which the
comparisons are written. The first error ends the compilation.

## Effects

What a backend does may have an effect, such as keeping a record of what it was asked for. So a
backend works in a monad. Comparisons may fail there; connectives and groups cannot.

## Chains

The left operands of a connective that is the left operand of another one, and so on, make a chain.
A chain is walked down to its leftmost operand before anything is compiled, and the operands that
were passed wait in a list. If a connective on the way dangles, that is the error, and the backend
is asked for nothing.

## Main results

* `compileChain_comparison`, `compileChain_joined`, `compileChain_group`, `compileChain_dangling`:
  one equation for each form of a query
-/

namespace RecordQuery

/-- What queries are compiled into: predicates of a type `P`, built in a monad `m`. -/
structure Backend (m : Type → Type) (P : Type) where
  /-- A comparison of a field with one value. -/
  scalar : Relation → Text → Value → ExceptT QueryError m P
  /-- The test whether a field is among values. -/
  member : Text → List Value → ExceptT QueryError m P
  join : Connective → P → P → m P
  group : P → m P

/-! ## Lists -/

/-- The elements of a list literal, without the blanks around them: a text in brackets that is not
blank, cut at its commas. -/
def listElements? (literal : Text) : Option (List Text) := do
  let rest ← Text.after? ['['] literal
  let inner := (← Text.after? [']'] rest.reverse).reverse
  if Text.isBlank inner then none else some ((Text.pieces ',' inner).map Text.trim)

/-- Maps literals of a field, in order. -/
def mapLiterals (mappers : Mappers) (field : Text) :
    List Text → Except MappingError (List Value)
  | [] => .ok []
  | literal :: later => do
    let value ← Mappers.map mappers field literal
    return value :: (← mapLiterals mappers field later)

/-! ## Trees -/

variable {m : Type → Type} [Monad m] {P : Type}

namespace Backend

/-- Compiles a comparison. -/
def comparison (backend : Backend m P) (mappers : Mappers) :
    Comparator → Text → Text → ExceptT QueryError m P
  | .relation relation, field, literal =>
    match Mappers.map mappers field literal with
    | .ok value => backend.scalar relation field value
    | .error e => throw (.mapping e)
  | .member, field, literal =>
    match listElements? literal with
    | none => throw (.malformedList field literal)
    | some elements =>
      match mapLiterals mappers field elements with
      | .ok values => backend.member field values
      | .error e => throw (.mapping e)

/-- Compiles the operands that wait and joins them to a predicate, one after the other. -/
def joinAll (backend : Backend m P) (left : P) :
    List (Connective × ExceptT QueryError m P) → ExceptT QueryError m P
  | [] => pure left
  | (connective, operand) :: later => do
    let right ← operand
    joinAll backend (← backend.join connective left right) later

/-- Compiles a tree and joins to it the operands that wait. -/
def compileChain (backend : Backend m P) (mappers : Mappers) :
    Query → List (Connective × ExceptT QueryError m P) → ExceptT QueryError m P
  | .comparison operator field literal, later => do
    backend.joinAll (← backend.comparison mappers operator field literal) later
  | .joined connective left right, later =>
    compileChain backend mappers left
      ((connective, compileChain backend mappers right []) :: later)
  | .dangling connective left, _ => throw (.incomplete (Query.dangling connective left).display)
  | .group inner, later => do
    let predicate ← compileChain backend mappers inner []
    backend.joinAll (← backend.group predicate) later

/-- Compiles a tree. -/
def compile (backend : Backend m P) (mappers : Mappers) (q : Query) : ExceptT QueryError m P :=
  backend.compileChain mappers q []

/-- Parses and compiles the text of a query. -/
def compileText (backend : Backend m P) (mappers : Mappers) (limits : Limits) (text : Text) :
    ExceptT QueryError m P :=
  match Query.parse limits text with
  | .ok q => backend.compile mappers q
  | .error e => throw (.parse e)

/-! ## Equations -/

@[simp] theorem joinAll_nil (backend : Backend m P) (left : P) :
    backend.joinAll left [] = pure left := rfl

theorem joinAll_cons (backend : Backend m P) (left : P) (connective : Connective)
    (operand : ExceptT QueryError m P) (later : List (Connective × ExceptT QueryError m P)) :
    backend.joinAll left ((connective, operand) :: later) = (do
      let right ← operand
      backend.joinAll (← backend.join connective left right) later) := rfl

theorem compileChain_comparison (backend : Backend m P) (mappers : Mappers)
    (operator : Comparator) (field literal : Text)
    (later : List (Connective × ExceptT QueryError m P)) :
    backend.compileChain mappers (.comparison operator field literal) later = (do
      backend.joinAll (← backend.comparison mappers operator field literal) later) := rfl

theorem compileChain_joined (backend : Backend m P) (mappers : Mappers)
    (connective : Connective) (left right : Query)
    (later : List (Connective × ExceptT QueryError m P)) :
    backend.compileChain mappers (.joined connective left right) later =
      backend.compileChain mappers left
        ((connective, backend.compile mappers right) :: later) := rfl

theorem compileChain_dangling (backend : Backend m P) (mappers : Mappers)
    (connective : Connective) (left : Query)
    (later : List (Connective × ExceptT QueryError m P)) :
    backend.compileChain mappers (.dangling connective left) later =
      throw (.incomplete (Query.dangling connective left).display) := rfl

theorem compileChain_group (backend : Backend m P) (mappers : Mappers) (inner : Query)
    (later : List (Connective × ExceptT QueryError m P)) :
    backend.compileChain mappers (.group inner) later = (do
      let predicate ← backend.compile mappers inner
      backend.joinAll (← backend.group predicate) later) := rfl

end Backend

end RecordQuery
