import RecordQuery.Text.Basic

/-!
# Operators

A comparison relates a field to a literal by one of nine operators. Eight of them take the literal
as one value (`Relation`); the ninth, `∈`, takes it as a list of values. Comparisons are joined by
two connectives.

## The catalogue

`Comparator.all` lists the operators in the order in which they are tried on the text of a
comparison. Some symbols contain others (`>=` contains both `>` and `=`), and a comparison written
with the longer one must not be claimed by the shorter one: `Comparator.longer` names the longer
ones.

## Main results

* `Comparator.mem_all`: the catalogue is complete
* `Comparator.longer_longer`: no chain of longer symbols has two steps
-/

namespace RecordQuery

/-- The operators that compare a field with one value. -/
inductive Relation
  | equal
  | notEqual
  | greater
  | greaterOrEqual
  | less
  | lessOrEqual
  | like
  | notLike
  deriving DecidableEq, Repr

/-- The operators of comparisons: a relation to one value, or membership in a list of values. -/
inductive Comparator
  | relation (r : Relation)
  | member
  deriving DecidableEq, Repr

/-- The operators that join comparisons. -/
inductive Connective
  | and
  | or
  deriving DecidableEq, Repr

/-! ## Symbols -/

/-- How a relation is written. -/
def Relation.symbol : Relation → Text
  | equal => ['=']
  | notEqual => ['!', '=']
  | greater => ['>']
  | greaterOrEqual => ['>', '=']
  | less => ['<']
  | lessOrEqual => ['<', '=']
  | like => ['≈']
  | notLike => ['!', '≈']

/-- How a connective is written. -/
def Connective.symbol : Connective → Text
  | and => ['&', '&']
  | or => ['|', '|']

namespace Comparator

/-- How an operator is written. -/
def symbol : Comparator → Text
  | relation r => r.symbol
  | member => ['∈']

/-! ## The catalogue -/

/-- All operators, in the order in which they are tried. -/
def all : List Comparator :=
  [relation .equal, relation .notEqual, relation .greater, relation .greaterOrEqual,
    relation .less, relation .lessOrEqual, relation .like, relation .notLike, member]

/-- The operators whose symbol contains this one's. -/
def longer : Comparator → List Comparator
  | relation .equal => [relation .notEqual, relation .greaterOrEqual, relation .lessOrEqual]
  | relation .greater => [relation .greaterOrEqual]
  | relation .less => [relation .lessOrEqual]
  | relation .like => [relation .notLike]
  | _ => []

theorem mem_all (c : Comparator) : c ∈ all := by
  rcases c with r | _
  · cases r <;> decide
  · decide

theorem longer_longer {c d : Comparator} (h : d ∈ c.longer) : d.longer = [] := by
  have key : ∀ c ∈ all, ∀ d ∈ c.longer, d.longer = [] := by decide
  exact key c (mem_all c) d h

@[simp] theorem symbol_ne_nil (c : Comparator) : c.symbol ≠ [] := by
  have key : ∀ c ∈ all, c.symbol ≠ [] := by decide
  exact key c (mem_all c)

end Comparator

/-! ## Names -/

/-- The name of a relation in written trees. -/
def Relation.name : Relation → Text
  | equal => "Equal".toList
  | notEqual => "NotEqual".toList
  | greater => "GreaterThan".toList
  | greaterOrEqual => "GreaterThanOrEqual".toList
  | less => "LessThan".toList
  | lessOrEqual => "LessThanOrEqual".toList
  | like => "Like".toList
  | notLike => "NotLike".toList

/-- The name of an operator in written trees. -/
def Comparator.name : Comparator → Text
  | relation r => r.name
  | member => "In".toList

/-- The name of a connective in written trees. -/
def Connective.name : Connective → Text
  | and => "And".toList
  | or => "Or".toList

/-- The operator of a name. -/
def Comparator.ofName? (name : Text) : Option Comparator :=
  Comparator.all.find? fun c => c.name = name

/-- The connective of a name. -/
def Connective.ofName? (name : Text) : Option Connective :=
  [Connective.and, Connective.or].find? fun c => c.name = name

end RecordQuery
