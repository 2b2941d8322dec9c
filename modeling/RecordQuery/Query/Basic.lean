import RecordQuery.Query.Operator

/-!
# Query trees

A query is a tree of comparisons, joined by connectives and grouped by parentheses. Groups are
nodes of their own: they decide how the tree is written, and a backend may keep them.

## Incomplete trees

`dangling` is a connective that has its left operand and still waits for the right one. The parser
builds such a node when it meets a connective and replaces it when the operand has come. A tree is
`valid` if no node dangles and no comparison lacks its field or its literal.

## Main results

* `Query.valid_eq_false_of_dangles`: a valid tree has no dangling node anywhere
-/

namespace RecordQuery

/-- A query. -/
inductive Query
  /-- A field compared with a literal, both as they are written. -/
  | comparison (operator : Comparator) (field literal : Text)
  /-- Two queries joined by a connective. -/
  | joined (connective : Connective) (left right : Query)
  /-- A connective whose right operand is missing. -/
  | dangling (connective : Connective) (left : Query)
  /-- A query in parentheses. -/
  | group (inner : Query)
  deriving DecidableEq, Repr

namespace Query

/-- Whether a tree is complete: every part of every comparison and every operand is there. -/
def valid : Query → Bool
  | comparison _ field literal => !field.isEmpty && !literal.isEmpty
  | joined _ left right => left.valid && right.valid
  | dangling .. => false
  | group inner => inner.valid

/-- Whether the root waits for its right operand. -/
def isOpen : Query → Bool
  | dangling .. => true
  | _ => false

/-- Whether some node of the tree waits for its right operand. -/
def dangles : Query → Bool
  | comparison .. => false
  | joined _ left right => left.dangles || right.dangles
  | dangling .. => true
  | group inner => inner.dangles

theorem valid_eq_false_of_dangles {q : Query} (h : q.dangles = true) : q.valid = false := by
  induction q with
  | comparison => simp [dangles] at h
  | joined c l r ihl ihr =>
    simp only [dangles, Bool.or_eq_true] at h
    rcases h with h | h
    · simp [valid, ihl h]
    · simp [valid, ihr h]
  | dangling => rfl
  | group q ih => simpa [valid] using ih h

/-- Levels of connectives and groups above the deepest comparison. A dangling connective counts
one level above its operand. -/
def height : Query → Nat
  | comparison .. => 0
  | joined _ left right => max left.height right.height + 1
  | dangling _ left => left.height + 1
  | group inner => inner.height + 1

/-- Deepest nesting of groups. -/
def depth : Query → Nat
  | comparison .. => 0
  | joined _ left right => max left.depth right.depth
  | dangling _ left => left.depth
  | group inner => inner.depth + 1

/-! ## Parts -/

/-- The tree with its root's right operand put in, or put in anew. -/
def withRight? : Query → Query → Option Query
  | joined c left _, right => some (joined c left right)
  | dangling c left, right => some (joined c left right)
  | _, _ => none

/-- The left operand of the root. -/
def left? : Query → Option Query
  | joined _ left _ => some left
  | dangling _ left => some left
  | _ => none

/-- The right operand of the root. -/
def right? : Query → Option Query
  | joined _ _ right => some right
  | _ => none

/-! ## Written form -/

/-- A query as it is written: single spaces around operators, and parentheses where there is a
group. -/
def display : Query → Text
  | comparison op field literal => field ++ [' '] ++ op.symbol ++ [' '] ++ literal
  | joined c left right => left.display ++ [' '] ++ c.symbol ++ [' '] ++ right.display
  | dangling c left => left.display ++ [' '] ++ c.symbol
  | group inner => ['('] ++ inner.display ++ [')']

end Query

end RecordQuery
