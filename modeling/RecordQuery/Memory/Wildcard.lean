import RecordQuery.Text.Basic

/-!
# Wildcard patterns

In a pattern, `*` stands for any run of characters, an empty one included; every other character
stands for itself. A pattern matches a text as a whole.

## Matching

The stars cut a pattern into pieces. The first piece must begin the text and the last one must end
it. Each piece between them is taken at its leftmost place behind the ones before it: if any choice
of places works, then so does this one, because it leaves the most text to the pieces that follow.

## Engines

Patterns are run by an engine that is not part of this library, and it may have limits of its own,
such as on the size of what it makes of a pattern. What a pattern means does not depend on them, so
all that is left open of an engine is which patterns it refuses, and for what reason.
-/

namespace RecordQuery.Wildcard

/-- An engine that runs patterns. -/
structure Engine where
  /-- Why a pattern is refused, if it is. -/
  refusal? : Text → Option Text

/-- An engine that takes every pattern. -/
def Engine.unlimited : Engine where
  refusal? _ := none

theorem Engine.eq_unlimited {engine : Engine} (h : ∀ pattern, engine.refusal? pattern = none) :
    engine = .unlimited := congrArg Engine.mk (funext h)

/-- The character that stands for any run of characters. -/
def star : Char := '*'

/-- Whether the pieces behind the first one are found in what follows it, the last one at the
end. -/
def followedBy : List Text → Text → Bool
  | [], t => t.isEmpty
  | [last], t => last.isSuffixOf t
  | piece :: later, t =>
    match Text.cut? piece t with
    | none => false
    | some (_, rest) => followedBy later rest

/-- Whether a pattern matches a whole text. -/
def accepts (pattern t : Text) : Bool :=
  match Text.pieces star pattern with
  | [] => false
  | first :: later =>
    match Text.after? first t with
    | none => false
    | some rest => followedBy later rest

end RecordQuery.Wildcard
