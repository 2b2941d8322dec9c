import RecordQuery.Query.Error
import RecordQuery.Query.Token

/-!
# Parsing queries

Connectives have no precedence: each one takes everything parsed so far in its group as its left
operand, so `a = b && c != d || e > f` reads as `(a = b && c != d) || e > f`.

A group is parsed by taking the tokens up to the parenthesis that closes it and parsing those on
their own, one level deeper. So a parenthesis that does not balance is noticed before anything
inside the group is read.

## Limits

Two limits keep queries small: `maxDepth` on the nesting of parentheses, and `maxHeight` on the
levels of the tree, where a chain of `n` connectives is `n` levels tall. The height is kept beside
the tree while it grows, so that the limit is noticed at the token that exceeds it.

## Main results

* `Parser.closeGroup_eq`: what is taken as a group, its parenthesis and the rest are the tokens
  given
-/

namespace RecordQuery

/-- How deep and how tall a query may be. -/
structure Limits where
  maxDepth : Nat := 64
  maxHeight : Nat := 256
  deriving DecidableEq, Repr

namespace Parser

/-! ## Groups -/

/-- Takes the tokens up to the closing parenthesis of a group, and those behind it. `inside` groups
have been opened and not closed within it. -/
def closeGroup (inside : Nat) : List TokenKind → Option (List TokenKind × List TokenKind)
  | [] => none
  | .leftParen :: ts =>
    (closeGroup (inside + 1) ts).map fun (group, rest) => (.leftParen :: group, rest)
  | .rightParen :: ts =>
    match inside with
    | 0 => some ([], ts)
    | inside + 1 => (closeGroup inside ts).map fun (group, rest) => (.rightParen :: group, rest)
  | t :: ts => (closeGroup inside ts).map fun (group, rest) => (t :: group, rest)

theorem closeGroup_eq {inside : Nat} {ts group rest : List TokenKind}
    (h : closeGroup inside ts = some (group, rest)) : ts = group ++ .rightParen :: rest := by
  fun_induction closeGroup inside ts generalizing group with
  | case1 => simp at h
  | case2 inside ts ih =>
    obtain ⟨⟨g, r⟩, hg, he⟩ := Option.map_eq_some_iff.1 h
    obtain ⟨rfl, rfl⟩ := Prod.mk.inj he
    simp [ih hg]
  | case3 ts => simp_all
  | case4 ts inside ih =>
    obtain ⟨⟨g, r⟩, hg, he⟩ := Option.map_eq_some_iff.1 h
    obtain ⟨rfl, rfl⟩ := Prod.mk.inj he
    simp [ih hg]
  | case5 inside t ts _ _ ih =>
    obtain ⟨⟨g, r⟩, hg, he⟩ := Option.map_eq_some_iff.1 h
    obtain ⟨rfl, rfl⟩ := Prod.mk.inj he
    simp [ih hg]

theorem length_of_closeGroup {inside : Nat} {ts group rest : List TokenKind}
    (h : closeGroup inside ts = some (group, rest)) :
    group.length + rest.length + 1 = ts.length := by
  rw [closeGroup_eq h]
  simp
  omega

/-! ## Growing trees -/

/-- Why tokens do not make a query. The query's text is added by `parse`. -/
inductive Failure
  | fault (fault : Fault)
  | fragment (error : FragmentError)
  | tooDeep (limit : Nat)
  deriving DecidableEq, Repr

/-- A tree and its height. -/
structure Subtree where
  query : Query
  height : Nat
  deriving DecidableEq, Repr

/-- A tree that is not too tall. -/
def checked (limits : Limits) (tree : Subtree) : Except Failure Subtree :=
  if limits.maxHeight < tree.height then .error (.tooDeep limits.maxHeight) else .ok tree

/-- Puts a connective behind the tree parsed so far. -/
def openConnective (limits : Limits) (c : Connective) :
    Option Subtree → Except Failure Subtree
  | none => .error (.fault (.missingLeft c))
  | some tree =>
    if tree.query.isOpen then .error (.fault (.consecutive c))
    else checked limits ⟨.dangling c tree.query, tree.height + 1⟩

/-- Puts an operand behind the tree parsed so far, where a connective waits for it or nothing has
come yet. -/
def attach (limits : Limits) (operand : Subtree) : Option Subtree → Except Failure Subtree
  | none => .ok operand
  | some ⟨.dangling c left, height⟩ =>
    checked limits ⟨.joined c left operand.query, max height (operand.height + 1)⟩
  | some _ => .error (.fault (.missingConnective operand.query.display))

/-- The tree at the end of the tokens, if it is complete. -/
def finish : Option Subtree → Except Failure Subtree
  | none => .error (.fault .empty)
  | some tree =>
    if tree.query.valid then .ok tree
    else if tree.query.isOpen then .error (.fault .missingRight)
    else .error (.fault .incomplete)

/-- Parses the tokens of a group that lies `depth` groups deep, behind the tree parsed so far. -/
def build (limits : Limits) (depth : Nat) (current : Option Subtree) :
    List TokenKind → Except Failure Subtree
  | [] => finish current
  | .leftParen :: ts =>
    if limits.maxDepth < depth + 1 then .error (.tooDeep limits.maxDepth)
    else
      match _h : closeGroup 0 ts with
      | none => .error (.fault .unbalancedOpen)
      | some (group, rest) => do
        let inner ← build limits (depth + 1) none group
        let operand ← checked limits ⟨.group inner.query, inner.height + 1⟩
        build limits depth (some (← attach limits operand current)) rest
  | .rightParen :: _ => .error (.fault .unbalancedClose)
  | .connective c :: ts => do
    build limits depth (some (← openConnective limits c current)) ts
  | .fragment text :: ts =>
    match Fragment.parse text with
    | .error e => .error (.fragment e)
    | .ok leaf => do
      build limits depth (some (← attach limits ⟨leaf, 0⟩ current)) ts
termination_by ts => ts.length
decreasing_by
  · have := length_of_closeGroup _h
    simp only [List.length_cons]
    omega
  · have := length_of_closeGroup _h
    simp only [List.length_cons]
    omega
  · simp
  · simp

end Parser

/-- A failure as an error about a query's text. -/
def ParseError.ofFailure (query : Text) : Parser.Failure → ParseError
  | .fault fault => illegalQuery query fault.message
  | .fragment e => ofFragment e
  | .tooDeep limit => tooDeep query limit

/-- Parses the text of a query. -/
def Query.parse (limits : Limits) (text : Text) : Except ParseError Query :=
  match Parser.build limits 0 none (TokenKind.ofText text) with
  | .ok tree => .ok tree.query
  | .error failure => .error (ParseError.ofFailure text failure)

end RecordQuery
