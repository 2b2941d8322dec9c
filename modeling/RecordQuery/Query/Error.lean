import RecordQuery.Query.Fragment

/-!
# Errors of parsing

A parse fails for one of four reasons, and the text that an error points at is either the whole
query or the fragment that could not be read. What is wrong with the structure of a query is a
`Fault`. The error holds its wording, as it could hold anyone else's; but a wording of a fault is
that of no other one.

## Main results

* `Fault.message_injective`: wordings tell faults apart
-/

namespace RecordQuery

/-- What is wrong with the structure of a query. An operand is named by its text. -/
inductive Fault
  | unbalancedOpen
  | unbalancedClose
  | missingLeft (connective : Connective)
  | consecutive (connective : Connective)
  | missingConnective (operand : Text)
  | missingRight
  | incomplete
  | empty
  deriving DecidableEq, Repr

/-- Why a query could not be parsed. -/
inductive ParseError
  /-- The structure of the query is wrong. The reason is in words. -/
  | illegalQuery (query reason : Text)
  /-- A fragment is claimed by no operator. -/
  | illegalPart (fragment : Text)
  /-- A fragment does not split into a field and a literal. -/
  | invalidPart (fragment : Text)
  /-- A limit on nesting or height is exceeded. -/
  | tooDeep (query : Text) (limit : Nat)
  deriving DecidableEq, Repr

/-- The wording of a fault. -/
def Fault.message : Fault → Text
  | unbalancedOpen => "unbalanced '('".toList
  | unbalancedClose => "unbalanced ')'".toList
  | missingLeft c => "missing left operand for '".toList ++ c.symbol ++ ['\'']
  | consecutive c => "consecutive logical operators at '".toList ++ c.symbol ++ ['\'']
  | missingConnective operand =>
    "missing logical operator before '".toList ++ operand ++ ['\'']
  | missingRight => "missing right operand".toList
  | incomplete => "incomplete expression".toList
  | empty => "empty expression".toList

namespace Fault

/-- The faults that name no operand. -/
def plain : List Fault :=
  [unbalancedOpen, unbalancedClose, missingLeft .and, missingLeft .or, consecutive .and,
    consecutive .or, missingRight, incomplete, empty]

theorem mem_plain_or_eq (fault : Fault) :
    fault ∈ plain ∨ ∃ operand, fault = missingConnective operand := by
  cases fault with
  | missingConnective operand => exact .inr ⟨operand, rfl⟩
  | missingLeft c | consecutive c => cases c <;> exact .inl (by decide)
  | _ => exact .inl (by decide)

/-- The wordings of the other faults begin differently. -/
theorem message_ne_missingConnective {fault : Fault} (h : fault ∈ plain) (operand : Text) :
    fault.message ≠ (missingConnective operand).message := by
  have key : ∀ fault ∈ plain, fault.message.take 10 ≠ "missing lo".toList := by decide
  intro heq
  exact key fault h (by rw [heq]; rfl)

/-- **Wordings tell faults apart.** -/
theorem message_injective : Function.Injective message := by
  have key : ∀ a ∈ plain, ∀ b ∈ plain, a.message = b.message → a = b := by decide
  intro a b h
  rcases mem_plain_or_eq a with ha | ⟨operand, rfl⟩
  · rcases mem_plain_or_eq b with hb | ⟨operand, rfl⟩
    · exact key a ha b hb h
    · exact absurd h (message_ne_missingConnective ha operand)
  · rcases mem_plain_or_eq b with hb | ⟨operand', rfl⟩
    · exact absurd h.symm (message_ne_missingConnective hb operand)
    · rw [List.append_cancel_left (List.append_cancel_right h)]

end Fault

namespace ParseError

/-- A fragment's error as an error of the query that holds it. -/
def ofFragment : FragmentError → ParseError
  | .unclaimed fragment => illegalPart fragment
  | .unsplit fragment => invalidPart fragment

/-- The wording of an error. -/
def message : ParseError → Text
  | illegalQuery query reason =>
    "Illegal query: ".toList ++ query ++ " (".toList ++ reason ++ [')']
  | illegalPart fragment => "Illegal query part: ".toList ++ fragment
  | invalidPart fragment => "Invalid query part: ".toList ++ fragment
  | tooDeep query limit =>
    "Query exceeds the maximum nesting depth of ".toList ++ Text.ofNat limit ++ ": ".toList
      ++ query

/-- The text that an error points at. -/
def fragment : ParseError → Text
  | illegalQuery query _ => query
  | illegalPart fragment => fragment
  | invalidPart fragment => fragment
  | tooDeep query _ => query

end ParseError

end RecordQuery
