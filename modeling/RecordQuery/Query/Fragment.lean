import RecordQuery.Query.Basic
import RecordQuery.Text.Blank

/-!
# Reading one comparison

A fragment is read in two steps. First an operator claims it: the first one of the catalogue whose
symbol stands somewhere inside the trimmed fragment, with text on both sides, while no longer
symbol does. Then the fragment is split at the symbol, which must give exactly two parts that are
not blank.

The two steps can disagree on purpose. Claiming asks whether the symbol occurs with some character
on either side, splitting asks for exactly one occurrence; so `a = b = c` is claimed by `=` and
then refused.
-/

namespace RecordQuery

/-- Why a fragment is not a comparison. Both cases carry the trimmed fragment. -/
inductive FragmentError
  /-- No operator claims the fragment. -/
  | unclaimed (fragment : Text)
  /-- The operator does not split the fragment into a field and a literal. -/
  | unsplit (fragment : Text)
  deriving DecidableEq, Repr

namespace Fragment

/-- Whether a symbol stands in a text with at least one character behind it. -/
def occursBeforeEnd (symbol : Text) : Text → Bool
  | [] => false
  | c :: t =>
    (match Text.after? symbol (c :: t) with
      | some (_ :: _) => true
      | _ => false) || occursBeforeEnd symbol t

/-- Whether a symbol stands in a text with at least one character on either side. -/
def occursInside (symbol : Text) : Text → Bool
  | [] => false
  | _ :: t => occursBeforeEnd symbol t

/-- Whether an operator claims a fragment. -/
def claims (op : Comparator) (fragment : Text) : Bool :=
  let trimmed := fragment.trim
  occursInside op.symbol trimmed &&
    !op.longer.any fun other => occursInside other.symbol trimmed

/-- Reads a fragment with a given operator. -/
def parseAs (op : Comparator) (fragment : Text) : Except FragmentError Query :=
  let trimmed := fragment.trim
  if !claims op trimmed then .error (.unclaimed trimmed)
  else
    match Text.cut? op.symbol trimmed with
    | none => .error (.unsplit trimmed)
    | some (before, after) =>
      if (Text.cut? op.symbol after).isSome || before.trim.isEmpty || after.trim.isEmpty then
        .error (.unsplit trimmed)
      else .ok (.comparison op before.trim after.trim)

/-- The operator that a fragment is read with. -/
def operator? (fragment : Text) : Option Comparator :=
  Comparator.all.find? fun op => claims op fragment

/-- Reads a fragment. -/
def parse (fragment : Text) : Except FragmentError Query :=
  let trimmed := fragment.trim
  match operator? trimmed with
  | none => .error (.unclaimed trimmed)
  | some op => parseAs op trimmed

end Fragment

end RecordQuery
