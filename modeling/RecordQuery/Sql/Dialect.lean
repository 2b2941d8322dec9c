import RecordQuery.Text.Basic

/-!
# SQL dialects

Dialects differ in how a column name is quoted and how the place of a parameter is marked. Where
names are quoted, a quote inside a name is doubled, so that no name can end its own quotation. The
generic dialect leaves names as they are.

## Main results

* `Dialect.quote_eq`: a quoted name is the name between two quotes, its own quotes doubled
-/

namespace RecordQuery.Sql

/-- The dialects of SQL. -/
inductive Dialect
  | generic
  | postgres
  | mySql
  deriving DecidableEq, Repr

namespace Dialect

/-- The name of a dialect. -/
def name : Dialect → Text
  | generic => "Generic".toList
  | postgres => "PostgreSQL".toList
  | mySql => "MySQL".toList

/-- The character that names are quoted with. -/
def quoteChar? : Dialect → Option Char
  | generic => none
  | postgres => some '"'
  | mySql => some '\x60'

/-- A column name as it stands in SQL. -/
def quote (d : Dialect) (column : Text) : Text :=
  match d.quoteChar? with
  | none => column
  | some q => q :: (Text.replace q [q, q] column ++ [q])

/-- The mark of the place of a parameter, with `before` parameters before it. -/
def placeholder (d : Dialect) (before : Nat) : Text :=
  match d with
  | postgres => '$' :: Text.ofNat (before + 1)
  | generic | mySql => ['?']

theorem quote_eq {d : Dialect} {q : Char} (h : d.quoteChar? = some q) (column : Text) :
    d.quote column = q :: (Text.replace q [q, q] column ++ [q]) := by
  simp [quote, h]

end Dialect

end RecordQuery.Sql
