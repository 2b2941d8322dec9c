import RecordQuery.Calendar.ZoneOffset
import RecordQuery.Sql.Condition
import RecordQuery.Sql.Dialect
import RecordQuery.Value.Json

/-!
# Rendering conditions

A fragment is SQL text with the parameters for its placeholders, in reading order. Rendering a
condition only appends to a fragment: no value ever becomes part of the text.

Date-times that know no zone are bound as instants of UTC, by the offset of the zone they are meant
in. One that has no such instant, because dates do not reach that far, is bound as it is.
-/

namespace RecordQuery

/-- What stands between a column and its parameter. `≠` is written by negating an equality. -/
def Relation.sql : Relation → Text
  | .equal | .notEqual => " = ".toList
  | .greater => " > ".toList
  | .greaterOrEqual => " >= ".toList
  | .less => " < ".toList
  | .lessOrEqual => " <= ".toList
  | .like => " LIKE ".toList
  | .notLike => " NOT LIKE ".toList

/-- What stands between two joined conditions. -/
def Connective.sql : Connective → Text
  | .and => " AND ".toList
  | .or => " OR ".toList

end RecordQuery

namespace RecordQuery.Sql

/-- What rendering depends on. -/
structure Style where
  dialect : Dialect
  /-- The zone in which date-times without one are meant. -/
  zone : ZoneOffset := .utc
  deriving DecidableEq, Repr

/-- SQL text and its parameters. -/
structure Fragment where
  sql : Text
  params : List Value
  deriving DecidableEq, Repr

/-- The value that is bound for a value. -/
def Style.bound (style : Style) : Value → Value
  | .dateTime t =>
    match style.zone.toUtc? t with
    | some instant => .timestamp instant
    | none => .dateTime t
  | v => v

namespace Fragment

/-- The fragment without text. -/
def empty : Fragment := ⟨[], []⟩

/-- Appends text. -/
def add (text : Text) (f : Fragment) : Fragment := { f with sql := f.sql ++ text }

/-- Appends the name of a column. -/
def addColumn (style : Style) (column : Text) (f : Fragment) : Fragment :=
  f.add (style.dialect.quote column)

/-- Appends a placeholder and its parameter. -/
def addParam (style : Style) (value : Value) (f : Fragment) : Fragment where
  sql := f.sql ++ style.dialect.placeholder f.params.length
  params := f.params ++ [style.bound value]

@[simp] theorem add_sql (text : Text) (f : Fragment) : (f.add text).sql = f.sql ++ text := rfl

/-- Appends placeholders, a comma between neighbours. -/
def addParams (style : Style) : List Value → Fragment → Fragment
  | [], f => f
  | [v], f => f.addParam style v
  | v :: later, f => addParams style later ((f.addParam style v).add [',', ' '])

end Fragment

/-! ## Conditions -/

namespace Condition

/-- Appends a condition to a fragment. -/
def renderOnto (style : Style) : Condition → Fragment → Fragment
  | comparison column relation value, f =>
    let f := if relation = .notEqual then f.add "NOT ".toList else f
    ((f.addColumn style column).add relation.sql).addParam style value
  | member column values, f =>
    (((f.addColumn style column).add " IN (".toList).addParams style values).add [')']
  | joined connective left right, f =>
    right.renderOnto style ((left.renderOnto style f).add connective.sql)
  | group inner, f => (inner.renderOnto style (f.add ['('])).add [')']

/-- A condition as SQL. -/
def render (style : Style) (c : Condition) : Fragment := c.renderOnto style .empty

/-- A condition as it is shown: SQL of the generic dialect. -/
def display (c : Condition) : Text := (c.render ⟨.generic, .utc⟩).sql

end Condition

/-- A fragment as a JSON value. -/
def Fragment.toJson (f : Fragment) : Json :=
  .object [("sql".toList, .string f.sql), ("params".toList, .array (f.params.map Value.toJson))]

end RecordQuery.Sql
