import Mathlib.Data.List.Basic
import RecordQuery.Sql.Fragment

/-!
# What rendering appends

The SQL of a condition is a template with a place for each of its values. A template knows the
columns and the text around them and nothing of the values; the dialect says how a column is written
and what stands at a place. So everything that rendering appends to a fragment is known from the
template, the values and the number of parameters that are there already.

## Numbers of placeholders

A placeholder is numbered when its parameter has been added, so its number comes from a list that
grows while the text does. `Fragment.write` does it the other way round: it counts the values first
and writes all the placeholders into the template. Writing two templates one after the other is
writing them together (`Fragment.write_write`), as long as the first one has a place for each of its
values, and every step of rendering is writing a template.

## Main results

* `Condition.renderOnto_eq_write`: rendering writes the template of the condition
* `Condition.renderOnto_aligned`: the text and the parameters that come of it, dialect by dialect
* `Condition.Alike.sql_render`: the text depends on the values by their number only
-/

namespace RecordQuery.Sql

/-! ## Templates -/

/-- A part of the SQL of a condition. -/
inductive Part
  /-- Text that every dialect writes alike. -/
  | fixed (t : Text)
  | column (name : Text)
  /-- The place of a parameter. -/
  | place
  deriving DecidableEq, Repr

namespace Dialect

/-- Writes a template, with one mark after the other at its places. -/
def fill (d : Dialect) : List Part → List Text → Text
  | [], _ => []
  | .fixed t :: parts, marks => t ++ d.fill parts marks
  | .column name :: parts, marks => d.quote name ++ d.fill parts marks
  | .place :: parts, mark :: marks => mark ++ d.fill parts marks
  | .place :: parts, [] => d.fill parts []

/-- The placeholders of `count` parameters, with `before` parameters before them. -/
def placeholders (d : Dialect) (before count : Nat) : List Text :=
  (List.range count).map fun k => d.placeholder (before + k)

variable (d : Dialect)

theorem fill_append {parts later : List Part} {marks after : List Text}
    (h : parts.count .place = marks.length) :
    d.fill (parts ++ later) (marks ++ after) = d.fill parts marks ++ d.fill later after := by
  induction parts generalizing marks with
  | nil =>
    obtain rfl := List.length_eq_zero_iff.1 h.symm
    rfl
  | cons part parts ih =>
    cases part with
    | fixed t => simpa [fill] using ih (by simpa using h)
    | column name => simpa [fill] using ih (by simpa using h)
    | place =>
      cases marks with
      | nil => simp at h
      | cons mark marks => simpa [fill] using ih (by simpa using h)

@[simp] theorem length_placeholders (before count : Nat) :
    (d.placeholders before count).length = count := by
  simp [placeholders]

@[simp] theorem placeholders_one (before : Nat) :
    d.placeholders before 1 = [d.placeholder before] := rfl

theorem placeholders_add (before count more : Nat) :
    d.placeholders before (count + more) =
      d.placeholders before count ++ d.placeholders (before + count) more := by
  simp [placeholders, List.range_add, Nat.add_assoc]

theorem placeholders_generic (before count : Nat) :
    generic.placeholders before count = List.replicate count ['?'] := by
  simp [placeholders, placeholder]

theorem placeholders_mySql (before count : Nat) :
    mySql.placeholders before count = List.replicate count ['?'] := by
  simp [placeholders, placeholder]

theorem placeholders_postgres (count : Nat) :
    postgres.placeholders 0 count = (List.range count).map fun k => '$' :: Text.ofNat (k + 1) := by
  simp [placeholders, placeholder]

end Dialect

/-- The places of `count` values, a comma between neighbours. -/
def places (count : Nat) : List Part :=
  (List.replicate count .place).intersperse (.fixed [',', ' '])

theorem places_succ_succ (count : Nat) :
    places (count + 2) = .place :: .fixed [',', ' '] :: places (count + 1) := rfl

@[simp] theorem count_places (count : Nat) : (places count).count .place = count := by
  induction count with
  | zero => rfl
  | succ count ih =>
    cases count with
    | zero => rfl
    | succ count => rw [places_succ_succ]; simp [ih]

namespace Condition

/-- The SQL of a condition, without its values. -/
def template : Condition → List Part
  | comparison column relation _ =>
    [.fixed (if relation = .notEqual then "NOT ".toList else []), .column column,
      .fixed relation.sql, .place]
  | member column values =>
    [.column column, .fixed " IN (".toList] ++ places values.length ++ [.fixed [')']]
  | joined c left right => left.template ++ [.fixed c.sql] ++ right.template
  | group inner => [.fixed ['(']] ++ inner.template ++ [.fixed [')']]

/-- A condition has a place for each of its values. -/
@[simp] theorem count_template (c : Condition) : c.template.count .place = c.values.length := by
  induction c with
  | comparison => rfl
  | member => simp [template, values]
  | joined c left right ihl ihr => simp [template, values, ihl, ihr]
  | group inner ih => simp [template, values, ih]

end Condition

/-! ## Writing -/

namespace Fragment

variable (style : Style) (f : Fragment)

/-- Appends a template and the values of its places. -/
def write (parts : List Part) (values : List Value) : Fragment where
  sql := f.sql ++
    style.dialect.fill parts (style.dialect.placeholders f.params.length values.length)
  params := f.params ++ values.map style.bound

/-- One template after the other is both together. -/
theorem write_write {parts : List Part} {values : List Value}
    (h : parts.count .place = values.length) (later : List Part) (after : List Value) :
    (f.write style parts values).write style later after =
      f.write style (parts ++ later) (values ++ after) := by
  have hmarks : parts.count .place =
      (style.dialect.placeholders f.params.length values.length).length := by simpa using h
  simp [write, Dialect.placeholders_add, Dialect.fill_append _ hmarks]

theorem add_eq_write (t : Text) : f.add t = f.write style [.fixed t] [] := by
  simp [add, write, Dialect.fill]

theorem addColumn_eq_write (column : Text) :
    f.addColumn style column = f.write style [.column column] [] := by
  simp [addColumn, add, write, Dialect.fill]

theorem addParam_eq_write (value : Value) :
    f.addParam style value = f.write style [.place] [value] := by
  simp [addParam, write, Dialect.fill]

theorem addParams_eq_write (values : List Value) :
    f.addParams style values = f.write style (places values.length) values := by
  induction values generalizing f with
  | nil => simp [addParams, places, write, Dialect.fill]
  | cons v later ih =>
    cases later with
    | nil => exact f.addParam_eq_write style v
    | cons w later =>
      have hstep : f.addParams style (v :: w :: later) =
          ((f.addParam style v).add [',', ' ']).addParams style (w :: later) := rfl
      rw [hstep, ih, add_eq_write style, addParam_eq_write, write_write _ _ rfl,
        write_write _ _ rfl]
      rfl

end Fragment

namespace Condition

/-- **Rendering writes the template of the condition.** -/
theorem renderOnto_eq_write (style : Style) (c : Condition) (f : Fragment) :
    c.renderOnto style f = f.write style c.template c.values := by
  induction c generalizing f with
  | comparison column relation value =>
    have hfront : (if relation = .notEqual then f.add "NOT ".toList else f) =
        f.write style [.fixed (if relation = .notEqual then "NOT ".toList else [])] [] := by
      split
      · exact f.add_eq_write style _
      · simp [Fragment.write, Dialect.fill]
    rw [renderOnto, hfront, Fragment.addColumn_eq_write, Fragment.add_eq_write style,
      Fragment.addParam_eq_write, Fragment.write_write, Fragment.write_write, Fragment.write_write]
    · rfl
    all_goals rfl
  | member column values =>
    rw [renderOnto, Fragment.addColumn_eq_write, Fragment.add_eq_write style,
      Fragment.addParams_eq_write, Fragment.add_eq_write style, Fragment.write_write,
      Fragment.write_write, Fragment.write_write]
    · simp [template, Condition.values]
    all_goals simp
  | joined c left right ihl ihr =>
    rw [renderOnto, ihl, Fragment.add_eq_write style, ihr, Fragment.write_write,
      Fragment.write_write]
    · simp [template, values]
    all_goals simp
  | group inner ih =>
    rw [renderOnto, Fragment.add_eq_write style, ih, Fragment.add_eq_write style,
      Fragment.write_write, Fragment.write_write]
    · simp [template, values]
    all_goals simp

theorem sql_render (style : Style) (c : Condition) :
    (c.render style).sql =
      style.dialect.fill c.template (style.dialect.placeholders 0 c.values.length) := by
  rw [render, renderOnto_eq_write]
  rfl

/-- **Rendering only appends, and placeholders and parameters stay aligned.** The parameters are
those that were there and the values of the condition from left to right, each as it is bound. The
text is the one that was there and the template of the condition, which has one place for each
value; at its `k`-th place stands the placeholder behind those of the parameters that were there and
of `k` values. So from the empty fragment the placeholders are numbered from one in the one dialect,
and all alike in the others. -/
theorem renderOnto_aligned (style : Style) (c : Condition) (f : Fragment) :
    (c.renderOnto style f).params = f.params ++ c.values.map style.bound ∧
      (c.renderOnto style f).sql = f.sql ++ style.dialect.fill c.template
        ((List.range c.values.length).map fun k =>
          style.dialect.placeholder (f.params.length + k)) ∧
      c.template.count .place = c.values.length ∧
      (c.render ⟨.postgres, style.zone⟩).sql = Dialect.postgres.fill c.template
        ((List.range c.values.length).map fun k => '$' :: Text.ofNat (k + 1)) ∧
      (c.render ⟨.generic, style.zone⟩).sql =
        Dialect.generic.fill c.template (List.replicate c.values.length ['?']) ∧
      (c.render ⟨.mySql, style.zone⟩).sql =
        Dialect.mySql.fill c.template (List.replicate c.values.length ['?']) := by
  rw [renderOnto_eq_write, sql_render, sql_render, sql_render, Dialect.placeholders_postgres,
    Dialect.placeholders_generic, Dialect.placeholders_mySql]
  exact ⟨rfl, rfl, count_template c, rfl, rfl, rfl⟩

example : (render ⟨.postgres, .utc⟩ (.joined .and
      (.comparison "a\"b".toList .greaterOrEqual .null)
      (.group (.joined .or (.comparison ['c'] .notEqual .null)
        (.member ['d'] [.null, .null]))))).sql =
    "\"a\"\"b\" >= $1 AND (NOT \"c\" = $2 OR \"d\" IN ($3, $4))".toList := by
  decide

/-! ## Conditions that differ in their values -/

/-- Conditions that are the same but for their values. Lists have as many. -/
inductive Alike : Condition → Condition → Prop
  | comparison (column : Text) (relation : Relation) (value value' : Value) :
      Alike (.comparison column relation value) (.comparison column relation value')
  | member (column : Text) {values values' : List Value} (h : values.length = values'.length) :
      Alike (.member column values) (.member column values')
  | joined (c : Connective) {l l' r r' : Condition} (hl : Alike l l') (hr : Alike r r') :
      Alike (.joined c l r) (.joined c l' r')
  | group {inner inner' : Condition} (h : Alike inner inner') : Alike (.group inner) (.group inner')

variable {c c' : Condition}

theorem Alike.template_eq (h : Alike c c') : c.template = c'.template := by
  induction h with
  | comparison => rfl
  | member column h => rw [template, template, h]
  | joined c _ _ ihl ihr => rw [template, template, ihl, ihr]
  | group _ ih => rw [template, template, ih]

/-- **No value becomes part of the text.** Conditions that differ in their values have the same
text, whatever zones their date-times are meant in. -/
theorem Alike.sql_render (h : Alike c c') (d : Dialect) (zone zone' : ZoneOffset) :
    (c.render ⟨d, zone⟩).sql = (c'.render ⟨d, zone'⟩).sql := by
  have hlength : c.values.length = c'.values.length := by
    rw [← count_template, ← count_template, h.template_eq]
  rw [Condition.sql_render, Condition.sql_render, h.template_eq, hlength]

end Condition

end RecordQuery.Sql
