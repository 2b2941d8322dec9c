import RecordQuery.Proofs.Compile.Comparisons
import RecordQuery.Proofs.Sql.Precedence
import RecordQuery.Proofs.Sql.Template

/-!
# Literals and the text of SQL

The literals of a query are chosen by whoever writes the query, and the text of its SQL is what a
database will execute. This file follows two queries that differ in their literals only on their way
through the backend for SQL. The literals are mapped, patterns are put into the form of `LIKE`, and
the values that come of it differ; but the conditions are the same around them, and rendering does
not look at values.

How many elements a list has is no secret: there is a placeholder for each. So the lists of the two
queries have to be of one length.

## Main results

* `Sql.alike_of_compile`: such queries become conditions that differ in their values only
* `Sql.render_sql_eq_of_alike`: their texts are the same
-/

namespace RecordQuery

/-- Queries that are the same but for their literals. Literals of lists have as many elements. -/
inductive Query.Alike : Query → Query → Prop
  | relation (r : Relation) (field literal literal' : Text) :
      Alike (.comparison (.relation r) field literal) (.comparison (.relation r) field literal')
  | member (field : Text) {literal literal' : Text}
      (h : (listElements? literal).map List.length = (listElements? literal').map List.length) :
      Alike (.comparison .member field literal) (.comparison .member field literal')
  | joined (c : Connective) {l l' r r' : Query} (hl : Alike l l') (hr : Alike r r') :
      Alike (.joined c l r) (.joined c l' r')
  | dangling (c : Connective) {l l' : Query} (h : Alike l l') :
      Alike (.dangling c l) (.dangling c l')
  | group {inner inner' : Query} (h : Alike inner inner') : Alike (.group inner) (.group inner')

namespace Sql

variable {names : Names} {mappers mappers' : Mappers} {q q' : Query} {c c' : Condition}

/-- **Queries that differ in their literals become conditions that differ in their values.** The
literals may even be mapped in different ways. -/
theorem alike_of_compile (h : q.Alike q')
    (hc : (backend names).compile mappers q = .ok c)
    (hc' : (backend names).compile mappers' q' = .ok c') : c.Alike c' := by
  induction h generalizing c c' with
  | relation r field literal literal' =>
    rw [Backend.compile_comparison, Backend.comparison_relation_eq_ok_iff] at hc hc'
    obtain ⟨value, -, hscalar⟩ := hc
    obtain ⟨value', -, hscalar'⟩ := hc'
    obtain ⟨column, bound, hcolumn, rfl⟩ := exists_of_scalar hscalar
    obtain ⟨column', bound', hcolumn', rfl⟩ := exists_of_scalar hscalar'
    obtain rfl := Except.ok.inj (hcolumn.symm.trans hcolumn')
    exact .comparison column r bound bound'
  | member field hlength =>
    rw [Backend.compile_comparison, Backend.comparison_member_eq_ok_iff] at hc hc'
    obtain ⟨elements, values, helements, hvalues, hmember⟩ := hc
    obtain ⟨elements', values', helements', hvalues', hmember'⟩ := hc'
    obtain ⟨column, hcolumn, rfl⟩ := exists_of_member hmember
    obtain ⟨column', hcolumn', rfl⟩ := exists_of_member hmember'
    obtain rfl := Except.ok.inj (hcolumn.symm.trans hcolumn')
    refine .member column ?_
    rw [length_of_mapLiterals hvalues, length_of_mapLiterals hvalues']
    simpa [helements, helements'] using hlength
  | joined k _ _ ihl ihr =>
    obtain ⟨cl, cr, hl, hr, rfl⟩ := Backend.compile_joined_eq_ok_iff.1 hc
    obtain ⟨cl', cr', hl', hr', rfl⟩ := Backend.compile_joined_eq_ok_iff.1 hc'
    exact .joined k (ihl hl hl') (ihr hr hr')
  | dangling => cases hc
  | group _ ih =>
    obtain ⟨ci, hi, rfl⟩ := Backend.compile_group_eq_ok_iff.1 hc
    obtain ⟨ci', hi', rfl⟩ := Backend.compile_group_eq_ok_iff.1 hc'
    exact .group (ih hi hi')

/-- **Literals do not reach the text of SQL.** Two queries that differ in their literals only, and
both compile, have the same text in every dialect and for all offsets of zones, over the columns of
any schema and of any other table of names. -/
theorem render_sql_eq_of_alike (h : q.Alike q') (hc : (backend names).compile mappers q = .ok c)
    (hc' : (backend names).compile mappers' q' = .ok c') (d : Dialect) (zone zone' : ZoneOffset) :
    (c.render ⟨d, zone⟩).sql = (c'.render ⟨d, zone'⟩).sql :=
  (alike_of_compile h hc hc').sql_render d zone zone'

/-- Two queries over the columns of a schema, one of them with SQL in its literal. -/
theorem render_sql_eq_of_alike_quotes :
    let s : Schema := ⟨[⟨"id".toList, none, .integer .w64⟩, ⟨"lastName".toList, none, .string⟩]⟩
    let query (name ids : Text) : Query :=
      .joined .or (.comparison (.relation .notLike) "lastName".toList name)
        (.group (.comparison .member "id".toList ids))
    let q := query "'Smi*'".toList "[7, 9]".toList
    let q' := query "' OR 1=1; --".toList "[-1,30]".toList
    q.Alike q' ∧ ∃ mappers c c', s.mappers = .ok mappers ∧
      (backend (Names.ofSchema s)).compile mappers q = .ok c ∧
      (backend (Names.ofSchema s)).compile mappers q' = .ok c' ∧
      (c.render ⟨.mySql, .utc⟩).sql =
        "\x60last_name\x60 NOT LIKE ? OR (\x60id\x60 IN (?, ?))".toList ∧
      (c.render ⟨.mySql, .utc⟩).sql = (c'.render ⟨.mySql, ⟨3600, by decide⟩⟩).sql := by
  intro s query q q'
  have halike : q.Alike q' := .joined .or (.relation _ _ _ _) (.group (.member _ rfl))
  obtain ⟨mappers, hmappers⟩ : ∃ mappers, s.mappers = .ok mappers := ⟨_, rfl⟩
  obtain ⟨c, hc, htext⟩ : ∃ c, (backend (Names.ofSchema s)).compile mappers q = .ok c ∧
      (c.render ⟨.mySql, .utc⟩).sql =
        "\x60last_name\x60 NOT LIKE ? OR (\x60id\x60 IN (?, ?))".toList := by
    obtain rfl := Except.ok.inj hmappers
    exact ⟨_, rfl, rfl⟩
  obtain ⟨c', hc'⟩ : ∃ c', (backend (Names.ofSchema s)).compile mappers q' = .ok c' := by
    obtain rfl := Except.ok.inj hmappers
    exact ⟨_, rfl⟩
  exact ⟨halike, mappers, c, c', hmappers, hc, hc', htext,
    render_sql_eq_of_alike halike hc hc' .mySql .utc _⟩

end Sql

end RecordQuery
