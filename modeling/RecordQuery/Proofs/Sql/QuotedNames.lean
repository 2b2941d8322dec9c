import RecordQuery.Sql.Fragment

/-!
# Quoted names

A database reads a quoted name character by character. Behind the opening quote two quotes are one
character of the name, and a quote that no other one follows is the end. `closeQuote?` and
`quotedName?` are this reader, which looks at no more than the next character.

What it reads is what is written, whatever the name is: names may consist of quotes alone, and
begin or end with them. So the text of a column is never taken for anything but a name, if only what
is written behind it does not begin with a quote. Rendering writes a blank there.

The dialect that does not quote has no part in this.

## Main results

* `closeQuote?_eq_some_iff`, `Dialect.quotedName?_eq_some_iff`: what is read as a name
* `Dialect.quotedName?_quote`: a quoted name is closed by its own quote only
-/

namespace RecordQuery.Sql

/-! ## Reading a name -/

/-- Takes the rest of a name behind its opening quote, and the text behind the closing one. A
doubled quote is one character of the name. -/
def closeQuote? (q : Char) : Text → Option (Text × Text)
  | [] => none
  | [c] => if c = q then some ([], []) else none
  | c :: d :: t =>
    if c = q then
      if d = q then (closeQuote? q t).map fun (name, rest) => (q :: name, rest)
      else some ([], d :: t)
    else (closeQuote? q (d :: t)).map fun (name, rest) => (c :: name, rest)

/-- Takes a quoted name from its opening quote on, and the text behind its closing quote. -/
def quotedName? (q : Char) : Text → Option (Text × Text)
  | [] => none
  | c :: t => if c = q then closeQuote? q t else none

variable {q : Char} {text name rest : Text}

theorem closeQuote?_of_ne {c : Char} (h : c ≠ q) (t : Text) :
    closeQuote? q (c :: t) = (closeQuote? q t).map fun (name, rest) => (c :: name, rest) := by
  cases t with
  | nil => simp [closeQuote?, h]
  | cons d t => rw [closeQuote?, if_neg h]

theorem closeQuote?_doubled (q : Char) (t : Text) :
    closeQuote? q (q :: q :: t) = (closeQuote? q t).map fun (name, rest) => (q :: name, rest) := by
  rw [closeQuote?, if_pos rfl, if_pos rfl]

theorem closeQuote?_closing (h : rest.head? ≠ some q) :
    closeQuote? q (q :: rest) = some ([], rest) := by
  cases rest with
  | nil => rw [closeQuote?, if_pos rfl]
  | cons d t =>
    have hd : d ≠ q := fun hd => h (congrArg some hd)
    rw [closeQuote?, if_pos rfl, if_neg hd]

theorem closeQuote?_replace (h : rest.head? ≠ some q) (name : Text) :
    closeQuote? q (Text.replace q [q, q] name ++ q :: rest) = some (name, rest) := by
  induction name with
  | nil => exact closeQuote?_closing h
  | cons c t ih =>
    by_cases hc : c = q
    · subst hc
      rw [Text.replace_cons_self, List.append_assoc, List.cons_append, List.singleton_append,
        closeQuote?_doubled, ih]
      rfl
    · rw [Text.replace_cons_of_ne hc, List.cons_append, closeQuote?_of_ne hc, ih]
      rfl

theorem eq_of_closeQuote? (h : closeQuote? q text = some (name, rest)) :
    text = Text.replace q [q, q] name ++ q :: rest ∧ rest.head? ≠ some q := by
  fun_induction closeQuote? q text generalizing name with
  | case1 => cases h
  | case2 =>
    cases h
    exact ⟨rfl, nofun⟩
  | case3 => cases h
  | case4 t ih =>
    obtain ⟨⟨n, r⟩, hn, he⟩ := Option.map_eq_some_iff.1 h
    obtain ⟨rfl, rfl⟩ := Prod.mk.inj he
    obtain ⟨rfl, hrest⟩ := ih hn
    exact ⟨by rw [Text.replace_cons_self]; rfl, hrest⟩
  | case5 d t hd =>
    cases h
    exact ⟨rfl, fun h => hd (Option.some.inj h)⟩
  | case6 c d t hc ih =>
    obtain ⟨⟨n, r⟩, hn, he⟩ := Option.map_eq_some_iff.1 h
    obtain ⟨rfl, rfl⟩ := Prod.mk.inj he
    obtain ⟨htext, hrest⟩ := ih hn
    exact ⟨by rw [htext, Text.replace_cons_of_ne hc, List.cons_append], hrest⟩

/-- **What is read as the rest of a name.** -/
theorem closeQuote?_eq_some_iff : closeQuote? q text = some (name, rest) ↔
    text = Text.replace q [q, q] name ++ q :: rest ∧ rest.head? ≠ some q := by
  constructor
  · exact eq_of_closeQuote?
  · rintro ⟨rfl, h⟩
    exact closeQuote?_replace h name

namespace Dialect

variable {d : Dialect}

theorem quoteChar?_eq_some_iff :
    d.quoteChar? = some q ↔ d = .postgres ∧ q = '"' ∨ d = .mySql ∧ q = '\x60' := by
  cases d <;> simp [quoteChar?, eq_comm]

/-- **What is read as a quoted name is what is written as one**, and no quote stands behind it. -/
theorem quotedName?_eq_some_iff (h : d.quoteChar? = some q) :
    quotedName? q text = some (name, rest) ↔
      text = d.quote name ++ rest ∧ rest.head? ≠ some q := by
  have hquote : d.quote name ++ rest = q :: (Text.replace q [q, q] name ++ q :: rest) := by
    rw [quote_eq h, List.cons_append, List.append_assoc, List.singleton_append]
  rw [hquote]
  cases text with
  | nil => simp [quotedName?]
  | cons c t =>
    by_cases hc : c = q
    · rw [quotedName?, if_pos hc, closeQuote?_eq_some_iff, hc, List.cons_inj_right]
    · simp [quotedName?, hc]

/-- **A quoted name is closed by its own quote only.** In front of a text that does not begin with a
quote, a name that is quoted is read back, whatever its characters are, and the text is left. No
other text is read as that name, and so the text of one name never is that of a shorter one with
something behind it. This is what rendering writes for a column. -/
theorem quotedName?_quote (h : d = .postgres ∧ q = '"' ∨ d = .mySql ∧ q = '\x60') :
    (∀ name rest : Text, rest.head? ≠ some q →
      quotedName? q (d.quote name ++ rest) = some (name, rest)) ∧
    (∀ text name rest : Text, quotedName? q text = some (name, rest) →
      text = d.quote name ++ rest ∧ rest.head? ≠ some q) ∧
    (∀ name name' rest rest' : Text, rest.head? ≠ some q → rest'.head? ≠ some q →
      d.quote name ++ rest = d.quote name' ++ rest' → name = name' ∧ rest = rest') ∧
    ∀ (zone : ZoneOffset) (f : Fragment) (column later : Text), later.head? ≠ some q →
      ∃ written, ((f.addColumn ⟨d, zone⟩ column).add later).sql = f.sql ++ written ∧
        quotedName? q written = some (column, later) := by
  have hread {text name rest : Text} : quotedName? q text = some (name, rest) ↔
      text = d.quote name ++ rest ∧ rest.head? ≠ some q :=
    quotedName?_eq_some_iff (quoteChar?_eq_some_iff.2 h)
  refine ⟨fun name rest hrest => hread.2 ⟨rfl, hrest⟩, fun text name rest => hread.1,
    fun name name' rest rest' hrest hrest' heq => ?_, fun zone f column later hlater => ?_⟩
  · have hname : quotedName? q (d.quote name ++ rest) = some (name, rest) := hread.2 ⟨rfl, hrest⟩
    have hname' : quotedName? q (d.quote name ++ rest) = some (name', rest') :=
      hread.2 ⟨heq, hrest'⟩
    exact Prod.mk.inj (Option.some.inj (hname.symm.trans hname'))
  · refine ⟨d.quote column ++ later, ?_, hread.2 ⟨rfl, hlater⟩⟩
    rw [Fragment.add_sql, Fragment.addColumn, Fragment.add_sql, List.append_assoc]

/-- A column of quotes alone, one that begins and ends with them, and one that goes on as if it had
ended. -/
theorem quotedName?_quote_quotes :
    quotedName? '"' (postgres.quote "\"\"\"".toList ++ " = $1".toList) =
        some ("\"\"\"".toList, " = $1".toList) ∧
      quotedName? '\x60' (mySql.quote "\x60a\x60".toList ++ ")".toList) =
        some ("\x60a\x60".toList, ")".toList) ∧
      postgres.quote "a\" OR \"b".toList ++ " = $1".toList ≠
        postgres.quote "a".toList ++ " OR \"b\" = $1".toList := by
  have hpostgres := quotedName?_quote (d := .postgres) (q := '"') (.inl ⟨rfl, rfl⟩)
  have hmySql := quotedName?_quote (d := .mySql) (q := '\x60') (.inr ⟨rfl, rfl⟩)
  refine ⟨hpostgres.1 _ _ (by decide), hmySql.1 _ _ (by decide), fun heq => ?_⟩
  have hname := hpostgres.2.2.1 _ _ _ _ (by decide) (by decide) heq
  exact absurd hname.1 (by decide)

end Dialect

end RecordQuery.Sql
