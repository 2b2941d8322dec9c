import RecordQuery.Proofs.Sql.Precedence
import RecordQuery.Proofs.Sql.Template

/-!
# The structure of rendered SQL

The text of a condition says which condition it is, up to the values that are bound: a name in
quotes cannot end its own quotation, so a column is one word whatever is in it, and the words of a
condition can be grouped in one way only if they are read from left to right, without precedence.

## Where the root is

Read that way, a chain is nested to the left, so its root is the last connective that stands outside
parentheses. `level?` counts the parentheses that are open and finds no number for words with a
connective outside. The words of an operand have a level, those of a chain do not, and so two chains
of the same words are split at the same connective (`eq_of_append_connective`). What remains is to
tell operands apart, and they differ in their first words.

## Main results

* `Condition.level?_words`: the words of an operand open and close parentheses in pairs
* `Condition.alike_of_words_eq`: conditions of the same words differ in their values only
* `render_sql_eq_iff_alike`: the same for the text in the dialects that quote names
-/

namespace RecordQuery.Sql

/-! ## Levels of parentheses -/

/-- The number of open parentheses behind a word. Outside parentheses, no word closes one and no
connective stands. -/
def nesting (n : Nat) : Word → Option Nat
  | .mark '(' => some (n + 1)
  | .mark ')' => if n = 0 then none else some (n - 1)
  | .keyword (.connective _) => if n = 0 then none else some n
  | _ => some n

/-- The number of open parentheses behind words, with `n` open before them. -/
def level? (n : Nat) (ws : List Word) : Option Nat := ws.foldlM nesting n

variable {ws us ws' us' : List Word} {w : Word} {c c' : Connective} {m n : Nat}

@[simp] theorem level?_nil (n : Nat) : level? n [] = some n := rfl

@[simp] theorem level?_cons (n : Nat) (w : Word) (ws : List Word) :
    level? n (w :: ws) = (nesting n w).bind (level? · ws) := rfl

@[simp] theorem level?_append (n : Nat) (ws us : List Word) :
    level? n (ws ++ us) = (level? n ws).bind (level? · us) :=
  List.foldlM_append

/-- One more open parenthesis stays open. -/
theorem nesting_succ (h : nesting n w = some m) : nesting (n + 1) w = some (m + 1) := by
  unfold nesting at h ⊢
  split at h
  · simpa using h
  · split at h
    · cases h
    · next hn =>
      obtain rfl := Option.some.inj h
      have hpos : n + 1 - 1 = n - 1 + 1 := by omega
      rw [if_neg (Nat.succ_ne_zero n), hpos]
  · split at h
    · cases h
    · simpa using h
  · simpa using h

theorem level?_succ (h : level? n ws = some m) : level? (n + 1) ws = some (m + 1) := by
  induction ws generalizing n with
  | nil => simpa using h
  | cons w ws ih =>
    rw [level?_cons, Option.bind_eq_some_iff] at h ⊢
    obtain ⟨k, hk, h⟩ := h
    exact ⟨k + 1, nesting_succ hk, ih h⟩

theorem level?_of_zero (h : level? 0 ws = some 0) (n : Nat) : level? n ws = some n := by
  induction n with
  | zero => exact h
  | succ n ih => exact level?_succ ih

/-- A connective outside parentheses has no level. -/
theorem level?_append_connective (h : level? 0 us = some 0) :
    level? 0 (ws ++ .keyword (.connective c) :: us) ≠ some 0 := by
  rw [level?_append]
  cases level? 0 ws with
  | none => simp
  | some n =>
    cases n with
    | zero => simp [nesting]
    | succ n =>
      -- inside parentheses the connective is passed over, and they stay open
      simp [nesting, level?_of_zero h]

/-- Words are split at their last connective outside parentheses in one way. -/
theorem eq_of_append_connective
    (heq : ws ++ .keyword (.connective c) :: us = ws' ++ .keyword (.connective c') :: us')
    (h : level? 0 us = some 0) (h' : level? 0 us' = some 0) : ws = ws' ∧ c = c' ∧ us = us' := by
  rcases List.append_eq_append_iff.1 heq with ⟨vs, rfl, hvs⟩ | ⟨vs, rfl, hvs⟩
  · cases vs with
    | nil => simpa using hvs
    | cons v vs =>
      obtain rfl : us = vs ++ .keyword (.connective c') :: us' := by
        simpa using (List.cons.inj hvs).2
      exact absurd h (level?_append_connective h')
  · cases vs with
    | nil => simpa [eq_comm] using hvs
    | cons v vs =>
      obtain rfl : us' = vs ++ .keyword (.connective c) :: us := by
        simpa using (List.cons.inj hvs).2
      exact absurd h' (level?_append_connective h)

/-! ## The words of operands -/

theorem level?_placeholders (n count : Nat) : level? n (placeholders count) = some n := by
  fun_induction placeholders count with
  | case1 => rfl
  | case2 => simp [nesting]
  | case3 count ih => simp [nesting, ih]

theorem count_placeholders (count : Nat) : (placeholders count).count .placeholder = count := by
  fun_induction placeholders count with
  | case1 => rfl
  | case2 => rfl
  | case3 count ih => simp [ih]

namespace Condition

/-- **The words of an operand open and close parentheses in pairs**, and its connectives stand
between them. In parentheses a chain does so too. -/
theorem level?_words (c : Condition) (h : 0 < n ∨ c.isJoined = false) :
    level? n c.words = some n := by
  induction c generalizing n with
  | comparison column relation value =>
    cases relation <;> simp [words, comparisonWords, relationWords, nesting]
  | member column values =>
    simp [words, memberWords, level?_placeholders, nesting]
  | joined c left right ihl ihr =>
    obtain ⟨n, rfl⟩ : ∃ k, n = k + 1 := by
      simpa [isJoined, Nat.pos_iff_ne_zero, Nat.exists_eq_succ_of_ne_zero] using h
    simp [words, ihl, ihr, nesting]
  | group inner ih => simp [words, ih, nesting]

/-- A chain has other words than an operand. -/
theorem words_joined_ne {l r operand : Condition} (h : (joined c l r).writable = true)
    (hoperand : operand.isJoined = false) : (joined c l r).words ≠ operand.words := by
  intro heq
  have hr : r.isJoined = false := (writable_joined_iff.1 h).2.2
  have hchain : level? 0 (joined c l r).words ≠ some 0 :=
    level?_append_connective (r.level?_words (.inr hr))
  rw [heq] at hchain
  exact hchain (operand.level?_words (.inr hoperand))

theorem comparison_of_words_eq {column column' : Text} {relation relation' : Relation}
    {value value' : Value}
    (h : (comparison column relation value).words = (comparison column' relation' value').words) :
    column = column' ∧ relation = relation' := by
  cases relation <;> cases relation' <;>
    simp_all [words, comparisonWords, relationWords]

theorem member_of_words_eq {column column' : Text} {values values' : List Value}
    (h : (member column values).words = (member column' values').words) :
    column = column' ∧ values.length = values'.length := by
  simp only [words, memberWords, List.cons.injEq, Word.name.injEq, true_and] at h
  obtain ⟨hcolumn, h⟩ := h
  have hcount := congrArg (List.count .placeholder) (List.append_cancel_right h)
  exact ⟨hcolumn, by simpa [count_placeholders] using hcount⟩

theorem comparison_words_ne_member {column column' : Text} {relation : Relation} {value : Value}
    {values : List Value} :
    (comparison column relation value).words ≠ (member column' values).words := by
  cases relation <;> simp [words, comparisonWords, relationWords, memberWords]

/-- **Conditions of the same words differ in their values only.** The words name no value, and
grouped from left to right they make one condition. -/
theorem alike_of_words_eq {c c' : Condition} (h : c.writable = true) (h' : c'.writable = true)
    (heq : c.words = c'.words) : c.Alike c' := by
  induction c generalizing c' with
  | comparison column relation value =>
    cases c' with
    | comparison column' relation' value' =>
      obtain ⟨rfl, rfl⟩ := comparison_of_words_eq heq
      exact .comparison column relation value value'
    | member => exact absurd heq comparison_words_ne_member
    | joined => exact absurd heq.symm (words_joined_ne h' rfl)
    | group => cases relation <;> cases heq
  | member column values =>
    cases c' with
    | comparison => exact absurd heq.symm comparison_words_ne_member
    | member column' values' =>
      obtain ⟨rfl, hlength⟩ := member_of_words_eq heq
      exact .member column hlength
    | joined => exact absurd heq.symm (words_joined_ne h' rfl)
    | group => cases heq
  | joined k l r ihl ihr =>
    cases c' with
    | comparison | member | group => exact absurd heq (words_joined_ne h rfl)
    | joined k' l' r' =>
      obtain ⟨hl, hr, hoperand⟩ := writable_joined_iff.1 h
      obtain ⟨hl', hr', hoperand'⟩ := writable_joined_iff.1 h'
      obtain ⟨hwl, rfl, hwr⟩ := eq_of_append_connective heq (r.level?_words (.inr hoperand))
        (r'.level?_words (.inr hoperand'))
      exact .joined k (ihl hl hl' hwl) (ihr hr hr' hwr)
  | group inner ih =>
    cases c' with
    | comparison column' relation' => cases relation' <;> cases heq
    | member => cases heq
    | joined => exact absurd heq.symm (words_joined_ne h' rfl)
    | group inner' => exact .group (ih h h' (List.append_cancel_right (List.cons.inj heq).2))

end Condition

/-- **The text of a condition says which condition it is.** In the dialects that quote names two
conditions have the same text exactly if they differ in their values only, whatever characters
their columns have: the same comparisons with the same columns, relations and lengths of lists are
joined by the same connectives in the same groups. -/
theorem render_sql_eq_iff_alike {d : Dialect} (hd : d ≠ .generic) {c c' : Condition}
    (h : c.writable = true) (h' : c'.writable = true) (zone zone' : ZoneOffset) :
    (c.render ⟨d, zone⟩).sql = (c'.render ⟨d, zone'⟩).sql ↔ c.Alike c' := by
  have hadmits : ∀ c : Condition, c.Admits d := by
    intro c hnone
    cases d <;> simp [Dialect.quoteChar?] at hd hnone
  refine ⟨fun heq => Condition.alike_of_words_eq h h' ?_, fun h => h.sql_render d zone zone'⟩
  have hwords := words?_render ⟨d, zone⟩ (hadmits c)
  rw [heq, words?_render ⟨d, zone'⟩ (hadmits c')] at hwords
  exact (Option.some.inj hwords).symm

/-- A column that looks like the text between two others does not join them. -/
theorem render_sql_ne_of_column_with_quotes :
    let c : Condition := .comparison "a\" = $1 AND \"b".toList .equal .null
    let c' : Condition :=
      .joined .and (.comparison ['a'] .equal .null) (.comparison ['b'] .equal .null)
    Dialect.postgres ≠ .generic ∧ c.writable = true ∧ c'.writable = true ∧ ¬ c.Alike c' ∧
      (c.render ⟨.postgres, .utc⟩).sql ≠ (c'.render ⟨.postgres, .utc⟩).sql := by
  intro c c'
  have hne : ¬ c.Alike c' := by
    unfold c c'
    nofun
  refine ⟨by decide, rfl, rfl, hne, fun heq => hne ?_⟩
  exact (render_sql_eq_iff_alike (by decide) rfl rfl .utc .utc).1 heq

end RecordQuery.Sql
