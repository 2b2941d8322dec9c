import Mathlib.Data.List.Basic
import RecordQuery.Proofs.Compile.Nodes
import RecordQuery.Proofs.Query.Grammar
import RecordQuery.Proofs.Sql.Reading

/-!
# What rendered SQL means

A query has no precedence, SQL has: `AND` binds more tightly than `OR`. Rendering writes the
connectives of a condition one after the other and no parentheses but those of the query. So the
text reads back as the condition only if the order of the connectives and their precedence agree.

## What the text reads as

`Condition.reading` is the formula that the words of a condition derive, in two parts: what stands
before the last `OR` that is outside parentheses, and what stands behind it. An `AND` goes on with
the second part only, where the condition takes both together.

## When it means the same

The parts are together again if no `AND` comes behind an `OR` in the same group: `Query.andsFirst`.
Otherwise there are values of the comparisons that tell the two apart. They are found from values
for the operands (`Attains`): operands that are all true or all false pass a difference on, and
`(l || m) && r` with `l` true and `r` false is one.

## Main results

* `Condition.derives_words`: what the words of a condition read as
* `Condition.truth_eq_iff`: the two readings agree exactly if every `AND` comes first
* `reads_render_iff`: the same for the text that a query is rendered as
-/

namespace RecordQuery

/-- Whether the root is a disjunction. -/
def Query.isDisjunction : Query → Bool
  | joined .or _ _ => true
  | _ => false

/-- Whether no `&&` has everything before it joined by an `||`, so that in each group the `&&` come
first. -/
def Query.andsFirst : Query → Bool
  | comparison .. => true
  | joined c left right =>
    left.andsFirst && right.andsFirst && (c = .or || !left.isDisjunction)
  | dangling _ left => left.andsFirst
  | group inner => inner.andsFirst

end RecordQuery

namespace RecordQuery.Sql

/-! ## Two readings -/

/-- A comparison as it is written: `≠` by negating an equality. -/
def comparisonFormula (column : Text) : Relation → Formula
  | .notEqual => .negation (.comparison column .equal)
  | relation => .comparison column relation

/-- A formula that ends with a term: what stands before the last `OR`, and the term behind it. -/
structure Disjunction where
  before : Option Formula
  last : Formula

namespace Disjunction

/-- The whole formula. -/
def formula : Disjunction → Formula
  | ⟨none, t⟩ => t
  | ⟨some l, t⟩ => .joined .or l t

/-- An `AND` and an operand behind a formula: the operand joins the last term. -/
def and (s : Disjunction) (r : Formula) : Disjunction := ⟨s.before, .joined .and s.last r⟩

end Disjunction

namespace Condition

/-- What a condition says as the tree that it is. -/
def formula : Condition → Formula
  | comparison column relation _ => comparisonFormula column relation
  | member column values => .member column values.length
  | joined c left right => .joined c left.formula right.formula
  | group inner => inner.formula

/-- What the words of a condition say. -/
def reading : Condition → Disjunction
  | comparison column relation _ => ⟨none, comparisonFormula column relation⟩
  | member column values => ⟨none, .member column values.length⟩
  | joined .and left right => left.reading.and right.reading.formula
  | joined .or left right => ⟨some left.reading.formula, right.reading.formula⟩
  | group inner => ⟨none, inner.reading.formula⟩

/-- Whether the root is a connective. -/
def isJoined : Condition → Bool
  | joined .. => true
  | _ => false

/-- Whether the root is a disjunction. -/
def isDisjunction : Condition → Bool
  | joined .or _ _ => true
  | _ => false

/-- Whether a condition can be written: no list is empty, and no right operand is joined. -/
def writable : Condition → Bool
  | comparison .. => true
  | member _ values => !values.isEmpty
  | joined _ left right => left.writable && right.writable && !right.isJoined
  | group inner => inner.writable

theorem writable_joined_iff {c : Connective} {left right : Condition} :
    (joined c left right).writable = true ↔
      left.writable = true ∧ right.writable = true ∧ right.isJoined = false := by
  simp [writable, and_assoc]

/-- Whether every `AND` comes before every `OR` of its group. -/
def andsFirst : Condition → Bool
  | comparison .. => true
  | member .. => true
  | joined c left right =>
    left.andsFirst && right.andsFirst && (c = .or || !left.isDisjunction)
  | group inner => inner.andsFirst

end Condition

/-! ## Words -/

/-- Words that derive a formula in two parts. -/
def Disjunction.Derived (ws : List Word) (s : Disjunction) : Prop :=
  match s.before with
  | none => Derives .term ws s.last
  | some l => ∃ us vs, ws = us ++ .keyword (.connective .or) :: vs ∧ Derives .condition us l ∧
    Derives .term vs s.last

namespace Disjunction

variable {ws us : List Word} {s : Disjunction} {r : Formula}

theorem Derived.condition (h : Derived ws s) : Derives .condition ws s.formula := by
  obtain ⟨before, last⟩ := s
  cases before with
  | none => exact .term h
  | some l =>
    obtain ⟨us, vs, rfl, hl, hr⟩ := h
    exact .or hl hr

theorem Derived.and (h : Derived ws s) (hr : Derives .factor us r) :
    Derived (ws ++ .keyword (.connective .and) :: us) (s.and r) := by
  obtain ⟨before, last⟩ := s
  cases before with
  | none => exact Derives.and h hr
  | some l =>
    obtain ⟨vs, xs, rfl, hl, ht⟩ := h
    refine ⟨vs, xs ++ .keyword (.connective .and) :: us, ?_, hl, .and ht hr⟩
    simp

end Disjunction

/-- A comparison is a factor. -/
theorem derives_comparison (column : Text) (relation : Relation) (value : Value) :
    Derives .factor (Condition.comparison column relation value).words
      (comparisonFormula column relation) := by
  cases relation with
  | notEqual => exact .not (.comparison column .equal)
  | equal | greater | greaterOrEqual | less | lessOrEqual | like | notLike =>
    exact .primary (.comparison column _)

/-- **What the words of a condition read as.** An operand is a factor of its own. -/
theorem Condition.derives_words {c : Condition} (h : c.writable = true) :
    Disjunction.Derived c.words c.reading ∧
      (c.isJoined = false → Derives .factor c.words c.reading.formula) := by
  induction c with
  | comparison column relation value =>
    have hfactor := derives_comparison column relation value
    exact ⟨.factor hfactor, fun _ => hfactor⟩
  | member column values =>
    cases values with
    | nil => simp [writable] at h
    | cons v values =>
      have hfactor := Derives.primary (.member column values.length)
      exact ⟨.factor hfactor, fun _ => hfactor⟩
  | joined c left right ihl ihr =>
    obtain ⟨hl, hr, hoperand⟩ := writable_joined_iff.1 h
    have hfactor := (ihr hr).2 hoperand
    refine ⟨?_, fun hj => by simp [isJoined] at hj⟩
    cases c with
    | and => exact (ihl hl).1.and hfactor
    | or => exact ⟨left.words, right.words, rfl, (ihl hl).1.condition, .factor hfactor⟩
  | group inner ih =>
    have hfactor := Derives.primary (.parentheses (ih h).1.condition)
    exact ⟨.factor hfactor, fun _ => hfactor⟩

/-- The text of a condition reads as its words do. -/
theorem Condition.reads_render {c : Condition} (h : c.writable = true) (style : Style)
    (hc : c.Admits style.dialect) :
    Reads style.dialect (c.render style).sql c.reading.formula :=
  ⟨c.words, words?_render style hc, (derives_words h).1.condition⟩

/-! ## Agreement -/

namespace Disjunction

theorem formula_and_of_before_eq_none {s : Disjunction} (h : s.before = none) (r : Formula) :
    (s.and r).formula = .joined .and s.formula r := by
  obtain ⟨before, last⟩ := s
  cases h
  rfl

theorem comparisons_and (s : Disjunction) (r : Formula) :
    (s.and r).formula.comparisons = s.formula.comparisons ++ r.comparisons := by
  obtain ⟨_ | l, t⟩ := s
  · rfl
  · simp [and, formula, Formula.comparisons]

end Disjunction

namespace Condition

theorem reading_or (l r : Condition) :
    (joined .or l r).reading.formula = .joined .or l.reading.formula r.reading.formula := rfl

/-- The two readings are about the same comparisons. -/
theorem comparisons_reading (c : Condition) :
    c.reading.formula.comparisons = c.formula.comparisons := by
  induction c with
  | comparison | member => rfl
  | joined c left right ihl ihr =>
    cases c with
    | and => rw [reading, Disjunction.comparisons_and, ihl, ihr, formula, Formula.comparisons]
    | or =>
      rw [reading_or, formula, Formula.comparisons, Formula.comparisons, ihl, ihr]
  | group inner ih => exact ih

theorem size_reading (c : Condition) : c.reading.formula.size = c.formula.size := by
  rw [Formula.size, comparisons_reading, ← Formula.size]

theorem reading_before_of_isDisjunction {c : Condition} (h : c.andsFirst = true)
    (hd : c.isDisjunction = false) : c.reading.before = none := by
  induction c with
  | comparison | member | group => rfl
  | joined c left right ihl =>
    cases c with
    | or => simp [isDisjunction] at hd
    | and =>
      simp only [andsFirst, Bool.and_eq_true, Bool.or_eq_true, Bool.not_eq_true',
        decide_eq_true_eq, reduceCtorEq, false_or] at h
      exact ihl h.1.1 h.2

/-- If every `AND` comes first, the two readings are the same formula. -/
theorem reading_formula_of_andsFirst {c : Condition} (h : c.andsFirst = true) :
    c.reading.formula = c.formula := by
  induction c with
  | comparison | member => rfl
  | joined c left right ihl ihr =>
    simp only [andsFirst, Bool.and_eq_true, Bool.or_eq_true, Bool.not_eq_true',
      decide_eq_true_eq] at h
    obtain ⟨⟨hl, hr⟩, hc⟩ := h
    cases c with
    | or => rw [reading_or, ihl hl, ihr hr, formula]
    | and =>
      have hd := hc.resolve_left (by decide)
      have hbefore := reading_before_of_isDisjunction hl hd
      rw [reading, Disjunction.formula_and_of_before_eq_none hbefore, ihl hl, ihr hr, formula]
  | group inner ih => exact ih h

end Condition

/-! ## Difference -/

namespace Formula

/-- Values for `n` comparisons and for those behind them. -/
def splice (n : Nat) (a b : Nat → Bool) (i : Nat) : Bool := if i < n then a i else b (i - n)

theorem truth_splice_left {n : Nat} {e : Formula} (h : e.size = n) (a b : Nat → Bool) :
    e.truth (splice n a b) 0 = e.truth a 0 :=
  truth_congr fun i hi => by simp [splice, ← h, hi]

theorem truth_splice_right (n k : Nat) (e : Formula) (a b : Nat → Bool) :
    e.truth (splice n a b) (n + k) = e.truth b k := by
  refine truth_congr fun i _ => ?_
  have hlt : ¬ n + k + i < n := by omega
  have hsub : n + k + i - n = k + i := by omega
  rw [splice, if_neg hlt, hsub]

end Formula

namespace Disjunction

variable {a : Nat → Bool} {s : Disjunction} {r : Formula}

/-- An operand that is true can be left away. -/
theorem truth_and_of_true (hr : r.truth a s.formula.size = true) :
    (s.and r).formula.truth a 0 = s.formula.truth a 0 := by
  obtain ⟨_ | l, t⟩ := s
  · simp only [and, formula, Formula.truth, connect, Nat.zero_add] at hr ⊢
    simp [hr]
  · simp only [and, formula, Formula.truth, connect, Nat.zero_add, Formula.size_joined] at hr ⊢
    simp [hr]

/-- What is false stays false with one more operand. -/
theorem truth_and_of_false (hs : s.formula.truth a 0 = false) :
    (s.and r).formula.truth a 0 = false := by
  obtain ⟨_ | l, t⟩ := s
  · simp only [and, formula, Formula.truth, connect] at hs ⊢
    simp [hs]
  · simp only [and, formula, Formula.truth, connect, Bool.or_eq_false_iff] at hs ⊢
    simp only [hs.1, hs.2, Bool.false_and, and_self]

end Disjunction

namespace Condition

/-- Some values of the comparisons give the words the value `x` and the tree the value `y`. -/
def Attains (c : Condition) (x y : Bool) : Prop :=
  ∃ a, c.reading.formula.truth a 0 = x ∧ c.formula.truth a 0 = y

variable {l r : Condition} {x y x' y' : Bool}

/-- Values for both operands are values for them together. -/
theorem Attains.splice (hl : Attains l x y) (hr : Attains r x' y') :
    ∃ a, (l.reading.formula.truth a 0 = x ∧ l.formula.truth a 0 = y) ∧
      r.reading.formula.truth a l.formula.size = x' ∧ r.formula.truth a l.formula.size = y' := by
  obtain ⟨a, rfl, rfl⟩ := hl
  obtain ⟨b, rfl, rfl⟩ := hr
  refine ⟨Formula.splice l.formula.size a b, ⟨?_, ?_⟩, ?_, ?_⟩
  · exact Formula.truth_splice_left l.size_reading a b
  · exact Formula.truth_splice_left rfl a b
  · exact Formula.truth_splice_right _ 0 _ a b
  · exact Formula.truth_splice_right _ 0 _ a b

theorem Attains.or (hl : Attains l x y) (hr : Attains r x' y') :
    Attains (joined .or l r) (x || x') (y || y') := by
  obtain ⟨a, ⟨rfl, rfl⟩, rfl, rfl⟩ := hl.splice hr
  refine ⟨a, ?_, ?_⟩
  · rw [reading_or, Formula.truth, Nat.zero_add, size_reading]
    rfl
  · rw [formula, Formula.truth, Nat.zero_add]
    rfl

theorem Attains.and_of_true (hl : Attains l x y) (hr : Attains r true true) :
    Attains (joined .and l r) x y := by
  obtain ⟨a, ⟨rfl, rfl⟩, hread, htree⟩ := hl.splice hr
  refine ⟨a, ?_, ?_⟩
  · rw [reading, Disjunction.truth_and_of_true]
    rwa [size_reading]
  · rw [formula, Formula.truth, Nat.zero_add, htree]
    simp [connect]

theorem Attains.and_of_false (hl : Attains l false false) (hr : Attains r x y) :
    Attains (joined .and l r) false false := by
  obtain ⟨a, ⟨hread, htree⟩, -, -⟩ := hl.splice hr
  refine ⟨a, ?_, ?_⟩
  · rw [reading, Disjunction.truth_and_of_false hread]
  · rw [formula, Formula.truth, htree]
    rfl

/-- Behind a term the two readings of an `AND` are alike. -/
theorem Attains.and_of_before_eq_none (h : l.reading.before = none) (hl : Attains l true true)
    (hr : Attains r x y) : Attains (joined .and l r) x y := by
  obtain ⟨a, ⟨hread, htree⟩, rfl, rfl⟩ := hl.splice hr
  refine ⟨a, ?_, ?_⟩
  · rw [reading, Disjunction.formula_and_of_before_eq_none h, Formula.truth, Nat.zero_add, hread,
      size_reading]
    simp [connect]
  · rw [formula, Formula.truth, Nat.zero_add, htree]
    simp [connect]

/-- All operands can be true, and all can be false. -/
theorem attains_self (c : Condition) (b : Bool) : Attains c b b := by
  induction c generalizing b with
  | comparison column relation value =>
    cases relation with
    | notEqual => exact ⟨fun _ => !b, by simp [reading, formula, Disjunction.formula,
        comparisonFormula, Formula.truth]⟩
    | equal | greater | greaterOrEqual | less | lessOrEqual | like | notLike =>
      exact ⟨fun _ => b, rfl, rfl⟩
  | member column values => exact ⟨fun _ => b, rfl, rfl⟩
  | joined c l r ihl ihr =>
    cases c with
    | or => simpa using (ihl b).or (ihr b)
    | and =>
      cases b with
      | true => exact (ihl true).and_of_true (ihr true)
      | false => exact (ihl false).and_of_false (ihr false)
  | group inner ih => exact ih b

/-- An `AND` behind an `OR` makes a difference: the first operand is true and the last one false. -/
theorem attains_and_of_or (l m r : Condition) :
    Attains (joined .and (joined .or l m) r) true false := by
  obtain ⟨a, hl, -⟩ := attains_self l true
  obtain ⟨b, -, -, hr⟩ := (attains_self m true).splice (attains_self r false)
  refine ⟨Formula.splice l.formula.size a b, ?_, ?_⟩
  · have hfirst := (Formula.truth_splice_left l.size_reading a b).trans hl
    have hform : (joined .and (joined .or l m) r).reading.formula = .joined .or l.reading.formula
        (.joined .and m.reading.formula r.reading.formula) := rfl
    rw [hform, Formula.truth, hfirst]
    simp [connect]
  · rw [formula, Formula.truth, Nat.zero_add, formula, Formula.size_joined,
      Formula.truth_splice_right, hr]
    simp [connect]

/-- A condition in which some `AND` comes behind an `OR` is read differently under some values. -/
theorem exists_attains_ne {c : Condition} (h : c.andsFirst = false) :
    ∃ x y, x ≠ y ∧ Attains c x y := by
  induction c with
  | comparison | member => simp [andsFirst] at h
  | group inner ih => exact ih h
  | joined c l r ihl ihr =>
    by_cases hl : l.andsFirst = false
    · obtain ⟨x, y, hne, hxy⟩ := ihl hl
      refine ⟨x, y, hne, ?_⟩
      cases c with
      | or => simpa using hxy.or (attains_self r false)
      | and => exact hxy.and_of_true (attains_self r true)
    · rw [Bool.not_eq_false] at hl
      cases c with
      | or =>
        obtain ⟨x, y, hne, hxy⟩ := ihr (by simpa [andsFirst, hl] using h)
        exact ⟨x, y, hne, by simpa using (attains_self l false).or hxy⟩
      | and =>
        cases hd : l.isDisjunction with
        | false =>
          obtain ⟨x, y, hne, hxy⟩ := ihr (by simpa [andsFirst, hl, hd] using h)
          have hbefore := reading_before_of_isDisjunction hl hd
          exact ⟨x, y, hne, .and_of_before_eq_none hbefore (attains_self l true) hxy⟩
        | true =>
          cases l with
          | comparison | member | group => simp [isDisjunction] at hd
          | joined c l m =>
            cases c with
            | and => simp [isDisjunction] at hd
            | or => exact ⟨true, false, by decide, attains_and_of_or l m r⟩

/-- **The two readings agree exactly if every `AND` comes first.** -/
theorem truth_eq_iff (c : Condition) :
    (∀ a, c.reading.formula.truth a 0 = c.formula.truth a 0) ↔ c.andsFirst = true := by
  constructor
  · intro h
    cases hc : c.andsFirst with
    | true => rfl
    | false =>
      obtain ⟨x, y, hne, a, rfl, rfl⟩ := exists_attains_ne hc
      exact absurd (h a) hne
  · intro h a
    rw [reading_formula_of_andsFirst h]

end Condition

/-! ## Compiled conditions -/

section Compiled

variable {names : Names} {mappers : Mappers} {q : Query} {c : Condition}

theorem exists_of_scalar {relation : Relation} {field : Text} {value : Value}
    (h : scalar names relation field value = .ok c) :
    ∃ column bound, names.column field = .ok column ∧ c = .comparison column relation bound := by
  obtain ⟨bound, -, h⟩ := bind_eq_ok_iff.1 h
  obtain ⟨column, hcolumn, h⟩ := bind_eq_ok_iff.1 h
  exact ⟨column, bound, hcolumn, (Except.ok.inj h).symm⟩

theorem exists_of_member {field : Text} {values : List Value}
    (h : member names field values = .ok c) :
    ∃ column, names.column field = .ok column ∧ c = .member column values := by
  obtain ⟨column, hcolumn, h⟩ := bind_eq_ok_iff.1 h
  exact ⟨column, hcolumn, (Except.ok.inj h).symm⟩

/-- What a comparison of a query becomes. -/
theorem exists_of_comparison {op : Comparator} {field literal : Text}
    (h : (backend names).comparison mappers op field literal = .ok c) :
    (∃ column relation bound, c = .comparison column relation bound) ∨
      ∃ column values, values ≠ [] ∧ c = .member column values := by
  cases op with
  | relation relation =>
    simp only [Backend.comparison] at h
    split at h
    · obtain ⟨column, bound, -, rfl⟩ := exists_of_scalar h
      exact .inl ⟨column, relation, bound, rfl⟩
    · cases h
  | member =>
    simp only [Backend.comparison] at h
    split at h
    · cases h
    · next elements helements =>
      split at h
      · next values hvalues =>
        obtain ⟨column, -, rfl⟩ := exists_of_member h
        refine .inr ⟨column, values, fun hnil => listElements?_ne_nil helements ?_, rfl⟩
        rw [← List.length_eq_zero_iff, ← length_of_mapLiterals hvalues, hnil, List.length_nil]
      · cases h

/-- The condition of a tree has its shape. -/
structure Shaped (q : Query) (c : Condition) : Prop where
  writable : c.writable = true
  isJoined : c.isJoined = q.isChain
  isDisjunction : c.isDisjunction = q.isDisjunction
  andsFirst : c.andsFirst = q.andsFirst

/-- **Compiling keeps the shape of a tree.** -/
theorem shaped_of_compile (hq : q.leftNested = true)
    (h : (backend names).compile mappers q = .ok c) : Shaped q c := by
  induction q generalizing c with
  | comparison op field literal =>
    rw [Backend.compile_comparison] at h
    rcases exists_of_comparison h with ⟨column, relation, bound, rfl⟩ | ⟨column, values, hne, rfl⟩
    · exact ⟨rfl, rfl, rfl, rfl⟩
    · exact ⟨by simp [Condition.writable, hne], rfl, rfl, rfl⟩
  | dangling => cases h
  | joined op l r ihl ihr =>
    obtain ⟨cl, cr, hl, hr, rfl⟩ := Backend.compile_joined_eq_ok_iff.1 h
    simp only [Query.leftNested, Bool.and_eq_true, Bool.not_eq_true'] at hq
    obtain ⟨⟨hql, hqr⟩, hoperand⟩ := hq
    have sl := ihl hql hl
    have sr := ihr hqr hr
    refine ⟨?_, rfl, ?_, ?_⟩
    · exact Condition.writable_joined_iff.2
        ⟨sl.writable, sr.writable, sr.isJoined.trans hoperand⟩
    · cases op <;> rfl
    · show (cl.andsFirst && cr.andsFirst && (op = .or || !cl.isDisjunction)) = _
      rw [sl.andsFirst, sr.andsFirst, sl.isDisjunction, Query.andsFirst]
  | group inner ih =>
    obtain ⟨ci, hi, rfl⟩ := Backend.compile_group_eq_ok_iff.1 h
    have s := ih hq hi
    exact ⟨s.writable, rfl, rfl, s.andsFirst⟩

theorem exists_shaped_of_compileText {limits : Limits} {text : Text}
    (h : (backend names).compileText mappers limits text = .ok c) :
    ∃ q, Query.parse limits text = .ok q ∧ Shaped q c := by
  obtain ⟨q, hparse, hcompile⟩ := Backend.compileText_eq_ok_iff.1 h
  obtain ⟨hd, -⟩ := Query.parse_eq_ok_iff.1 hparse
  exact ⟨q, hparse, shaped_of_compile hd.leftNested hcompile⟩

/-- **What the SQL of a query means.** It reads as one formula over the comparisons of the
condition, and the formula has the condition's truth value under all values of the comparisons
exactly if in each group of the query every `&&` comes before every `||`. -/
theorem reads_render_iff {limits : Limits} {text : Text}
    (h : (backend names).compileText mappers limits text = .ok c) (style : Style)
    (hc : c.Admits style.dialect) :
    ∃ q e, Query.parse limits text = .ok q ∧ Reads style.dialect (c.render style).sql e ∧
      (∀ e', Reads style.dialect (c.render style).sql e' → e' = e) ∧
      e.comparisons = c.formula.comparisons ∧
      ((∀ a, e.truth a 0 = c.formula.truth a 0) ↔ q.andsFirst = true) := by
  obtain ⟨q, hparse, shaped⟩ := exists_shaped_of_compileText h
  have hreads := Condition.reads_render shaped.writable style hc
  refine ⟨q, c.reading.formula, hparse, hreads, fun e' he' => he'.unique hreads,
    c.comparisons_reading, ?_⟩
  rw [Condition.truth_eq_iff, shaped.andsFirst]

/-- The same meaning: every `&&` of the query comes first. -/
theorem reads_render_and_or :
    ∃ c e, (backend (Names.ofFields [['a'], ['b'], ['c']] [] [])).compileText Table.empty {}
        "a != 1 && b = 2 || c ∈ [3,4]".toList = .ok c ∧
      (c.render ⟨.generic, .utc⟩).sql = "NOT a = ? AND b = ? OR c IN (?, ?)".toList ∧
      Reads .generic (c.render ⟨.generic, .utc⟩).sql e ∧
      ∀ a, e.truth a 0 = c.formula.truth a 0 := by
  have hparse : Query.parse {} "a != 1 && b = 2 || c ∈ [3,4]".toList = .ok (.joined .or
      (.joined .and (.comparison (.relation .notEqual) ['a'] ['1'])
        (.comparison (.relation .equal) ['b'] ['2']))
      (.comparison .member ['c'] "[3,4]".toList)) := by
    decide +kernel
  have hcompile : (backend (Names.ofFields [['a'], ['b'], ['c']] [] [])).compileText Table.empty {}
      "a != 1 && b = 2 || c ∈ [3,4]".toList = .ok (.joined .or
        (.joined .and (.comparison ['a'] .notEqual (.string ['1']))
          (.comparison ['b'] .equal (.string ['2'])))
        (.member ['c'] [.string ['3'], .string ['4']])) := by
    rw [Backend.compileText, hparse]
    rfl
  obtain ⟨q, e, hq, he, -, -, hiff⟩ := reads_render_iff hcompile ⟨.generic, .utc⟩
    fun _ => by decide
  obtain rfl := Except.ok.inj (hparse.symm.trans hq)
  exact ⟨_, e, hcompile, by decide, he, hiff.2 rfl⟩

/-- A different meaning: the text reads as `a = ? OR (b = ? AND c = ?)`, and no other way. -/
theorem exists_reads_ne_tree :
    ∃ c a, (backend (Names.ofFields [['a'], ['b'], ['c']] [] [])).compileText Table.empty {}
        "a = 1 || b = 2 && c = 3".toList = .ok c ∧
      (c.render ⟨.generic, .utc⟩).sql = "a = ? OR b = ? AND c = ?".toList ∧
      (∃ e, Reads .generic (c.render ⟨.generic, .utc⟩).sql e) ∧
      ∀ e, Reads .generic (c.render ⟨.generic, .utc⟩).sql e →
        e.truth a 0 ≠ c.formula.truth a 0 := by
  have hparse : Query.parse {} "a = 1 || b = 2 && c = 3".toList = .ok (.joined .and
      (.joined .or (.comparison (.relation .equal) ['a'] ['1'])
        (.comparison (.relation .equal) ['b'] ['2']))
      (.comparison (.relation .equal) ['c'] ['3'])) := by
    decide +kernel
  have hcompile : (backend (Names.ofFields [['a'], ['b'], ['c']] [] [])).compileText Table.empty {}
      "a = 1 || b = 2 && c = 3".toList = .ok (.joined .and
        (.joined .or (.comparison ['a'] .equal (.string ['1']))
          (.comparison ['b'] .equal (.string ['2'])))
        (.comparison ['c'] .equal (.string ['3']))) := by
    rw [Backend.compileText, hparse]
    rfl
  obtain ⟨q, -, shaped⟩ := exists_shaped_of_compileText hcompile
  have hreads := Condition.reads_render shaped.writable ⟨.generic, .utc⟩ fun _ => by decide
  refine ⟨_, fun i => i = 0, hcompile, by decide, ⟨_, hreads⟩, fun e he => ?_⟩
  rw [he.unique hreads]
  decide

end Compiled

end RecordQuery.Sql
