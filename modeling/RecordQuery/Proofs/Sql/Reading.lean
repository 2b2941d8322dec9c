import RecordQuery.Proofs.Sql.Words

/-!
# How SQL is read

The grammar of conditions in SQL: parentheses bind most tightly, then `NOT`, then `AND`, then `OR`,
and both connectives group to the left. What a text reads as is a formula over its comparisons, and
a formula has a truth value under every choice of truth values for the comparisons, one for each
place where a comparison stands.

## Unambiguity

`Reader` is a machine that builds the formula while it goes through the words: for each open
parenthesis it keeps the disjunction so far, the conjunction so far and whether a `NOT` waits. It
builds the formula of every derivation (`Derives.run`), so no words have two.

## Main results

* `Derives.unique`: words read as at most one formula
* `Reads.unique`: a text reads as at most one formula
* `Formula.truth_congr`: a truth value depends on the comparisons of the formula
-/

namespace RecordQuery.Sql

/-! ## Formulas -/

/-- What a condition says of its comparisons. -/
inductive Formula
  | comparison (column : Text) (relation : Relation)
  | member (column : Text) (count : Nat)
  | negation (inner : Formula)
  | joined (c : Connective) (left right : Formula)
  deriving DecidableEq, Repr

/-- The value of two truth values under a connective. -/
def connect : Connective → Bool → Bool → Bool
  | .and, a, b => a && b
  | .or, a, b => a || b

namespace Formula

/-- The comparisons of a formula from left to right. -/
def comparisons : Formula → List Formula
  | comparison column relation => [comparison column relation]
  | member column count => [member column count]
  | negation inner => inner.comparisons
  | joined _ left right => left.comparisons ++ right.comparisons

/-- The number of comparisons. -/
def size (e : Formula) : Nat := e.comparisons.length

/-- The truth value of a formula that stands behind `n` comparisons, if the comparison behind `i`
others has the value `a i`. -/
def truth (a : Nat → Bool) : Nat → Formula → Bool
  | n, comparison .. => a n
  | n, member .. => a n
  | n, negation inner => !inner.truth a n
  | n, joined c left right => connect c (left.truth a n) (right.truth a (n + left.size))

@[simp] theorem size_joined (c : Connective) (l r : Formula) :
    (joined c l r).size = l.size + r.size := by
  simp [size, comparisons]

/-- A truth value depends on the comparisons of the formula only. -/
theorem truth_congr {a b : Nat → Bool} {e : Formula} {n m : Nat}
    (h : ∀ i < e.size, a (n + i) = b (m + i)) : e.truth a n = e.truth b m := by
  induction e generalizing n m with
  | comparison | member => exact h 0 (by simp [size, comparisons])
  | negation inner ih => rw [truth, truth, ih h]
  | joined c l r ihl ihr =>
    rw [size_joined] at h
    have hl : l.truth a n = l.truth b m := ihl fun i hi => h i (by omega)
    have hr : r.truth a (n + l.size) = r.truth b (m + l.size) := ihr fun i hi => by
      have := h (l.size + i) (by omega)
      rwa [← Nat.add_assoc, ← Nat.add_assoc] at this
    rw [truth, truth, hl, hr]

end Formula

/-! ## The grammar -/

/-- The levels of the grammar. -/
inductive Phrase
  | condition
  | term
  | factor
  | primary

/-- The words that a phrase derives, and what they say. -/
inductive Derives : Phrase → List Word → Formula → Prop
  | comparison (column : Text) (relation : Relation) :
      Derives .primary (comparisonWords column relation) (.comparison column relation)
  | member (column : Text) (count : Nat) :
      Derives .primary (memberWords column (count + 1)) (.member column (count + 1))
  | parentheses {ws : List Word} {e : Formula} (h : Derives .condition ws e) :
      Derives .primary (.mark '(' :: (ws ++ [.mark ')'])) e
  | primary {ws : List Word} {e : Formula} (h : Derives .primary ws e) : Derives .factor ws e
  | not {ws : List Word} {e : Formula} (h : Derives .primary ws e) :
      Derives .factor (.keyword .not :: ws) (.negation e)
  | factor {ws : List Word} {e : Formula} (h : Derives .factor ws e) : Derives .term ws e
  | and {ws us : List Word} {l r : Formula} (hl : Derives .term ws l) (hr : Derives .factor us r) :
      Derives .term (ws ++ .keyword (.connective .and) :: us) (.joined .and l r)
  | term {ws : List Word} {e : Formula} (h : Derives .term ws e) : Derives .condition ws e
  | or {ws us : List Word} {l r : Formula} (hl : Derives .condition ws l)
      (hr : Derives .term us r) :
      Derives .condition (ws ++ .keyword (.connective .or) :: us) (.joined .or l r)

/-- What SQL text reads as. -/
def Reads (d : Dialect) (sql : Text) (e : Formula) : Prop :=
  ∃ ws, words? d sql = some ws ∧ Derives .condition ws e

/-! ## A machine for the grammar -/

/-- A comparison whose words have not all come. -/
inductive Begun
  | nothing
  | column (column : Text)
  | negated (column : Text)
  | relation (column : Text) (relation : Relation)
  | list (column : Text) (count : Nat)
  deriving DecidableEq, Repr

/-- What was read inside the innermost parenthesis. -/
structure Frame where
  disjunction : Option Formula := none
  conjunction : Option Formula := none
  negated : Bool := false
  deriving DecidableEq, Repr

namespace Frame

/-- Takes a primary. -/
def push (frame : Frame) (e : Formula) : Frame :=
  let e := if frame.negated then .negation e else e
  match frame.conjunction with
  | none => { frame with conjunction := some e, negated := false }
  | some l => { frame with conjunction := some (.joined .and l e), negated := false }

/-- The formula of what was read. -/
def formula? (frame : Frame) : Option Formula :=
  match frame.disjunction, frame.conjunction with
  | none, e => e
  | some l, some r => some (.joined .or l r)
  | some _, none => none

end Frame

/-- A machine that builds formulas: the frames of the open parentheses, innermost first, and the
comparison that was begun. -/
structure Reader where
  frame : Frame := {}
  outer : List Frame := []
  begun : Begun := .nothing
  deriving DecidableEq, Repr

/-- The relation of a sign. -/
def relationOfSign? (t : Text) : Option Relation :=
  [Relation.equal, .notEqual, .greater, .greaterOrEqual, .less, .lessOrEqual].find?
    fun r => relationWords r = [.sign t]

namespace Reader

/-- Takes a word. Words that cannot stand where they stand are passed over. -/
def step : Reader → Word → Reader
  | ⟨frame, outer, .nothing⟩, .name column => ⟨frame, outer, .column column⟩
  | ⟨frame, outer, .column column⟩, .sign t =>
    ⟨frame, outer, (relationOfSign? t).elim .nothing (.relation column)⟩
  | ⟨frame, outer, .column column⟩, .keyword .like => ⟨frame, outer, .relation column .like⟩
  | ⟨frame, outer, .column column⟩, .keyword .not => ⟨frame, outer, .negated column⟩
  | ⟨frame, outer, .negated column⟩, .keyword .like => ⟨frame, outer, .relation column .notLike⟩
  | ⟨frame, outer, .relation column r⟩, .placeholder =>
    ⟨frame.push (.comparison column r), outer, .nothing⟩
  | ⟨frame, outer, .column column⟩, .keyword .member => ⟨frame, outer, .list column 0⟩
  | ⟨frame, outer, .list column n⟩, .placeholder => ⟨frame, outer, .list column (n + 1)⟩
  | ⟨frame, outer, .list column n⟩, .mark ')' => ⟨frame.push (.member column n), outer, .nothing⟩
  | ⟨frame, outer, .nothing⟩, .mark '(' => ⟨{}, frame :: outer, .nothing⟩
  | ⟨frame, next :: outer, .nothing⟩, .mark ')' =>
    ⟨(frame.formula?).elim next next.push, outer, .nothing⟩
  | ⟨frame, outer, .nothing⟩, .keyword .not => ⟨{ frame with negated := true }, outer, .nothing⟩
  | ⟨frame, outer, .nothing⟩, .keyword (.connective .or) =>
    ⟨{ disjunction := frame.formula? }, outer, .nothing⟩
  | reader, _ => reader

/-- Takes words. -/
def run (reader : Reader) (ws : List Word) : Reader := ws.foldl step reader

theorem run_append (reader : Reader) (ws us : List Word) :
    reader.run (ws ++ us) = (reader.run ws).run us :=
  List.foldl_append

theorem run_cons (reader : Reader) (w : Word) (ws : List Word) :
    reader.run (w :: ws) = (reader.step w).run ws :=
  rfl

theorem run_comparison (frame : Frame) (outer : List Frame) (column : Text) (r : Relation) :
    run ⟨frame, outer, .nothing⟩ (comparisonWords column r) =
      ⟨frame.push (.comparison column r), outer, .nothing⟩ := by
  cases r <;> rfl

theorem run_placeholders (frame : Frame) (outer : List Frame) (column : Text) (n count : Nat) :
    run ⟨frame, outer, .list column n⟩ (placeholders count) =
      ⟨frame, outer, .list column (n + count)⟩ := by
  fun_induction placeholders count generalizing n with
  | case1 => rfl
  | case2 => rfl
  | case3 count ih =>
    have hn : n + (count + 2) = n + 1 + (count + 1) := by omega
    rw [hn]
    exact ih (n + 1)

theorem run_member (frame : Frame) (outer : List Frame) (column : Text) (count : Nat) :
    run ⟨frame, outer, .nothing⟩ (memberWords column count) =
      ⟨frame.push (.member column count), outer, .nothing⟩ := by
  have hlist : run ⟨frame, outer, .list column 0⟩ (placeholders count ++ [.mark ')']) =
      ⟨frame.push (.member column count), outer, .nothing⟩ := by
    rw [run_append, run_placeholders, Nat.zero_add]
    rfl
  exact hlist

theorem run_parentheses {frame inner : Frame} {outer : List Frame} {ws : List Word} {e : Formula}
    (h : run ⟨{}, frame :: outer, .nothing⟩ ws = ⟨inner, frame :: outer, .nothing⟩)
    (he : inner.formula? = some e) :
    run ⟨frame, outer, .nothing⟩ (.mark '(' :: (ws ++ [.mark ')'])) =
      ⟨frame.push e, outer, .nothing⟩ := by
  have hclose : run ⟨{}, frame :: outer, .nothing⟩ (ws ++ [.mark ')']) =
      ⟨frame.push e, outer, .nothing⟩ := by
    rw [run_append, h]
    simp [run, step, he]
  exact hclose

end Reader

/-- **The machine builds the formula of every derivation.** What it keeps outside the words that are
derived stays as it is. -/
theorem Derives.run {p : Phrase} {ws : List Word} {e : Formula} (h : Derives p ws e) :
    match p with
    | .primary => ∀ frame outer,
        Reader.run ⟨frame, outer, .nothing⟩ ws = ⟨frame.push e, outer, .nothing⟩
    | .factor => ∀ d c outer,
        Reader.run ⟨⟨d, c, false⟩, outer, .nothing⟩ ws =
          ⟨Frame.push ⟨d, c, false⟩ e, outer, .nothing⟩
    | .term => ∀ d outer,
        Reader.run ⟨⟨d, none, false⟩, outer, .nothing⟩ ws = ⟨⟨d, some e, false⟩, outer, .nothing⟩
    | .condition => ∃ d r, Frame.formula? ⟨d, some r, false⟩ = some e ∧ ∀ outer,
        Reader.run ⟨{}, outer, .nothing⟩ ws = ⟨⟨d, some r, false⟩, outer, .nothing⟩ := by
  induction h with
  | comparison column relation => exact fun frame outer => Reader.run_comparison frame outer _ _
  | member column count => exact fun frame outer => Reader.run_member frame outer _ _
  | parentheses h ih =>
    intro frame outer
    obtain ⟨d, r, he, hrun⟩ := ih
    exact Reader.run_parentheses (hrun (frame :: outer)) he
  | primary h ih => exact fun d c outer => ih _ outer
  | @not ws e h ih =>
    intro d c outer
    have hpush : Frame.push ⟨d, c, true⟩ e = Frame.push ⟨d, c, false⟩ (.negation e) := by
      cases c <;> rfl
    rw [← hpush]
    exact ih ⟨d, c, true⟩ outer
  | factor h ih => exact fun d outer => ih d none outer
  | @and ws us l r hl hr ihl ihr =>
    intro d outer
    rw [Reader.run_append, ihl]
    -- the connective itself changes nothing: the conjunction so far is kept anyway
    exact ihr d (some l) outer
  | term h ih => exact ⟨none, _, rfl, fun outer => ih none outer⟩
  | @or ws us l r hl hr ihl ihr =>
    obtain ⟨d, t, he, hrun⟩ := ihl
    refine ⟨some l, r, rfl, fun outer => ?_⟩
    have hstep : Reader.step ⟨⟨d, some t, false⟩, outer, .nothing⟩ (.keyword (.connective .or)) =
        ⟨⟨some l, none, false⟩, outer, .nothing⟩ := by
      simp [Reader.step, he]
    rw [Reader.run_append, hrun, Reader.run_cons, hstep]
    exact ihr (some l) outer

/-- **The grammar is unambiguous.** -/
theorem Derives.unique {ws : List Word} {e e' : Formula} (h : Derives .condition ws e)
    (h' : Derives .condition ws e') : e = e' := by
  obtain ⟨d, r, he, hrun⟩ := h.run
  obtain ⟨d', r', he', hrun'⟩ := h'.run
  have hframe := (hrun []).symm.trans (hrun' [])
  obtain ⟨rfl, hr⟩ : d = d' ∧ r = r' := by simpa using hframe
  rw [hr, he'] at he
  exact (Option.some.inj he).symm

/-- **A text reads as at most one formula.** -/
theorem Reads.unique {d : Dialect} {sql : Text} {e e' : Formula} (h : Reads d sql e)
    (h' : Reads d sql e') : e = e' := by
  obtain ⟨ws, hws, hd⟩ := h
  obtain ⟨ws', hws', hd'⟩ := h'
  obtain rfl : ws = ws' := Option.some.inj (hws.symm.trans hws')
  exact hd.unique hd'

end RecordQuery.Sql
