import RecordQuery.Proofs.Query.Rounds

/-!
# Parentheses of a query

The loop takes a group by counting: it goes on until the parentheses that it has seen close more
groups than they open. This file says what such a group is without any counting on the way: it is
balanced, and a closing parenthesis follows it.

From that it is seen where the two errors about parentheses come from. The loop takes tokens off
only in balanced pieces, so whatever stands in front of a round is balanced, and the tokens of a
group are balanced as a whole. A parenthesis without its partner can therefore be met outside all
groups only, and only if the tokens of the whole query do not balance.

`TokenKind.Balanced` and `TokenKind.StaysOpen` have the number of the groups that are open in front
of the tokens as a parameter, which is what the induction over the tokens needs. Tokens that balance
on their own are those with no group open in front of them.

## Main results

* `Parser.closeGroup_eq_some_iff`, `Parser.closeGroup_eq_none_iff`: which tokens are taken as a
  group
* `Parser.Rounds.balanced`: the tokens in front of a round are balanced
* `Parser.unpaired_iff`: when the loop fails because of a parenthesis
* `Parser.closeGroup_balanced`: groups are taken exactly, and errors about parentheses come from
  outside of them
-/

namespace RecordQuery

namespace TokenKind

/-! ## Balanced tokens -/

/-- Whether no prefix of the tokens closes more groups than are open, if `inside` groups are open in
front of them. -/
def StaysOpen (inside : Nat) (ts : List TokenKind) : Prop :=
  ∀ p, p <+: ts → p.count .rightParen ≤ p.count .leftParen + inside

/-- Tokens that close the groups they open and the `inside` groups that are open in front of them,
and no prefix of which closes more than are open. -/
structure Balanced (inside : Nat) (ts : List TokenKind) : Prop where
  count_eq : ts.count .rightParen = ts.count .leftParen + inside
  staysOpen : StaysOpen inside ts

variable {inside : Nat} {t : TokenKind} {s ts : List TokenKind}

theorem balanced_iff : Balanced inside ts ↔
    ts.count .rightParen = ts.count .leftParen + inside ∧ StaysOpen inside ts :=
  ⟨fun h => ⟨h.1, h.2⟩, fun h => ⟨h.1, h.2⟩⟩

theorem staysOpen_nil (inside : Nat) : StaysOpen inside [] := by
  intro p hp
  rw [List.prefix_nil.1 hp]
  exact Nat.zero_le _

theorem balanced_nil : Balanced 0 [] := ⟨rfl, staysOpen_nil 0⟩

/-- The empty prefix closes nothing. -/
theorem staysOpen_cons_iff : StaysOpen inside (t :: ts) ↔
    ∀ p, p <+: ts → (t :: p).count .rightParen ≤ (t :: p).count .leftParen + inside := by
  constructor
  · intro h p hp
    exact h (t :: p) (List.prefix_cons_iff.2 (.inr ⟨p, rfl, hp⟩))
  · intro h p hp
    rcases List.prefix_cons_iff.1 hp with rfl | ⟨q, rfl, hq⟩
    · exact Nat.zero_le _
    · exact h q hq

theorem staysOpen_leftParen : StaysOpen inside (.leftParen :: ts) ↔ StaysOpen (inside + 1) ts := by
  rw [staysOpen_cons_iff]
  refine forall₂_congr fun p _ => ?_
  rw [List.count_cons_self, List.count_cons_of_ne (by decide)]
  omega

theorem staysOpen_rightParen :
    StaysOpen (inside + 1) (.rightParen :: ts) ↔ StaysOpen inside ts := by
  rw [staysOpen_cons_iff]
  refine forall₂_congr fun p _ => ?_
  rw [List.count_cons_self, List.count_cons_of_ne (by decide)]
  omega

theorem not_staysOpen_rightParen : ¬ StaysOpen 0 (.rightParen :: ts) := fun h =>
  absurd (h [.rightParen] (List.prefix_append [.rightParen] ts)) (by decide)

theorem staysOpen_of_ne (hl : t ≠ .leftParen) (hr : t ≠ .rightParen) :
    StaysOpen inside (t :: ts) ↔ StaysOpen inside ts := by
  rw [staysOpen_cons_iff]
  refine forall₂_congr fun p _ => ?_
  rw [List.count_cons_of_ne hl, List.count_cons_of_ne hr]

theorem balanced_leftParen : Balanced inside (.leftParen :: ts) ↔ Balanced (inside + 1) ts := by
  rw [balanced_iff, balanced_iff, staysOpen_leftParen, List.count_cons_self,
    List.count_cons_of_ne (by decide), Nat.add_right_comm, Nat.add_assoc]

theorem balanced_rightParen : Balanced (inside + 1) (.rightParen :: ts) ↔ Balanced inside ts := by
  rw [balanced_iff, balanced_iff, staysOpen_rightParen, List.count_cons_self,
    List.count_cons_of_ne (by decide), ← Nat.add_assoc, Nat.add_right_cancel_iff]

theorem not_balanced_rightParen : ¬ Balanced 0 (.rightParen :: ts) := fun h =>
  not_staysOpen_rightParen h.staysOpen

theorem balanced_of_ne (hl : t ≠ .leftParen) (hr : t ≠ .rightParen) :
    Balanced inside (t :: ts) ↔ Balanced inside ts := by
  rw [balanced_iff, balanced_iff, staysOpen_of_ne hl hr, List.count_cons_of_ne hl,
    List.count_cons_of_ne hr]

theorem balanced_connective {c : Connective} :
    Balanced inside (.connective c :: ts) ↔ Balanced inside ts := balanced_of_ne nofun nofun

theorem balanced_fragment {text : Text} :
    Balanced inside (.fragment text :: ts) ↔ Balanced inside ts := balanced_of_ne nofun nofun

/-- Behind balanced tokens as many groups are open as in front of them. -/
theorem staysOpen_append (h : Balanced 0 s) : StaysOpen inside (s ++ ts) ↔ StaysOpen inside ts := by
  have hcount := h.count_eq
  constructor
  · intro hs p hp
    have hle := hs (s ++ p) ((List.prefix_append_right_inj s).2 hp)
    rw [List.count_append, List.count_append] at hle
    omega
  · intro hts p hp
    rcases List.prefix_or_prefix_of_prefix hp (List.prefix_append s ts) with hs | ⟨q, rfl⟩
    · exact Nat.le_trans (h.staysOpen p hs) (Nat.le_add_right _ _)
    · have hle := hts q ((List.prefix_append_right_inj s).1 hp)
      rw [List.count_append, List.count_append]
      omega

theorem balanced_append (h : Balanced 0 s) : Balanced inside (s ++ ts) ↔ Balanced inside ts := by
  rw [balanced_iff, balanced_iff, staysOpen_append h, List.count_append, List.count_append,
    h.count_eq, Nat.add_zero, Nat.add_assoc, Nat.add_left_cancel_iff]

theorem Balanced.group (h : Balanced 0 ts) : Balanced 0 (.leftParen :: (ts ++ [.rightParen])) :=
  balanced_leftParen.2 ((balanced_append h).2 (balanced_rightParen.2 balanced_nil))

end TokenKind

open TokenKind (Balanced StaysOpen)

/-! ## Wordings -/

namespace Fault

/-- Whether a fault is a parenthesis that has no partner. -/
def IsUnbalanced (fault : Fault) : Prop := fault = .unbalancedOpen ∨ fault = .unbalancedClose

theorem isUnbalanced_iff {fault : Fault} : fault.IsUnbalanced ↔
    fault.message = "unbalanced '('".toList ∨ fault.message = "unbalanced ')'".toList := by
  constructor
  · rintro (rfl | rfl)
    · exact .inl rfl
    · exact .inr rfl
  · rintro (h | h)
    · exact .inl (message_injective h)
    · exact .inr (message_injective h)

end Fault

namespace Parser

variable {limits : Limits} {depth inside : Nat} {current : Option Subtree}
  {ts group rest : List TokenKind} {fault : Fault}

/-! ## Groups -/

theorem closeGroup_of_balanced (h : Balanced inside group) (rest : List TokenKind) :
    closeGroup inside (group ++ .rightParen :: rest) = some (group, rest) := by
  induction group generalizing inside with
  | nil =>
    obtain rfl : 0 = inside := by simpa using h.count_eq
    rfl
  | cons t ts ih =>
    rw [List.cons_append]
    cases t with
    | leftParen =>
      rw [closeGroup, ih (TokenKind.balanced_leftParen.1 h)]
      rfl
    | rightParen =>
      cases inside with
      | zero => exact absurd h TokenKind.not_balanced_rightParen
      | succ inside =>
        simp only [closeGroup]
        rw [ih (TokenKind.balanced_rightParen.1 h)]
        rfl
    | connective c =>
      simp only [closeGroup]
      rw [ih (TokenKind.balanced_connective.1 h)]
      rfl
    | fragment text =>
      simp only [closeGroup]
      rw [ih (TokenKind.balanced_fragment.1 h)]
      rfl

theorem balanced_of_closeGroup (h : closeGroup inside ts = some (group, rest)) :
    Balanced inside group := by
  fun_induction closeGroup inside ts generalizing group with
  | case1 => cases h
  | case2 inside ts ih =>
    obtain ⟨⟨g, r⟩, hg, he⟩ := Option.map_eq_some_iff.1 h
    obtain ⟨rfl, rfl⟩ := Prod.mk.inj he
    exact TokenKind.balanced_leftParen.2 (ih hg)
  | case3 ts =>
    obtain ⟨rfl, rfl⟩ := Prod.mk.inj (Option.some.inj h)
    exact TokenKind.balanced_nil
  | case4 ts inside ih =>
    obtain ⟨⟨g, r⟩, hg, he⟩ := Option.map_eq_some_iff.1 h
    obtain ⟨rfl, rfl⟩ := Prod.mk.inj he
    exact TokenKind.balanced_rightParen.2 (ih hg)
  | case5 inside t ts hl hr ih =>
    obtain ⟨⟨g, r⟩, hg, he⟩ := Option.map_eq_some_iff.1 h
    obtain ⟨rfl, rfl⟩ := Prod.mk.inj he
    exact (TokenKind.balanced_of_ne hl hr).2 (ih hg)

/-- **A group is what balances in front of a closing parenthesis.** -/
theorem closeGroup_eq_some_iff : closeGroup inside ts = some (group, rest) ↔
    ts = group ++ .rightParen :: rest ∧ Balanced inside group := by
  constructor
  · intro h
    exact ⟨closeGroup_eq h, balanced_of_closeGroup h⟩
  · rintro ⟨rfl, h⟩
    exact closeGroup_of_balanced h rest

/-- **There is no group where the tokens never close it.** -/
theorem closeGroup_eq_none_iff : closeGroup inside ts = none ↔ StaysOpen inside ts := by
  fun_induction closeGroup inside ts with
  | case1 inside => simpa using TokenKind.staysOpen_nil inside
  | case2 inside ts ih => rw [Option.map_eq_none_iff, ih, TokenKind.staysOpen_leftParen]
  | case3 ts => simpa using TokenKind.not_staysOpen_rightParen
  | case4 ts inside ih => rw [Option.map_eq_none_iff, ih, TokenKind.staysOpen_rightParen]
  | case5 inside t ts hl hr ih =>
    rw [Option.map_eq_none_iff, ih, TokenKind.staysOpen_of_ne hl hr]

/-- A group is taken if some prefix closes it. -/
theorem exists_closeGroup_iff : (∃ group rest, closeGroup 0 ts = some (group, rest)) ↔
    ∃ p, p <+: ts ∧ p.count .rightParen = p.count .leftParen + 1 := by
  constructor
  · rintro ⟨group, rest, h⟩
    obtain ⟨rfl, hgroup⟩ := closeGroup_eq_some_iff.1 h
    refine ⟨group ++ [.rightParen], ⟨rest, List.append_assoc _ _ _⟩, ?_⟩
    have hcount := hgroup.count_eq
    rw [List.count_append, List.count_append, hcount]
    rfl
  · rintro ⟨p, hp, hcount⟩
    cases hclose : closeGroup 0 ts with
    | some pair => exact ⟨pair.1, pair.2, rfl⟩
    | none =>
      have hle := closeGroup_eq_none_iff.1 hclose p hp
      omega

/-! ## In front of a round -/

/-- **The tokens in front of a round are balanced**: each round takes a token that is no
parenthesis, or a group with both of its own. -/
theorem Rounds.balanced (h : Rounds limits depth ts current rest) :
    ∃ before, ts = before ++ rest ∧ Balanced 0 before := by
  induction h with
  | start => exact ⟨[], rfl, TokenKind.balanced_nil⟩
  | @next current t later rest tree _ hround ih =>
    obtain ⟨before, rfl, hbefore⟩ := ih
    rcases round_eq_ok hround with ⟨group, inner, rfl, -, hclose, -⟩ | ⟨c, rfl, rfl, -⟩ |
      ⟨text, leaf, rfl, rfl, -⟩
    · obtain ⟨rfl, hgroup⟩ := closeGroup_eq_some_iff.1 hclose
      exact ⟨before ++ .leftParen :: (group ++ [.rightParen]), by simp,
        (TokenKind.balanced_append hbefore).2 hgroup.group⟩
    · exact ⟨before ++ [.connective c], by simp, (TokenKind.balanced_append hbefore).2
        (TokenKind.balanced_connective.2 TokenKind.balanced_nil)⟩
    · exact ⟨before ++ [.fragment text], by simp, (TokenKind.balanced_append hbefore).2
        (TokenKind.balanced_fragment.2 TokenKind.balanced_nil)⟩

theorem balanced_of_build {tree : Subtree} (h : build limits depth none ts = .ok tree) :
    Balanced 0 ts := by
  rcases (Rounds.start : Rounds limits depth ts none ts).exists_end with
    ⟨last, hr, -⟩ | ⟨last, t, later, failure, -, -, hend⟩
  · obtain ⟨before, rfl, hbefore⟩ := hr.balanced
    rwa [List.append_nil]
  · cases hend.symm.trans h

/-! ## Parentheses without partners -/

/-- The loop comes to a parenthesis without a partner, outside of the groups that it takes: to one
that nothing behind it closes, or to one that closes nothing. What stands in front of it is
balanced. -/
inductive Unpaired (limits : Limits) (depth : Nat) (ts : List TokenKind) : Fault → Prop
  | left {current : Option Subtree} {before later : List TokenKind}
      (split : ts = before ++ .leftParen :: later) (balanced : Balanced 0 before)
      (staysOpen : StaysOpen 0 later) (depth_le : depth + 1 ≤ limits.maxDepth)
      (rounds : Rounds limits depth ts current (.leftParen :: later)) :
      Unpaired limits depth ts .unbalancedOpen
  | right {current : Option Subtree} {before later : List TokenKind}
      (split : ts = before ++ .rightParen :: later) (balanced : Balanced 0 before)
      (rounds : Rounds limits depth ts current (.rightParen :: later)) :
      Unpaired limits depth ts .unbalancedClose

theorem Unpaired.not_balanced (h : Unpaired limits depth ts fault) : ¬ Balanced 0 ts := by
  cases h with
  | left split balanced staysOpen =>
    rw [split, TokenKind.balanced_append balanced, TokenKind.balanced_leftParen]
    intro hlater
    have hle := staysOpen _ (List.prefix_refl _)
    have heq := hlater.count_eq
    omega
  | right split balanced =>
    rw [split, TokenKind.balanced_append balanced]
    exact TokenKind.not_balanced_rightParen

theorem fault_of_finish (h : finish current = .error (.fault fault)) :
    fault = .empty ∨ fault = .missingRight ∨ fault = .incomplete := by
  unfold finish at h
  split at h
  · exact .inl (Failure.fault.inj (Except.error.inj h)).symm
  split at h
  · cases h
  split at h
  · exact .inr (.inl (Failure.fault.inj (Except.error.inj h)).symm)
  · exact .inr (.inr (Failure.fault.inj (Except.error.inj h)).symm)

/-- A run fails with such a fault only where it comes to such a parenthesis itself: the tokens of a
group are balanced. -/
theorem unpaired_of_build {depth : Nat} {ts : List TokenKind} (hfault : fault.IsUnbalanced)
    (h : build limits depth none ts = .error (.fault fault)) : Unpaired limits depth ts fault := by
  rcases (Rounds.start : Rounds limits depth ts none ts).exists_end with
    ⟨last, -, hend⟩ | ⟨last, t, later, failure, hr, hround, hend⟩
  · rcases fault_of_finish (hend.symm.trans h) with rfl | rfl | rfl <;>
      rcases hfault with h | h <;> cases h
  obtain rfl := Except.error.inj (hend.symm.trans h)
  obtain ⟨before, hsplit, hbefore⟩ := hr.balanced
  rcases round_eq_fault hround with ⟨rfl, rfl, hdepth, hclose⟩ | ⟨rfl, rfl⟩ |
    ⟨group, after, hclose, hgroup⟩ | ⟨q, rfl⟩ | ⟨c, rfl | rfl⟩
  · exact .left hsplit hbefore (closeGroup_eq_none_iff.1 hclose) hdepth hr
  · exact .right hsplit hbefore hr
  · have hshorter := length_of_closeGroup hclose
    have hlater := hr.length_le
    exact absurd (balanced_of_closeGroup hclose) (unpaired_of_build hfault hgroup).not_balanced
  all_goals rcases hfault with h | h <;> cases h
termination_by ts.length
decreasing_by
  rw [List.length_cons] at hlater
  omega

/-- **The loop fails because of a parenthesis where it comes to one without a partner**, whatever
else is wrong behind it. -/
theorem unpaired_iff : Unpaired limits depth ts fault ↔
    fault.IsUnbalanced ∧ build limits depth none ts = .error (.fault fault) := by
  constructor
  · intro h
    cases h with
    | left split balanced staysOpen depth_le rounds =>
      refine ⟨.inl rfl, ?_⟩
      rw [← rounds.build_eq, build_leftParen depth_le, closeGroup_eq_none_iff.2 staysOpen]
    | right split balanced rounds =>
      refine ⟨.inr rfl, ?_⟩
      rw [← rounds.build_eq, build]
  · rintro ⟨hfault, h⟩
    exact unpaired_of_build hfault h

theorem parse_eq_unpaired_iff {text : Text} (hfault : fault.IsUnbalanced) :
    (∃ query, Query.parse limits text = .error (.illegalQuery query fault.message)) ↔
      Unpaired limits 0 (TokenKind.ofText text) fault := by
  rw [unpaired_iff, and_iff_right hfault]
  constructor
  · rintro ⟨query, h⟩
    obtain ⟨fault', hbuild, hmessage⟩ := Query.exists_fault_of_parse h
    obtain rfl := Fault.message_injective hmessage
    exact hbuild
  · intro h
    refine ⟨text, ?_⟩
    rw [Query.parse, h]
    rfl

/-- **Groups are taken exactly, and errors about parentheses come from outside of them.** A group is
taken if some prefix closes it, and then it is what balances in front of the closing parenthesis.
So no run on a group fails because of a parenthesis. A query fails so where the loop, outside all
groups, comes to a parenthesis without a partner, and only if its parentheses do not balance; those
of a query that is read do. -/
theorem closeGroup_balanced :
    (∀ ts : List TokenKind, (∃ group rest, closeGroup 0 ts = some (group, rest)) ↔
      ∃ p, p <+: ts ∧ p.count .rightParen = p.count .leftParen + 1) ∧
    (∀ ts group rest : List TokenKind, closeGroup 0 ts = some (group, rest) ↔
      ts = group ++ [.rightParen] ++ rest ∧ group.count .rightParen = group.count .leftParen ∧
        ∀ p, p <+: group → p.count .rightParen ≤ p.count .leftParen) ∧
    (∀ (limits : Limits) (depth : Nat) (ts group rest : List TokenKind) (fault : Fault),
      closeGroup 0 ts = some (group, rest) →
      fault.message = "unbalanced '('".toList ∨ fault.message = "unbalanced ')'".toList →
      build limits depth none group ≠ .error (.fault fault)) ∧
    (∀ (limits : Limits) (text : Text) (fault : Fault),
      fault.message = "unbalanced '('".toList ∨ fault.message = "unbalanced ')'".toList →
      ((∃ query, Query.parse limits text = .error (.illegalQuery query fault.message)) ↔
        Unpaired limits 0 (TokenKind.ofText text) fault) ∧
      (Unpaired limits 0 (TokenKind.ofText text) fault → ¬ Balanced 0 (TokenKind.ofText text))) ∧
    ∀ (limits : Limits) (text : Text) (q : Query), Query.parse limits text = .ok q →
      Balanced 0 (TokenKind.ofText text) := by
  refine ⟨fun ts => exists_closeGroup_iff, fun ts group rest => ?_,
    fun limits depth ts group rest fault hclose hmessage h => ?_,
    fun limits text fault hmessage => ⟨?_, Unpaired.not_balanced⟩, fun limits text q h => ?_⟩
  · rw [closeGroup_eq_some_iff, TokenKind.balanced_iff, List.append_assoc]
    rfl
  · have hunpaired := unpaired_of_build (Fault.isUnbalanced_iff.2 hmessage) h
    exact hunpaired.not_balanced (balanced_of_closeGroup hclose)
  · exact parse_eq_unpaired_iff (Fault.isUnbalanced_iff.2 hmessage)
  · obtain ⟨tree, hbuild, -⟩ := Query.exists_build_of_parse h
    exact balanced_of_build hbuild

/-- Groups in a group; a parenthesis too many behind one; and one too few around another. -/
theorem closeGroup_balanced_nested :
    let b : TokenKind := .fragment "b = 2".toList
    let q : Query := .group (.joined .and (.group (.comparison (.relation .equal) ['a'] ['1']))
      (.comparison (.relation .equal) ['b'] ['2']))
    let inner : List TokenKind := [.leftParen, b, .rightParen]
    let group : List TokenKind := inner ++ .connective .or :: inner
    let ts : List TokenKind := group ++ [.rightParen] ++ [.connective .and, b, .rightParen]
    let closing : Text := "(a = 1)) || (b = 2".toList
    let opening : Text := "a = 1 && ((b = 2)".toList
    let paired : Text := "((a = 1) && b = 2)".toList
    (closeGroup 0 ts = some (group, [.connective .and, b, .rightParen]) ∧
      build {} 1 none group ≠ .error (.fault .unbalancedClose)) ∧
    (Query.parse {} closing = .error (.illegalQuery closing "unbalanced ')'".toList) ∧
      Unpaired {} 0 (TokenKind.ofText closing) .unbalancedClose) ∧
    (Query.parse {} opening = .error (.illegalQuery opening "unbalanced '('".toList) ∧
      ¬ Balanced 0 (TokenKind.ofText opening)) ∧
    Query.parse {} paired = .ok q ∧ Balanced 0 (TokenKind.ofText paired) := by
  intro b q inner group ts closing opening paired
  obtain ⟨-, -, hinside, hquery, hok⟩ := closeGroup_balanced
  have hclose : closeGroup 0 ts = some (group, [.connective .and, b, .rightParen]) := by
    decide +kernel
  have hclosing : Query.parse {} closing =
      .error (.illegalQuery closing "unbalanced ')'".toList) := by
    decide +kernel
  have hopening : Query.parse {} opening =
      .error (.illegalQuery opening "unbalanced '('".toList) := by
    decide +kernel
  have hpaired : Query.parse {} paired = .ok q := by decide +kernel
  obtain ⟨hclosingIff, -⟩ := hquery {} closing .unbalancedClose (.inr rfl)
  obtain ⟨hopeningIff, hunbalanced⟩ := hquery {} opening .unbalancedOpen (.inl rfl)
  exact ⟨⟨hclose, hinside {} 1 ts group _ .unbalancedClose hclose (.inr rfl)⟩,
    ⟨hclosing, hclosingIff.1 ⟨closing, hclosing⟩⟩,
    ⟨hopening, hunbalanced (hopeningIff.1 ⟨opening, hopening⟩)⟩, hpaired, hok {} paired q hpaired⟩

end Parser

end RecordQuery
