import Mathlib.Data.List.Basic
import RecordQuery.Proofs.Query.Grammar

/-!
# Limits only reject

The loop of the parser asks for its limits in two places: before it takes a group, and when it keeps
a tree that has grown. Nothing else that it does depends on them, so two runs over the same tokens
go the same way until the narrower limits reject.

## Two runs

`Parser.Settles` relates the outcomes of two runs: they are the same, unless the first one exceeds a
limit. Doing one thing after the other keeps the relation, and so does each step of the loop. In
particular an error of another sort is not hidden by wider limits: it was met before any limit was.

## What a rejection says

The error shows a limit and does not say which of the two it is. The limit on depth is met at a
parenthesis that lies deeper than it. The limit on height is met at a tree on the way, which is part
of whatever becomes of the rest of the tokens, and trees only grow.

## Main results

* `Parser.settles_build`: the loop under narrower and under wider limits
* `Parser.height_le_of_build`: the loop lets no tree shrink
* `Parser.exceeds_of_build`: which limit is shown, and why
* `Query.parse_of_within`: parsing under narrower and under wider limits
-/

namespace RecordQuery

/-- Limits that are at most as wide as others. -/
structure Limits.Within (limits wider : Limits) : Prop where
  depth_le : limits.maxDepth ≤ wider.maxDepth
  height_le : limits.maxHeight ≤ wider.maxHeight

/-- The narrowest limits that are as wide as either of two. -/
def Limits.sup (limits limits' : Limits) : Limits where
  maxDepth := max limits.maxDepth limits'.maxDepth
  maxHeight := max limits.maxHeight limits'.maxHeight

theorem Limits.within_sup_left (limits limits' : Limits) : limits.Within (limits.sup limits') :=
  ⟨Nat.le_max_left _ _, Nat.le_max_left _ _⟩

theorem Limits.within_sup_right (limits limits' : Limits) : limits'.Within (limits.sup limits') :=
  ⟨Nat.le_max_right _ _, Nat.le_max_right _ _⟩

/-- The deepest level at which tokens open a group, if `depth` groups are open in front of them. A
parenthesis that closes no group changes no level. -/
def TokenKind.nesting (depth : Nat) : List TokenKind → Nat
  | [] => 0
  | .leftParen :: ts => max (depth + 1) (nesting (depth + 1) ts)
  | .rightParen :: ts => nesting (depth - 1) ts
  | _ :: ts => nesting depth ts

namespace Parser

open TokenKind (nesting)

/-! ## The loop at a group -/

/-- The groups at each level are those of the group that is closed and those behind it. -/
theorem nesting_of_closeGroup {inside : Nat} {ts group rest : List TokenKind}
    (h : closeGroup inside ts = some (group, rest)) (depth : Nat) :
    nesting (depth + inside + 1) ts =
      max (nesting (depth + inside + 1) group) (nesting depth rest) := by
  fun_induction closeGroup inside ts generalizing group with
  | case1 => cases h
  | case2 inside ts ih =>
    obtain ⟨⟨g, r⟩, hg, he⟩ := Option.map_eq_some_iff.1 h
    obtain ⟨rfl, rfl⟩ := Prod.mk.inj he
    have hlevel := ih hg
    rw [← Nat.add_assoc] at hlevel
    rw [nesting, nesting, hlevel, Nat.max_assoc]
  | case3 ts =>
    obtain ⟨rfl, rfl⟩ := Prod.mk.inj (Option.some.inj h)
    rw [nesting, nesting, Nat.zero_max]
    rfl
  | case4 ts inside ih =>
    obtain ⟨⟨g, r⟩, hg, he⟩ := Option.map_eq_some_iff.1 h
    obtain ⟨rfl, rfl⟩ := Prod.mk.inj he
    exact ih hg
  | case5 inside t ts hl hr ih =>
    obtain ⟨⟨g, r⟩, hg, he⟩ := Option.map_eq_some_iff.1 h
    obtain ⟨rfl, rfl⟩ := Prod.mk.inj he
    have hlevel := ih hg
    cases t with
    | connective | fragment => exact hlevel
    | leftParen => exact absurd rfl hl
    | rightParen => exact absurd rfl hr

theorem nesting_group {ts group rest : List TokenKind} (h : closeGroup 0 ts = some (group, rest))
    (depth : Nat) :
    nesting depth (.leftParen :: ts) =
      max (depth + 1) (max (nesting (depth + 1) group) (nesting depth rest)) :=
  congrArg (max (depth + 1)) (nesting_of_closeGroup h depth)

section

variable {limits : Limits} {depth : Nat} {current : Option Subtree} {ts : List TokenKind}

/-- What a loop that succeeds has done with a group. -/
theorem build_leftParen_eq_ok {group rest : List TokenKind}
    (hclose : closeGroup 0 ts = some (group, rest)) {tree : Subtree}
    (h : build limits depth current (.leftParen :: ts) = .ok tree) :
    ∃ inner next, build limits (depth + 1) none group = .ok inner ∧
      attach limits ⟨.group inner.query, inner.height + 1⟩ current = .ok next ∧
      build limits depth (some next) rest = .ok tree := by
  by_cases hdepth : depth + 1 ≤ limits.maxDepth
  · rw [build_leftParen hdepth, hclose] at h
    obtain ⟨inner, hinner, h₁⟩ := bind_eq_ok_iff.1 h
    obtain ⟨operand, hoperand, h₂⟩ := bind_eq_ok_iff.1 h₁
    obtain ⟨next, hnext, hrest⟩ := bind_eq_ok_iff.1 h₂
    obtain ⟨rfl, -⟩ := checked_eq_ok_iff.1 hoperand
    exact ⟨inner, next, hinner, hnext, hrest⟩
  · rw [build, if_pos (Nat.not_le.1 hdepth)] at h
    cases h

end

/-! ## Steps under two limits -/

/-- The second outcome is the first one, unless that is a limit exceeded. -/
def Settles {α : Type} (outcome outcome' : Except Failure α) : Prop :=
  (∃ limit, outcome = .error (.tooDeep limit)) ∨ outcome' = outcome

theorem Settles.refl {α : Type} (outcome : Except Failure α) : Settles outcome outcome := .inr rfl

theorem Settles.bind {α β : Type} {x y : Except Failure α} {f g : α → Except Failure β}
    (h : Settles x y) (hf : ∀ a, Settles (f a) (g a)) : Settles (x >>= f) (y >>= g) := by
  rcases h with ⟨limit, rfl⟩ | rfl
  · exact .inl ⟨limit, rfl⟩
  · cases y with
    | error e => exact .refl _
    | ok a => exact hf a

theorem Settles.eq_ok {α : Type} {x y : Except Failure α} {a : α} (h : Settles x y)
    (hx : x = .ok a) : y = .ok a := by
  rcases h with ⟨limit, h⟩ | rfl
  · cases hx.symm.trans h
  · exact hx

/-- Limits only reject what is done under them, so successes have one result. -/
theorem eq_of_settles {α : Type} {f : Limits → Except Failure α} {limits other : Limits} {a b : α}
    (h : ∀ {limits wider : Limits}, limits.Within wider → Settles (f limits) (f wider))
    (ha : f limits = .ok a) (hb : f other = .ok b) : a = b := by
  have hsup := (h (limits.within_sup_left other)).eq_ok ha
  have hsup' := (h (limits.within_sup_right other)).eq_ok hb
  exact Except.ok.inj (hsup.symm.trans hsup')

/-- A step of the loop asks for no limit but that on height, and for it because of its tree. -/
structure Guarded (step : Limits → Except Failure Subtree) : Prop where
  settles {limits wider : Limits} (h : limits.Within wider) : Settles (step limits) (step wider)
  tooTall {limits other : Limits} {limit : Nat} {tree : Subtree}
    (h : step limits = .error (.tooDeep limit)) (htree : step other = .ok tree) :
    limits.maxHeight < tree.height
  shown {limits : Limits} {limit : Nat} (h : step limits = .error (.tooDeep limit)) :
    limit = limits.maxHeight

theorem guarded_const {outcome : Except Failure Subtree}
    (h : ∀ limit, outcome ≠ .error (.tooDeep limit)) : Guarded fun _ => outcome where
  settles _ := .refl _
  tooTall he := absurd he (h _)
  shown he := absurd he (h _)

theorem checked_eq_error_iff {limits : Limits} {tree : Subtree} {failure : Failure} :
    checked limits tree = .error failure ↔
      failure = .tooDeep limits.maxHeight ∧ limits.maxHeight < tree.height := by
  unfold checked
  split
  · next h => simp [h, eq_comm]
  · next h => simp [h]

theorem failure_of_attach {limits : Limits} {operand : Subtree} {current : Option Subtree}
    {failure : Failure} (h : attach limits operand current = .error failure) :
    failure = .tooDeep limits.maxHeight ∨
      failure = .fault (.missingConnective operand.query.display) := by
  unfold attach at h
  split at h
  · cases h
  · exact .inl (checked_eq_error_iff.1 h).1
  · exact .inr (Except.error.inj h).symm

theorem failure_of_openConnective {limits : Limits} {c : Connective} {current : Option Subtree}
    {failure : Failure} (h : openConnective limits c current = .error failure) :
    failure = .tooDeep limits.maxHeight ∨ failure = .fault (.missingLeft c) ∨
      failure = .fault (.consecutive c) := by
  unfold openConnective at h
  split at h
  · exact .inr (.inl (Except.error.inj h).symm)
  · split at h
    · exact .inr (.inr (Except.error.inj h).symm)
    · exact .inl (checked_eq_error_iff.1 h).1

theorem guarded_checked (tree : Subtree) : Guarded (checked · tree) where
  settles {limits wider} h := by
    by_cases hlt : limits.maxHeight < tree.height
    · exact .inl ⟨_, checked_eq_error_iff.2 ⟨rfl, hlt⟩⟩
    · have hle := Nat.not_lt.1 hlt
      rw [checked_of_le hle, checked_of_le (Nat.le_trans hle h.height_le)]
      exact .refl _
  tooTall h htree := by
    obtain ⟨rfl, -⟩ := checked_eq_ok_iff.1 htree
    exact (checked_eq_error_iff.1 h).2
  shown h := Failure.tooDeep.inj (checked_eq_error_iff.1 h).1

theorem guarded_attach (operand : Subtree) (current : Option Subtree) :
    Guarded (attach · operand current) := by
  match current with
  | none => exact guarded_const fun _ => by simp
  | some ⟨.dangling c l, height⟩ => exact guarded_checked _
  | some ⟨.comparison .., _⟩ | some ⟨.joined .., _⟩ | some ⟨.group _, _⟩ =>
    exact guarded_const fun _ => by simp

theorem guarded_openConnective (c : Connective) (current : Option Subtree) :
    Guarded (openConnective · c current) := by
  cases current with
  | none => exact guarded_const fun _ => by simp
  | some tree =>
    cases hopen : tree.query.isOpen with
    | true =>
      simp only [openConnective, hopen]
      exact guarded_const fun _ => by simp
    | false =>
      simp only [openConnective_of_isOpen_eq_false hopen]
      exact guarded_checked _

/-! ## The loop under two limits -/

section

variable {limits other : Limits} {depth : Nat} {current : Option Subtree} {ts : List TokenKind}

/-- **The loop goes the same way under wider limits**, if it exceeds no limit. -/
theorem settles_build {wider : Limits} (h : limits.Within wider) (depth : Nat)
    (current : Option Subtree) (ts : List TokenKind) :
    Settles (build limits depth current ts) (build wider depth current ts) := by
  have hdepth := h.depth_le
  fun_induction build limits depth current ts with
  | case1 depth current =>
    rw [build]
    exact .refl _
  | case2 => exact .inl ⟨_, rfl⟩
  | case3 depth current ts hle hclose =>
    rw [build_leftParen (by omega), hclose]
    exact .refl _
  | case4 depth current ts hle group rest hclose ihinner ihrest =>
    rw [build_leftParen (by omega), hclose]
    refine ihinner.bind fun inner => ?_
    refine ((guarded_checked _).settles h).bind fun operand => ?_
    exact ((guarded_attach operand current).settles h).bind fun next => ihrest next
  | case5 =>
    rw [build]
    exact .refl _
  | case6 depth current c ts ih =>
    rw [build]
    exact ((guarded_openConnective c current).settles h).bind fun next => ih next
  | case7 depth current text ts e hleaf =>
    rw [build, hleaf]
    exact .refl _
  | case8 depth current text ts leaf hleaf ih =>
    rw [build, hleaf]
    exact ((guarded_attach _ current).settles h).bind fun next => ih next

/-- Two runs that succeed have one result, whatever their limits are. -/
theorem eq_of_build_eq_ok {tree tree' : Subtree} (h : build limits depth current ts = .ok tree)
    (h' : build other depth current ts = .ok tree') : tree = tree' :=
  eq_of_settles (fun hw => settles_build hw depth current ts) h h'

/-! ## Trees only grow -/

theorem height_le_of_attach {operand tree : Subtree}
    (h : attach limits operand current = .ok tree) :
    operand.height ≤ tree.height ∧ ∀ t ∈ current, t.height ≤ tree.height := by
  unfold attach at h
  split at h
  · obtain rfl := Except.ok.inj h
    exact ⟨Nat.le_refl _, nofun⟩
  · next c l height =>
    obtain ⟨rfl, -⟩ := checked_eq_ok_iff.1 h
    refine ⟨?_, fun t ht => ?_⟩
    · dsimp only
      omega
    · obtain rfl := Option.some.inj ht
      exact Nat.le_max_left _ _
  · cases h

theorem height_le_of_openConnective {c : Connective} {tree : Subtree}
    (h : openConnective limits c current = .ok tree) :
    ∀ t ∈ current, t.height ≤ tree.height := by
  unfold openConnective at h
  split at h
  · cases h
  · next t =>
    split at h
    · cases h
    · obtain ⟨rfl, -⟩ := checked_eq_ok_iff.1 h
      intro t' ht'
      obtain rfl := Option.some.inj ht'
      exact Nat.le_succ _

/-- The end of the tokens changes no tree and exceeds no limit. -/
theorem finish_cases (current : Option Subtree) :
    (∃ tree, current = some tree ∧ finish current = .ok tree) ∨
      ∃ fault, finish current = .error (.fault fault) := by
  unfold finish
  split
  · exact .inr ⟨_, rfl⟩
  · next tree =>
    split
    · exact .inl ⟨tree, rfl, rfl⟩
    · split <;> exact .inr ⟨_, rfl⟩

/-- **No tree shrinks in the loop.** -/
theorem height_le_of_build {tree : Subtree} (h : build limits depth current ts = .ok tree) :
    ∀ t ∈ current, t.height ≤ tree.height := by
  fun_induction build limits depth current ts generalizing tree with
  | case1 depth current =>
    intro t ht
    rcases finish_cases current with ⟨t', ht', hf⟩ | ⟨fault, hf⟩
    · obtain rfl := Option.some.inj (ht'.symm.trans ht)
      obtain rfl := Except.ok.inj (hf.symm.trans h)
      exact Nat.le_refl _
    · cases hf.symm.trans h
  | case2 => cases h
  | case3 => cases h
  | case4 depth current ts hle group rest hclose ihinner ihrest =>
    obtain ⟨inner, -, h₁⟩ := bind_eq_ok_iff.1 h
    obtain ⟨operand, -, h₂⟩ := bind_eq_ok_iff.1 h₁
    obtain ⟨next, hnext, hrest⟩ := bind_eq_ok_iff.1 h₂
    intro t ht
    exact Nat.le_trans ((height_le_of_attach hnext).2 t ht) (ihrest next hrest next rfl)
  | case5 => cases h
  | case6 depth current c ts ih =>
    obtain ⟨next, hnext, hrest⟩ := bind_eq_ok_iff.1 h
    intro t ht
    exact Nat.le_trans (height_le_of_openConnective hnext t ht) (ih next hrest next rfl)
  | case7 => cases h
  | case8 depth current text ts leaf hleaf ih =>
    obtain ⟨next, hnext, hrest⟩ := bind_eq_ok_iff.1 h
    intro t ht
    exact Nat.le_trans ((height_le_of_attach hnext).2 t ht) (ih next hrest next rfl)

/-! ## What a rejection says -/

/-- Which limit a run exceeds. -/
inductive Exceeds (limits : Limits) (depth : Nat) (current : Option Subtree)
    (ts : List TokenKind) : Nat → Prop
  /-- A parenthesis lies deeper than the limit on depth. -/
  | depth (h : limits.maxDepth < nesting depth ts) :
    Exceeds limits depth current ts limits.maxDepth
  /-- Whatever the limits are, the tree of the tokens is taller than the limit on height. -/
  | height (h : ∀ other tree, build other depth current ts = .ok tree →
      limits.maxHeight < tree.height) :
    Exceeds limits depth current ts limits.maxHeight

/-- A run that takes a step and goes on behind it exceeds what is exceeded in one of the two. -/
theorem Exceeds.of_step {step : Limits → Except Failure Subtree} (hstep : Guarded step)
    {us : List TokenKind} {limit : Nat}
    (h : step limits >>= (fun next => build limits depth (some next) us) = .error (.tooDeep limit))
    (hrest : ∀ next, build limits depth (some next) us = .error (.tooDeep limit) →
      Exceeds limits depth (some next) us limit)
    (hnesting : nesting depth us ≤ nesting depth ts)
    (hruns : ∀ other tree, build other depth current ts = .ok tree →
      ∃ next, step other = .ok next ∧ build other depth (some next) us = .ok tree) :
    Exceeds limits depth current ts limit := by
  rcases bind_eq_error_iff.1 h with herror | ⟨next, hnext, herror⟩
  · rw [hstep.shown herror]
    refine .height fun other tree htree => ?_
    obtain ⟨next, hnext, hbuild⟩ := hruns other tree htree
    exact Nat.lt_of_lt_of_le (hstep.tooTall herror hnext) (height_le_of_build hbuild next rfl)
  · cases hrest next herror with
    | depth hlt => exact .depth (Nat.lt_of_lt_of_le hlt hnesting)
    | height htall =>
      refine .height fun other tree htree => ?_
      obtain ⟨next', hnext', hbuild⟩ := hruns other tree htree
      obtain rfl := eq_of_settles hstep.settles hnext hnext'
      exact htall other tree hbuild

/-- **A limit is shown because it is exceeded.** -/
theorem exceeds_of_build {limit : Nat}
    (h : build limits depth current ts = .error (.tooDeep limit)) :
    Exceeds limits depth current ts limit := by
  fun_induction build limits depth current ts with
  | case1 depth current =>
    rcases finish_cases current with ⟨_, _, hf⟩ | ⟨_, hf⟩ <;> cases hf.symm.trans h
  | case2 depth current ts hlt =>
    obtain rfl := Failure.tooDeep.inj (Except.error.inj h)
    refine .depth ?_
    rw [nesting]
    omega
  | case3 => cases h
  | case4 depth current ts hle group rest hclose ihinner ihrest =>
    have hnesting := nesting_group hclose depth
    rcases bind_eq_error_iff.1 h with herror | ⟨inner, hinner, h⟩
    · -- what is exceeded inside the group is exceeded by the whole
      cases ihinner herror with
      | depth hlt =>
        refine .depth ?_
        omega
      | height htall =>
        refine .height fun other tree htree => ?_
        obtain ⟨inner, next, hinner, hnext, hbuild⟩ := build_leftParen_eq_ok hclose htree
        have hgroup := htall other inner hinner
        have hoperand := (height_le_of_attach hnext).1
        have hrest := height_le_of_build hbuild next rfl
        dsimp only at hoperand
        omega
    have hruns : ∀ other tree, build other depth current (.leftParen :: ts) = .ok tree →
        ∃ next, attach other ⟨.group inner.query, inner.height + 1⟩ current = .ok next ∧
          build other depth (some next) rest = .ok tree := by
      intro other tree htree
      obtain ⟨inner', next, hinner', hnext, hbuild⟩ := build_leftParen_eq_ok hclose htree
      obtain rfl := eq_of_build_eq_ok hinner hinner'
      exact ⟨next, hnext, hbuild⟩
    rcases bind_eq_error_iff.1 h with herror | ⟨operand, hoperand, h⟩
    · obtain ⟨hlimit, hlt⟩ := checked_eq_error_iff.1 herror
      obtain rfl := Failure.tooDeep.inj hlimit
      refine .height fun other tree htree => ?_
      obtain ⟨next, hnext, hbuild⟩ := hruns other tree htree
      exact Nat.lt_of_lt_of_le hlt
        (Nat.le_trans (height_le_of_attach hnext).1 (height_le_of_build hbuild next rfl))
    · obtain ⟨rfl, -⟩ := checked_eq_ok_iff.1 hoperand
      exact .of_step (guarded_attach _ current) h (fun next => ihrest next) (by omega) hruns
  | case5 => cases h
  | case6 depth current c ts ih =>
    refine .of_step (guarded_openConnective c current) h (fun next => ih next) (Nat.le_refl _)
      fun other tree htree => ?_
    rw [build] at htree
    exact bind_eq_ok_iff.1 htree
  | case7 => cases h
  | case8 depth current text ts leaf hleaf ih =>
    refine .of_step (guarded_attach _ current) h (fun next => ih next) (Nat.le_refl _)
      fun other tree htree => ?_
    rw [build, hleaf] at htree
    exact bind_eq_ok_iff.1 htree

end

end Parser

namespace Query

/-! ## Parsing under two limits -/

variable {limits : Limits} {text : Text}

theorem exists_build_of_parse {q : Query} (h : parse limits text = .ok q) :
    ∃ tree, Parser.build limits 0 none (TokenKind.ofText text) = .ok tree ∧ tree.query = q := by
  unfold parse at h
  split at h
  · next tree htree => exact ⟨tree, htree, Except.ok.inj h⟩
  · cases h

theorem exists_build_of_parse_error {e : ParseError} (h : parse limits text = .error e) :
    ∃ failure, Parser.build limits 0 none (TokenKind.ofText text) = .error failure ∧
      ParseError.ofFailure text failure = e := by
  unfold parse at h
  split at h
  · cases h
  · next failure hfailure => exact ⟨failure, hfailure, Except.error.inj h⟩

/-- An error about the structure of a query holds the wording of a fault. -/
theorem exists_fault_of_parse {query reason : Text}
    (h : parse limits text = .error (.illegalQuery query reason)) :
    ∃ fault, Parser.build limits 0 none (TokenKind.ofText text) = .error (.fault fault) ∧
      fault.message = reason := by
  obtain ⟨failure, hfailure, herror⟩ := exists_build_of_parse_error h
  cases failure with
  | fault fault => exact ⟨fault, hfailure, (ParseError.illegalQuery.inj herror).2⟩
  | fragment e => cases e <;> cases herror
  | tooDeep => cases herror

/-- Under wider limits the outcome is the same, unless it is a limit exceeded. -/
theorem parse_eq_of_within {wider : Limits} (h : limits.Within wider)
    (hlimit : ∀ query limit, parse limits text ≠ .error (.tooDeep query limit)) :
    parse wider text = parse limits text := by
  rcases Parser.settles_build h 0 none (TokenKind.ofText text) with ⟨limit, herror⟩ | heq
  · refine absurd ?_ (hlimit text limit)
    rw [parse, herror]
    rfl
  · rw [parse, parse, heq]

/-- **Limits only reject.** Under limits that are at least as wide, a text that was parsed is parsed
to the same tree, and an error that shows no limit is the same error. The limit that is shown is the
one on depth, and some parenthesis lies deeper than it, or the one on height, and the tree of the
text is taller than it, whatever the limits are under which there is one. -/
theorem parse_of_within {wider : Limits} (h : limits.Within wider) (text : Text) :
    (∀ q, parse limits text = .ok q → parse wider text = .ok q) ∧
    (∀ e, parse limits text = .error e → (∀ query limit, e ≠ .tooDeep query limit) →
      parse wider text = .error e) ∧
    ∀ query limit, parse limits text = .error (.tooDeep query limit) →
      (limit = limits.maxDepth ∧ limit < TokenKind.nesting 0 (TokenKind.ofText text)) ∨
      (limit = limits.maxHeight ∧ ∀ other q, parse other text = .ok q → limit < q.height) := by
  refine ⟨fun q hq => ?_, fun e he hlimit => ?_, fun query limit he => ?_⟩
  · rw [parse_eq_of_within h (by simp [hq]), hq]
  · rw [parse_eq_of_within h (by simpa [he] using hlimit), he]
  · obtain ⟨failure, hfailure, heq⟩ := exists_build_of_parse_error he
    obtain rfl : failure = .tooDeep limit := by
      cases failure with
      | fault => cases heq
      | fragment error => cases error <;> cases heq
      | tooDeep => cases heq; rfl
    cases Parser.exceeds_of_build hfailure with
    | depth hlt => exact .inl ⟨rfl, hlt⟩
    | height htall =>
      refine .inr ⟨rfl, fun other q hq => ?_⟩
      obtain ⟨tree, htree, rfl⟩ := exists_build_of_parse hq
      rw [← (Parser.build_eq_ok_iff.1 htree).2.2]
      exact htall other tree htree

/-- One text for each sort of outcome, the limits on depth and on height told apart. -/
theorem parse_of_within_each_sort :
    let limits : Limits := ⟨1, 2⟩
    let wider : Limits := ⟨2, 3⟩
    let q : Query := .joined .and (.comparison (.relation .equal) ['a'] ['1'])
      (.group (.comparison (.relation .less) ['b'] ['2']))
    limits.Within wider ∧
      parse limits "a = 1 && (b < 2)".toList = .ok q ∧
      parse wider "a = 1 && (b < 2)".toList = .ok q ∧
      parse limits "(a = 1) && || b < 2".toList = .error (.illegalQuery "(a = 1) && || b < 2".toList
        "consecutive logical operators at '||'".toList) ∧
      parse wider "(a = 1) && || b < 2".toList = .error (.illegalQuery "(a = 1) && || b < 2".toList
        "consecutive logical operators at '||'".toList) ∧
      parse limits "a = 1 || ((b < 2))".toList = .error (.tooDeep "a = 1 || ((b < 2))".toList 1) ∧
      1 < TokenKind.nesting 0 (TokenKind.ofText "a = 1 || ((b < 2))".toList) ∧
      parse limits "a = 1 && b = 2 && c = 3 || d = 4".toList =
        .error (.tooDeep "a = 1 && b = 2 && c = 3 || d = 4".toList 2) ∧
      ∀ other q, parse other "a = 1 && b = 2 && c = 3 || d = 4".toList = .ok q → 2 < q.height := by
  intro limits wider q
  have h : limits.Within wider := ⟨by decide, by decide⟩
  have hok : parse limits "a = 1 && (b < 2)".toList = .ok q := by decide +kernel
  have herror : parse limits "(a = 1) && || b < 2".toList =
      .error (.illegalQuery "(a = 1) && || b < 2".toList
        "consecutive logical operators at '||'".toList) := by
    decide +kernel
  have hdeep : parse limits "a = 1 || ((b < 2))".toList =
      .error (.tooDeep "a = 1 || ((b < 2))".toList 1) := by decide +kernel
  have htall : parse limits "a = 1 && b = 2 && c = 3 || d = 4".toList =
      .error (.tooDeep "a = 1 && b = 2 && c = 3 || d = 4".toList 2) := by decide +kernel
  refine ⟨h, hok, (parse_of_within h _).1 q hok, herror,
    (parse_of_within h _).2.1 _ herror nofun, hdeep, ?_, htall, ?_⟩
  · rcases (parse_of_within h _).2.2 _ _ hdeep with ⟨-, hlt⟩ | ⟨hlimit, -⟩
    · exact hlt
    · exact absurd hlimit (by decide)
  · rcases (parse_of_within h _).2.2 _ _ htall with ⟨hlimit, -⟩ | ⟨-, hlt⟩
    · exact absurd hlimit (by decide)
    · exact hlt

end Query

end RecordQuery
