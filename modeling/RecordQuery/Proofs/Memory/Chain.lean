import Mathlib.Data.List.Basic
import RecordQuery.Memory.Backend
import RecordQuery.Proofs.Compile.Nodes
import RecordQuery.Proofs.Query.Grammar
import RecordQuery.Proofs.Query.Tokens

/-!
# What a query means in memory

A predicate is built from a tree. This file says what it does from the text alone: the tokens of a
group are operands with connectives between them, and the group is tested from left to right. The
value so far is kept where the next connective cannot change it, and the next operand is not tested
then, so an error that it would meet is not met. There is no precedence.

## Chains

`Operand` and `Links` are the flat form of a query: a chain has a first operand and links, each a
connective and the operand behind it, and an operand is a fragment or a chain in parentheses. The
outcome of a chain goes through its links in the order of the text.

Every fragment means what it means as a query of its own, `Memory.test`.

## Main results

* `Memory.compileText_eq_outcome`: a compiled query gives what its chain gives
-/

namespace RecordQuery

open Grammar

/-! ## Chains -/

mutual

/-- What connectives join: a fragment, or a chain in parentheses. -/
inductive Operand
  | fragment (text : Text)
  | group (first : Operand) (links : Links)

/-- What follows the first operand of a chain: connectives, each with the operand behind it. -/
inductive Links
  | nil
  | cons (c : Connective) (operand : Operand) (later : Links)

end

mutual

/-- The tokens of an operand. -/
def Operand.tokens : Operand → List TokenKind
  | .fragment text => [.fragment text]
  | .group first links => .leftParen :: (first.tokens ++ links.tokens ++ [.rightParen])

/-- The tokens of links. -/
def Links.tokens : Links → List TokenKind
  | .nil => []
  | .cons c operand later => .connective c :: (operand.tokens ++ later.tokens)

end

/-- The value of a chain behind a connective: the value before it if that decides the matter or is
an error, and what the operand behind it gives otherwise. -/
def Connective.step {ε : Type} (c : Connective) (value operand : Except ε Bool) : Except ε Bool :=
  match c, value with
  | .and, .ok false => .ok false
  | .or, .ok true => .ok true
  | _, .ok _ => operand
  | _, .error e => .error e

section Outcome

variable {ε : Type} (test : Text → Except ε Bool)

mutual

/-- What an operand gives if its fragments give what `test` says. -/
def Operand.outcome : Operand → Except ε Bool
  | .fragment text => test text
  | .group first links => links.outcome first.outcome

/-- What a chain gives whose value before these links is known. -/
def Links.outcome (value : Except ε Bool) : Links → Except ε Bool
  | .nil => value
  | .cons c operand later => later.outcome (c.step value operand.outcome)

end

end Outcome

/-- Operands with connectives between them. -/
structure Chain where
  first : Operand
  links : Links

namespace Chain

/-- The tokens of a chain. -/
def tokens (chain : Chain) : List TokenKind := chain.first.tokens ++ chain.links.tokens

/-- What a chain gives, tested from left to right. -/
def outcome {ε : Type} (test : Text → Except ε Bool) (chain : Chain) : Except ε Bool :=
  chain.links.outcome test (chain.first.outcome test)

end Chain

/-! ## Derived tokens -/

/-- The links with one more behind them. -/
def Links.concat (c : Connective) (operand : Operand) : Links → Links
  | .nil => .cons c operand .nil
  | .cons d o later => .cons d o (later.concat c operand)

theorem Links.tokens_concat (c : Connective) (operand : Operand) :
    ∀ links : Links,
      (links.concat c operand).tokens = links.tokens ++ .connective c :: operand.tokens
  | .nil => by simp [concat, tokens]
  | .cons d o later => by simp [concat, tokens, tokens_concat c operand later]

/-- Derived tokens are those of a chain. -/
theorem Grammar.Derives.exists_chain {p : Phrase} {ts : List TokenKind} {q : Query}
    (h : Derives p ts q) :
    match p with
    | .query => ∃ chain : Chain, chain.tokens = ts
    | .operand => ∃ operand : Operand, operand.tokens = ts := by
  induction h with
  | @fragment text q h => exact ⟨.fragment text, rfl⟩
  | group h ih =>
    obtain ⟨⟨first, links⟩, rfl⟩ := ih
    exact ⟨.group first links, by simp [Operand.tokens, Chain.tokens]⟩
  | operand h ih =>
    obtain ⟨operand, rfl⟩ := ih
    exact ⟨⟨operand, .nil⟩, by simp [Chain.tokens, Links.tokens]⟩
  | joined c hl hr ihl ihr =>
    obtain ⟨⟨first, links⟩, rfl⟩ := ihl
    obtain ⟨operand, rfl⟩ := ihr
    exact ⟨⟨first, links.concat c operand⟩, by simp [Chain.tokens, Links.tokens_concat]⟩

namespace Memory

variable {R : Type}

/-! ## Predicates of trees -/

theorem join_apply (c : Connective) (p q : Predicate R) (r : R) :
    Predicate.join c p q r = c.step (p r) (q r) := by
  cases c with
  | and =>
    rw [Predicate.join, Predicate.and_eq]
    rcases p r with e | _ | _ <;> rfl
  | or =>
    rw [Predicate.join, Predicate.or_eq]
    rcases p r with e | _ | _ <;> rfl

/-! ## Texts -/

/-- What the text of a query gives on a record: it is compiled, and its predicate is tested. -/
def test (getters : Getters R) (engine : Wildcard.Engine) (mappers : Mappers) (limits : Limits)
    (r : R) (text : Text) : Except QueryError Bool :=
  match (backend getters engine).compileText mappers limits text with
  | .ok p => p r
  | .error e => .error e

section

variable {getters : Getters R} {engine : Wildcard.Engine} {mappers : Mappers} {limits : Limits}

/-- A tree's predicate, if it has one, is a given one. -/
def Means (getters : Getters R) (engine : Wildcard.Engine) (mappers : Mappers) (q : Query)
    (value : Predicate R) : Prop :=
  ∀ p, (backend getters engine).compile mappers q = .ok p → p = value

theorem Means.joined {c : Connective} {l r : Query} {vl vr : Predicate R}
    (hl : Means getters engine mappers l vl) (hr : Means getters engine mappers r vr) :
    Means getters engine mappers (.joined c l r) fun rec => c.step (vl rec) (vr rec) := by
  intro p hp
  obtain ⟨pl, pr, hpl, hpr, rfl⟩ := Backend.compile_joined_eq_ok_iff.1 hp
  funext rec
  rw [← hl pl hpl, ← hr pr hpr]
  exact join_apply c pl pr rec

theorem Means.group {q : Query} {value : Predicate R} (h : Means getters engine mappers q value) :
    Means getters engine mappers (.group q) value := by
  intro p hp
  obtain ⟨inner, hinner, rfl⟩ := Backend.compile_group_eq_ok_iff.1 hp
  exact h inner hinner

/-- A fragment that is a query of its own. -/
def Readable (limits : Limits) (text : Text) : Prop :=
  ∃ leaf, Fragment.parse text = .ok leaf ∧ Query.parse limits text = .ok leaf

mutual

/-- An operand whose fragments can be read derives a tree, and its outcome is what the tree means.
-/
theorem exists_derives_operand :
    ∀ operand : Operand, (∀ text, .fragment text ∈ operand.tokens → Readable limits text) →
      ∃ q, Derives .operand operand.tokens q ∧
        Means getters engine mappers q fun r =>
          operand.outcome (test getters engine mappers limits r)
  | .fragment text, h => by
    obtain ⟨leaf, hleaf, hparse⟩ := h text (by simp [Operand.tokens])
    refine ⟨leaf, .fragment hleaf, fun p hp => ?_⟩
    funext r
    rw [Operand.outcome, test, Backend.compileText, hparse]
    simp only [hp]
  | .group first links, h => by
    simp only [Operand.tokens, List.mem_cons, List.mem_append] at h
    obtain ⟨l, hl, hv⟩ := exists_derives_operand first fun text ht => h text (by simp [ht])
    obtain ⟨q, hq, hv'⟩ := exists_derives_links links (fun text ht => h text (by simp [ht]))
      (.operand hl) hv
    exact ⟨.group q, .group hq, hv'.group⟩

/-- Links behind derived tokens derive a tree together with them. -/
theorem exists_derives_links :
    ∀ (links : Links) {ts : List TokenKind} {l : Query} {value : Predicate R},
      (∀ text, .fragment text ∈ links.tokens → Readable limits text) → Derives .query ts l →
      Means getters engine mappers l value →
      ∃ q, Derives .query (ts ++ links.tokens) q ∧
        Means getters engine mappers q fun r =>
          links.outcome (test getters engine mappers limits r) (value r)
  | .nil, ts, l, value, _, hl, hv => by
    refine ⟨l, ?_, hv⟩
    rwa [Links.tokens, List.append_nil]
  | .cons c operand later, ts, l, value, h, hl, hv => by
    simp only [Links.tokens, List.mem_cons, List.mem_append] at h
    obtain ⟨r, hr, hvr⟩ := exists_derives_operand operand fun text ht => h text (by simp [ht])
    obtain ⟨q, hq, hvq⟩ := exists_derives_links later (fun text ht => h text (by simp [ht]))
      (.joined c hl hr) (hv.joined hvr)
    refine ⟨q, ?_, hvq⟩
    simpa [Links.tokens] using hq

end

/-- A fragment of a parsed text is a query of its own. -/
theorem readable_of_mem {text part : Text} {q : Query} (h : Query.parse limits text = .ok q)
    (hpart : .fragment part ∈ TokenKind.ofText text) : Readable limits part := by
  obtain ⟨hd, _⟩ := Query.parse_eq_ok_iff.1 h
  obtain ⟨leaf, hleaf⟩ := hd.parse_fragment hpart
  obtain ⟨hund, hblank⟩ := TokenKind.undelimited_of_mem_ofText hpart
  refine ⟨leaf, hleaf, Query.parse_eq_ok_iff.2 ⟨?_, ?_⟩⟩
  · rw [TokenKind.ofText_of_undelimited hund, TokenKind.fragments_of_isBlank_eq_false hblank]
    exact .operand (.fragment hleaf)
  · obtain ⟨op, field, literal, rfl, _, _⟩ := Fragment.exists_comparison_of_parse hleaf
    exact ⟨Nat.zero_le _, Nat.zero_le _⟩

/-- A tree compiles only if each of its fragments does. -/
theorem exists_compile_of_mem {ph : Phrase} {ts : List TokenKind} {q : Query} {p : Predicate R}
    (h : Derives ph ts q) (hp : (backend getters engine).compile mappers q = .ok p) {part : Text}
    (hpart : .fragment part ∈ ts) :
    ∃ leaf pl, Fragment.parse part = .ok leaf ∧
      (backend getters engine).compile mappers leaf = .ok pl := by
  induction h generalizing p with
  | fragment h =>
    obtain rfl : part = _ := by simpa using hpart
    exact ⟨_, p, h, hp⟩
  | group _ ih =>
    obtain ⟨inner, hinner, -⟩ := Backend.compile_group_eq_ok_iff.1 hp
    exact ih hinner (by simpa using hpart)
  | operand _ ih => exact ih hp hpart
  | joined c _ _ ihl ihr =>
    obtain ⟨pl, pr, hl, hr, -⟩ := Backend.compile_joined_eq_ok_iff.1 hp
    rcases List.mem_append.1 hpart with hpart | hpart
    · exact ihl hl hpart
    · exact ihr hr (by simpa using hpart)

/-- **A compiled query is tested from left to right.** Its tokens are those of a chain whose
fragments all compile, and its predicate gives on every record what the chain gives: there is no
precedence, an operand that cannot change the value is not tested, and a group gives what is inside
it. -/
theorem compileText_eq_outcome {text : Text} {p : Predicate R}
    (h : (backend getters engine).compileText mappers limits text = .ok p) :
    (∃ chain : Chain, chain.tokens = TokenKind.ofText text) ∧
      (∀ part, .fragment part ∈ TokenKind.ofText text →
        ∃ leaf, (backend getters engine).compileText mappers limits part = .ok leaf) ∧
      ∀ chain : Chain, chain.tokens = TokenKind.ofText text →
        ∀ r, p r = chain.outcome (test getters engine mappers limits r) := by
  obtain ⟨q, hparse, hcompile⟩ := Backend.compileText_eq_ok_iff.1 h
  obtain ⟨hd, _⟩ := Query.parse_eq_ok_iff.1 hparse
  refine ⟨hd.exists_chain, fun part hpart => ?_, fun ⟨first, links⟩ htokens r => ?_⟩
  · obtain ⟨leaf, pl, hleaf, hpl⟩ := exists_compile_of_mem hd hcompile hpart
    obtain ⟨leaf', hleaf', hparse'⟩ := readable_of_mem hparse hpart
    obtain rfl : leaf = leaf' := Except.ok.inj (hleaf.symm.trans hleaf')
    exact ⟨pl, Backend.compileText_eq_ok_iff.2 ⟨leaf, hparse', hpl⟩⟩
  simp only [Chain.tokens] at htokens
  have hread : ∀ part, .fragment part ∈ first.tokens ++ links.tokens → Readable limits part := by
    intro part hpart
    rw [htokens] at hpart
    exact readable_of_mem hparse hpart
  simp only [List.mem_append] at hread
  obtain ⟨l, hl, hv⟩ : ∃ l, Derives .operand first.tokens l ∧
      Means getters engine mappers l fun r =>
        first.outcome (test getters engine mappers limits r) :=
    exists_derives_operand first fun part hpart => hread part (.inl hpart)
  obtain ⟨q', hq, hv'⟩ := exists_derives_links links (fun part hpart => hread part (.inr hpart))
    (.operand hl) hv
  rw [htokens] at hq
  obtain rfl := hd.unique hq
  rw [hv' p hcompile, Chain.outcome]

/-- An operand that would fail is passed over, and the next connective takes the value before it. -/
theorem compileText_eq_outcome_passed_over :
    let getters : Getters Text :=
      (Table.empty.insert ['a'] Value.string).insert ['b'] fun _ => .boolean true
    ∃ p, (backend getters).compileText Table.empty {} "a = x || b ≈ y && (a != x)".toList = .ok p ∧
      p ['x'] = .ok false ∧
      p ['x'] = Chain.outcome (test getters .unlimited Table.empty {} ['x'])
        ⟨.fragment "a = x ".toList, .cons .or (.fragment " b ≈ y ".toList)
          (.cons .and (.group (.fragment "a != x".toList) .nil) .nil)⟩ ∧
      test getters .unlimited Table.empty {} ['x'] " b ≈ y ".toList =
        .error (notString ['b'] (.boolean true)) := by
  intro getters
  have hparse : Query.parse {} "a = x || b ≈ y && (a != x)".toList = .ok (.joined .and
      (.joined .or (.comparison (.relation .equal) ['a'] ['x'])
        (.comparison (.relation .like) ['b'] ['y']))
      (.group (.comparison (.relation .notEqual) ['a'] ['x']))) := by
    decide +kernel
  have hpart : Query.parse {} " b ≈ y ".toList =
      .ok (.comparison (.relation .like) ['b'] ['y']) := by
    decide +kernel
  have h : ∃ p, p ['x'] = .ok false ∧ (backend getters).compileText Table.empty {}
      "a = x || b ≈ y && (a != x)".toList = .ok p := by
    rw [Backend.compileText, hparse]
    exact ⟨_, rfl, rfl⟩
  obtain ⟨p, hfalse, hp⟩ := h
  refine ⟨p, hp, hfalse, (compileText_eq_outcome hp).2.2 _ (by decide +kernel) _, ?_⟩
  rw [test, Backend.compileText, hpart]
  rfl

end

end Memory

end RecordQuery
