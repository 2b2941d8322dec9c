import RecordQuery.Query.Parser

/-!
# The grammar of queries

The parser is a loop over tokens that keeps one tree and cuts groups out with a counter. This file
says what it parses without any of that: a query is an operand, or a query followed by a connective
and an operand; an operand is a fragment that can be read, or a query in parentheses. Since only
the left operand of a connective can be a query of its own, every chain is nested to the left.

## What the loop keeps

`Parser.Reached` is the invariant of the loop: nothing has been read yet, or the tokens read so far
derive the tree at hand, or they derive the left operand of a connective that waits. In each case
the height kept beside the tree is the tree's, and no limit is exceeded. One step lemma for operands
and one for connectives keep it; the loop follows by induction on its own recursion.

The other direction needs no invariant: a derivation is a recipe for the loop, read constructor by
constructor.

## Main results

* `Parser.build_eq_ok_iff`: what the loop builds, and that the limits are the only other condition
* `Grammar.Derives.unique`: no tokens have two derivations
* `Query.parse_eq_ok_iff_derives`: the parser accepts exactly the grammar within its limits
-/

namespace RecordQuery

/-- A step that succeeds has succeeded in both its halves. -/
theorem bind_eq_ok_iff {ε α β : Type} {x : Except ε α} {f : α → Except ε β} {b : β} :
    x >>= f = .ok b ↔ ∃ a, x = .ok a ∧ f a = .ok b := by
  cases x with
  | error e => simp [bind, Except.bind]
  | ok a => simp [bind, Except.bind]

/-- A step that fails has failed in one of its halves. -/
theorem bind_eq_error_iff {ε α β : Type} {x : Except ε α} {f : α → Except ε β} {e : ε} :
    x >>= f = .error e ↔ x = .error e ∨ ∃ a, x = .ok a ∧ f a = .error e := by
  cases x with
  | error e' => simp [bind, Except.bind]
  | ok a => simp [bind, Except.bind]

/-! ## Fragments -/

/-- The text of a fragment. -/
def TokenKind.fragment? : TokenKind → Option Text
  | fragment text => some text
  | _ => none

theorem Fragment.exists_comparison_of_parse {text : Text} {q : Query}
    (h : Fragment.parse text = .ok q) :
    ∃ op field literal, q = .comparison op field literal ∧ field ≠ [] ∧ literal ≠ [] := by
  simp only [Fragment.parse] at h
  split at h
  · simp at h
  · simp only [Fragment.parseAs] at h
    split at h
    · simp at h
    · split at h
      · simp at h
      · next before after _ =>
        split at h
        · simp at h
        · next hparts =>
          simp only [Bool.or_eq_true, List.isEmpty_iff, not_or] at hparts
          exact ⟨_, _, _, (Except.ok.inj h).symm, hparts.1.2, hparts.2⟩

/-! ## Derivations -/

namespace Grammar

/-- What tokens can be derived from. -/
inductive Phrase
  | query
  | operand

/-- The tokens that a phrase derives, and the tree of the derivation. -/
inductive Derives : Phrase → List TokenKind → Query → Prop
  /-- A fragment that can be read is an operand. -/
  | fragment {text : Text} {q : Query} (h : Fragment.parse text = .ok q) :
      Derives .operand [.fragment text] q
  /-- A query in parentheses is an operand. -/
  | group {ts : List TokenKind} {q : Query} (h : Derives .query ts q) :
      Derives .operand (.leftParen :: (ts ++ [.rightParen])) (.group q)
  /-- An operand is a query. -/
  | operand {ts : List TokenKind} {q : Query} (h : Derives .operand ts q) : Derives .query ts q
  /-- A query, a connective and an operand are a query. -/
  | joined {ts us : List TokenKind} {l r : Query} (c : Connective) (hl : Derives .query ts l)
      (hr : Derives .operand us r) : Derives .query (ts ++ .connective c :: us) (.joined c l r)

theorem Derives.valid {p : Phrase} {ts : List TokenKind} {q : Query} (h : Derives p ts q) :
    q.valid = true := by
  induction h with
  | fragment h =>
    obtain ⟨op, field, literal, rfl, hf, hl⟩ := Fragment.exists_comparison_of_parse h
    simp [Query.valid, hf, hl]
  | group _ ih => exact ih
  | operand _ ih => exact ih
  | joined c _ _ ihl ihr => simp [Query.valid, ihl, ihr]

theorem Derives.isOpen {p : Phrase} {ts : List TokenKind} {q : Query} (h : Derives p ts q) :
    q.isOpen = false := by
  cases q with
  | dangling c l => exact absurd h.valid (by simp [Query.valid])
  | comparison | joined | group => rfl

theorem Derives.dangles {p : Phrase} {ts : List TokenKind} {q : Query} (h : Derives p ts q) :
    q.dangles = false := by
  refine Bool.eq_false_iff.2 fun hd => ?_
  have hv := Query.valid_eq_false_of_dangles hd
  exact absurd h.valid (by simp [hv])

/-- Every fragment among derived tokens can be read. -/
theorem Derives.parse_fragment {p : Phrase} {ts : List TokenKind} {q : Query}
    (h : Derives p ts q) {text : Text} (ht : .fragment text ∈ ts) :
    ∃ leaf, Fragment.parse text = .ok leaf := by
  induction h with
  | fragment h =>
    obtain rfl : text = _ := by simpa using ht
    exact ⟨_, h⟩
  | group _ ih => exact ih (by simpa using ht)
  | operand _ ih => exact ih ht
  | joined c _ _ ihl ihr =>
    rcases List.mem_append.1 ht with ht | ht
    · exact ihl ht
    · exact ihr (by simpa using ht)

end Grammar

open Grammar

namespace Parser

/-! ## Groups

A derivation closes every group that it opens, so looking for the parenthesis that closes a group
passes over derived tokens as a whole. -/

theorem closeGroup_append_of_derives {p : Phrase} {ts : List TokenKind} {q : Query}
    (h : Derives p ts q) (inside : Nat) (rest : List TokenKind) :
    closeGroup inside (ts ++ rest) =
      (closeGroup inside rest).map fun (group, after) => (ts ++ group, after) := by
  induction h generalizing inside rest with
  | fragment => rfl
  | @group ts q _ ih =>
    simp only [List.cons_append, List.append_assoc, List.nil_append, closeGroup, ih]
    simp [Option.map_map, Function.comp_def]
  | operand _ ih => exact ih inside rest
  | @joined ts us l r c _ _ ihl ihr =>
    have hc : closeGroup inside (.connective c :: (us ++ rest)) =
        (closeGroup inside (us ++ rest)).map fun (group, after) =>
          (.connective c :: group, after) := rfl
    rw [List.append_assoc, List.cons_append, ihl, hc, ihr]
    simp [Option.map_map, Function.comp_def]

/-- The parenthesis that closes a derived group is the one behind it. -/
theorem closeGroup_of_derives {p : Phrase} {ts : List TokenKind} {q : Query}
    (h : Derives p ts q) (rest : List TokenKind) :
    closeGroup 0 (ts ++ .rightParen :: rest) = some (ts, rest) := by
  rw [closeGroup_append_of_derives h]
  simp [closeGroup]

/-! ## Steps of the loop -/

theorem checked_of_le {limits : Limits} {tree : Subtree} (h : tree.height ≤ limits.maxHeight) :
    checked limits tree = .ok tree := if_neg (Nat.not_lt.2 h)

theorem checked_eq_ok_iff {limits : Limits} {tree t : Subtree} :
    checked limits tree = .ok t ↔ t = tree ∧ tree.height ≤ limits.maxHeight := by
  unfold checked
  split
  · next h => simp [Nat.not_le.2 h]
  · next h => simp [Nat.not_lt.1 h, eq_comm]

/-- A tree that lies `depth` groups deep and exceeds no limit. -/
structure Fits (limits : Limits) (depth : Nat) (q : Query) : Prop where
  depth_le : depth + q.depth ≤ limits.maxDepth
  height_le : q.height ≤ limits.maxHeight

theorem Fits.group_iff {limits : Limits} {depth : Nat} {q : Query} :
    Fits limits depth (.group q) ↔ Fits limits (depth + 1) q ∧ q.height + 1 ≤ limits.maxHeight := by
  constructor
  · rintro ⟨hd, hh⟩
    simp only [Query.depth, Query.height] at hd hh
    exact ⟨⟨by omega, by omega⟩, hh⟩
  · rintro ⟨⟨hd, _⟩, hh⟩
    exact ⟨by simp only [Query.depth]; omega, hh⟩

theorem Fits.joined_iff {limits : Limits} {depth : Nat} {c : Connective} {l r : Query} :
    Fits limits depth (.joined c l r) ↔
      Fits limits depth l ∧ Fits limits depth r ∧
        max (l.height + 1) (r.height + 1) ≤ limits.maxHeight := by
  constructor
  · rintro ⟨hd, hh⟩
    simp only [Query.depth, Query.height] at hd hh
    exact ⟨⟨by omega, by omega⟩, ⟨by omega, by omega⟩, by omega⟩
  · rintro ⟨⟨hdl, _⟩, ⟨hdr, _⟩, hh⟩
    exact ⟨by simp only [Query.depth]; omega, by simp only [Query.height]; omega⟩

/-- Two trees exceed no limit if the limits are the larger of their measures. -/
theorem Fits.exists_limits (q q' : Query) : ∃ limits, Fits limits 0 q ∧ Fits limits 0 q' := by
  refine ⟨⟨max q.depth q'.depth, max q.height q'.height⟩, ⟨?_, ?_⟩, ⟨?_, ?_⟩⟩
  · rw [Nat.zero_add]
    exact Nat.le_max_left q.depth q'.depth
  · exact Nat.le_max_left q.height q'.height
  · rw [Nat.zero_add]
    exact Nat.le_max_right q.depth q'.depth
  · exact Nat.le_max_right q.height q'.height

theorem attach_dangling (limits : Limits) (operand : Subtree) (c : Connective) (l : Query)
    (height : Nat) :
    attach limits operand (some ⟨.dangling c l, height⟩) =
      checked limits ⟨.joined c l operand.query, max height (operand.height + 1)⟩ := rfl

theorem attach_of_isOpen_eq_false {limits : Limits} {operand tree : Subtree}
    (h : tree.query.isOpen = false) :
    attach limits operand (some tree) =
      .error (.fault (.missingConnective operand.query.display)) := by
  obtain ⟨q, height⟩ := tree
  cases q with
  | dangling => simp [Query.isOpen] at h
  | comparison | joined | group => rfl

theorem openConnective_of_isOpen_eq_false {limits : Limits} {c : Connective} {tree : Subtree}
    (h : tree.query.isOpen = false) :
    openConnective limits c (some tree) =
      checked limits ⟨.dangling c tree.query, tree.height + 1⟩ := by
  simp [openConnective, h]

theorem finish_of_valid {tree : Subtree} (h : tree.query.valid = true) :
    finish (some tree) = .ok tree := by
  simp [finish, h]

/-- A group that lies within the limit on depth is taken, parsed and attached. -/
theorem build_leftParen {limits : Limits} {depth : Nat} {current : Option Subtree}
    {ts : List TokenKind} (h : depth + 1 ≤ limits.maxDepth) :
    build limits depth current (.leftParen :: ts) =
      match closeGroup 0 ts with
      | none => .error (.fault .unbalancedOpen)
      | some (group, rest) => (do
        let inner ← build limits (depth + 1) none group
        let operand ← checked limits ⟨.group inner.query, inner.height + 1⟩
        build limits depth (some (← attach limits operand current)) rest) := by
  rw [build, if_neg (Nat.not_lt.2 h)]
  split
  · next hclose => rw [hclose]
  · next group rest hclose => rw [hclose]

/-! ## From derivations to the loop -/

/-- The loop follows a derivation: an operand is attached as a whole, and a query at the start of
the tokens becomes the tree parsed so far. -/
theorem build_append_of_derives {limits : Limits} {p : Phrase} {ts : List TokenKind} {q : Query}
    (h : Derives p ts q) (depth : Nat) (fits : Fits limits depth q) (rest : List TokenKind) :
    match p with
    | .query => build limits depth none (ts ++ rest) = build limits depth (some ⟨q, q.height⟩) rest
    | .operand => ∀ current, build limits depth current (ts ++ rest) =
        attach limits ⟨q, q.height⟩ current >>= fun tree =>
          build limits depth (some tree) rest := by
  induction h generalizing depth rest with
  | @fragment text q h =>
    intro current
    obtain ⟨op, field, literal, rfl, _, _⟩ := Fragment.exists_comparison_of_parse h
    rw [List.singleton_append, build, h]
    rfl
  | @group ts q h ih =>
    intro current
    obtain ⟨inner, hh⟩ := Fits.group_iff.1 fits
    have hd := inner.depth_le
    have hbuild : build limits (depth + 1) none ts = .ok ⟨q, q.height⟩ := by
      have := ih (depth + 1) inner []
      rwa [List.append_nil, build, finish_of_valid h.valid] at this
    have hclose := closeGroup_of_derives h rest
    rw [List.cons_append, List.append_assoc, List.singleton_append, build_leftParen (by omega),
      hclose]
    simp only [hbuild, bind, Except.bind]
    rw [checked_of_le hh]
    rfl
  | operand h ih =>
    rw [ih depth fits rest none]
    rfl
  | @joined ts us l r c hl hr ihl ihr =>
    obtain ⟨fl, fr, hh⟩ := Fits.joined_iff.1 fits
    have hopen : checked limits ⟨.dangling c l, l.height + 1⟩ =
        .ok ⟨.dangling c l, l.height + 1⟩ := checked_of_le (show l.height + 1 ≤ _ by omega)
    have hattach : attach limits ⟨r, r.height⟩ (some ⟨.dangling c l, l.height + 1⟩) =
        .ok ⟨.joined c l r, (Query.joined c l r).height⟩ := by
      rw [attach_dangling, checked_of_le hh]
      simp only [Query.height, Except.ok.injEq, Subtree.mk.injEq, true_and]
      omega
    rw [List.append_assoc, List.cons_append, ihl depth fl, build,
      openConnective_of_isOpen_eq_false hl.isOpen, hopen]
    change build limits depth (some ⟨.dangling c l, l.height + 1⟩) (us ++ rest) = _
    rw [ihr depth fr rest, hattach]
    rfl

/-- A derivation that exceeds no limit is what the loop builds. -/
theorem build_of_derives {limits : Limits} {depth : Nat} {ts : List TokenKind} {q : Query}
    (h : Derives .query ts q) (fits : Fits limits depth q) :
    build limits depth none ts = .ok ⟨q, q.height⟩ := by
  have := build_append_of_derives h depth fits []
  rwa [List.append_nil, build, finish_of_valid h.valid] at this

/-! ## From the loop to derivations -/

/-- The invariant of the loop: what the tokens read so far in a group are, and the tree kept for
them. A connective that waits has all tokens before it as its left operand. -/
inductive Reached (limits : Limits) (depth : Nat) : List TokenKind → Option Subtree → Prop
  | start : Reached limits depth [] none
  | complete {ts : List TokenKind} {q : Query} (h : Derives .query ts q)
      (fits : Fits limits depth q) : Reached limits depth ts (some ⟨q, q.height⟩)
  | waiting {ts : List TokenKind} {l : Query} (c : Connective) (h : Derives .query ts l)
      (fits : Fits limits depth l) (hh : l.height + 1 ≤ limits.maxHeight) :
      Reached limits depth (ts ++ [.connective c]) (some ⟨.dangling c l, l.height + 1⟩)

/-- Attaching an operand keeps the invariant. -/
theorem Reached.attach {limits : Limits} {depth : Nat} {pre us : List TokenKind}
    {current : Option Subtree} {q : Query} {tree : Subtree} (h : Reached limits depth pre current)
    (hq : Derives .operand us q) (fits : Fits limits depth q)
    (ha : Parser.attach limits ⟨q, q.height⟩ current = .ok tree) :
    Reached limits depth (pre ++ us) (some tree) := by
  cases h with
  | start =>
    obtain rfl : _ = tree := Except.ok.inj ha
    exact .complete (.operand hq) fits
  | complete h _ =>
    rw [attach_of_isOpen_eq_false h.isOpen] at ha
    cases ha
  | @waiting ts l c h fl _ =>
    rw [attach_dangling] at ha
    obtain ⟨rfl, hh⟩ := checked_eq_ok_iff.1 ha
    have hheight : max (l.height + 1) (q.height + 1) = (Query.joined c l q).height := by
      simp only [Query.height]
      omega
    rw [hheight, List.append_assoc, List.singleton_append]
    exact .complete (.joined c h hq) (Fits.joined_iff.2 ⟨fl, fits, hh⟩)

/-- Opening a connective keeps the invariant. -/
theorem Reached.openConnective {limits : Limits} {depth : Nat} {pre : List TokenKind}
    {current : Option Subtree} {c : Connective} {tree : Subtree}
    (h : Reached limits depth pre current)
    (ho : Parser.openConnective limits c current = .ok tree) :
    Reached limits depth (pre ++ [.connective c]) (some tree) := by
  cases h with
  | start => cases ho
  | complete h fits =>
    rw [openConnective_of_isOpen_eq_false h.isOpen] at ho
    obtain ⟨rfl, hh⟩ := checked_eq_ok_iff.1 ho
    exact .waiting c h fits hh
  | waiting => cases ho

/-- Only a derivation that exceeds no limit is finished. -/
theorem Reached.finish {limits : Limits} {depth : Nat} {ts : List TokenKind}
    {current : Option Subtree} {tree : Subtree} (h : Reached limits depth ts current)
    (hf : Parser.finish current = .ok tree) :
    Derives .query ts tree.query ∧ Fits limits depth tree.query ∧
      tree.height = tree.query.height := by
  cases h with
  | start => cases hf
  | complete h fits =>
    rw [finish_of_valid h.valid] at hf
    obtain rfl := Except.ok.inj hf
    exact ⟨h, fits, rfl⟩
  | waiting => cases hf

/-- What the loop builds behind the tokens read so far is derived from all tokens together. -/
theorem Reached.build {limits : Limits} {depth : Nat} {pre ts : List TokenKind}
    {current : Option Subtree} {tree : Subtree} (h : Reached limits depth pre current)
    (hdepth : depth ≤ limits.maxDepth) (hb : Parser.build limits depth current ts = .ok tree) :
    Derives .query (pre ++ ts) tree.query ∧ Fits limits depth tree.query ∧
      tree.height = tree.query.height := by
  -- the recursion of the loop; the group of a parenthesis is a loop of its own, one level deeper
  fun_induction Parser.build limits depth current ts generalizing pre tree with
  | case1 depth current =>
    rw [List.append_nil]
    exact h.finish hb
  | case2 => cases hb
  | case3 => cases hb
  | case4 depth current ts hle group rest hclose ihinner ihrest =>
    obtain ⟨inner, hinner, h₁⟩ := bind_eq_ok_iff.1 hb
    obtain ⟨operand, hoperand, h₂⟩ := bind_eq_ok_iff.1 h₁
    obtain ⟨next, hnext, hrest⟩ := bind_eq_ok_iff.1 h₂
    obtain ⟨hd, fits, hh⟩ := ihinner .start (by omega) hinner
    rw [List.nil_append] at hd
    obtain ⟨rfl, hle'⟩ := checked_eq_ok_iff.1 hoperand
    rw [hh] at hnext hle'
    have hreached := h.attach (.group hd) (Fits.group_iff.2 ⟨fits, hle'⟩) hnext
    rw [closeGroup_eq hclose]
    simpa using ihrest _ hreached hdepth hrest
  | case5 => cases hb
  | case6 depth current c ts ih =>
    obtain ⟨next, hnext, hrest⟩ := bind_eq_ok_iff.1 hb
    simpa using ih next (h.openConnective hnext) hdepth hrest
  | case7 => cases hb
  | case8 depth current text ts leaf hleaf ih =>
    obtain ⟨next, hnext, hrest⟩ := bind_eq_ok_iff.1 hb
    obtain ⟨op, field, literal, rfl, _, _⟩ := Fragment.exists_comparison_of_parse hleaf
    have fits : Fits limits depth (.comparison op field literal) := ⟨hdepth, Nat.zero_le _⟩
    simpa using ih next (h.attach (.fragment hleaf) fits hnext) hdepth hrest

/-- **What the loop builds.** It is the tree of a derivation, and a derivation is refused only if it
exceeds a limit. -/
theorem build_eq_ok_iff {limits : Limits} {ts : List TokenKind} {tree : Subtree} :
    Parser.build limits 0 none ts = .ok tree ↔
      Derives .query ts tree.query ∧ Fits limits 0 tree.query ∧
        tree.height = tree.query.height := by
  constructor
  · intro h
    simpa using Reached.start.build (Nat.zero_le _) h
  · rintro ⟨h, fits, hh⟩
    rw [build_of_derives h fits, ← hh]

end Parser

/-- **The grammar is unambiguous.** The loop is a function, and under limits that admit both trees
it builds both. -/
theorem Grammar.Derives.unique {ts : List TokenKind} {q q' : Query} (h : Derives .query ts q)
    (h' : Derives .query ts q') : q = q' := by
  obtain ⟨limits, fits, fits'⟩ := Parser.Fits.exists_limits q q'
  have hq := (Parser.build_of_derives h fits).symm.trans (Parser.build_of_derives h' fits')
  exact congrArg Parser.Subtree.query (Except.ok.inj hq)

namespace Query

/-! ## Parsed queries -/

/-- Whether the root is a connective. -/
def isChain : Query → Bool
  | joined .. | dangling .. => true
  | comparison .. | group _ => false

/-- Whether no connective is the right operand of another one. -/
def leftNested : Query → Bool
  | comparison .. => true
  | joined _ left right => left.leftNested && right.leftNested && !right.isChain
  | dangling _ left => left.leftNested
  | group inner => inner.leftNested

theorem parse_eq_ok_iff {limits : Limits} {text : Text} {q : Query} :
    parse limits text = .ok q ↔
      Derives .query (TokenKind.ofText text) q ∧ Parser.Fits limits 0 q := by
  unfold parse
  split
  · next tree htree =>
    obtain ⟨h, fits, _⟩ := Parser.build_eq_ok_iff.1 htree
    constructor
    · intro hq
      obtain rfl := Except.ok.inj hq
      exact ⟨h, fits⟩
    · rintro ⟨h', _⟩
      rw [h.unique h']
  · next failure hfailure =>
    constructor
    · intro hq
      cases hq
    · rintro ⟨h, fits⟩
      rw [Parser.build_of_derives h fits] at hfailure
      cases hfailure

end Query

theorem Grammar.Derives.isChain_eq_false {ts : List TokenKind} {q : Query}
    (h : Derives .operand ts q) : q.isChain = false := by
  cases h with
  | fragment h =>
    obtain ⟨op, field, literal, rfl, _, _⟩ := Fragment.exists_comparison_of_parse h
    rfl
  | group => rfl

theorem Grammar.Derives.leftNested {p : Phrase} {ts : List TokenKind} {q : Query}
    (h : Derives p ts q) : q.leftNested = true := by
  induction h with
  | fragment h =>
    obtain ⟨op, field, literal, rfl, _, _⟩ := Fragment.exists_comparison_of_parse h
    rfl
  | group _ ih => exact ih
  | operand _ ih => exact ih
  | joined c _ hr ihl ihr => simp [Query.leftNested, ihl, ihr, hr.isChain_eq_false]

/-- **The parser accepts exactly the grammar within its limits.** What it returns is the tree of the
one derivation of the tokens, so it is complete, has no connective that waits for an operand, and
has no connective as the right operand of another one. -/
theorem Query.parse_eq_ok_iff_derives (limits : Limits) (text : Text) :
    (∀ q, Query.parse limits text = .ok q ↔
      Derives .query (TokenKind.ofText text) q ∧
        q.depth ≤ limits.maxDepth ∧ q.height ≤ limits.maxHeight) ∧
    (∀ q q', Derives .query (TokenKind.ofText text) q →
      Derives .query (TokenKind.ofText text) q' → q = q') ∧
    ∀ q, Query.parse limits text = .ok q →
      q.valid = true ∧ q.dangles = false ∧ q.leftNested = true := by
  refine ⟨fun q => ?_, fun q q' h h' => h.unique h', fun q hq => ?_⟩
  · rw [Query.parse_eq_ok_iff]
    constructor
    · rintro ⟨h, hd, hh⟩
      exact ⟨h, by omega, hh⟩
    · rintro ⟨h, hd, hh⟩
      exact ⟨h, by omega, hh⟩
  · obtain ⟨h, _⟩ := Query.parse_eq_ok_iff.1 hq
    exact ⟨h.valid, h.dangles, h.leftNested⟩

end RecordQuery
