import RecordQuery.Proofs.Query.Limits

/-!
# The loop of the parser, round by round

The loop takes a token, or the tokens of a group, and puts what it has read behind the tree parsed
so far. This file gives one round a name (`Parser.round`), says which trees and tokens a run meets
at the start of its rounds (`Parser.Rounds`), and what is true there whatever has been read.

There is nothing, or a complete query, or a connective behind a complete query; and the height kept
beside the tree is the tree's (`Parser.Kept`). `Parser.Reached` says of the same trees which tokens
they are derived from, but only where they are within the limits; this holds under any limits and at
any depth. One lemma for operands and one for connectives keep it. So the loop never comes to its
end with a tree that is neither complete nor waiting for an operand, and the error about such a tree
is never shown.

## Main results

* `Parser.build_cons`: the loop is one round, and the loop behind it
* `Parser.Rounds.build_eq`, `Parser.Rounds.exists_end`: a run goes through its rounds to its end
* `Parser.Kept.round`: one round keeps the invariant
* `Parser.kept_of_rounds`: the invariant in every round, and the error that is never shown
-/

namespace RecordQuery

theorem Query.isOpen_eq_false_of_valid {q : Query} (h : q.valid = true) : q.isOpen = false := by
  cases q with
  | dangling => cases h
  | comparison | joined | group => rfl

namespace Parser

variable {limits : Limits} {depth : Nat} {current : Option Subtree} {tree : Subtree}
  {t : TokenKind} {ts rest : List TokenKind}

/-! ## One round -/

/-- One round of the loop: what becomes of the tree parsed so far, and the tokens left. -/
def round (limits : Limits) (depth : Nat) (current : Option Subtree) :
    TokenKind → List TokenKind → Except Failure (Subtree × List TokenKind)
  | .leftParen, ts =>
    if limits.maxDepth < depth + 1 then .error (.tooDeep limits.maxDepth)
    else
      match closeGroup 0 ts with
      | none => .error (.fault .unbalancedOpen)
      | some (group, rest) => do
        let inner ← build limits (depth + 1) none group
        let operand ← checked limits ⟨.group inner.query, inner.height + 1⟩
        return (← attach limits operand current, rest)
  | .rightParen, _ => .error (.fault .unbalancedClose)
  | .connective c, ts => do return (← openConnective limits c current, ts)
  | .fragment text, ts =>
    match Fragment.parse text with
    | .error e => .error (.fragment e)
    | .ok leaf => do return (← attach limits ⟨leaf, 0⟩ current, ts)

/-- **The loop is one round, and the loop behind it.** -/
theorem build_cons (limits : Limits) (depth : Nat) (current : Option Subtree) (t : TokenKind)
    (ts : List TokenKind) :
    build limits depth current (t :: ts) =
      round limits depth current t ts >>= fun next => build limits depth (some next.1) next.2 := by
  cases t with
  | leftParen =>
    by_cases hdepth : limits.maxDepth < depth + 1
    · rw [build, round, if_pos hdepth, if_pos hdepth]
      rfl
    · rw [build_leftParen (Nat.not_lt.1 hdepth), round, if_neg hdepth]
      cases closeGroup 0 ts with
      | none => rfl
      | some group => simp only [bind_assoc, pure_bind]
  | rightParen =>
    rw [build]
    rfl
  | connective c => rw [build, round, bind_assoc]; simp only [pure_bind]
  | fragment text =>
    rw [build, round]
    cases Fragment.parse text with
    | error e => rfl
    | ok leaf => simp only [bind_assoc, pure_bind]

/-! ## Rounds of a run -/

/-- The trees and tokens that a run meets at the start of its rounds, and at its end. -/
inductive Rounds (limits : Limits) (depth : Nat) (ts : List TokenKind) :
    Option Subtree → List TokenKind → Prop
  | start : Rounds limits depth ts none ts
  | next {current : Option Subtree} {t : TokenKind} {later rest : List TokenKind} {tree : Subtree}
      (h : Rounds limits depth ts current (t :: later))
      (hround : round limits depth current t later = .ok (tree, rest)) :
      Rounds limits depth ts (some tree) rest

/-- **A run goes on from each of its rounds.** -/
theorem Rounds.build_eq (h : Rounds limits depth ts current rest) :
    build limits depth current rest = build limits depth none ts := by
  induction h with
  | start => rfl
  | next _ hround ih =>
    rw [← ih, build_cons, hround]
    rfl

/-- What a round that succeeds has done. -/
theorem round_eq_ok (h : round limits depth current t ts = .ok (tree, rest)) :
    (∃ group inner, t = .leftParen ∧ depth + 1 ≤ limits.maxDepth ∧
      closeGroup 0 ts = some (group, rest) ∧ build limits (depth + 1) none group = .ok inner ∧
      attach limits ⟨.group inner.query, inner.height + 1⟩ current = .ok tree) ∨
    (∃ c, t = .connective c ∧ rest = ts ∧ openConnective limits c current = .ok tree) ∨
    ∃ text leaf, t = .fragment text ∧ rest = ts ∧ Fragment.parse text = .ok leaf ∧
      attach limits ⟨leaf, 0⟩ current = .ok tree := by
  cases t with
  | leftParen =>
    rw [round] at h
    split at h
    · cases h
    · next hdepth =>
      split at h
      · cases h
      · next group after hclose =>
        obtain ⟨inner, hinner, h₁⟩ := bind_eq_ok_iff.1 h
        obtain ⟨operand, hoperand, h₂⟩ := bind_eq_ok_iff.1 h₁
        obtain ⟨next, hnext, h₃⟩ := bind_eq_ok_iff.1 h₂
        obtain ⟨rfl, -⟩ := checked_eq_ok_iff.1 hoperand
        obtain ⟨rfl, rfl⟩ := Prod.mk.inj (Except.ok.inj h₃)
        exact .inl ⟨group, inner, rfl, Nat.not_lt.1 hdepth, hclose, hinner, hnext⟩
  | rightParen => cases h
  | connective c =>
    obtain ⟨next, hnext, h⟩ := bind_eq_ok_iff.1 h
    cases h
    exact .inr (.inl ⟨c, rfl, rfl, hnext⟩)
  | fragment text =>
    simp only [round] at h
    split at h
    · cases h
    · next leaf hleaf =>
      obtain ⟨next, hnext, h⟩ := bind_eq_ok_iff.1 h
      cases h
      exact .inr (.inr ⟨text, leaf, rfl, rfl, hleaf, hnext⟩)

theorem fault_of_attach {operand : Subtree} {fault : Fault}
    (h : attach limits operand current = .error (.fault fault)) :
    fault = .missingConnective operand.query.display := by
  rcases failure_of_attach h with h | h
  · cases h
  · exact Failure.fault.inj h

theorem fault_of_openConnective {c : Connective} {fault : Fault}
    (h : openConnective limits c current = .error (.fault fault)) :
    fault = .missingLeft c ∨ fault = .consecutive c := by
  rcases failure_of_openConnective h with h | h | h
  · cases h
  · exact .inl (Failure.fault.inj h)
  · exact .inr (Failure.fault.inj h)

/-- What a round that fails with a fault has met: a parenthesis that has no partner, a fault in its
group, or a tree that its token does not go with. -/
theorem round_eq_fault {fault : Fault}
    (h : round limits depth current t ts = .error (.fault fault)) :
    (t = .leftParen ∧ fault = .unbalancedOpen ∧ depth + 1 ≤ limits.maxDepth ∧
      closeGroup 0 ts = none) ∨
    (t = .rightParen ∧ fault = .unbalancedClose) ∨
    (∃ group after, closeGroup 0 ts = some (group, after) ∧
      build limits (depth + 1) none group = .error (.fault fault)) ∨
    (∃ operand, fault = .missingConnective operand) ∨
    ∃ c, fault = .missingLeft c ∨ fault = .consecutive c := by
  cases t with
  | leftParen =>
    rw [round] at h
    split at h
    · cases h
    next hdepth =>
    split at h
    · next hclose =>
      obtain rfl := Failure.fault.inj (Except.error.inj h)
      exact .inl ⟨rfl, rfl, Nat.not_lt.1 hdepth, hclose⟩
    · next group after hclose =>
      rcases bind_eq_error_iff.1 h with herror | ⟨inner, -, h⟩
      · exact .inr (.inr (.inl ⟨group, after, hclose, herror⟩))
      rcases bind_eq_error_iff.1 h with herror | ⟨operand, -, h⟩
      · cases (checked_eq_error_iff.1 herror).1
      rcases bind_eq_error_iff.1 h with herror | ⟨next, -, h⟩
      · exact .inr (.inr (.inr (.inl ⟨_, fault_of_attach herror⟩)))
      · cases h
  | rightParen =>
    obtain rfl := Failure.fault.inj (Except.error.inj h)
    exact .inr (.inl ⟨rfl, rfl⟩)
  | connective c =>
    rcases bind_eq_error_iff.1 h with herror | ⟨next, -, h⟩
    · exact .inr (.inr (.inr (.inr ⟨c, fault_of_openConnective herror⟩)))
    · cases h
  | fragment text =>
    rw [round] at h
    split at h
    · cases h
    · rcases bind_eq_error_iff.1 h with herror | ⟨next, -, h⟩
      · exact .inr (.inr (.inr (.inl ⟨_, fault_of_attach herror⟩)))
      · cases h

/-- A round leaves no more tokens than there are behind its first one. -/
theorem length_le_of_round (h : round limits depth current t ts = .ok (tree, rest)) :
    rest.length ≤ ts.length := by
  rcases round_eq_ok h with ⟨group, inner, -, -, hclose, -⟩ | ⟨c, -, rfl, -⟩ |
    ⟨text, leaf, -, rfl, -⟩
  · have hlength := length_of_closeGroup hclose
    omega
  · exact Nat.le_refl _
  · exact Nat.le_refl _

theorem Rounds.length_le (h : Rounds limits depth ts current rest) : rest.length ≤ ts.length := by
  induction h with
  | start => exact Nat.le_refl _
  | next _ hround ih =>
    have hlength := length_le_of_round hround
    rw [List.length_cons] at ih
    omega

/-- **A run ends behind its last token, or in a round that fails.** -/
theorem Rounds.exists_end {current : Option Subtree} {rest : List TokenKind}
    (h : Rounds limits depth ts current rest) :
    (∃ last, Rounds limits depth ts last [] ∧ build limits depth none ts = finish last) ∨
    ∃ last t later failure, Rounds limits depth ts last (t :: later) ∧
      round limits depth last t later = .error failure ∧
      build limits depth none ts = .error failure := by
  match rest, h with
  | [], h => exact .inl ⟨current, h, by rw [← h.build_eq, build]⟩
  | t :: later, h =>
    cases hround : round limits depth current t later with
    | error failure =>
      refine .inr ⟨current, t, later, failure, h, hround, ?_⟩
      rw [← h.build_eq, build_cons, hround]
      rfl
    | ok next =>
      have hlength := length_le_of_round hround
      exact (h.next hround).exists_end
termination_by rest.length
decreasing_by
  rw [List.length_cons]
  omega

/-! ## The invariant -/

/-- What a run keeps beside the tokens that are left, and the height that it keeps for it. -/
inductive Kept : Option Subtree → Prop
  /-- Nothing has been read. -/
  | nothing : Kept none
  /-- A complete query, which waits for nothing. -/
  | complete {q : Query} {height : Nat} (valid : q.valid = true) (isOpen : q.isOpen = false)
      (hheight : height = q.height) : Kept (some ⟨q, height⟩)
  /-- A connective behind a complete query, which counts one level above it. -/
  | waiting {c : Connective} {left : Query} {height : Nat} (valid : left.valid = true)
      (isOpen : left.isOpen = false) (hheight : height = left.height + 1) :
      Kept (some ⟨.dangling c left, height⟩)

/-- The height that is kept is the tree's. -/
theorem Kept.height_eq (h : Kept (some tree)) : tree.height = tree.query.height := by
  cases h with
  | complete _ _ hheight => exact hheight
  | waiting _ _ hheight => exact hheight

theorem kept_of_valid {q : Query} (h : q.valid = true) : Kept (some ⟨q, q.height⟩) :=
  .complete h (Query.isOpen_eq_false_of_valid h) rfl

/-- **Attaching an operand keeps the invariant.** -/
theorem Kept.attach {q : Query} (h : Kept current) (hvalid : q.valid = true)
    (ha : Parser.attach limits ⟨q, q.height⟩ current = .ok tree) : Kept (some tree) := by
  cases h with
  | nothing =>
    obtain rfl := Except.ok.inj ha
    exact kept_of_valid hvalid
  | complete _ hopen _ =>
    rw [attach_of_isOpen_eq_false hopen] at ha
    cases ha
  | @waiting c left height hleft _ hheight =>
    rw [attach_dangling] at ha
    obtain ⟨rfl, -⟩ := checked_eq_ok_iff.1 ha
    refine .complete (by rw [Query.valid, hleft, hvalid, Bool.and_true]) rfl ?_
    simp only [Query.height]
    omega

/-- **Opening a connective keeps the invariant.** -/
theorem Kept.openConnective {c : Connective} (h : Kept current)
    (ho : Parser.openConnective limits c current = .ok tree) : Kept (some tree) := by
  cases h with
  | nothing => cases ho
  | complete hvalid hopen hheight =>
    rw [openConnective_of_isOpen_eq_false hopen] at ho
    obtain ⟨rfl, -⟩ := checked_eq_ok_iff.1 ho
    exact .waiting hvalid hopen (by rw [hheight])
  | waiting => cases ho

/-- **One round keeps the invariant.** -/
theorem Kept.round (h : Kept current)
    (hround : Parser.round limits depth current t ts = .ok (tree, rest)) : Kept (some tree) := by
  rcases round_eq_ok hround with ⟨group, inner, -, hdepth, -, hinner, ha⟩ | ⟨c, -, -, ho⟩ |
    ⟨text, leaf, -, -, hleaf, ha⟩
  · -- the tree of a group is that of a run one level deeper
    obtain ⟨hderives, -, hheight⟩ := Reached.start.build hdepth hinner
    rw [hheight] at ha
    exact h.attach (q := .group inner.query) hderives.valid ha
  · exact h.openConnective ho
  · obtain ⟨op, field, literal, rfl, hfield, hliteral⟩ := Fragment.exists_comparison_of_parse hleaf
    exact h.attach (q := .comparison op field literal) (by simp [Query.valid, hfield, hliteral]) ha

/-- The invariant holds at the start of every round. -/
theorem Rounds.kept (h : Rounds limits depth ts current rest) : Kept current := by
  induction h with
  | start => exact .nothing
  | next _ hround ih => exact ih.round hround

/-! ## The error that is never shown -/

theorem Kept.finish_ne_incomplete (h : Kept current) :
    finish current ≠ .error (.fault .incomplete) := by
  cases h with
  | nothing => nofun
  | complete hvalid => rw [finish_of_valid hvalid]; nofun
  | waiting => nofun

/-- Where a round fails so, it is because of its group. -/
theorem round_ne_incomplete
    (hgroup : ∀ group after, closeGroup 0 ts = some (group, after) →
      build limits (depth + 1) none group ≠ .error (.fault .incomplete)) :
    round limits depth current t ts ≠ .error (.fault .incomplete) := by
  intro h
  rcases round_eq_fault h with ⟨-, h, -⟩ | ⟨-, h⟩ | ⟨group, after, hclose, herror⟩ | ⟨q, h⟩ |
    ⟨c, h | h⟩
  · cases h
  · cases h
  · exact hgroup group after hclose herror
  · cases h
  · cases h
  · cases h

/-- **The tree at the end of a run is never incomplete without waiting for an operand.** -/
theorem build_ne_incomplete (limits : Limits) (depth : Nat) (ts : List TokenKind) :
    build limits depth none ts ≠ .error (.fault .incomplete) := by
  intro hincomplete
  rcases Rounds.start.exists_end with ⟨last, h, hend⟩ | ⟨last, t, later, failure, h, hround, hend⟩
  · exact h.kept.finish_ne_incomplete (hend.symm.trans hincomplete)
  · obtain rfl := Except.error.inj (hend.symm.trans hincomplete)
    refine round_ne_incomplete (fun group after hclose => ?_) hround
    have hgroup := length_of_closeGroup hclose
    have hlater := h.length_le
    exact build_ne_incomplete limits (depth + 1) group
termination_by ts.length
decreasing_by
  rw [List.length_cons] at hlater
  omega

/-- **What the loop of the parser keeps.** In every round of every run, at the top or in a group,
whatever the limits are, there is nothing yet, or a complete query that waits for nothing, or a
connective behind such a query; and the height beside the tree is the tree's. These are the rounds
of the run: it goes on from each of them, and it ends behind the last token or in one that fails. So
no run ends with a tree that is neither complete nor waiting for an operand, and no error of parsing
says so. -/
theorem kept_of_rounds :
    (∀ (limits : Limits) (depth : Nat) (ts : List TokenKind) (current : Option Subtree)
      (rest : List TokenKind), Rounds limits depth ts current rest →
      Kept current ∧ (∀ tree ∈ current, tree.height = tree.query.height) ∧
        build limits depth current rest = build limits depth none ts) ∧
    (∀ (limits : Limits) (depth : Nat) (ts : List TokenKind),
      (∃ last, Rounds limits depth ts last [] ∧ build limits depth none ts = finish last) ∨
      ∃ last t later failure, Rounds limits depth ts last (t :: later) ∧
        round limits depth last t later = .error failure ∧
        build limits depth none ts = .error failure) ∧
    (∀ (limits : Limits) (depth : Nat) (ts : List TokenKind),
      build limits depth none ts ≠ .error (.fault .incomplete)) ∧
    ∀ limits text query reason, Query.parse limits text = .error (.illegalQuery query reason) →
      reason ≠ "incomplete expression".toList := by
  refine ⟨fun limits depth ts current rest h => ⟨h.kept, ?_, h.build_eq⟩,
    fun limits depth ts => Rounds.start.exists_end, build_ne_incomplete, ?_⟩
  · rintro tree rfl
    exact h.kept.height_eq
  · rintro limits text query reason h rfl
    obtain ⟨fault, hfault, hmessage⟩ := Query.exists_fault_of_parse h
    obtain rfl : fault = .incomplete := Fault.message_injective hmessage
    exact build_ne_incomplete limits 0 _ hfault

/-- A group behind a connective: the round behind the connective, the end of the run, and the error
where no operand comes. -/
theorem kept_of_rounds_group :
    let a : Query := .comparison (.relation .equal) ['a'] ['1']
    let b : Query := .comparison (.relation .equal) ['b'] ['2']
    let group : List TokenKind := [.leftParen, .fragment "b = 2".toList, .rightParen]
    let ts : List TokenKind := .fragment "a = 1".toList :: .connective .and :: group
    let waiting : Subtree := ⟨.dangling .and a, 1⟩
    let complete : Subtree := ⟨.joined .and a (.group b), 2⟩
    let bare : Text := "a = 1 &&".toList
    (Rounds {} 0 ts (some waiting) group ∧ Kept (some waiting) ∧
      build {} 0 (some waiting) group = build {} 0 none ts) ∧
    (Rounds {} 0 ts (some complete) [] ∧ Kept (some complete)) ∧
    Query.parse {} bare = .error (.illegalQuery bare "missing right operand".toList) ∧
      "missing right operand".toList ≠ "incomplete expression".toList := by
  intro a b group ts waiting complete bare
  obtain ⟨hkept, -, -, hmessage⟩ := kept_of_rounds
  have hfirst : Rounds {} 0 ts (some ⟨a, 0⟩) (.connective .and :: group) :=
    Rounds.start.next (by decide +kernel)
  have hwaiting : Rounds {} 0 ts (some waiting) group := hfirst.next (by decide +kernel)
  have hcomplete : Rounds {} 0 ts (some complete) [] := hwaiting.next (by decide +kernel)
  have hbare : Query.parse {} bare =
      .error (.illegalQuery bare "missing right operand".toList) := by
    decide +kernel
  obtain ⟨hw, -, hrun⟩ := hkept {} 0 ts (some waiting) group hwaiting
  exact ⟨⟨hwaiting, hw, hrun⟩, ⟨hcomplete, (hkept {} 0 ts (some complete) [] hcomplete).1⟩, hbare,
    hmessage {} bare bare _ hbare⟩

end Parser

end RecordQuery
