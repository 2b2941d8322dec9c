import RecordQuery.Proofs.FirstError
import RecordQuery.Proofs.Query.Composition
import RecordQuery.Proofs.Query.Limits

/-!
# Where errors of parsing point

An error about the structure of a query, or about a limit, holds the text of the whole query,
however deep inside groups the fault lies. An error about a fragment holds that fragment, and then
it is the first one of the query that cannot be read: groups are cut out and parsed on their own,
but still every fragment is read before the ones behind it.

The fragments of a query are those among its tokens, in order, whatever groups they stand in. So the
place of an error is the library's `FirstError`, and going into a group only moves it.

## Main results

* `Fragment.unclaimed_or_unsplit_of_parse`: the error of a fragment holds the trimmed fragment
* `Parser.exists_firstError_of_build`: the loop stops at the first fragment that cannot be read
* `Query.parse_eq_error_cases`: what an error of parsing points at
-/

namespace RecordQuery

/-! ## Errors of one fragment -/

namespace Fragment

/-- The error of a fragment holds the trimmed fragment. -/
theorem unclaimed_or_unsplit_of_parse {text : Text} {e : FragmentError}
    (h : parse text = .error e) : e = .unclaimed text.trim ∨ e = .unsplit text.trim := by
  simp only [parse] at h
  split at h
  · exact .inl (Except.error.inj h).symm
  · simp only [parseAs, Text.trim_trim] at h
    repeat' split at h
    · exact .inl (Except.error.inj h).symm
    · exact .inr (Except.error.inj h).symm
    · exact .inr (Except.error.inj h).symm
    · cases h

end Fragment

/-! ## Errors of the loop -/

namespace Parser

variable {limits : Limits} {depth : Nat} {current : Option Subtree} {ts : List TokenKind}
  {e : FragmentError}

theorem checked_ne_fragment (tree : Subtree) : checked limits tree ≠ .error (.fragment e) := by
  unfold checked
  split <;> nofun

theorem attach_ne_fragment (operand : Subtree) :
    attach limits operand current ≠ .error (.fragment e) := by
  intro h
  rcases failure_of_attach h with h | h <;> cases h

theorem openConnective_ne_fragment (c : Connective) :
    openConnective limits c current ≠ .error (.fragment e) := by
  intro h
  rcases failure_of_openConnective h with h | h | h <;> cases h

theorem finish_ne_fragment : finish current ≠ .error (.fragment e) := by
  rcases finish_cases current with ⟨tree, -, h⟩ | ⟨fault, h⟩ <;> rw [h] <;> nofun

/-- Every fragment of a group that was parsed can be read. -/
theorem exists_parse_of_build {tree : Subtree} (hdepth : depth ≤ limits.maxDepth)
    (h : build limits depth none ts = .ok tree) :
    ∀ text ∈ ts.filterMap TokenKind.fragment?, ∃ leaf, Fragment.parse text = .ok leaf := by
  intro text htext
  obtain ⟨kind, hkind, heq⟩ := List.mem_filterMap.1 htext
  obtain ⟨hderives, -, -⟩ := Reached.start.build hdepth h
  cases kind with
  | fragment raw =>
    obtain rfl := Option.some.inj heq
    exact hderives.parse_fragment hkind
  | connective | leftParen | rightParen => cases heq

/-- **The loop stops at the first fragment that cannot be read.** -/
theorem exists_firstError_of_build
    (h : build limits depth current ts = .error (.fragment e)) :
    ∃ i, FirstError Fragment.parse (ts.filterMap TokenKind.fragment?) i e := by
  fun_induction build limits depth current ts with
  | case1 depth current => exact absurd h finish_ne_fragment
  | case2 => cases h
  | case3 => cases h
  | case4 depth current ts hle group rest hclose ihinner ihrest =>
    rw [closeGroup_eq hclose, List.filterMap_cons, List.filterMap_append, List.filterMap_cons]
    rcases bind_eq_error_iff.1 h with herror | ⟨inner, hinner, h⟩
    · obtain ⟨i, hfirst⟩ := ihinner herror
      exact ⟨i, hfirst.append_left _⟩
    rcases bind_eq_error_iff.1 h with herror | ⟨operand, -, h⟩
    · exact absurd herror (checked_ne_fragment _)
    rcases bind_eq_error_iff.1 h with herror | ⟨next, -, hrest⟩
    · exact absurd herror (attach_ne_fragment _)
    obtain ⟨i, hfirst⟩ := ihrest next hrest
    exact ⟨_, hfirst.append_right (exists_parse_of_build (by omega) hinner)⟩
  | case5 => cases h
  | case6 depth current c ts ih =>
    rcases bind_eq_error_iff.1 h with herror | ⟨next, -, hrest⟩
    · exact absurd herror (openConnective_ne_fragment c)
    · exact ih next hrest
  | case7 depth current text ts e' hleaf =>
    obtain rfl := Failure.fragment.inj (Except.error.inj h)
    exact ⟨0, (FirstError.cons_iff_of_error hleaf).2 ⟨rfl, rfl⟩⟩
  | case8 depth current text ts leaf hleaf ih =>
    rcases bind_eq_error_iff.1 h with herror | ⟨next, -, hrest⟩
    · exact absurd herror (attach_ne_fragment _)
    · exact (FirstError.exists_cons_iff_of_ok hleaf).2 (ih next hrest)

end Parser

/-! ## Errors of parsing -/

namespace Query

variable {limits : Limits} {text : Text} {e : ParseError}

/-- **What an error of parsing points at.** It is an error about the structure of the query or about
a limit, and then it holds the text of the whole query; or it is the error of the first fragment
among the tokens that cannot be read, and then it holds that fragment without the blanks around it,
and reading what it holds gives the same error again. -/
theorem parse_eq_error_cases (h : parse limits text = .error e) :
    (∃ fault : Fault, e = .illegalQuery text fault.message ∧ e.fragment = text) ∨
    (∃ limit, e = .tooDeep text limit ∧ e.fragment = text) ∨
    ∃ i raw error,
      ((TokenKind.ofText text).filterMap TokenKind.fragment?)[i]? = some raw ∧
      FirstError Fragment.parse ((TokenKind.ofText text).filterMap TokenKind.fragment?) i error ∧
      Fragment.parse raw.trim = .error error ∧ e = .ofFragment error ∧
      (e = .illegalPart raw.trim ∨ e = .invalidPart raw.trim) ∧ e.fragment = raw.trim := by
  obtain ⟨failure, hfailure, rfl⟩ := exists_build_of_parse_error h
  cases failure with
  | fault fault => exact .inl ⟨fault, rfl, rfl⟩
  | tooDeep limit => exact .inr (.inl ⟨limit, rfl, rfl⟩)
  | fragment error =>
    obtain ⟨i, hfirst⟩ := Parser.exists_firstError_of_build hfailure
    obtain ⟨raw, hraw, hparse⟩ := hfirst.fails
    refine .inr (.inr ⟨i, raw, error, hraw, hfirst, ?_, rfl, ?_⟩)
    · rw [Fragment.parse_of_trim_eq (Text.trim_trim raw), hparse]
    · rcases Fragment.unclaimed_or_unsplit_of_parse hparse with rfl | rfl
      · exact ⟨.inl rfl, rfl⟩
      · exact ⟨.inr rfl, rfl⟩

/-- A symbol that stands twice in a fragment, inside a group and in front of a fragment of no
operator; and a group that is never closed around a fragment of no operator, which is not read. -/
theorem parse_eq_error_cases_nested :
    let text : Text := "a = 1 && ((b < 2 || c = 3 = 4) && d ~ 5)".toList
    let unclosed : Text := "a = 1 && (b < 2 || (c ~ 3)".toList
    (parse {} text = .error (.invalidPart "c = 3 = 4".toList) ∧
      ∃ i raw error,
        ((TokenKind.ofText text).filterMap TokenKind.fragment?)[i]? = some raw ∧
        FirstError Fragment.parse ((TokenKind.ofText text).filterMap TokenKind.fragment?) i error ∧
        Fragment.parse raw.trim = .error error ∧ raw.trim = "c = 3 = 4".toList) ∧
    parse {} unclosed = .error (.illegalQuery unclosed "unbalanced '('".toList) ∧
      ∃ fault : Fault, ParseError.illegalQuery unclosed "unbalanced '('".toList =
          .illegalQuery unclosed fault.message ∧
        (ParseError.illegalQuery unclosed "unbalanced '('".toList).fragment = unclosed := by
  intro text unclosed
  have hinvalid : parse {} text = .error (.invalidPart "c = 3 = 4".toList) := by decide +kernel
  have hunclosed : parse {} unclosed =
      .error (.illegalQuery unclosed "unbalanced '('".toList) := by
    decide +kernel
  refine ⟨⟨hinvalid, ?_⟩, hunclosed, ?_⟩
  · rcases parse_eq_error_cases hinvalid with ⟨_, h, -⟩ | ⟨_, h, -⟩ |
      ⟨i, raw, error, hraw, hfirst, hparse, -, -, hfragment⟩
    · cases h
    · cases h
    · exact ⟨i, raw, error, hraw, hfirst, hparse, hfragment.symm⟩
  · rcases parse_eq_error_cases hunclosed with h | ⟨_, h, -⟩ | ⟨_, _, _, -, -, -, -, h | h, -⟩
    · exact h
    · cases h
    · cases h
    · cases h

end Query

end RecordQuery
