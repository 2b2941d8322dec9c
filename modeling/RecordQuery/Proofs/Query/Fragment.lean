import RecordQuery.Proofs.Text.Occurrence
import RecordQuery.Query.Fragment

/-!
# How a comparison is read

Which operator claims a fragment depends on nothing but the set of symbols that stand inside the
fragment, that is, in it without its first and its last character. `Comparator.Chosen` is the choice
as a condition on that set.

## Reading a written comparison

A comparison that was read is written with one blank on either side of its symbol. The set of
symbols inside may shrink by that: in `a<=>b` the blanks go around `>`, and no symbol is left that
lay across them. It keeps every symbol that has no character in common with the operator, and these
are the only ones that can have kept an earlier operator away (`Comparator.Chosen.mono`). So the
written comparison is read with the same operator, and it is cut at the same place, because neither
its field nor its literal holds the symbol.

## Main results

* `Fragment.operator?_eq_some_iff`: which operator claims a fragment
* `Fragment.parse_eq_ok_iff`: what a fragment is read as
* `Fragment.parse_display_of_parse`: a comparison that was read is read again from its written form
-/

namespace RecordQuery

/-! ## The choice of an operator -/

namespace Comparator

/-- The operators that are tried before this one. -/
def earlier (op : Comparator) : List Comparator := all.takeWhile (· ≠ op)

/-- An operator is the choice for a set of operators whose symbols are there: its own symbol is, no
longer one is, and every earlier operator of the set yields to a longer one. -/
structure Chosen (there : Comparator → Prop) (op : Comparator) : Prop where
  symbol : there op
  longer : ∀ d ∈ op.longer, ¬ there d
  earlier : ∀ e ∈ op.earlier, there e → ∃ d ∈ e.longer, there d

/-- Four ways in which an earlier operator can yield to a longer one, seen from the operator that is
chosen instead. -/
theorem cases_of_mem_earlier {op e d : Comparator} (he : e ∈ op.earlier) (hd : d ∈ e.longer) :
    d ∈ op.earlier ∨ op ∈ e.longer ∨ d ∈ op.longer ∨ ∀ c ∈ d.symbol, c ∉ op.symbol := by
  have key : ∀ op ∈ all, ∀ e ∈ op.earlier, ∀ d ∈ e.longer,
      d ∈ op.earlier ∨ op ∈ e.longer ∨ d ∈ op.longer ∨ d.symbol.all (· ∉ op.symbol) = true := by
    decide
  simpa using key op (mem_all op) e he d hd

/-- A choice stays the choice in a smaller set that keeps it and all symbols that have no character
in common with it. -/
theorem Chosen.mono {there there' : Comparator → Prop} {op : Comparator} (h : Chosen there op)
    (hsub : ∀ d, there' d → there d) (hop : there' op)
    (hkeep : ∀ d, there d → (∀ c ∈ d.symbol, c ∉ op.symbol) → there' d) : Chosen there' op where
  symbol := hop
  longer d hd hd' := h.longer d hd (hsub d hd')
  earlier e he he' := by
    obtain ⟨d, hd, hthere⟩ := h.earlier e he (hsub e he')
    rcases cases_of_mem_earlier he hd with hearlier | hlonger | hlonger | hdisjoint
    · -- a longer operator yields to none, so it would have been chosen itself
      obtain ⟨f, hf, _⟩ := h.earlier d hearlier hthere
      rw [longer_longer hd] at hf
      cases hf
    · exact ⟨op, hlonger, hop⟩
    · exact absurd hthere (h.longer d hlonger)
    · exact ⟨d, hd, hkeep d hthere hdisjoint⟩

theorem not_isBlank_of_mem_symbol {op : Comparator} {c : Char} (h : c ∈ op.symbol) :
    isBlank c = false := by
  have key : ∀ op ∈ all, op.symbol.all (fun c => !isBlank c) = true := by decide
  simpa using List.all_eq_true.1 (key op (mem_all op)) c h

theorem space_not_mem_symbol (op : Comparator) : ' ' ∉ op.symbol := fun h =>
  absurd (not_isBlank_of_mem_symbol h) (by decide)

end Comparator

namespace Text

/-! ## The inside of a text -/

/-- A text without its first and its last character. -/
def inside (t : Text) : Text := t.tail.dropLast

theorem prefix_dropLast_iff {s t : Text} (hs : s ≠ []) :
    s <+: t.dropLast ↔ ∃ c rest, t = s ++ c :: rest := by
  constructor
  · rintro ⟨u, hu⟩
    have hne : t ≠ [] := by
      rintro rfl
      simp [hs] at hu
    have ht : t = s ++ (u ++ [t.getLast hne]) := by
      rw [← List.append_assoc, hu, List.dropLast_concat_getLast]
    cases u with
    | nil => exact ⟨_, _, ht⟩
    | cons c u => exact ⟨_, _, ht⟩
  · rintro ⟨c, rest, rfl⟩
    rw [List.dropLast_append_cons]
    exact List.prefix_append _ _

theorem inside_append {s t : Text} (m : Text) (hs : s ≠ []) (ht : t ≠ []) :
    (s ++ (m ++ t)).inside = s.tail ++ (m ++ t.dropLast) := by
  rw [inside, List.tail_append_of_ne_nil hs, List.dropLast_append_of_ne_nil (by simp [ht]),
    List.dropLast_append_of_ne_nil ht]

end Text

namespace Fragment

open Text

theorem occursBeforeEnd_iff {symbol t : Text} (hs : symbol ≠ []) :
    occursBeforeEnd symbol t = true ↔ symbol <:+: t.dropLast := by
  induction t with
  | nil => simp [occursBeforeEnd, hs]
  | cons c t ih =>
    have hdrop : symbol <:+: (c :: t).dropLast ↔
        symbol <+: (c :: t).dropLast ∨ symbol <:+: t.dropLast := by
      cases t with
      | nil => simp [hs]
      | cons d t => rw [List.dropLast_cons_cons, List.infix_cons_iff]
    rw [occursBeforeEnd, Bool.or_eq_true, ih, hdrop, prefix_dropLast_iff hs]
    split
    · next d rest hd => simp [after?_eq_some_iff.1 hd]
    · next hno =>
      have : ¬ ∃ d rest, c :: t = symbol ++ d :: rest := by
        rintro ⟨d, rest, hd⟩
        exact hno d rest (after?_eq_some_iff.2 hd)
      simp [this]

/-- A symbol stands in a text with a character on either side if it is found inside. -/
theorem occursInside_iff {symbol t : Text} (hs : symbol ≠ []) :
    occursInside symbol t = true ↔ symbol <:+: t.inside := by
  cases t with
  | nil => simp [occursInside, Text.inside, hs]
  | cons c t => exact occursBeforeEnd_iff hs

theorem claims_iff {op : Comparator} {fragment : Text} :
    claims op fragment = true ↔ op.symbol <:+: (trim fragment).inside ∧
      ∀ d ∈ op.longer, ¬ d.symbol <:+: (trim fragment).inside := by
  simp [claims, occursInside_iff, Bool.eq_false_iff]

/-- The first element that satisfies a condition: it does, and none of those before it does. -/
theorem find?_eq_some_iff_takeWhile {α : Type} [DecidableEq α] {p : α → Bool} {l : List α} {a : α}
    (ha : a ∈ l) :
    l.find? p = some a ↔ p a = true ∧ ∀ b ∈ l.takeWhile (· ≠ a), p b = false := by
  induction l with
  | nil => cases ha
  | cons b l ih =>
    by_cases hb : b = a
    · subst hb
      cases hp : p b with
      | true => simp [hp]
      | false =>
        have hne : l.find? p ≠ some b := by
          intro h
          have := List.find?_some h
          simp [hp] at this
        simp [hp, hne]
    · have ha' : a ∈ l := (List.mem_cons.1 ha).resolve_left (Ne.symm hb)
      cases hp : p b with
      | true => simp [hp, hb]
      | false => simp [hp, hb, ih ha']

/-- **Which operator claims a fragment.** -/
theorem operator?_eq_some_iff {fragment : Text} {op : Comparator} :
    operator? fragment = some op ↔
      Comparator.Chosen (fun d => d.symbol <:+: (trim fragment).inside) op := by
  have hclaims : ∀ e, claims e fragment = false ↔ (e.symbol <:+: (trim fragment).inside →
      ∃ d ∈ e.longer, d.symbol <:+: (trim fragment).inside) := by
    intro e
    rw [← Bool.not_eq_true, claims_iff]
    simp
  rw [operator?, find?_eq_some_iff_takeWhile (Comparator.mem_all op), claims_iff]
  constructor
  · rintro ⟨⟨hs, hl⟩, he⟩
    exact ⟨hs, hl, fun e hmem => (hclaims e).1 (he e hmem)⟩
  · rintro ⟨hs, hl, he⟩
    exact ⟨⟨hs, hl⟩, fun e hmem => (hclaims e).2 (he e hmem)⟩

/-! ## Reading -/

theorem operator?_trim (text : Text) : operator? (trim text) = operator? text := by
  simp [operator?, claims]

theorem claims_of_operator? {op : Comparator} {fragment : Text}
    (h : operator? fragment = some op) : claims op fragment = true := by
  have := List.find?_some h
  exact this

/-- **What a fragment is read as.** An operator claims it, the symbol occurs once, and neither side
of it is blank. -/
theorem parse_eq_ok_iff {text : Text} {q : Query} :
    parse text = .ok q ↔ ∃ op before after, operator? text = some op ∧
      cut? op.symbol (trim text) = some (before, after) ∧ ¬ op.symbol <:+: after ∧
      before.trim ≠ [] ∧ after.trim ≠ [] ∧ q = .comparison op before.trim after.trim := by
  rw [parse, operator?_trim]
  cases hop : operator? text with
  | none => simp
  | some op =>
    have hclaims : claims op (trim text) = true := by
      simpa [claims] using claims_of_operator? hop
    simp only [parseAs, hclaims, trim_trim, Bool.not_true, Bool.false_eq_true, if_false,
      Option.some.injEq]
    constructor
    · intro h
      split at h
      · cases h
      · next before after hcut =>
        split at h
        · cases h
        · next hparts =>
          simp only [Bool.or_eq_true, List.isEmpty_iff, not_or, isSome_cut?_iff] at hparts
          exact ⟨op, before, after, rfl, hcut, hparts.1.1, hparts.1.2, hparts.2,
            (Except.ok.inj h).symm⟩
    · rintro ⟨_, before, after, rfl, hcut, honce, hb, ha, rfl⟩
      rw [hcut]
      refine if_neg ?_
      simp only [Bool.or_eq_true, List.isEmpty_iff, not_or, isSome_cut?_iff]
      exact ⟨⟨honce, hb⟩, ha⟩

/-! ## A comparison in its written form -/

/-- What the parts of a comparison are once it was read. -/
structure Parts (op : Comparator) (field literal : Text) : Prop where
  field_ne_nil : field ≠ []
  literal_ne_nil : literal ≠ []
  trim_field : field.trim = field
  trim_literal : literal.trim = literal
  not_infix_field : ¬ op.symbol <:+: field
  not_infix_literal : ¬ op.symbol <:+: literal

/-- A comparison that was read: the symbol stands between the field and the literal, with blanks on
either side. -/
theorem parts_of_parse {text field literal : Text} {op : Comparator}
    (h : parse text = .ok (.comparison op field literal)) :
    Parts op field literal ∧ operator? text = some op ∧
      ∃ w w' : Text, w.isBlank = true ∧ w'.isBlank = true ∧
        trim text = field ++ (w ++ (op.symbol ++ (w' ++ literal))) := by
  obtain ⟨_, before, after, hop, hcut, honce, hf, hl, hq⟩ := parse_eq_ok_iff.1 h
  obtain ⟨rfl, rfl, rfl⟩ := Query.comparison.inj hq
  have heq := eq_of_cut? hcut
  have hbefore : ∀ c ∈ before.head?, RecordQuery.isBlank c = false := by
    intro c hc
    refine head?_trim text c ?_
    rw [heq, List.append_assoc, List.head?_append, hc]
    rfl
  have hafter : ∀ c ∈ after.getLast?, RecordQuery.isBlank c = false := by
    intro c hc
    refine getLast?_trim text c ?_
    rw [heq, List.getLast?_append, hc]
    rfl
  obtain ⟨w, hw, hb'⟩ := eq_trim_append hbefore
  obtain ⟨w', hw', ha'⟩ := eq_append_trim_of_getLast? hafter
  refine ⟨⟨hf, hl, trim_trim _, trim_trim _, fun hi => ?_, fun hi => ?_⟩, hop, w, w', hw, hw', ?_⟩
  · refine not_infix_of_cut? op.symbol_ne_nil hcut ?_
    rw [hb']
    exact List.infix_append_of_infix_left hi
  · refine honce ?_
    rw [ha']
    exact List.infix_append_of_infix_right hi
  · rw [heq, ← ha', ← List.append_assoc (trim before), ← hb', List.append_assoc]

namespace Parts

variable {op : Comparator} {field literal : Text}

theorem display_eq : (Query.comparison op field literal).display =
    (field ++ [' ']) ++ (op.symbol ++ ' ' :: literal) := by
  simp [Query.display]

theorem trim_display (h : Parts op field literal) :
    trim (Query.comparison op field literal).display =
      (Query.comparison op field literal).display := by
  refine trim_eq_self (fun c hc => ?_) fun c hc => ?_
  · refine trimStart_eq_self_iff.1 (h.trim_field ▸ trimStart_trim field) c ?_
    rw [display_eq, List.append_assoc, List.head?_append] at hc
    cases hf : field.head? with
    | none => exact absurd (List.head?_eq_none_iff.1 hf) h.field_ne_nil
    | some d => simpa [hf] using hc
  · refine trimEnd_eq_self_iff.1 (h.trim_literal ▸ trimEnd_trim literal) c ?_
    rw [Query.display, List.getLast?_append] at hc
    cases hl : literal.getLast? with
    | none => exact absurd (List.getLast?_eq_none_iff.1 hl) h.literal_ne_nil
    | some d => simpa [hl] using hc

/-- The written form is cut at the symbol between the blanks. -/
theorem cut?_display (h : Parts op field literal) :
    cut? op.symbol (Query.comparison op field literal).display =
      some (field ++ [' '], ' ' :: literal) := by
  rw [display_eq]
  refine cut?_append fun u hu hne hp => h.not_infix_field ?_
  obtain ⟨v, rfl, hv⟩ := (List.suffix_concat_iff.1 hu).resolve_left hne
  rw [List.append_assoc] at hp
  have hpre := prefix_of_prefix_append_cons op.space_not_mem_symbol hp
  exact hpre.isInfix.trans hv.isInfix

/-- A comparison is read from its written form by the operator that claims it. -/
theorem parse_written (h : Parts op field literal)
    (hop : operator? (Query.comparison op field literal).display = some op) :
    parse (Query.comparison op field literal).display = .ok (.comparison op field literal) := by
  have hfield : trim (field ++ [' ']) = field := by rw [trim_append isBlank_space, h.trim_field]
  have hliteral : trim (' ' :: literal) = literal := by
    rw [← List.singleton_append, trim_append_left isBlank_space, h.trim_literal]
  have honce : ¬ op.symbol <:+: ' ' :: literal := by
    have := infix_append_cons_iff (s := []) (t := literal) op.space_not_mem_symbol op.symbol_ne_nil
    simpa [h.not_infix_literal] using this
  refine parse_eq_ok_iff.2 ⟨op, field ++ [' '], ' ' :: literal, hop, ?_, honce, ?_, ?_, ?_⟩
  · rw [h.trim_display, h.cut?_display]
  · rw [hfield]
    exact h.field_ne_nil
  · rw [hliteral]
    exact h.literal_ne_nil
  · rw [hfield, hliteral]

end Parts

/-- What is inside a written comparison: the blanks keep its parts apart. -/
theorem infix_inside_display_iff {op d : Comparator} {field literal : Text} (hf : field ≠ [])
    (hl : literal ≠ []) :
    d.symbol <:+: inside (Query.comparison op field literal).display ↔
      d.symbol <:+: field.tail ∨ d.symbol <:+: op.symbol ∨ d.symbol <:+: literal.dropLast := by
  have hinside : inside (Query.comparison op field literal).display =
      field.tail ++ ' ' :: (op.symbol ++ ' ' :: literal.dropLast) := by
    have := inside_append (' ' :: (op.symbol ++ [' '])) hf hl
    simpa [Query.display] using this
  rw [hinside, infix_append_cons_iff d.space_not_mem_symbol d.symbol_ne_nil,
    infix_append_cons_iff d.space_not_mem_symbol d.symbol_ne_nil]

/-- What is left of the choice of an operator when the blanks around it are replaced by one on
either side. -/
theorem chosen_display {op : Comparator} {field literal w w' : Text} (hf : field ≠ [])
    (hl : literal ≠ [])
    (h : Comparator.Chosen (fun d => d.symbol <:+:
      inside (field ++ (w ++ (op.symbol ++ (w' ++ literal))))) op)
    (hw : w.isBlank = true) (hw' : w'.isBlank = true) :
    Comparator.Chosen (fun d => d.symbol <:+:
      inside (Query.comparison op field literal).display) op := by
  have hold : inside (field ++ (w ++ (op.symbol ++ (w' ++ literal)))) =
      field.tail ++ ((w ++ (op.symbol ++ w')) ++ literal.dropLast) := by
    rw [← inside_append _ hf hl]
    simp
  have hthere : ∀ d : Comparator, d.symbol <:+: inside (Query.comparison op field literal).display ↔
      d.symbol <:+: field.tail ∨ d.symbol <:+: op.symbol ∨ d.symbol <:+: literal.dropLast :=
    fun _ => infix_inside_display_iff hf hl
  refine h.mono (fun d hd => ?_) ((hthere op).2 (.inr (.inl List.infix_rfl))) fun d hd hdisj => ?_
  · rw [hold]
    rcases (hthere d).1 hd with hd | hd | hd
    · exact List.infix_append_of_infix_left hd
    · refine List.infix_append_of_infix_right (List.infix_append_of_infix_left ?_)
      exact List.infix_append_of_infix_right (List.infix_append_of_infix_left hd)
    · exact List.infix_append_of_infix_right (List.infix_append_of_infix_right hd)
  · have hsep : ∀ c ∈ d.symbol, c ∉ w ++ (op.symbol ++ w') := by
      intro c hc hmem
      have hc' := Comparator.not_isBlank_of_mem_symbol hc
      rcases List.mem_append.1 hmem with hmem | hmem
      · simp [List.all_eq_true.1 hw c hmem] at hc'
      rcases List.mem_append.1 hmem with hmem | hmem
      · exact hdisj c hc hmem
      · simp [List.all_eq_true.1 hw' c hmem] at hc'
    rw [hold, infix_append_append_iff (by simp) d.symbol_ne_nil hsep] at hd
    exact (hthere d).2 (hd.imp_right .inr)

/-- **A comparison is read again from its written form**, whatever blanks are around it. -/
theorem parse_display_of_parse {text pre post field literal : Text} {op : Comparator}
    (h : parse text = .ok (.comparison op field literal)) (hpre : pre.isBlank = true)
    (hpost : post.isBlank = true) :
    parse (pre ++ ((Query.comparison op field literal).display ++ post)) =
      .ok (.comparison op field literal) := by
  obtain ⟨parts, hop, w, w', hw, hw', htext⟩ := parts_of_parse h
  have hchosen := operator?_eq_some_iff.1 hop
  rw [htext] at hchosen
  have hop' : operator? (Query.comparison op field literal).display = some op := by
    rw [operator?_eq_some_iff, parts.trim_display]
    exact chosen_display parts.field_ne_nil parts.literal_ne_nil hchosen hw hw'
  rw [parse, trim_append_append hpre hpost, ← parse]
  exact parts.parse_written hop'

end Fragment

end RecordQuery
