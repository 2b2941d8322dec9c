import RecordQuery.Proofs.Query.Quoting

/-!
# Operators kept apart

The symbol of an operator can be part of a longer one: `=` of `!=`, `>=` and `<=`, `>` of `>=`, `<`
of `<=`, and `≈` of `!≈`. An operator does not claim a fragment inside which a longer symbol stands.
This file says what that is worth.

## Comparisons that are there

Around its symbol, a comparison may be written with any blanks or none. As long as neither the field
nor the literal has a sign of comparisons, and the field does not end in the exclamation mark that
would make a longer symbol of `=` or `≈`, the only symbols inside are those within the operator's
own (`Comparator.infix_between_iff`), so one operator claims the fragment and the others refuse it.

## Symbols at the ends

A symbol is looked for with a character on either side. A longer symbol that has none is not seen,
and then nothing keeps a shorter one from being read that has: `!= b` compares the field `!`, and `a
>=` has the literal `=`. These are the only cases. If the symbol at which a fragment is split
belongs to a longer one, then the longer one begins the fragment or ends it
(`Fragment.covered_iff`).

## Main results

* `Fragment.parse_separated`: a comparison is claimed by its own operator and by no other
* `Fragment.parse_longer_symbol`: where a longer symbol is read as a shorter one
-/

namespace RecordQuery

open Text

/-! ## Texts without signs -/

/-- Text without signs of comparisons. It may hold exclamation marks. -/
def Text.Signless (t : Text) : Prop := ∀ c ∈ signs, c ∉ t

instance (t : Text) : Decidable t.Signless :=
  decidable_of_iff (signs.all fun c => !t.contains c) (by simp [Signless])

namespace Text.Signless

variable {s t : Text}

theorem of_infix (ht : Signless t) (h : s <:+: t) : Signless s := fun c hc hs => ht c hc (h.mem hs)

theorem append (hs : Signless s) (ht : Signless t) : Signless (s ++ t) := fun c hc h =>
  (List.mem_append.1 h).elim (hs c hc) (ht c hc)

theorem of_isBlank (h : t.isBlank = true) : Signless t := by
  intro c hc ht
  have hsigns : signs.all (fun c => !RecordQuery.isBlank c) = true := by decide
  have hsign := List.all_eq_true.1 hsigns c hc
  simp [List.all_eq_true.1 h c ht] at hsign

theorem infix_free (h : Signless t) (op : Comparator) : ¬ op.symbol <:+: t := by
  obtain ⟨c, hsign, hc⟩ := op.exists_sign
  exact fun hi => h c hsign (hi.mem hc)

theorem trim (h : Signless t) : Signless t.trim := by
  obtain ⟨before, after, -, -, ht⟩ := eq_append_trim t
  exact h.of_infix ⟨before, after, ht.symm⟩

end Text.Signless

namespace Comparator

/-! ## Symbols taken apart -/

theorem length_symbol_le (op : Comparator) : op.symbol.length ≤ 2 := by
  have key : ∀ op ∈ all, op.symbol.length ≤ 2 := by decide
  exact key op (mem_all op)

/-- Of a symbol in two parts, the second one is a sign. So is the first one, and another sign, but
for the exclamation mark of `!=` and `!≈`. -/
theorem parts_of_symbol {op : Comparator} {s t : Text} (h : op.symbol = s ++ t) (hs : s ≠ [])
    (ht : t ≠ []) :
    ∃ a b, s = [a] ∧ t = [b] ∧ a ≠ b ∧ b ∈ signs ∧
      (a ∈ signs ∨ a = '!' ∧ (b = '=' ∨ b = '≈')) := by
  obtain ⟨a, s, rfl⟩ := List.exists_cons_of_ne_nil hs
  obtain ⟨b, t, rfl⟩ := List.exists_cons_of_ne_nil ht
  have hlength := op.length_symbol_le
  rw [h] at hlength
  simp only [List.length_append, List.length_cons] at hlength
  obtain rfl := List.length_eq_zero_iff.1 (show s.length = 0 by omega)
  obtain rfl := List.length_eq_zero_iff.1 (show t.length = 0 by omega)
  have key : ∀ op ∈ all, op.symbol.length ≤ 1 ∨
      op.symbol ∈ [['!', '='], ['>', '='], ['<', '='], ['!', '≈']] := by
    decide
  have hmem := key op (mem_all op)
  rw [h] at hmem
  replace hmem := hmem.resolve_left (by simp)
  simp only [List.cons_append, List.nil_append, List.mem_cons, List.cons.injEq, and_true,
    List.not_mem_nil, or_false] at hmem
  refine ⟨a, b, rfl, rfl, ?_⟩
  rcases hmem with ⟨rfl, rfl⟩ | ⟨rfl, rfl⟩ | ⟨rfl, rfl⟩ | ⟨rfl, rfl⟩ <;> decide

/-- Of a symbol in two parts, neither holds a character of the other. -/
theorem disjoint_of_symbol {op : Comparator} {s t : Text} (h : op.symbol = s ++ t) (hs : s ≠ [])
    (ht : t ≠ []) : ∀ c ∈ t, c ∉ s := by
  obtain ⟨a, b, rfl, rfl, hne, -⟩ := parts_of_symbol h hs ht
  simpa using Ne.symm hne

/-- An operator whose symbol holds another one's is longer than it. -/
theorem mem_longer_of_infix {op d : Comparator} (h : op.symbol <:+: d.symbol) (hne : d ≠ op) :
    d ∈ op.longer := by
  have key : ∀ op ∈ all, ∀ d ∈ all, op.symbol <:+: d.symbol → d ≠ op → d ∈ op.longer := by decide
  exact key op (mem_all op) d (mem_all d) h hne

theorem trim_of_infix_symbol {op : Comparator} {s : Text} (h : s <:+: op.symbol) : s.trim = s :=
  trim_eq_self (fun _ hc => not_isBlank_of_mem_symbol (h.mem (List.mem_of_mem_head? hc)))
    fun _ hc => not_isBlank_of_mem_symbol (h.mem (List.mem_of_getLast? hc))

theorem trim_symbol (op : Comparator) : trim op.symbol = op.symbol :=
  trim_of_infix_symbol List.infix_rfl

theorem trimStart_symbol (op : Comparator) : trimStart op.symbol = op.symbol :=
  op.trim_symbol ▸ trimStart_trim op.symbol

theorem trimEnd_symbol (op : Comparator) : trimEnd op.symbol = op.symbol :=
  op.trim_symbol ▸ trimEnd_trim op.symbol

/-- What a symbol has in front of another one that ends it is its first character. -/
theorem front_of_symbol_iff {op d : Comparator} {a : Char} {m s : Text} (h : op.symbol = a :: m) :
    s ≠ [] ∧ op.symbol = s ++ d.symbol ↔ s = [a] ∧ d.symbol = m := by
  constructor
  · rintro ⟨hs, hd⟩
    obtain ⟨b, c, rfl, -⟩ := parts_of_symbol hd hs d.symbol_ne_nil
    obtain ⟨rfl, rfl⟩ := List.cons_eq_cons.1 (h.symm.trans hd)
    exact ⟨rfl, rfl⟩
  · rintro ⟨rfl, rfl⟩
    exact ⟨by simp, h⟩

/-- What a symbol has behind another one that begins it is its last character. -/
theorem back_of_symbol_iff {op d : Comparator} {b : Char} {m s : Text}
    (h : op.symbol = m ++ [b]) : s ≠ [] ∧ op.symbol = d.symbol ++ s ↔ s = [b] ∧ d.symbol = m := by
  constructor
  · rintro ⟨hs, hd⟩
    obtain ⟨a, c, -, rfl, -⟩ := parts_of_symbol hd d.symbol_ne_nil hs
    obtain ⟨rfl, hc⟩ := List.append_inj' (h.symm.trans hd) rfl
    exact ⟨hc.symm, rfl⟩
  · rintro ⟨rfl, rfl⟩
    exact ⟨by simp, h⟩

/-! ## Symbols between texts without signs -/

/-- Between texts without signs, no symbol lies across an end of what is between them, unless the
exclamation mark in front of it is taken for the first half of one. -/
theorem infix_between_iff {d : Comparator} {s m t : Text} (hs : Signless s) (ht : Signless t)
    (hseam : s.getLast? = some '!' → m.head? ≠ some '=' ∧ m.head? ≠ some '≈') :
    d.symbol <:+: s ++ (m ++ t) ↔ d.symbol <:+: m := by
  refine ⟨fun h => ?_, fun h =>
    List.infix_append_of_infix_right (List.infix_append_of_infix_left h)⟩
  rcases List.infix_append_iff_ne_nil.1 h with h | h | ⟨l, r, hl, hr, hd, hsuffix, hfront⟩
  · exact absurd h (hs.infix_free d)
  · rcases List.infix_append_iff_ne_nil.1 h with h | h | ⟨l, r, hl, hr, hd, -, hfront⟩
    · exact h
    · exact absurd h (ht.infix_free d)
    · obtain ⟨a, b, -, rfl, -, hb, -⟩ := parts_of_symbol hd hl hr
      exact absurd (hfront.mem List.mem_cons_self) (ht b hb)
  · obtain ⟨a, b, rfl, rfl, -, hb, ha⟩ := parts_of_symbol hd hl hr
    have hmem : a ∈ s := hsuffix.mem List.mem_cons_self
    obtain ⟨rfl, hsign⟩ := ha.resolve_left fun ha => hs a ha hmem
    have hlast : s.getLast? = some '!' := by
      obtain ⟨front, rfl⟩ := hsuffix
      simp
    cases m with
    | nil => exact absurd (hfront.mem List.mem_cons_self) (ht b hb)
    | cons c m =>
      obtain rfl : b = c := (List.cons_prefix_cons.1 hfront).1
      have := hseam hlast
      rcases hsign with rfl | rfl <;> simp at this

/-- In a text of one character at most, the operator whose symbol it is is the choice. -/
theorem chosen_iff_of_length_le_one {m : Text} (hm : m.length ≤ 1) {op : Comparator} :
    Chosen (fun d => d.symbol <:+: m) op ↔ op.symbol = m := by
  constructor
  · intro h
    have hpos := List.length_pos_iff.2 op.symbol_ne_nil
    have hle := h.symbol.length_le
    exact h.symbol.eq_of_length (by omega)
  · rintro rfl
    exact op.chosen_symbol

end Comparator

namespace Text

/-- Between ends that are not blank nothing is trimmed away. -/
theorem trim_between {s t : Text} (hs : s ≠ []) (ht : t ≠ []) (hs' : trimStart s = s)
    (ht' : trimEnd t = t) (m : Text) : trim (s ++ (m ++ t)) = s ++ (m ++ t) := by
  refine trim_eq_self (fun c hc => ?_) fun c hc => ?_
  · rw [List.head?_append_of_ne_nil _ hs] at hc
    exact trimStart_eq_self_iff.1 hs' c hc
  · rw [← List.append_assoc, List.getLast?_append_of_ne_nil _ ht] at hc
    exact trimEnd_eq_self_iff.1 ht' c hc

theorem trim_ne_nil {t : Text} (h : t.isBlank = false) : t.trim ≠ [] := by
  rw [ne_eq, trim_eq_nil_iff, h]
  exact Bool.false_ne_true

end Text

namespace Fragment

/-! ## Claims from what is inside -/

theorem claims_trim (op : Comparator) (text : Text) : claims op (trim text) = claims op text := by
  simp [claims]

/-- If the symbols inside are those within one operator's, this one claims the fragment and no other
one does: the shorter ones yield to it. -/
theorem claims_iff_of_inside {text : Text} {op : Comparator}
    (h : ∀ d : Comparator, d.symbol <:+: inside (trim text) ↔ d.symbol <:+: op.symbol)
    (d : Comparator) : claims d text = true ↔ d = op := by
  rw [claims_iff]
  simp only [h]
  constructor
  · rintro ⟨hd, hlonger⟩
    by_contra hne
    exact hlonger op (Comparator.mem_longer_of_infix hd (Ne.symm hne)) List.infix_rfl
  · rintro rfl
    exact ⟨d.chosen_symbol.symbol, d.chosen_symbol.longer⟩

/-- What a fragment is read as if the symbols inside are those within a text of one character, or of
none: the operator whose symbol it is reads the fragment, if there is one. -/
theorem parse_eq_ok_iff_of_inside {text m before after : Text}
    (h : ∀ d : Comparator, d.symbol <:+: inside (trim text) ↔ d.symbol <:+: m)
    (hm : m.length ≤ 1)
    (hcut : ∀ d : Comparator, d.symbol = m →
      cut? d.symbol (trim text) = some (before, after) ∧ ¬ d.symbol <:+: after)
    (hbefore : before.trim ≠ []) (hafter : after.trim ≠ []) {q : Query} :
    parse text = .ok q ↔
      ∃ d : Comparator, d.symbol = m ∧ q = .comparison d before.trim after.trim := by
  rw [parse_eq_ok_iff]
  simp only [operator?_eq_some_iff, h, Comparator.chosen_iff_of_length_le_one hm]
  constructor
  · rintro ⟨d, s, t, hd, hst, -, -, -, rfl⟩
    rw [(hcut d hd).1, Option.some.injEq, Prod.mk.injEq] at hst
    obtain ⟨rfl, rfl⟩ := hst
    exact ⟨d, hd, rfl⟩
  · rintro ⟨d, hd, rfl⟩
    exact ⟨d, before, after, hd, (hcut d hd).1, (hcut d hd).2, hbefore, hafter, rfl⟩

/-- A fragment is cut at the first symbol, if none of its signs stands before it. -/
theorem cut?_symbol {op : Comparator} {s : Text} (hs : ∀ c ∈ op.symbol, c ∈ signs → c ∉ s)
    (t : Text) : cut? op.symbol (s ++ (op.symbol ++ t)) = some (s, t) := by
  refine cut?_append fun u hu hne hp => ?_
  obtain ⟨a, u, rfl⟩ := List.exists_cons_of_ne_nil hne
  obtain ⟨b, v, hb⟩ := List.exists_cons_of_ne_nil op.symbol_ne_nil
  have ha : a ∈ s := hu.mem List.mem_cons_self
  have hsign : ∀ c ∈ signs, c ∈ op.symbol → c ∉ a :: u := fun c hc hop hmem =>
    hs c hop hc (hu.mem hmem)
  rw [hb, List.cons_append, List.cons_prefix_cons] at hp
  obtain ⟨rfl, hp⟩ := hp
  by_cases hv : v = []
  · obtain ⟨c, hc, hop⟩ := op.exists_sign
    obtain rfl : c = b := by simpa [hb, hv] using hop
    exact hsign c hc hop List.mem_cons_self
  -- the first character is an exclamation mark, so the second one would have to be one as well
  · obtain ⟨_, c, ⟨rfl⟩, rfl, -, hc, hmark⟩ := Comparator.parts_of_symbol (s := [b]) hb (by simp) hv
    obtain ⟨rfl, -⟩ := hmark.resolve_left fun h => hsign b h (by simp [hb]) List.mem_cons_self
    cases u with
    | nil =>
      obtain rfl : c = '!' := by simpa using hp
      exact absurd hc (by decide)
    | cons d u =>
      obtain rfl : c = d := (List.cons_prefix_cons.1 hp).1
      exact hsign c hc (by simp [hb]) (by simp)

/-! ## Comparisons that are there -/

/-- A comparison with blanks around its parts, trimmed. -/
theorem exists_trim_eq {f l w₁ w₂ w₃ w₄ : Text} (hw : ∀ w ∈ [w₁, w₂, w₃, w₄], w.isBlank = true)
    (hf : f.isBlank = false) (hl : l.isBlank = false) (hmark : f.getLast? ≠ some '!')
    (symbol : Text) :
    ∃ v v' : Text, v.isBlank = true ∧ v'.isBlank = true ∧
      (f.trim.tail ++ v).getLast? ≠ some '!' ∧
      trim (w₁ ++ f ++ w₂ ++ symbol ++ w₃ ++ l ++ w₄) =
        f.trim ++ (v ++ (symbol ++ (v' ++ l.trim))) := by
  simp only [List.forall_mem_cons, List.not_mem_nil, false_implies, implies_true, and_true] at hw
  obtain ⟨hw₁, hw₂, hw₃, hw₄⟩ := hw
  obtain ⟨b₁, b₂, hb₁, hb₂, hfield⟩ := eq_append_trim f
  obtain ⟨b₃, b₄, hb₃, hb₄, hliteral⟩ := eq_append_trim l
  refine ⟨b₂ ++ w₂, w₃ ++ b₃, by simp [isBlank_append, hb₂, hw₂],
    by simp [isBlank_append, hw₃, hb₃], fun h => ?_, ?_⟩
  · -- the last character is that of `w₂`, which is blank, or that of `f`
    obtain ⟨u, hu⟩ := List.tail_suffix f.trim
    have hsuffix : b₁ ++ u ++ (f.trim.tail ++ (b₂ ++ w₂)) = f ++ w₂ := by
      calc
        _ = b₁ ++ (u ++ f.trim.tail) ++ b₂ ++ w₂ := by simp only [List.append_assoc]
        _ = f ++ w₂ := by rw [hu, ← hfield]
    have hlast : (f ++ w₂).getLast? = some '!' := by
      rw [← hsuffix, List.getLast?_append, h, Option.some_or]
    rw [List.getLast?_append, Option.or_eq_some_iff] at hlast
    rcases hlast with hlast | ⟨-, hlast⟩
    · exact absurd (List.all_eq_true.1 hw₂ _ (List.mem_of_getLast? hlast)) (by decide)
    · exact hmark hlast
  · have hform : w₁ ++ f ++ w₂ ++ symbol ++ w₃ ++ l ++ w₄ =
        (w₁ ++ b₁) ++ ((f.trim ++ ((b₂ ++ w₂ ++ (symbol ++ (w₃ ++ b₃))) ++ l.trim)) ++
          (b₄ ++ w₄)) := by
      conv_lhs => rw [hfield, hliteral]
      simp only [List.append_assoc]
    rw [hform, trim_append_append (by simp [isBlank_append, hw₁, hb₁])
        (by simp [isBlank_append, hb₄, hw₄]),
      trim_between (trim_ne_nil hf) (trim_ne_nil hl) (trimStart_trim f) (trimEnd_trim l)]
    simp only [List.append_assoc]

/-- **A comparison that is there is claimed by its own operator and by no other.** Whatever blanks
are put around the parts, the fragment is read as the comparison of the field with the literal, and
every other operator refuses it. -/
theorem parse_separated {f l w₁ w₂ w₃ w₄ : Text} (hw : ∀ w ∈ [w₁, w₂, w₃, w₄], w.isBlank = true)
    (hf : f.isBlank = false) (hl : l.isBlank = false) (hfield : f.Signless)
    (hliteral : l.Signless) (hmark : f.getLast? ≠ some '!') (op : Comparator) :
    let text := w₁ ++ f ++ w₂ ++ op.symbol ++ w₃ ++ l ++ w₄
    (∀ d, claims d text = true ↔ d = op) ∧ parse text = .ok (.comparison op f.trim l.trim) ∧
      ∀ d, d ≠ op → parseAs d text = .error (.unclaimed text.trim) := by
  intro text
  obtain ⟨v, v', hv, hv', hlast, htrim⟩ := exists_trim_eq hw hf hl hmark op.symbol
  have hinside : ∀ d : Comparator, d.symbol <:+: inside (trim text) ↔ d.symbol <:+: op.symbol := by
    intro d
    have hform : inside (trim text) =
        (f.trim.tail ++ v) ++ (op.symbol ++ (v' ++ l.trim.dropLast)) := by
      have := inside_append (v ++ (op.symbol ++ v')) (trim_ne_nil hf) (trim_ne_nil hl)
      simp only [List.append_assoc] at this ⊢
      rw [htrim, this]
    rw [hform]
    refine Comparator.infix_between_iff ?_ ?_ fun h => absurd h hlast
    · exact (hfield.trim.of_infix (List.tail_suffix _).isInfix).append (.of_isBlank hv)
    · exact (Signless.of_isBlank hv').append
        (hliteral.trim.of_infix (List.dropLast_prefix _).isInfix)
  have hclaims := claims_iff_of_inside hinside
  have hbefore : trim (f.trim ++ v) = f.trim := by rw [trim_append hv, trim_trim]
  have hafter : trim (v' ++ l.trim) = l.trim := by rw [trim_append_left hv', trim_trim]
  refine ⟨hclaims, parse_eq_ok_iff.2 ⟨op, f.trim ++ v, v' ++ l.trim, ?_, ?_, ?_, ?_⟩, ?_⟩
  · rw [operator?_eq_some_iff]
    simpa only [hinside] using op.chosen_symbol
  · rw [htrim, ← List.append_assoc]
    exact cut?_symbol (fun c _ hc => hfield.trim.append (.of_isBlank hv) c hc) _
  · exact ((Signless.of_isBlank hv').append hliteral.trim).infix_free op
  · rw [hbefore, hafter]
    exact ⟨trim_ne_nil hf, trim_ne_nil hl, rfl⟩
  · intro d hd
    have hrefused : claims d text.trim = false := by
      rw [claims_trim, Bool.eq_false_iff]
      exact fun h => hd ((hclaims d).1 h)
    simp [parseAs, hrefused]

/-- Blanks with a line break, a field that holds exclamation marks, and none between the parts. -/
theorem parse_separated_marks :
    let text := ['\n'] ++ "!a! ".toList ++ [] ++ ['≈'] ++ [] ++ "!b".toList ++ "\u3000".toList
    parse text = .ok (.comparison (.relation .like) "!a!".toList "!b".toList) ∧
      parseAs (.relation .notLike) text = .error (.unclaimed "!a! ≈!b".toList) := by
  have h := @parse_separated "!a! ".toList "!b".toList ['\n'] [] [] "\u3000".toList (by decide)
    (by decide) (by decide) (by decide) (by decide) (by decide)
    (.relation .like)
  exact ⟨h.2.1, h.2.2 (.relation .notLike) (by decide)⟩

/-! ## Longer symbols at the ends -/

/-- The occurrence of an operator's symbol between two texts is part of an occurrence of a longer
symbol, which takes some of the text before it or behind it. -/
def Covered (op : Comparator) (before after : Text) : Prop :=
  ∃ d : Comparator, d ≠ op ∧
    ∃ s t : Text, s <:+ before ∧ t <+: after ∧ d.symbol = s ++ (op.symbol ++ t)

/-- A longer symbol in a fragment that a shorter operator claims begins the fragment or ends it.
Anywhere else it would have kept the shorter operator away. -/
theorem eq_nil_or_eq_nil_of_longer {op d : Comparator} {text s t : Text}
    (hclaims : claims op text = true) (hd : d ∈ op.longer)
    (htext : trim text = s ++ (d.symbol ++ t)) : s = [] ∨ t = [] := by
  by_contra h
  rw [not_or] at h
  refine (claims_iff.1 hclaims).2 d hd ?_
  rw [htext, inside_append _ h.1 h.2]
  exact List.infix_append_of_infix_right (List.infix_append_of_infix_left List.infix_rfl)

/-- **A longer symbol around the place where a fragment is split** takes all of the text before that
place, or all of the text behind it. -/
theorem covered_iff {op : Comparator} {text before after : Text} (hclaims : claims op text = true)
    (htext : trim text = before ++ (op.symbol ++ after)) (hbefore : before ≠ [])
    (hafter : after ≠ []) :
    Covered op before after ↔
      ∃ d ∈ op.longer, d.symbol = before ++ op.symbol ∨ d.symbol = op.symbol ++ after := by
  constructor
  · rintro ⟨d, hne, s, t, ⟨p, rfl⟩, ⟨r, rfl⟩, hd⟩
    have hlonger : d ∈ op.longer := Comparator.mem_longer_of_infix ⟨s, t, by simp [hd]⟩ hne
    have hends : p = [] ∨ r = [] :=
      eq_nil_or_eq_nil_of_longer hclaims hlonger (by simp [htext, hd])
    -- the symbol has two characters at most, so it goes on before the shorter one or behind it
    have hlength := d.length_symbol_le
    have hpos := List.length_pos_iff.2 op.symbol_ne_nil
    rw [hd] at hlength
    simp only [List.length_append] at hlength
    have hparts : s = [] ∨ t = [] := by
      rw [← List.length_eq_zero_iff, ← List.length_eq_zero_iff (l := t)]
      omega
    refine ⟨d, hlonger, ?_⟩
    rcases hparts with rfl | rfl
    · obtain rfl := hends.resolve_left (by simpa using hbefore)
      exact .inr (by simpa using hd)
    · obtain rfl := hends.resolve_right (by simpa using hafter)
      exact .inl (by simpa using hd)
  · rintro ⟨d, hlonger, hd⟩
    have hne : d ≠ op := by
      rintro rfl
      rcases hd with hd | hd
      · exact hbefore (List.self_eq_append_left.1 hd)
      · exact hafter (List.self_eq_append_right.1 hd)
    rcases hd with hd | hd
    · exact ⟨d, hne, before, [], List.suffix_rfl, List.nil_prefix, by simpa using hd⟩
    · exact ⟨d, hne, [], after, List.nil_suffix, List.prefix_rfl, by simpa using hd⟩

/-! ## A part missing -/

/-- A symbol without a field and without a literal is no comparison. -/
theorem parse_ne_ok_of_trim_eq_symbol {text : Text} {op : Comparator} (h : trim text = op.symbol)
    (q : Query) : parse text ≠ .ok q := by
  intro hq
  obtain ⟨d, -, -, hd, -⟩ := parse_eq_ok_iff.1 hq
  have hle := (operator?_eq_some_iff.1 hd).symbol.length_le
  have hpos := List.length_pos_iff.2 d.symbol_ne_nil
  have hop := op.length_symbol_le
  rw [h, inside, List.length_dropLast, List.length_tail] at hle
  omega

theorem exists_trim_symbol_append {w t : Text} (hw : w.isBlank = true) (ht : t.isBlank = false)
    (op : Comparator) :
    ∃ v : Text, v.isBlank = true ∧ trim (w ++ (op.symbol ++ t)) = op.symbol ++ (v ++ t.trim) := by
  obtain ⟨v, v', hv, hv', hliteral⟩ := eq_append_trim t
  refine ⟨v, hv, ?_⟩
  conv_lhs => rw [hliteral]
  rw [← List.append_assoc op.symbol, ← List.append_assoc op.symbol, trim_append_append hw hv',
    List.append_assoc]
  exact trim_between op.symbol_ne_nil (trim_ne_nil ht) op.trimStart_symbol (trimEnd_trim t) v

theorem exists_trim_append_symbol {w t : Text} (hw : w.isBlank = true) (ht : t.isBlank = false)
    (op : Comparator) :
    ∃ v : Text, v.isBlank = true ∧ trim (t ++ (op.symbol ++ w)) = t.trim ++ v ++ op.symbol := by
  obtain ⟨v, v', hv, hv', hfield⟩ := eq_append_trim t
  refine ⟨v', hv', ?_⟩
  conv_lhs => rw [hfield]
  rw [List.append_assoc, List.append_assoc, ← List.append_assoc v', ← List.append_assoc t.trim,
    trim_append_append hv hw, List.append_assoc]
  exact trim_between (trim_ne_nil ht) op.symbol_ne_nil (trimStart_trim t) op.trimEnd_symbol v'

/-- Where a symbol begins a fragment, the symbols inside are those within the rest of it. -/
theorem infix_inside_symbol_append_iff {op : Comparator} {a : Char} {m t : Text}
    (hop : op.symbol = a :: m) (hne : t ≠ []) (ht : t.Signless) (d : Comparator) :
    d.symbol <:+: inside (op.symbol ++ t) ↔ d.symbol <:+: m := by
  have hinside : inside (op.symbol ++ t) = [] ++ (m ++ t.dropLast) := by
    simpa [hop] using inside_append [] op.symbol_ne_nil hne
  rw [hinside]
  exact Comparator.infix_between_iff (fun _ _ => List.not_mem_nil)
    (ht.of_infix (List.dropLast_prefix t).isInfix) (by simp)

/-- Where a symbol ends a fragment, the symbols inside are those within what is left of it. -/
theorem infix_inside_append_symbol_iff {op : Comparator} {b : Char} {m t : Text}
    (hop : op.symbol = m ++ [b]) (hne : t ≠ []) (ht : t.Signless) (d : Comparator) :
    d.symbol <:+: inside (t ++ op.symbol) ↔ d.symbol <:+: m := by
  have hhead : m.head? ≠ some '=' ∧ m.head? ≠ some '≈' := by
    have key : ∀ op ∈ Comparator.all,
        op.symbol.dropLast.head? ≠ some '=' ∧ op.symbol.dropLast.head? ≠ some '≈' := by
      decide
    simpa [hop] using key op (Comparator.mem_all op)
  have hinside : inside (t ++ op.symbol) = t.tail ++ (m ++ []) := by
    simpa [hop] using inside_append [] hne op.symbol_ne_nil
  rw [hinside]
  exact Comparator.infix_between_iff (ht.of_infix (List.tail_suffix t).isInfix)
    (fun _ _ => List.not_mem_nil) fun _ => hhead

/-- What a symbol without a field is read as: a shorter symbol that ends it, with the rest of it as
the field. -/
theorem parse_symbol_append {w t : Text} (hw : w.isBlank = true) (ht : t.Signless)
    (op : Comparator) (q : Query) :
    parse (w ++ (op.symbol ++ t)) = .ok q ↔ t.isBlank = false ∧
      ∃ (d : Comparator) (s : Text), (s ≠ [] ∧ op.symbol = s ++ d.symbol) ∧
        q = .comparison d s t.trim := by
  cases hblank : t.isBlank with
  | true =>
    have htrim : trim (w ++ (op.symbol ++ t)) = op.symbol := by
      rw [trim_append_append hw hblank, op.trim_symbol]
    simp [parse_ne_ok_of_trim_eq_symbol htrim]
  | false =>
    obtain ⟨a, m, hop⟩ := List.exists_cons_of_ne_nil op.symbol_ne_nil
    obtain ⟨v, hv, htrim⟩ := exists_trim_symbol_append hw hblank op
    have hliteral : Signless (v ++ t.trim) := (Signless.of_isBlank hv).append ht.trim
    have hafter : trim (v ++ t.trim) = t.trim := by rw [trim_append_left hv, trim_trim]
    have hne := trim_ne_nil hblank
    have hfield : trim [a] = [a] := Comparator.trim_of_infix_symbol ⟨[], m, hop.symm⟩
    have hinside := infix_inside_symbol_append_iff hop (by simp [hne]) hliteral
    have hlength : m.length ≤ 1 := by
      have := op.length_symbol_le
      rw [hop, List.length_cons] at this
      omega
    have hcut : ∀ d : Comparator, d.symbol = m →
        cut? d.symbol (op.symbol ++ (v ++ t.trim)) = some ([a], v ++ t.trim) ∧
          ¬ d.symbol <:+: v ++ t.trim := by
      rintro d rfl
      have hdisjoint := Comparator.disjoint_of_symbol (s := [a]) hop (by simp) d.symbol_ne_nil
      refine ⟨?_, hliteral.infix_free d⟩
      rw [hop, List.cons_append, ← List.singleton_append]
      exact cut?_symbol (fun c hc _ => hdisjoint c hc) _
    rw [← htrim] at hinside hcut
    rw [parse_eq_ok_iff_of_inside hinside hlength hcut (by simp [hfield]) (by rwa [hafter]), hfield,
      hafter]
    simp [Comparator.front_of_symbol_iff hop, and_assoc]

/-- What a symbol without a literal is read as: a shorter symbol that begins it, with the rest of it
as the literal. -/
theorem parse_append_symbol {w t : Text} (hw : w.isBlank = true) (ht : t.Signless)
    (op : Comparator) (q : Query) :
    parse (t ++ (op.symbol ++ w)) = .ok q ↔ t.isBlank = false ∧
      ∃ (d : Comparator) (s : Text), (s ≠ [] ∧ op.symbol = d.symbol ++ s) ∧
        q = .comparison d t.trim s := by
  cases hblank : t.isBlank with
  | true =>
    have htrim : trim (t ++ (op.symbol ++ w)) = op.symbol := by
      rw [trim_append_append hblank hw, op.trim_symbol]
    simp [parse_ne_ok_of_trim_eq_symbol htrim]
  | false =>
    obtain ⟨m, b, hop⟩ := (List.eq_nil_or_concat' op.symbol).resolve_left op.symbol_ne_nil
    obtain ⟨v, hv, htrim⟩ := exists_trim_append_symbol hw hblank op
    have hfield : Signless (t.trim ++ v) := ht.trim.append (.of_isBlank hv)
    have hbefore : trim (t.trim ++ v) = t.trim := by rw [trim_append hv, trim_trim]
    have hne := trim_ne_nil hblank
    have hliteral : trim [b] = [b] := by
      have hinfix : [b] <:+: op.symbol := ⟨m, [], by simp [hop]⟩
      exact Comparator.trim_of_infix_symbol hinfix
    have hinside := infix_inside_append_symbol_iff hop (by simp [hne]) hfield
    have hlength : m.length ≤ 1 := by
      have := op.length_symbol_le
      rw [hop, List.length_append, List.length_singleton] at this
      omega
    have hcut : ∀ d : Comparator, d.symbol = m →
        cut? d.symbol (t.trim ++ v ++ op.symbol) = some (t.trim ++ v, [b]) ∧
          ¬ d.symbol <:+: [b] := by
      rintro d rfl
      have hdisjoint := Comparator.disjoint_of_symbol (t := [b]) hop d.symbol_ne_nil (by simp)
      obtain ⟨c, -, hc⟩ := d.exists_sign
      refine ⟨?_, fun h => hdisjoint c (h.mem hc) hc⟩
      rw [hop]
      exact cut?_symbol (fun c _ hc => hfield c hc) _
    rw [← htrim] at hinside hcut
    rw [parse_eq_ok_iff_of_inside hinside hlength hcut (by rwa [hbefore]) (by simp [hliteral]),
      hbefore, hliteral]
    simp [Comparator.back_of_symbol_iff hop, and_assoc]

/-- **Where a longer symbol is read as a shorter one.** The symbol at which a fragment is split is
part of a longer one exactly if the longer one consists of it and all of the text before it, or of
it and all of the text behind it. So a symbol that lacks its field or its literal is refused exactly
if no shorter symbol ends it or begins it, as the case may be, or if both are missing. -/
theorem parse_longer_symbol (op : Comparator) :
    (∀ text field literal : Text,
      parse text = .ok (.comparison op field literal) →
        ∃ before after, cut? op.symbol text.trim = some (before, after) ∧
          before.trim = field ∧ after.trim = literal ∧
          (Covered op before after ↔
            ∃ d ∈ op.longer, d.symbol = before ++ op.symbol ∨ d.symbol = op.symbol ++ after)) ∧
      ∀ w t : Text, w.isBlank = true → t.Signless → ∀ q : Query,
        (parse (w ++ op.symbol ++ t) = .ok q ↔ t.isBlank = false ∧
          ∃ (d : Comparator) (s : Text), (s ≠ [] ∧ op.symbol = s ++ d.symbol) ∧
            q = .comparison d s t.trim) ∧
        (parse (t ++ op.symbol ++ w) = .ok q ↔ t.isBlank = false ∧
          ∃ (d : Comparator) (s : Text), (s ≠ [] ∧ op.symbol = d.symbol ++ s) ∧
            q = .comparison d t.trim s) := by
  refine ⟨fun text field literal h => ?_, fun w t hw ht q => ⟨?_, ?_⟩⟩
  · obtain ⟨d, before, after, hd, hcut, -, hbefore, hafter, hq⟩ := parse_eq_ok_iff.1 h
    obtain ⟨rfl, rfl, rfl⟩ := Query.comparison.inj hq
    have htext := eq_of_cut? hcut
    rw [List.append_assoc] at htext
    refine ⟨before, after, hcut, rfl, rfl, covered_iff (claims_of_operator? hd) htext ?_ ?_⟩
    · rintro rfl
      exact hbefore trim_nil
    · rintro rfl
      exact hafter trim_nil
  · rw [List.append_assoc]
    exact parse_symbol_append hw ht op q
  · rw [List.append_assoc]
    exact parse_append_symbol hw ht op q

/-- Of the symbols that lack a field `!=` is read as `=`, and of those that lack a literal `>=` is
read as `>`; but `≈` is refused without its field, and so is `!=` without its literal. -/
theorem parse_longer_symbol_ends :
    parse "!= b".toList = .ok (.comparison (.relation .equal) ['!'] ['b']) ∧
      parse "a >=".toList = .ok (.comparison (.relation .greater) ['a'] ['=']) ∧
      (∀ q, parse "≈ b".toList ≠ .ok q) ∧ ∀ q, parse "a !=".toList ≠ .ok q := by
  have hfield := fun op => (parse_longer_symbol op).2 [] " b".toList rfl (by decide)
  have hliteral := fun op => (parse_longer_symbol op).2 [] "a ".toList rfl (by decide)
  refine ⟨(hfield (.relation .notEqual) _).1.2 ⟨by decide, .relation .equal, ['!'], by decide, rfl⟩,
    (hliteral (.relation .greaterOrEqual) _).2.2
      ⟨by decide, .relation .greater, ['='], by decide, rfl⟩, fun q hq => ?_, fun q hq => ?_⟩
  · obtain ⟨-, d, s, hs, -⟩ := (hfield (.relation .like) q).1.1 hq
    have hop : (Comparator.relation .like).symbol = ['≈'] := rfl
    exact d.symbol_ne_nil ((Comparator.front_of_symbol_iff hop).1 hs).2
  · obtain ⟨-, d, s, hs, -⟩ := (hliteral (.relation .notEqual) q).2.1 hq
    have hop : (Comparator.relation .notEqual).symbol = ['!'] ++ ['='] := rfl
    have key : ∀ d ∈ Comparator.all, d.symbol ≠ ['!'] := by decide
    exact key d d.mem_all ((Comparator.back_of_symbol_iff hop).1 hs).2

/-- The sign of `!=` is read as `=`, although it is part of the longer symbol. -/
theorem covered_of_parse_shorter :
    parse "!= b".toList = .ok (.comparison (.relation .equal) ['!'] ['b']) ∧
      cut? ['='] "!= b".toList = some (['!'], " b".toList) ∧
      Covered (.relation .equal) ['!'] " b".toList :=
  ⟨by decide +kernel, by decide, .relation .notEqual, by decide, ['!'], [], List.suffix_rfl,
    List.nil_prefix, rfl⟩

end Fragment

end RecordQuery
