import RecordQuery.Sql.Fragment

/-!
# The words of SQL text

A database reads the text of a condition word by word: key words, names, signs, placeholders and
punctuation. This file says how, as a machine that takes one character at a time, and what the words
of rendered text are.

## The words of a condition

`Condition.words` are the words of a condition without any text. They do not depend on the dialect:
a quoted name is the name, however often its quotes were doubled, and a placeholder is a
placeholder, whether it has a number or not.

A column that is not quoted has to be a name in the first place. `isPlain` are those that are;
a quoted column can be any text.

## Main results

* `Lexer.Settled.renderOnto`: rendering a condition adds its words
* `words?_render`: the words of a rendered condition
-/

namespace RecordQuery.Sql

/-! ## Words -/

/-- The key words of conditions. -/
inductive Keyword
  | connective (c : Connective)
  | not
  | like
  | member
  deriving DecidableEq, Repr

/-- The words of SQL text. -/
inductive Word
  | keyword (k : Keyword)
  | name (t : Text)
  | sign (t : Text)
  | placeholder
  | mark (c : Char)
  | other (t : Text)
  deriving DecidableEq, Repr

/-- The key word that a word is, in letters of either case. -/
def keyword? (t : Text) : Option Keyword :=
  let upper := t.map Char.toUpper
  if upper = "AND".toList then some (.connective .and)
  else if upper = "OR".toList then some (.connective .or)
  else if upper = "NOT".toList then some .not
  else if upper = "LIKE".toList then some .like
  else if upper = "IN".toList then some .member
  else none

/-- Whether a word marks the place of a parameter, with or without a number. -/
def isPlaceholder : Text → Bool
  | ['?'] => true
  | '$' :: digits => !digits.isEmpty && digits.all Char.isDigit
  | _ => false

/-- Whether a character may be part of a name that is not quoted. -/
def isNameChar (c : Char) : Bool := c.isAlphanum || c = '_'

/-- Whether a text is a plain identifier, which is a name without quotes: letters, digits and
underscores, no digit in front, and no key word. -/
def isPlain : Text → Bool
  | [] => false
  | c :: t => !c.isDigit && (c :: t).all isNameChar && (keyword? (c :: t)).isNone

theorem isBlank_of_isNameChar {c : Char} (h : isNameChar c = true) : isBlank c = false := by
  have hn : c.val.toNat = c.toNat := rfl
  have hrange : 48 ≤ c.toNat ∧ c.toNat ≤ 57 ∨ 65 ≤ c.toNat ∧ c.toNat ≤ 90 ∨ c.toNat = 95 ∨
      97 ≤ c.toNat ∧ c.toNat ≤ 122 := by
    have hranges : isNameChar c = (decide (c.val ≥ 'A'.val ∧ c.val ≤ 'Z'.val)
        || (c.val ≥ 'a'.val && c.val ≤ 'z'.val) || (c.val ≥ '0'.val && c.val ≤ '9'.val)
        || c = '_') := rfl
    rw [hranges] at h
    simp only [Bool.or_eq_true, Bool.and_eq_true, decide_eq_true_eq, ge_iff_le,
      UInt32.le_iff_toNat_le] at h
    rcases h with ((h | h) | h) | rfl
    · exact .inr (.inl h)
    · exact .inr (.inr (.inr h))
    · exact .inl h
    · exact .inr (.inr (.inl rfl))
  simp only [isBlank, Bool.or_eq_false_iff, Bool.and_eq_false_iff, decide_eq_false_iff_not]
  omega

/-- The word that stands without quotes. -/
def Word.ofBare (t : Text) : Word :=
  match keyword? t with
  | some k => .keyword k
  | none => if isPlaceholder t then .placeholder else if isPlain t then .name t else .other t

theorem Word.ofBare_of_isPlain {t : Text} (h : isPlain t = true) : ofBare t = .name t := by
  cases t with
  | nil => simp [isPlain] at h
  | cons c t =>
    have hk : keyword? (c :: t) = none := by simp_all [isPlain]
    have hp : isPlaceholder (c :: t) = false := by
      refine Bool.eq_false_iff.2 fun hp => ?_
      have hc : isNameChar c = true := by simp_all [isPlain]
      unfold isPlaceholder at hp
      split at hp
      · next heq =>
        obtain ⟨rfl, -⟩ := List.cons.inj heq
        exact absurd hc (by decide)
      · next heq =>
        obtain ⟨rfl, -⟩ := List.cons.inj heq
        exact absurd hc (by decide)
      · cases hp
    simp [ofBare, hk, hp, h]

theorem Word.ofBare_placeholder (d : Dialect) (n : Nat) :
    ofBare (d.placeholder n) = .placeholder := by
  cases d with
  | generic | mySql => rfl
  | postgres =>
    have hdigits : (Text.ofNat (n + 1)).all Char.isDigit = true :=
      List.all_eq_true.2 fun c hc => Nat.isDigit_of_mem_toDigits (by decide) (by decide) hc
    have hne : (Text.ofNat (n + 1)).isEmpty = false := by
      simp [Text.ofNat]
    have hk : keyword? ('$' :: Text.ofNat (n + 1)) = none := by
      simp [keyword?]
    simp [ofBare, Dialect.placeholder, hk, isPlaceholder, hdigits, hne]

/-! ## The machine -/

/-- Whether a character is punctuation. -/
def isMark (c : Char) : Bool := c = '(' || c = ')' || c = ','

/-- Whether a character is part of the sign of a comparison. -/
def isSign (c : Char) : Bool := c = '=' || c = '<' || c = '>' || c = '!'

/-- Whether a character is part of a word without quotes, where names are quoted with `q?`. -/
def isBare (q? : Option Char) (c : Char) : Bool :=
  !isBlank c && !isMark c && !isSign c && q? ≠ some c

/-- The word that is being read. A quoted name may end at the quote that was read last, or go on
behind it if it is doubled. -/
inductive Pending
  | none
  | bare (t : Text)
  | sign (t : Text)
  | quoted (t : Text)
  | closing (t : Text)
  deriving DecidableEq, Repr

/-- The words read so far and the one that is being read. -/
structure Lexer where
  words : List Word
  pending : Pending
  deriving DecidableEq, Repr

namespace Lexer

/-- Begins a word behind complete ones. -/
def start (q? : Option Char) (ws : List Word) (c : Char) : Lexer :=
  if isBlank c then ⟨ws, .none⟩
  else if isMark c then ⟨ws ++ [.mark c], .none⟩
  else if isSign c then ⟨ws, .sign [c]⟩
  else if q? = some c then ⟨ws, .quoted []⟩
  else ⟨ws, .bare [c]⟩

/-- Reads a character. -/
def step (q? : Option Char) : Lexer → Char → Lexer
  | ⟨ws, .none⟩, c => start q? ws c
  | ⟨ws, .bare t⟩, c =>
    if isBare q? c then ⟨ws, .bare (t ++ [c])⟩ else start q? (ws ++ [.ofBare t]) c
  | ⟨ws, .sign t⟩, c =>
    if isSign c then ⟨ws, .sign (t ++ [c])⟩ else start q? (ws ++ [.sign t]) c
  | ⟨ws, .quoted t⟩, c => if q? = some c then ⟨ws, .closing t⟩ else ⟨ws, .quoted (t ++ [c])⟩
  | ⟨ws, .closing t⟩, c =>
    if q? = some c then ⟨ws, .quoted (t ++ [c])⟩ else start q? (ws ++ [.name t]) c

/-- Reads a text. -/
def run (q? : Option Char) (l : Lexer) (t : Text) : Lexer := t.foldl (step q?) l

/-- All words, if the text may end here: not inside quotes. -/
def finish : Lexer → Option (List Word)
  | ⟨ws, .none⟩ => some ws
  | ⟨ws, .bare t⟩ => some (ws ++ [.ofBare t])
  | ⟨ws, .sign t⟩ => some (ws ++ [.sign t])
  | ⟨_, .quoted _⟩ => none
  | ⟨ws, .closing t⟩ => some (ws ++ [.name t])

end Lexer

/-- The words of SQL text. -/
def words? (d : Dialect) (sql : Text) : Option (List Word) :=
  (Lexer.run d.quoteChar? ⟨[], .none⟩ sql).finish

example : words? .postgres "NOT \"a\"\"b\" = $12".toList =
    some [.keyword .not, .name "a\"b".toList, .sign ['='], .placeholder] := by
  decide +kernel

namespace Lexer

variable {d : Dialect} {q? : Option Char} {s t : Text} {ws : List Word} {c : Char}

theorem run_append (l : Lexer) (s t : Text) : run q? l (s ++ t) = run q? (run q? l s) t :=
  List.foldl_append

theorem run_cons (l : Lexer) (c : Char) (t : Text) : run q? l (c :: t) = run q? (step q? l c) t :=
  rfl

/-- A character that goes on with no word begins the next one. -/
theorem step_of_finish {l : Lexer} (h : l.finish = some ws) (hb : isBare q? c = false)
    (hs : isSign c = false) (hq : q? ≠ some c) : step q? l c = start q? ws c := by
  obtain ⟨us, pending⟩ := l
  cases pending with
  | quoted t => cases h
  | none | bare t | sign t | closing t =>
    obtain rfl := Option.some.inj h
    simp [step, hb, hs, hq]

/-! ## Words without quotes -/

theorem start_of_isBare (h : isBare q? c = true) : start q? ws c = ⟨ws, .bare [c]⟩ := by
  simp only [isBare, Bool.and_eq_true, Bool.not_eq_true', decide_eq_true_eq] at h
  simp [start, h]

theorem isBare_of_isNameChar (d : Dialect) (h : isNameChar c = true) :
    isBare d.quoteChar? c = true := by
  have hne : ∀ x, isNameChar x = false → c ≠ x := by
    rintro x hx rfl
    simp [h] at hx
  have hmark : isMark c = false := by
    simp [isMark, hne '(' (by decide), hne ')' (by decide), hne ',' (by decide)]
  have hsign : isSign c = false := by
    simp [isSign, hne '=' (by decide), hne '<' (by decide), hne '>' (by decide),
      hne '!' (by decide)]
  have hq : d.quoteChar? ≠ some c := by
    cases d <;> simp [Dialect.quoteChar?, Ne.symm (hne '"' (by decide)),
      Ne.symm (hne '\x60' (by decide))]
  simp [isBare, hmark, hsign, hq, isBlank_of_isNameChar h]

theorem all_isBare (d : Dialect) (h : t.all isNameChar = true) :
    t.all (isBare d.quoteChar?) = true := by
  rw [List.all_eq_true] at h ⊢
  intro c hc
  exact isBare_of_isNameChar d (h c hc)

theorem run_bare (h : t.all (isBare q?) = true) (held : Text) :
    run q? ⟨ws, .bare held⟩ t = ⟨ws, .bare (held ++ t)⟩ := by
  induction t generalizing held with
  | nil => simp [run]
  | cons c t ih =>
    rw [List.all_cons, Bool.and_eq_true] at h
    rw [run_cons, step, if_pos h.1, ih h.2, List.append_assoc, List.singleton_append]

theorem start_of_isSign (h : isSign c = true) : start q? ws c = ⟨ws, .sign [c]⟩ := by
  have hc : isBlank c = false ∧ isMark c = false := by
    simp only [isSign, Bool.or_eq_true, decide_eq_true_eq] at h
    rcases h with ((rfl | rfl) | rfl) | rfl <;> decide
  simp [start, hc, h]

theorem run_sign (h : t.all isSign = true) (held : Text) :
    run q? ⟨ws, .sign held⟩ t = ⟨ws, .sign (held ++ t)⟩ := by
  induction t generalizing held with
  | nil => simp [run]
  | cons c t ih =>
    rw [List.all_cons, Bool.and_eq_true] at h
    rw [run_cons, step, if_pos h.1, ih h.2, List.append_assoc, List.singleton_append]

/-! ## Quoted names -/

/-- Inside quotes a doubled quote is one, and a single one may be the last. -/
theorem run_quoted (q : Char) (t held : Text) :
    run (some q) ⟨ws, .quoted held⟩ (Text.replace q [q, q] t ++ [q]) =
      ⟨ws, .closing (held ++ t)⟩ := by
  induction t generalizing held with
  | nil => simp [Text.replace, run, step]
  | cons c t ih =>
    by_cases hc : c = q
    · subst hc
      rw [Text.replace_cons_self, List.append_assoc, List.cons_append, List.singleton_append,
        run_cons, run_cons]
      simp [step, ih]
    · have hc' : ¬ some q = some c := fun h => hc (Option.some.inj h).symm
      rw [Text.replace_cons_of_ne hc, List.cons_append, run_cons, step, if_neg hc', ih]
      simp

/-! ## Text that ends with a word

`words? d s = some ws` says that `s` may end where it ends; `Settled` says besides that its last
word is complete, so whatever follows begins a new one. -/

/-- The words of a text behind which a new word begins. -/
def Settled (d : Dialect) (s : Text) (ws : List Word) : Prop :=
  run d.quoteChar? ⟨[], .none⟩ s = ⟨ws, .none⟩

theorem settled_nil (d : Dialect) : Settled d [] [] := rfl

theorem Settled.words? (h : Settled d s ws) : words? d s = some ws := by
  rw [Sql.words?, h, finish]

theorem settled_append (h : words? d s = some ws) (hb : isBare d.quoteChar? c = false)
    (hs : isSign c = false) (hq : d.quoteChar? ≠ some c) (us : List Word)
    (hstart : start d.quoteChar? ws c = ⟨us, .none⟩) : Settled d (s ++ [c]) us := by
  rw [Settled, run_append, run_cons, step_of_finish h hb hs hq, hstart]
  rfl

theorem settled_space (h : words? d s = some ws) : Settled d (s ++ [' ']) ws := by
  refine settled_append h ?_ rfl ?_ _ rfl
  · simp [isBare, isBlank]
  · cases d <;> simp [Dialect.quoteChar?]

theorem settled_mark (h : words? d s = some ws) (hc : isMark c = true) :
    Settled d (s ++ [c]) (ws ++ [.mark c]) := by
  simp only [isMark, Bool.or_eq_true, decide_eq_true_eq] at hc
  refine settled_append h ?_ ?_ ?_ _ ?_
  · rcases hc with (rfl | rfl) | rfl <;> simp [isBare, isMark]
  · rcases hc with (rfl | rfl) | rfl <;> rfl
  · rcases hc with (rfl | rfl) | rfl <;> cases d <;> simp [Dialect.quoteChar?]
  · rcases hc with (rfl | rfl) | rfl <;> rfl

theorem Settled.bare (h : Settled d s ws) (hne : t ≠ []) (ht : t.all (isBare d.quoteChar?) = true) :
    Sql.words? d (s ++ t) = some (ws ++ [.ofBare t]) := by
  cases t with
  | nil => exact absurd rfl hne
  | cons c t =>
    rw [List.all_cons, Bool.and_eq_true] at ht
    rw [Sql.words?, run_append, h, run_cons, step, start_of_isBare ht.1, run_bare ht.2]
    rfl

theorem Settled.sign (h : Settled d s ws) (hne : t ≠ []) (ht : t.all isSign = true) :
    Sql.words? d (s ++ t) = some (ws ++ [.sign t]) := by
  cases t with
  | nil => exact absurd rfl hne
  | cons c t =>
    rw [List.all_cons, Bool.and_eq_true] at ht
    rw [Sql.words?, run_append, h, run_cons, step, start_of_isSign ht.1, run_sign ht.2]
    rfl

/-- A word between blanks. -/
theorem settled_bare (h : words? d s = some ws) (hne : t ≠ []) (ht : t.all isNameChar = true) :
    Settled d (s ++ ' ' :: (t ++ [' '])) (ws ++ [.ofBare t]) := by
  have := settled_space ((settled_space h).bare hne (all_isBare d ht))
  simpa using this

/-- A sign between blanks. -/
theorem settled_sign (h : words? d s = some ws) (hne : t ≠ []) (ht : t.all isSign = true) :
    Settled d (s ++ ' ' :: (t ++ [' '])) (ws ++ [.sign t]) := by
  have := settled_space ((settled_space h).sign hne ht)
  simpa using this

/-- A column is one word, quoted or not. -/
theorem Settled.column {column : Text} (h : Settled d s ws)
    (hplain : d.quoteChar? = none → isPlain column = true) :
    Sql.words? d (s ++ d.quote column) = some (ws ++ [.name column]) := by
  cases hq : d.quoteChar? with
  | none =>
    have hp := hplain hq
    rw [Dialect.quote, hq, ← Word.ofBare_of_isPlain hp]
    cases column with
    | nil => cases hp
    | cons c t =>
      simp only [isPlain, Bool.and_eq_true] at hp
      exact h.bare (by simp) (all_isBare d hp.1.2)
  | some q =>
    have hstart : start (some q) ws q = ⟨ws, .quoted []⟩ := by
      have hchars : isBlank q = false ∧ isMark q = false ∧ isSign q = false := by
        cases d <;> simp only [Dialect.quoteChar?, Option.some.injEq, reduceCtorEq] at hq <;>
          subst hq <;> decide
      simp [start, hchars]
    rw [Dialect.quote_eq hq, Sql.words?, run_append, h, hq, run_cons, step, hstart, run_quoted]
    rfl

theorem Settled.placeholder (h : Settled d s ws) (n : Nat) :
    Sql.words? d (s ++ d.placeholder n) = some (ws ++ [.placeholder]) := by
  have hdigits : ∀ c ∈ Text.ofNat (n + 1), c.isDigit = true := fun c hc =>
    Nat.isDigit_of_mem_toDigits (by decide) (by decide) hc
  have hbare : ∀ c ∈ Text.ofNat (n + 1), isBare d.quoteChar? c = true := fun c hc =>
    isBare_of_isNameChar d (by simp [isNameChar, Char.isAlphanum, hdigits c hc])
  have hquestion : isBare d.quoteChar? '?' = true ∧ isBare d.quoteChar? '$' = true := by
    cases d <;> decide
  rw [← Word.ofBare_placeholder d n]
  refine h.bare ?_ (List.all_eq_true.2 fun c hc => ?_)
  · cases d <;> simp [Dialect.placeholder]
  · cases d with
    | generic | mySql =>
      obtain rfl : c = '?' := by simpa [Dialect.placeholder] using hc
      exact hquestion.1
    | postgres =>
      rcases List.mem_cons.1 hc with rfl | hc
      · exact hquestion.2
      · exact hbare c hc

theorem settled_connective (h : words? d s = some ws) (c : Connective) :
    Settled d (s ++ c.sql) (ws ++ [.keyword (.connective c)]) := by
  cases c with
  | and => exact settled_bare (t := "AND".toList) h (by decide) (by decide)
  | or => exact settled_bare (t := "OR".toList) h (by decide) (by decide)

theorem Settled.not (h : Settled d s ws) :
    Settled d (s ++ "NOT ".toList) (ws ++ [.keyword .not]) := by
  have hbare := all_isBare d (t := "NOT".toList) (by decide)
  have := settled_space (h.bare (by decide) hbare)
  simpa [Word.ofBare, keyword?] using this

end Lexer

/-! ## The words of conditions -/

/-- The words that stand for a relation between a column and its parameter. -/
def relationWords : Relation → List Word
  | .equal => [.sign ['=']]
  | .notEqual => [.sign ['<', '>']]
  | .greater => [.sign ['>']]
  | .greaterOrEqual => [.sign ['>', '=']]
  | .less => [.sign ['<']]
  | .lessOrEqual => [.sign ['<', '=']]
  | .like => [.keyword .like]
  | .notLike => [.keyword .not, .keyword .like]

/-- The words of a comparison. -/
def comparisonWords (column : Text) (relation : Relation) : List Word :=
  .name column :: (relationWords relation ++ [.placeholder])

/-- Placeholders with a comma between neighbours. -/
def placeholders : Nat → List Word
  | 0 => []
  | 1 => [.placeholder]
  | n + 2 => .placeholder :: .mark ',' :: placeholders (n + 1)

/-- The words of a test whether a column is among values. -/
def memberWords (column : Text) (count : Nat) : List Word :=
  .name column :: .keyword .member :: .mark '(' :: (placeholders count ++ [.mark ')'])

namespace Condition

/-- The words of a condition. -/
def words : Condition → List Word
  | comparison column .notEqual _ => .keyword .not :: comparisonWords column .equal
  | comparison column relation _ => comparisonWords column relation
  | member column values => memberWords column values.length
  | joined c left right => left.words ++ .keyword (.connective c) :: right.words
  | group inner => .mark '(' :: (inner.words ++ [.mark ')'])

/-- The columns of a condition from left to right. -/
def columns : Condition → List Text
  | comparison column _ _ => [column]
  | member column _ => [column]
  | joined _ left right => left.columns ++ right.columns
  | group inner => inner.columns

/-- A dialect that does not quote names needs plain ones. -/
def Admits (d : Dialect) (c : Condition) : Prop :=
  d.quoteChar? = none → ∀ column ∈ c.columns, isPlain column = true

end Condition

namespace Lexer

variable {style : Style} {f : Fragment} {ws : List Word}

theorem settled_relation {d : Dialect} {s : Text} (h : words? d s = some ws) {r : Relation}
    (hr : r ≠ .notEqual) : Settled d (s ++ r.sql) (ws ++ relationWords r) := by
  have hsign : ∀ t : Text, r.sql = ' ' :: (t ++ [' ']) → t ≠ [] → t.all isSign = true →
      relationWords r = [.sign t] → Settled d (s ++ r.sql) (ws ++ relationWords r) := by
    intro t hsql hne ht hwords
    rw [hsql, hwords]
    exact settled_sign h hne ht
  cases r with
  | notEqual => exact absurd rfl hr
  | equal => exact hsign ['='] rfl (by decide) (by decide) rfl
  | greater => exact hsign ['>'] rfl (by decide) (by decide) rfl
  | greaterOrEqual => exact hsign ['>', '='] rfl (by decide) (by decide) rfl
  | less => exact hsign ['<'] rfl (by decide) (by decide) rfl
  | lessOrEqual => exact hsign ['<', '='] rfl (by decide) (by decide) rfl
  | like =>
    have hsql : Relation.like.sql = ' ' :: ("LIKE".toList ++ [' ']) := rfl
    have hword : Word.ofBare "LIKE".toList = .keyword .like := by decide
    rw [hsql, relationWords, ← hword]
    exact settled_bare h (by decide) (by decide)
  | notLike =>
    have hsql : Relation.notLike.sql = ' ' :: ("NOT".toList ++ [' ']) ++ "LIKE".toList ++ [' '] :=
      rfl
    have hwords : relationWords .notLike =
        [.ofBare "NOT".toList] ++ [.ofBare "LIKE".toList] := by
      decide
    rw [hsql, hwords, ← List.append_assoc, ← List.append_assoc, ← List.append_assoc]
    have hnot := settled_bare (t := "NOT".toList) h (by decide) (by decide)
    exact settled_space (hnot.bare (by decide) (all_isBare d (by decide)))

theorem Settled.addParams (h : Settled style.dialect f.sql ws) (values : List Value) :
    Sql.words? style.dialect (f.addParams style values).sql =
      some (ws ++ placeholders values.length) := by
  fun_induction Fragment.addParams style values f generalizing ws with
  | case1 f => simpa [placeholders] using h.words?
  | case2 v f => exact h.placeholder f.params.length
  | case3 v later f hne ih =>
    have hcomma := settled_space
      (settled_mark (c := ',') (h.placeholder f.params.length) rfl).words?
    cases later with
    | nil => exact absurd rfl hne
    | cons w later =>
      have hnext : Settled style.dialect ((f.addParam style v).add [',', ' ']).sql
          (ws ++ [.placeholder] ++ [.mark ',']) := by
        simpa [Fragment.addParam] using hcomma
      simpa [placeholders] using ih hnext

/-- A comparison of a column, as text and as words. -/
theorem Settled.comparison {column : Text} {r r' : Relation}
    (h : Settled style.dialect f.sql ws)
    (hplain : style.dialect.quoteChar? = none → isPlain column = true) (hsql : r.sql = r'.sql)
    (hr : r' ≠ .notEqual) (value : Value) :
    Sql.words? style.dialect (((f.addColumn style column).add r.sql).addParam style value).sql =
      some (ws ++ comparisonWords column r') := by
  have hcolumn := h.column hplain
  have := (settled_relation hcolumn hr).placeholder (d := style.dialect)
  simpa [Fragment.addColumn, Fragment.addParam, hsql, comparisonWords] using this _

/-- A test whether a column is among values, as text and as words. -/
theorem Settled.member {column : Text} (h : Settled style.dialect f.sql ws)
    (hplain : style.dialect.quoteChar? = none → isPlain column = true) (values : List Value) :
    Sql.words? style.dialect ((Condition.member column values).renderOnto style f).sql =
      some (ws ++ memberWords column values.length) := by
  have hword := settled_bare (t := "IN".toList) (h.column hplain) (by decide) (by decide)
  have hopen : Settled style.dialect ((f.addColumn style column).add " IN (".toList).sql
      (ws ++ [.name column, .keyword .member, .mark '(']) := by
    have := settled_mark (c := '(') hword.words? rfl
    simpa [Fragment.addColumn, Word.ofBare, keyword?] using this
  have := (settled_mark (c := ')') (hopen.addParams values) rfl).words?
  simpa [Condition.renderOnto, memberWords] using this

/-- **Rendering a condition adds its words.** -/
theorem Settled.renderOnto {c : Condition} (h : Settled style.dialect f.sql ws)
    (hc : c.Admits style.dialect) :
    Sql.words? style.dialect (c.renderOnto style f).sql = some (ws ++ c.words) := by
  induction c generalizing f ws with
  | comparison column relation value =>
    have hplain : style.dialect.quoteChar? = none → isPlain column = true :=
      fun hq => hc hq column (by simp [Condition.columns])
    by_cases hr : relation = .notEqual
    · subst hr
      have hsql : Relation.notEqual.sql = Relation.equal.sql := rfl
      have := h.not.comparison (f := f.add "NOT ".toList) hplain hsql (by decide) value
      simpa [Condition.renderOnto, Condition.words] using this
    · have hsql : relation.sql = relation.sql := rfl
      have := h.comparison hplain hsql hr value
      simpa [Condition.renderOnto, Condition.words, hr] using this
  | member column values =>
    exact h.member (fun hq => hc hq column (by simp [Condition.columns])) values
  | joined c left right ihl ihr =>
    have hleft := ihl h fun hq column hmem => hc hq column (by simp [Condition.columns, hmem])
    have := ihr (f := (left.renderOnto style f).add c.sql) (settled_connective hleft c)
      fun hq column hmem => hc hq column (by simp [Condition.columns, hmem])
    simpa [Condition.renderOnto, Condition.words] using this
  | group inner ih =>
    have hopen := settled_mark h.words? (c := '(') rfl
    have hinner := ih (f := f.add ['(']) hopen hc
    have := (settled_mark hinner (c := ')') rfl).words?
    simpa [Condition.renderOnto, Condition.words] using this

end Lexer

/-- **The words of a rendered condition.** -/
theorem words?_render (style : Style) {c : Condition} (hc : c.Admits style.dialect) :
    words? style.dialect (c.render style).sql = some c.words :=
  Lexer.Settled.renderOnto (f := .empty) (Lexer.settled_nil style.dialect) hc

end RecordQuery.Sql
