import RecordQuery.Text.Basic

/-!
# Lexemes of JSON

JSON text is cut into lexemes before it is read as a document. Lexemes keep what is written: a
string is its units after escapes, which may hold halves of surrogate pairs that no character
answers to, and a number is its digits. Whether they stand for a text or a number is asked later,
and only of the parts of a document that someone uses.

No document lets two values stand side by side, so cutting first accepts nothing that reading
character by character would refuse.

## Main results

* `Lexeme.readString_length_lt`: what is left behind a string is shorter, which is why
  `Lexeme.ofText?` ends
* `StringUnit.text?_map_scalar`: characters that are not escaped stand for themselves
-/

namespace RecordQuery.Json

/-- One unit of a string: a character, or half of a surrogate pair. -/
inductive StringUnit
  | scalar (c : Char)
  | surrogate (code : Nat)
  deriving DecidableEq, Repr

/-- The digits of a number as they are written. An exponent has its sign and its digits. -/
structure Numeral where
  negative : Bool
  whole : Text
  fraction : Text
  exponent : Option (Bool × Text)
  deriving DecidableEq, Repr

/-- The smallest meaningful parts of JSON text. -/
inductive Lexeme
  | openObject
  | closeObject
  | openArray
  | closeArray
  | colon
  | comma
  | null
  | bool (value : Bool)
  | number (numeral : Numeral)
  | string (units : List StringUnit)
  deriving DecidableEq, Repr

/-! ## Strings -/

namespace StringUnit

/-- A code unit as it is escaped: a half of a surrogate pair, or a character. -/
def ofCode (code : Nat) : StringUnit :=
  if 0xD800 ≤ code && code ≤ 0xDFFF then .surrogate code else .scalar (Char.ofNat code)

/-- The text of string units. Two surrogates side by side are one character if they are a first
and a second half; any other surrogate has no text. -/
def text? : List StringUnit → Option Text
  | [] => some []
  | .scalar c :: units => (text? units).map (c :: ·)
  | .surrogate h :: .surrogate l :: units =>
    if h < 0xDC00 && 0xDC00 ≤ l then
      (text? units).map (Char.ofNat (0x10000 + (h - 0xD800) * 0x400 + (l - 0xDC00)) :: ·)
    else none
  | .surrogate _ :: _ => none

@[simp] theorem text?_map_scalar (t : Text) : text? (t.map .scalar) = some t := by
  induction t with
  | nil => rfl
  | cons c t ih => simp [text?, ih]

end StringUnit

namespace Lexeme

/-- The value of a hexadecimal digit in either case. -/
def hexValue? (c : Char) : Option Nat :=
  if '0' ≤ c && c ≤ '9' then some (c.toNat - '0'.toNat)
  else if 'a' ≤ c && c ≤ 'f' then some (c.toNat - 'a'.toNat + 10)
  else if 'A' ≤ c && c ≤ 'F' then some (c.toNat - 'A'.toNat + 10)
  else none

/-- The code of four hexadecimal digits. -/
def hexCode? (a b c d : Char) : Option Nat := do
  return (((← hexValue? a) * 16 + (← hexValue? b)) * 16 + (← hexValue? c)) * 16 + (← hexValue? d)

/-- The character that a letter behind a backslash stands for. -/
def escaped? : Char → Option Char
  | '"' => some '"'
  | '\\' => some '\\'
  | '/' => some '/'
  | 'b' => some '\x08'
  | 'f' => some '\x0c'
  | 'n' => some '\n'
  | 'r' => some '\r'
  | 't' => some '\t'
  | _ => none

/-- The units of a string up to its closing quote, and what follows it. Control characters must be
escaped. -/
def readString : Text → Option (List StringUnit × Text)
  | [] => none
  | '"' :: t => some ([], t)
  | '\\' :: 'u' :: a :: b :: c :: d :: t =>
    match hexCode? a b c d with
    | none => none
    | some code => (readString t).map fun (units, rest) => (.ofCode code :: units, rest)
  | '\\' :: e :: t =>
    match escaped? e with
    | none => none
    | some c => (readString t).map fun (units, rest) => (.scalar c :: units, rest)
  | c :: t =>
    if c.toNat < 0x20 || c = '\\' then none
    else (readString t).map fun (units, rest) => (.scalar c :: units, rest)

theorem readString_length_lt {t rest : Text} {units : List StringUnit}
    (h : readString t = some (units, rest)) : rest.length < t.length := by
  fun_induction readString t generalizing units with
  | case1 => simp at h
  | case2 t => simp_all
  | case3 => simp at h
  | case4 a b c d t code hc ih =>
    obtain ⟨⟨u, r⟩, hr, he⟩ := Option.map_eq_some_iff.1 h
    obtain ⟨rfl, rfl⟩ := Prod.mk.inj he
    have := ih hr
    simp only [List.length_cons]
    omega
  | case5 => simp at h
  | case6 e t _ c hc ih =>
    obtain ⟨⟨u, r⟩, hr, he⟩ := Option.map_eq_some_iff.1 h
    obtain ⟨rfl, rfl⟩ := Prod.mk.inj he
    have := ih hr
    simp only [List.length_cons]
    omega
  | case7 => simp at h
  | case8 c t _ _ _ _ ih =>
    obtain ⟨⟨u, r⟩, hr, he⟩ := Option.map_eq_some_iff.1 h
    obtain ⟨rfl, rfl⟩ := Prod.mk.inj he
    have := ih hr
    simp only [List.length_cons]
    omega

/-! ## Numbers

A number ends where a character follows that no number has. Such a character is needed anyway
before the next value, so taking the longest run of number characters and reading it as a whole
loses nothing. -/

/-- The characters that occur in numbers. -/
def isNumberChar (c : Char) : Bool :=
  c.isDigit || c = '-' || c = '+' || c = '.' || c = 'e' || c = 'E'

/-- A sign and digits, at least one: what may follow the `e` of a number. -/
def exponent? (t : Text) : Option (Bool × Text) :=
  let (negative, digits) := match t with
    | '-' :: t => (true, t)
    | '+' :: t => (false, t)
    | t => (false, t)
  if digits.isEmpty || !digits.all Char.isDigit then none else some (negative, digits)

/-- An unsigned number: no zero in front of another digit, a digit on either side of a point, and
nothing after it. -/
def unsigned? (negative : Bool) (t : Text) : Option Numeral := do
  let whole := t.takeWhile Char.isDigit
  guard (!whole.isEmpty && (whole.head? ≠ some '0' || whole.length = 1))
  let (fraction, rest) ← match t.dropWhile Char.isDigit with
    | '.' :: r =>
      let digits := r.takeWhile Char.isDigit
      if digits.isEmpty then none else some (digits, r.dropWhile Char.isDigit)
    | r => some ([], r)
  match rest with
  | [] => some ⟨negative, whole, fraction, none⟩
  | 'e' :: r | 'E' :: r => (exponent? r).map fun e => ⟨negative, whole, fraction, some e⟩
  | _ => none

/-- A number with an optional minus sign. -/
def numeral? : Text → Option Numeral
  | '-' :: t => unsigned? true t
  | t => unsigned? false t

/-! ## The whole text -/

/-- The characters that may stand between lexemes. -/
def isSpace (c : Char) : Bool := c = ' ' || c = '\n' || c = '\r' || c = '\t'

/-- The lexemes of a text. -/
def ofText? : Text → Option (List Lexeme)
  | [] => some []
  | '\x7b' :: t => (ofText? t).map (openObject :: ·)
  | '\x7d' :: t => (ofText? t).map (closeObject :: ·)
  | '[' :: t => (ofText? t).map (openArray :: ·)
  | ']' :: t => (ofText? t).map (closeArray :: ·)
  | ':' :: t => (ofText? t).map (colon :: ·)
  | ',' :: t => (ofText? t).map (comma :: ·)
  | 'n' :: 'u' :: 'l' :: 'l' :: t => (ofText? t).map (null :: ·)
  | 't' :: 'r' :: 'u' :: 'e' :: t => (ofText? t).map (bool true :: ·)
  | 'f' :: 'a' :: 'l' :: 's' :: 'e' :: t => (ofText? t).map (bool false :: ·)
  | '"' :: t =>
    match _h : readString t with
    | none => none
    | some (units, rest) => (ofText? rest).map (string units :: ·)
  | c :: t =>
    if isSpace c then ofText? t
    else if isNumberChar c then
      match numeral? (c :: t.takeWhile isNumberChar) with
      | none => none
      | some n => (ofText? (t.dropWhile isNumberChar)).map (number n :: ·)
    else none
termination_by t => t.length
decreasing_by
  all_goals simp only [List.length_cons]
  all_goals try omega
  · have := readString_length_lt _h
    omega
  · have hsub : List.Sublist (t.dropWhile isNumberChar) t := List.dropWhile_sublist isNumberChar
    have := hsub.length_le
    omega

end Lexeme

end RecordQuery.Json
