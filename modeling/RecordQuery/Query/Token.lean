import RecordQuery.Query.Operator
import RecordQuery.Text.Blank

/-!
# Tokens

Query text is cut at `&&`, `||`, `(` and `)` and nowhere else; what stands between them are
fragments, each the text of one comparison. The cut looks at nothing but these symbols, so a
literal that holds one of them is cut too. A fragment that is blank is dropped, and any other one
keeps the blanks around it.

## Positions

A token knows the byte offset at which it starts. Its lexeme is the text of its kind, so the offset
at which it ends is computed and not stored.
-/

namespace RecordQuery

/-- What a token is. -/
inductive TokenKind
  | connective (c : Connective)
  | leftParen
  | rightParen
  | fragment (text : Text)
  deriving DecidableEq, Repr

/-- The text of a kind of token. -/
def TokenKind.text : TokenKind → Text
  | connective c => c.symbol
  | leftParen => ['(']
  | rightParen => [')']
  | fragment text => text

/-- A kind of token at a byte offset. -/
structure Token where
  kind : TokenKind
  start : Nat
  deriving DecidableEq, Repr

namespace Token

/-- The part of the text that the token covers. -/
def lexeme (t : Token) : Text := t.kind.text

/-- The byte offset behind the token. -/
def stop (t : Token) : Nat := t.start + t.lexeme.byteLength

/-- The fragment that starts at an offset, unless it is blank. -/
def fragments (text : Text) (start : Nat) : List Token :=
  if text.isBlank then [] else [⟨.fragment text, start⟩]

/-- Reads on behind the text `held`, given in reverse, which started at `start` and has met no
delimiter yet. -/
def scan (start : Nat) (held : Text) : Text → List Token
  | [] => fragments held.reverse start
  | '&' :: '&' :: t => cut start held (.connective .and) ++ scan (after start held 2) [] t
  | '|' :: '|' :: t => cut start held (.connective .or) ++ scan (after start held 2) [] t
  | '(' :: t => cut start held .leftParen ++ scan (after start held 1) [] t
  | ')' :: t => cut start held .rightParen ++ scan (after start held 1) [] t
  | c :: t => scan start (c :: held) t
where
  /-- The held fragment and the delimiter behind it. -/
  cut (start : Nat) (held : Text) (delimiter : TokenKind) : List Token :=
    fragments held.reverse start ++ [⟨delimiter, start + held.byteLength⟩]
  /-- The offset behind a delimiter of `size` bytes that follows the held text. -/
  after (start : Nat) (held : Text) (size : Nat) : Nat := start + held.byteLength + size

/-- The tokens of a text. -/
def ofText (text : Text) : List Token := scan 0 [] text

end Token

/-- The kinds of the tokens of a text, which is all that parsing needs. -/
def TokenKind.ofText (text : Text) : List TokenKind := (Token.ofText text).map Token.kind

end RecordQuery
