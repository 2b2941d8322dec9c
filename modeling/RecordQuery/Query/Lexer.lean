import RecordQuery.Query.Token

/-!
# Lexers

A lexer is used for one text after the other. It collects the tokens of a text as they are found and
keeps them until the next text comes, when it forgets them first. So a text is cut as if the lexer
were new.

## Main results

* `Lexer.tokenize_fst`, `Lexer.tokenizeAll_fst`: what a lexer gives for a text, and for texts one
  after the other
-/

namespace RecordQuery

/-- A lexer, with the tokens that it has collected. -/
structure Lexer where
  tokens : List Token := []
  deriving DecidableEq, Repr

namespace Lexer

/-- Forgets the tokens. -/
def clear (lexer : Lexer) : Lexer := { lexer with tokens := [] }

/-- Collects one token. -/
def push (lexer : Lexer) (t : Token) : Lexer := { lexer with tokens := lexer.tokens ++ [t] }

/-- Cuts a text: its tokens, and the lexer that is left. -/
def tokenize (lexer : Lexer) (text : Text) : List Token × Lexer :=
  let read := (Token.ofText text).foldl push lexer.clear
  (read.tokens, read)

/-- Cuts texts one after the other. -/
def tokenizeAll (lexer : Lexer) : List Text → List (List Token) × Lexer
  | [] => ([], lexer)
  | text :: later =>
    let read := lexer.tokenize text
    let rest := read.2.tokenizeAll later
    (read.1 :: rest.1, rest.2)

theorem tokens_foldl_push (lexer : Lexer) (tokens : List Token) :
    (tokens.foldl push lexer).tokens = lexer.tokens ++ tokens := by
  induction tokens generalizing lexer with
  | nil => simp
  | cons t tokens ih => simp [ih, push]

theorem tokenize_fst (lexer : Lexer) (text : Text) :
    (lexer.tokenize text).1 = Token.ofText text := by
  rw [tokenize, tokens_foldl_push]
  rfl

theorem tokenizeAll_fst (lexer : Lexer) (texts : List Text) :
    (lexer.tokenizeAll texts).1 = texts.map Token.ofText := by
  induction texts generalizing lexer with
  | nil => rfl
  | cons text later ih => rw [tokenizeAll, List.map_cons, tokenize_fst, ih]

end Lexer

end RecordQuery
