import Stepbook.Expression.SyntaxError
import Stepbook.Text.Basic

/-! # Tokens of expressions

An expression consists of literal text, runs of blanks, placeholders `{name}`, optional texts
`(text)` and separators `/`. A backslash takes the meaning from the character after it.

* `Token`: the tokens; offsets count bytes from the start of the expression.
* `Mode`: what has been read of a token that is not complete yet.
* `Mode.step`, `Mode.finish`: reading one character, and the end of the expression.
* `tokens`: the tokens of an expression.
-/

namespace Stepbook.Expression
set_option autoImplicit false

inductive Token where
  | text (chars : List Char)
  | blank (chars : List Char)
  /-- `start` is the offset of the opening brace. -/
  | parameter (start : Nat) (name : List Char)
  /-- `start` is the offset of the opening parenthesis. -/
  | optional (start : Nat) (text : List Char)
  | separator (offset : Nat)
  deriving DecidableEq, Repr

/-! ## Reading character by character -/

inductive Mode where
  | between
  | text (chars : List Char)
  | blank (chars : List Char)
  /-- After a backslash that follows `chars`. -/
  | escape (chars : List Char)
  | parameter (start : Nat) (name : List Char)
  | optional (start : Nat) (text : List Char)
  /-- After a backslash in an optional text. -/
  | optionalEscape (start : Nat) (text : List Char)
  deriving DecidableEq, Repr

namespace Mode

/-- The token that is complete once a character of another kind follows. -/
def pending : Mode → List Token
  | .text chars => [.text chars]
  | .blank chars => [.blank chars]
  | _ => []

/-- The literal text that a further literal character continues. -/
def literal : Mode → List Char
  | .text chars => chars
  | _ => []

/-- The tokens that a further literal character completes. -/
def beforeLiteral : Mode → List Token
  | .blank chars => [.blank chars]
  | _ => []

/-- A character outside of placeholders and optional texts. -/
def stepOutside (mode : Mode) (offset : Nat) (c : Char) : Except SyntaxError (List Token × Mode) :=
  match c with
  | '\\' => .ok (mode.beforeLiteral, .escape mode.literal)
  | '{' => .ok (mode.pending, .parameter offset [])
  | '(' => .ok (mode.pending, .optional offset [])
  | '/' => .ok (mode.pending ++ [.separator offset], .between)
  | '}' => .error ⟨.unmatchedBrace, offset, none⟩
  | ')' => .error ⟨.unmatchedParenthesis, offset, none⟩
  | c =>
    if Text.isBlank c then
      match mode with
      | .blank chars => .ok ([], .blank (chars ++ [c]))
      | mode => .ok (mode.pending, .blank [c])
    else .ok (mode.beforeLiteral, .text (mode.literal ++ [c]))

/-- The tokens that a character completes, and what is read of the next one. -/
def step (mode : Mode) (offset : Nat) (c : Char) : Except SyntaxError (List Token × Mode) :=
  match mode with
  | .escape chars => .ok ([], .text (chars ++ [c]))
  | .parameter start name =>
    match c with
    | '}' => .ok ([.parameter start name], .between)
    | '{' => .error ⟨.nestedParameterBrace, offset, some name⟩
    | c => .ok ([], .parameter start (name ++ [c]))
  | .optional start chars =>
    match c with
    | '\\' => .ok ([], .optionalEscape start chars)
    | ')' =>
      if chars.isEmpty then .error ⟨.emptyOptional, start, none⟩
      else .ok ([.optional start chars], .between)
    | '{' => .error ⟨.optionalParameter, offset, some chars⟩
    | '(' => .error ⟨.nestedOptional, offset, some chars⟩
    | c => .ok ([], .optional start (chars ++ [c]))
  | .optionalEscape start chars => .ok ([], .optional start (chars ++ [c]))
  | mode => mode.stepOutside offset c

/-- At the end a lone backslash stands for itself. -/
def finish : Mode → Except SyntaxError (List Token)
  | .escape chars => .ok [.text (chars ++ ['\\'])]
  | .parameter start name => .error ⟨.unterminatedParameter, start, some name⟩
  | .optional start chars => .error ⟨.unterminatedOptional, start, some chars⟩
  | .optionalEscape start chars => .error ⟨.unterminatedOptional, start, some (chars ++ ['\\'])⟩
  | mode => .ok mode.pending

/-- The tokens of `rest`, which starts at `offset`. -/
def run (mode : Mode) (offset : Nat) : List Char → Except SyntaxError (List Token)
  | [] => mode.finish
  | c :: rest =>
    match mode.step offset c with
    | .error error => .error error
    | .ok (complete, next) =>
      match next.run (offset + c.utf8Size) rest with
      | .error error => .error error
      | .ok tokens => .ok (complete ++ tokens)

end Mode

def tokens (expression : List Char) : Except SyntaxError (List Token) :=
  Mode.between.run 0 expression

end Stepbook.Expression
