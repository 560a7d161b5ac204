import Stepbook.Expression.Part
import Stepbook.Regex.Escape

/-! # Patterns of expressions

The pattern of an expression is a regular expression that matches exactly the texts that the
expression stands for; each placeholder is one capture group.

* `Pattern`: the pattern of an expression and the types of its placeholders, in order.
* `Pattern.ofExpression`: the pattern of an expression, if it is well formed.
-/

namespace Stepbook.Expression
set_option autoImplicit false

/-! ## Patterns of parts -/

def Piece.pattern : Piece → List Char
  | .text chars => Regex.escape chars
  | .optional _ chars => "(?:".toList ++ Regex.escape chars ++ ")?".toList

def branchPattern (branch : Branch) : List Char :=
  branch.flatMap Piece.pattern

def choicePattern : List Branch → List Char
  | [] => []
  | [single] => branchPattern single
  | first :: rest => branchPattern first ++ '|' :: choicePattern rest

def Segment.pattern (segment : Segment) : List Char :=
  match segment.closed with
  | [] => branchPattern segment.last
  | _ => "(?:".toList ++ choicePattern segment.branches ++ [')']

def Part.pattern : Part → List Char
  | .blank chars => Regex.escape chars
  | .parameter type => '(' :: type.pattern.toList ++ [')']
  | .segment choice => choice.pattern

/-! ## Patterns of expressions -/

structure Pattern where
  source : List Char
  parameters : List ParameterType
  deriving DecidableEq, Repr

/-- The whole text has to match. -/
def anchored (parts : List Part) : List Char :=
  '^' :: parts.flatMap Part.pattern ++ ['$']

def Pattern.ofExpression (expression : List Char) : Except SyntaxError Pattern := do
  let tokens ← tokens expression
  let parts ← parts tokens
  return ⟨anchored parts, Part.parameters parts⟩

end Stepbook.Expression
