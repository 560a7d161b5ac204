import Stepbook.Expression.Pattern
import Stepbook.Regex.Match
import Stepbook.Regex.Reader

/-! # Compiled expressions

* `Compiled`: an expression that is ready to be matched.
* `compile`: the compiled form of an expression.
* `Compiled.captures?`: the texts that the placeholders capture.
* `Compiled.match?`: the values of the placeholders.
-/

namespace Stepbook.Expression
set_option autoImplicit false

structure Compiled where
  source : List Char
  regex : Regex
  parameters : List ParameterType
  deriving DecidableEq, Repr

/-- Why a pattern cannot be compiled. -/
inductive PatternError where
  | malformed (error : SyntaxError)
  /-- The regular expression is not well formed. -/
  | regex
  deriving DecidableEq, Repr

def compile (expression : List Char) : Except PatternError Compiled :=
  match Pattern.ofExpression expression with
  | .error error => .error (.malformed error)
  | .ok pattern =>
    match Regex.read? pattern.source with
    | some regex => .ok ⟨pattern.source, regex, pattern.parameters⟩
    | none => .error .regex

namespace Compiled

def captures? (expression : Compiled) (text : List Char) : Option (List (List Char)) :=
  expression.regex.captures? text

/-- The values of captured texts, or the first of the texts that has none. -/
def coerceAll : List (List Char × ParameterType) → Except CoercionError (List Value)
  | [] => .ok []
  | (captured, type) :: rest => do
    let value ← type.coerce captured
    let values ← coerceAll rest
    return value :: values

def match? (expression : Compiled) (text : List Char) :
    Except CoercionError (Option (List Value)) :=
  match expression.captures? text with
  | none => .ok none
  | some captured => (coerceAll (captured.zip expression.parameters)).map some

end Compiled

end Stepbook.Expression
