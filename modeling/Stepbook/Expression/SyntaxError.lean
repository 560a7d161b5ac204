/-! # Malformed expressions

* `SyntaxError.Kind`: the rules that an expression can break, with `name` and `description`.
* `SyntaxError`: the rule that was broken, and where.
-/

namespace Stepbook.Expression
set_option autoImplicit false

inductive SyntaxError.Kind where
  | unknownParameterType
  | unterminatedParameter
  | nestedParameterBrace
  | unmatchedBrace
  | unmatchedParenthesis
  | unterminatedOptional
  | emptyOptional
  | nestedOptional
  | optionalParameter
  | emptyAlternative
  | optionalOnlyAlternative
  deriving DecidableEq, Repr

namespace SyntaxError.Kind

def all : List SyntaxError.Kind :=
  [.unknownParameterType, .unterminatedParameter, .nestedParameterBrace, .unmatchedBrace,
   .unmatchedParenthesis, .unterminatedOptional, .emptyOptional, .nestedOptional,
   .optionalParameter, .emptyAlternative, .optionalOnlyAlternative]

def name : SyntaxError.Kind → String
  | .unknownParameterType => "UnknownParameterType"
  | .unterminatedParameter => "UnterminatedParameter"
  | .nestedParameterBrace => "NestedParameterBrace"
  | .unmatchedBrace => "UnmatchedBrace"
  | .unmatchedParenthesis => "UnmatchedParenthesis"
  | .unterminatedOptional => "UnterminatedOptional"
  | .emptyOptional => "EmptyOptional"
  | .nestedOptional => "NestedOptional"
  | .optionalParameter => "OptionalParameter"
  | .emptyAlternative => "EmptyAlternative"
  | .optionalOnlyAlternative => "OptionalOnlyAlternative"

def description : SyntaxError.Kind → String
  | .unknownParameterType => "unknown parameter type"
  | .unterminatedParameter => "missing closing '\x7d' for parameter"
  | .nestedParameterBrace => "parameter names may not contain '\x7b'"
  | .unmatchedBrace => "unmatched closing brace '\x7d' in step expression"
  | .unmatchedParenthesis => "unmatched closing parenthesis ')' in step expression"
  | .unterminatedOptional => "missing closing ')' for optional text"
  | .emptyOptional => "optional text may not be empty"
  | .nestedOptional => "optional text may not be nested"
  | .optionalParameter => "parameter types cannot be optional"
  | .emptyAlternative => "alternative may not be empty"
  | .optionalOnlyAlternative => "alternative may not be exclusively optional"

end SyntaxError.Kind

structure SyntaxError where
  kind : SyntaxError.Kind
  /-- The offset in bytes where the problem starts. -/
  position : Nat
  /-- The name or the optional text in question, if there is one. -/
  fragment : Option (List Char)
  deriving DecidableEq, Repr

def SyntaxError.message (error : SyntaxError) : String :=
  let fragment := match error.fragment with
    | some fragment => " `" ++ String.ofList fragment ++ "`"
    | none => ""
  error.kind.description ++ fragment ++ " at byte " ++ toString error.position

end Stepbook.Expression
