import Stepbook.Definition
import Stepbook.Expression.Compiled
import Stepbook.Log

/-! # Matchers

A matcher is a definition whose pattern has been compiled. A regular expression is searched for
anywhere in a text and yields the texts of its groups; an expression has to match a whole text and
yields the values of its placeholders.

* `StepPattern`: a pattern that a step is registered with.
* `Matcher.compile`, `Matcher.ofPattern`: the matcher of a definition, or of a pattern.
* `Matcher.arguments`: what a text is matched with.
* `Matcher.test`: the arguments that a text is matched with, where a capture without a value counts
  as no match.
-/

namespace Stepbook
set_option autoImplicit false

inductive CompiledPattern where
  | regex (compiled : Regex)
  | expression (compiled : Expression.Compiled)
  deriving DecidableEq, Repr

/-- What a step is registered with in code: a text is an expression. -/
inductive StepPattern where
  | expression (text : String)
  /-- A regular expression that has been compiled from its source. -/
  | regex (source : String) (compiled : Regex)
  deriving DecidableEq, Repr

structure Matcher where
  definition : Definition
  compiled : CompiledPattern
  deriving DecidableEq, Repr

/-- A definition whose pattern cannot be compiled. -/
structure DefinitionError where
  pattern : String
  variant : Variant
  cause : Expression.PatternError
  deriving DecidableEq, Repr

namespace DefinitionError

/-- The message of what is wrong with a pattern. -/
def causeMessage : Expression.PatternError → String
  | .malformed error => error.message
  | .regex => "<regex error>"

def message (error : DefinitionError) : String :=
  "failed to compile " ++ error.variant.name ++ " step pattern '" ++ error.pattern ++ "': " ++
    causeMessage error.cause

end DefinitionError

namespace CompiledPattern

def compile (variant : Variant) (pattern : List Char) :
    Except Expression.PatternError CompiledPattern :=
  match variant with
  | .regex =>
    match Regex.read? pattern with
    | some compiled => .ok (.regex compiled)
    | none => .error .regex
  | .expression =>
    match Expression.compile pattern with
    | .ok compiled => .ok (.expression compiled)
    | .error cause => .error cause

end CompiledPattern

namespace Matcher

def compile (definition : Definition) : Except DefinitionError Matcher :=
  match CompiledPattern.compile definition.variant definition.pattern.toList with
  | .ok compiled => .ok ⟨definition, compiled⟩
  | .error cause => .error ⟨definition.pattern, definition.variant, cause⟩

/-- The matcher of a pattern, which has no source text around it. -/
def ofPattern (type : StepType) (pattern : StepPattern) : Except DefinitionError Matcher :=
  match pattern with
  | .expression text => compile ⟨type, text, .expression, ""⟩
  | .regex source compiled => .ok ⟨⟨type, source, .regex, ""⟩, .regex compiled⟩

def type (matcher : Matcher) : StepType :=
  matcher.definition.type

/-- The regular expression that is matched with. -/
def patternSource (matcher : Matcher) : String :=
  match matcher.compiled with
  | .regex _ => matcher.definition.pattern
  | .expression compiled => String.ofList compiled.source

def retag (matcher : Matcher) (type : StepType) : Matcher :=
  { matcher with definition := matcher.definition.retag type }

/-! ## Matching -/

/-- The arguments that a text is matched with, or the capture that has no value. -/
def arguments (matcher : Matcher) (text : String) :
    Except CoercionError (Option (List Value)) :=
  match matcher.compiled with
  | .regex compiled =>
    .ok ((compiled.captures? text.toList).map fun groups =>
      groups.map fun group => .text (String.ofList group))
  | .expression compiled => compiled.match? text.toList

def test (matcher : Matcher) (text : String) : Logged (Option (List Value)) :=
  match matcher.arguments text with
  | .ok result => ⟨[], result⟩
  | .error error =>
    ⟨[⟨.warn, "step '" ++ text ++ "' matched '" ++ matcher.definition.pattern ++ "' but " ++
      error.message⟩], none⟩

/-- A text is accepted if it is matched with arguments. -/
def accepts (matcher : Matcher) (text : String) : Bool :=
  (matcher.test text).value.isSome

end Matcher

end Stepbook
