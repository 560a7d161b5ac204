import Stepbook.StepType
import Stepbook.Text.Quoted

/-! # Step definitions

A step definition says which steps it is for: a kind of step, and a pattern that the text of the
step has to match.

* `Variant`: how a pattern is to be understood.
* `Definition`: a definition, with the source text that it was found in.
-/

namespace Stepbook
set_option autoImplicit false

inductive Variant where
  /-- A regular expression, to be found anywhere in a text. -/
  | regex
  /-- An expression with placeholders, for a whole text. -/
  | expression
  deriving DecidableEq, Repr

namespace Variant

def all : List Variant :=
  [.regex, .expression]

def name : Variant → String
  | .regex => "regex"
  | .expression => "expression"

def title : Variant → String
  | .regex => "Regex"
  | .expression => "Expression"

def ofName? (name : String) : Option Variant :=
  all.find? fun variant => variant.name == name

end Variant

structure Definition where
  type : StepType
  pattern : String
  variant : Variant
  /-- The source of the registration call, empty for a definition that comes from none. -/
  snippet : String
  deriving DecidableEq, Repr

namespace Definition

/-- The definition as one of another kind of step. -/
def retag (definition : Definition) (type : StepType) : Definition :=
  { definition with type := type }

/-- All fields by name. -/
def describe (definition : Definition) : String :=
  "Definition \x7b step_type: " ++ definition.type.title ++
    ", raw_pattern: " ++ Text.quote definition.pattern ++
    ", variant: " ++ definition.variant.title ++
    ", snippet: " ++ Text.quote definition.snippet ++ " \x7d"

end Definition

end Stepbook
