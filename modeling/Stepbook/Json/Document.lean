import Stepbook.Definition
import Stepbook.Feature
import Stepbook.Json.Basic

/-! # Definitions and features as JSON

Each kind of record has a written form, `toJson`, and a reader, `ofJson?`, which takes more than
that: step types in any letter case and between blanks, records as arrays, members that it does not
know, and definitions without a source.
-/

namespace Stepbook
set_option autoImplicit false

open Json (Tree)

/-! ## Definitions -/

def StepType.ofJson? (tree : Tree) : Option StepType :=
  tree.string?.bind fun text => (StepType.read text).toOption

/-- The name of a variant may also be the only member of an object, with nothing as its value. -/
def Variant.ofJson? : Tree → Option Variant
  | .string name => Variant.ofName? name
  | .object [(name, .null)] => Variant.ofName? name
  | _ => none

namespace Definition

def toJson (definition : Definition) : Tree :=
  .object [
    ("type", .string definition.type.name),
    ("pattern", .string definition.pattern),
    ("variant", .string definition.variant.name),
    ("source", .string definition.snippet)]

def ofJson? (tree : Tree) : Option Definition :=
  match tree.record? ["type", "pattern", "variant", "source"] with
  | some [some type, some pattern, some variant, source] => do
    let snippet ← match source with
      | some source => source.string?
      | none => some ""
    return ⟨← StepType.ofJson? type, ← pattern.string?, ← Variant.ofJson? variant, snippet⟩
  | _ => none

end Definition

/-! ## Features -/

namespace Step

def toJson (step : Step) : Tree :=
  .object [("type", .string step.type.name), ("step", .string step.text)]

def ofJson? (tree : Tree) : Option Step :=
  match tree.record? ["type", "step"] with
  | some [some type, some text] => do
    return ⟨← StepType.ofJson? type, ← text.string?⟩
  | _ => none

end Step

namespace Scenario

def toJson (scenario : Scenario) : Tree :=
  .object [("scenario", .string scenario.name), ("steps", .array (scenario.steps.map Step.toJson))]

def ofJson? (tree : Tree) : Option Scenario :=
  match tree.record? ["scenario", "steps"] with
  | some [some name, some steps] => do
    return ⟨← name.string?, ← steps.list? Step.ofJson?⟩
  | _ => none

end Scenario

namespace Feature

def toJson (feature : Feature) : Tree :=
  .object [
    ("feature", .string feature.name),
    ("scenarios", .array (feature.scenarios.map Scenario.toJson))]

def ofJson? (tree : Tree) : Option Feature :=
  match tree.record? ["feature", "scenarios"] with
  | some [some name, some scenarios] => do
    return ⟨← name.string?, ← scenarios.list? Scenario.ofJson?⟩
  | _ => none

end Feature

end Stepbook
