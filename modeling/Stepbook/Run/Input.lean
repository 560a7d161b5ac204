import Stepbook.Gherkin.Reader
import Stepbook.Json.Document
import Stepbook.Log
import Stepbook.Run.Error

/-! # Features to be run

Features are given as a text or as documents.

* `readFeature`: the feature that a text holds.
* `FeatureInput.ofJson`: a string is a text, an object a feature, and an array several features.
* `FeatureInput.features`: the features that are given.
-/

namespace Stepbook
set_option autoImplicit false

def readFeature (text : String) : Logged (Except RunError Feature) :=
  match Gherkin.Document.read? text with
  | none => return .error .unreadableFeature
  | some document =>
    let feature := document.feature
    ⟨[⟨.debug, "parsed feature '" ++ feature.name ++ "' with " ++
      toString feature.scenarios.length ++ " scenarios"⟩], .ok feature⟩

inductive FeatureInput where
  | text (source : String)
  | single (feature : Feature)
  | many (features : List Feature)
  deriving DecidableEq, Repr

namespace FeatureInput

def ofJson (tree : Json.Tree) : Except RunError FeatureInput :=
  match tree with
  | .string source => .ok (.text source)
  | .object _ =>
    match Feature.ofJson? tree with
    | some feature => .ok (.single feature)
    | none => .error .invalidDocument
  | .array _ =>
    match tree.list? Feature.ofJson? with
    | some features => .ok (.many features)
    | none => .error .invalidDocument
  | _ => .error .missingFeature

/-- A text must not be blank. -/
def features : FeatureInput → Logged (Except RunError (List Feature))
  | .text source => do
    if Text.isBlankText source.toList then return .error .missingFeature
    match ← readFeature source with
    | .ok feature => return .ok [feature]
    | .error error => return .error error
  | .single feature => return .ok [feature]
  | .many features => return .ok features

end FeatureInput

end Stepbook
