/-! # Why a run cannot be made

* `RunError`, `RunError.message`: what keeps features from being run.
-/

namespace Stepbook
set_option autoImplicit false

inductive RunError where
  /-- There is neither a text nor a document. -/
  | missingFeature
  | missingSteps
  /-- A host cannot do what a run needs. -/
  | missingMethod (name : String)
  /-- A document does not have the form of a feature. -/
  | invalidDocument
  /-- A text is not well formed. -/
  | unreadableFeature
  deriving DecidableEq, Repr

def RunError.message : RunError → String
  | .missingFeature => "a feature file or parsed feature documents must be provided"
  | .missingSteps => "a step registry must be provided"
  | .missingMethod name => "the test host does not provide a '" ++ name ++ "' method"
  | .invalidDocument => "invalid feature document"
  | .unreadableFeature => "failed to parse feature"

end Stepbook
