import Stepbook.Registry
import Stepbook.Run.Declaration
import Stepbook.Run.Input

/-! # Declaring features

A runner declares each feature as a group with the four hooks, each scenario as a group in it, and
each step as a test. The text of a step is resolved only when its test runs, whatever the keyword,
so that a step which nothing matches makes only its own test fail.

* `Runner`: the steps and the hooks that features are run with.
* `Runner.declarations`: what a runner declares for an input.
-/

namespace Stepbook
set_option autoImplicit false

structure Runner (σ : Type) where
  steps : Registry σ
  hooks : HookRegistry σ

namespace Runner
variable {σ : Type}

/-- Steps are needed, hooks are not. -/
def build (steps : Option (Registry σ)) (hooks : Option (HookRegistry σ)) :
    Except RunError (Runner σ) :=
  match steps with
  | some steps => .ok ⟨steps, hooks.getD .empty⟩
  | none => .error .missingSteps

/-- Resolves the text of a step and calls the handler. -/
def stepBody (runner : Runner σ) (step : Step) : Action σ Reply := do
  match ← Action.told (runner.steps.resolve step.text) with
  | .ok resolved => resolved.invoke
  | .error error => return .error error

def step (runner : Runner σ) (step : Step) : Declaration σ :=
  .test step.testName (runner.stepBody step)

def scenario (runner : Runner σ) (scenario : Scenario) : Declaration σ :=
  .group scenario.groupName (scenario.steps.map runner.step)

def hook (runner : Runner σ) (point : HookPoint) : Declaration σ :=
  .hook point (runner.hooks.callback point)

def feature (runner : Runner σ) (feature : Feature) : List (Declaration σ) :=
  [.note ⟨.debug, "declaring feature '" ++ feature.name ++ "'"⟩,
    .group feature.groupName
      (HookPoint.all.map runner.hook ++ feature.scenarios.map runner.scenario)]

def features (runner : Runner σ) (features : List Feature) : List (Declaration σ) :=
  .note ⟨.info, "running " ++ toString features.length ++ " features"⟩ ::
    features.flatMap runner.feature

def declarations (runner : Runner σ) (input : FeatureInput) : List (Declaration σ) :=
  input.features.records.map .note ++
    match input.features.value with
    | .ok features => runner.features features
    | .error error => [.stop error]

end Runner

end Stepbook
