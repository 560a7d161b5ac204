import Stepbook.StepType

/-! # Features

A feature holds scenarios, and a scenario holds steps in the order in which they are taken.

* `Step`, `Scenario`, `Feature`: the documents that are run.
* `Feature.groupName`, `Scenario.groupName`, `Step.testName`: the names under which they are run.
-/

namespace Stepbook
set_option autoImplicit false

structure Step where
  type : StepType
  text : String
  deriving DecidableEq, Repr

structure Scenario where
  name : String
  steps : List Step
  deriving DecidableEq, Repr

structure Feature where
  name : String
  scenarios : List Scenario
  deriving DecidableEq, Repr

def Feature.groupName (feature : Feature) : String :=
  "Feature: " ++ feature.name

def Scenario.groupName (scenario : Scenario) : String :=
  "Scenario: " ++ scenario.name

def Step.testName (step : Step) : String :=
  step.type.title ++ " " ++ step.text

end Stepbook
