import Stepbook.Callback

/-! # Reports of runs

* `Status`, `Outcome`: how a test has ended.
* `Report`: the outcomes of a run in order, with `passed`, `failures` and `isSuccess`.
-/

namespace Stepbook
set_option autoImplicit false

/-! ## Outcomes -/

inductive Status where
  | passed
  | failed (error : StepError)
  deriving DecidableEq, Repr

namespace Status

def ofResult : Except StepError Unit → Status
  | .ok () => .passed
  | .error error => .failed error

def error? : Status → Option StepError
  | .passed => none
  | .failed error => some error

def message : Status → String
  | .passed => "passed"
  | .failed error => "failed: " ++ error.message

def describe : Status → String
  | .passed => "Passed"
  | .failed error => "Failed(" ++ error.describe ++ ")"

end Status

structure Outcome where
  /-- The names of the groups around the test, the outermost first. -/
  path : List String
  name : String
  status : Status
  deriving DecidableEq, Repr

namespace Outcome

def isPassed (outcome : Outcome) : Bool :=
  outcome.status == .passed

/-- The names of the groups and of the test. -/
def place (outcome : Outcome) : String :=
  Text.joinWith " > " (outcome.path ++ [outcome.name])

end Outcome

def describePath (path : List String) : String :=
  "[" ++ Text.joinWith ", " (path.map Text.quote) ++ "]"

def Outcome.describe (outcome : Outcome) : String :=
  "TestOutcome \x7b path: " ++ describePath outcome.path ++
    ", name: " ++ Text.quote outcome.name ++
    ", status: " ++ outcome.status.describe ++ " \x7d"

/-! ## Reports -/

structure Report where
  outcomes : List Outcome
  deriving DecidableEq, Repr

namespace Report

def empty : Report :=
  ⟨[]⟩

def add (report : Report) (outcome : Outcome) : Report :=
  ⟨report.outcomes ++ [outcome]⟩

def passed (report : Report) : Nat :=
  (report.outcomes.filter Outcome.isPassed).length

def failures (report : Report) : List Outcome :=
  report.outcomes.filter (!·.isPassed)

def isSuccess (report : Report) : Bool :=
  report.failures.isEmpty

def describe (report : Report) : String :=
  "RunReport \x7b outcomes: [" ++
    Text.joinWith ", " (report.outcomes.map Outcome.describe) ++ "] \x7d"

end Report

end Stepbook
