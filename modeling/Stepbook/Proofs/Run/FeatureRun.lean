import Stepbook.Proofs.Run.Events
import Stepbook.Proofs.Run.Start

/-! # Events and outcomes of features

The hooks and handlers around the steps of a feature are called in a fixed order, and each step has
one outcome.

* `Step.caption`, `Feature.tests`: the steps of a feature, with the names that they go by.
* `Reply.failure?`: what has gone wrong in a call.
* `StepRun`: the events of a step and what has gone wrong in it.
* `TestsRun`: the events and outcomes of tests, by the setup of the feature that they stand in.
* `FeatureRun`, `FeaturesRun`: those of whole features.
* `TestsRun.featureRun`: all tests of a feature, with the setup that they leave behind.
-/

namespace Stepbook
set_option autoImplicit false

open Host (Setup Scopes)

variable {σ : Type}

/-! ## Tests of a feature -/

/-- The name of a step is its keyword before its text. -/
def Step.caption (step : Step) : String :=
  match step.type with
  | .context => "Given " ++ step.text
  | .action => "When " ++ step.text
  | .outcome => "Then " ++ step.text

theorem Step.testName_eq (step : Step) : step.testName = step.caption := by
  obtain ⟨type, text⟩ := step
  cases type with
  | context => exact congrArg (· ++ text) (rfl : "Given" ++ " " = "Given ")
  | action => exact congrArg (· ++ text) (rfl : "When" ++ " " = "When ")
  | outcome => exact congrArg (· ++ text) (rfl : "Then" ++ " " = "Then ")

/-- A step with the names of the groups around it. -/
structure Feature.Test where
  path : List String
  step : Step

def Scenario.tests (scenario : Scenario) (path : List String) : List Feature.Test :=
  scenario.steps.map (Feature.Test.mk (path ++ ["Scenario: " ++ scenario.name]))

/-- The steps of a feature in order. -/
def Feature.tests (feature : Feature) : List Feature.Test :=
  feature.scenarios.flatMap (·.tests ["Feature: " ++ feature.name])

/-- The outcome of a step in which something, or nothing, has gone wrong. -/
def Feature.Test.outcome (test : Feature.Test) (failure : Option StepError) : Outcome :=
  ⟨test.path, test.step.caption,
    match failure with
    | none => .passed
    | some error => .failed error⟩

/-! ## Failures -/

/-- What has gone wrong in a call. A panic is an error with its message, where it has one. -/
def Reply.failure? : Reply → Option StepError
  | .ok => none
  | .error cause => some cause
  | .panic (some message) => some (.panicked message)
  | .panic none => some (.panicked "panicked with a non-string payload")

def StepError.of? {α : Type} : Except StepError α → Option StepError
  | .ok _ => none
  | .error error => some error

theorem Reply.failure?_eq (reply : Reply) : reply.failure? = StepError.of? reply.result := by
  cases reply with
  | ok => rfl
  | error cause => rfl
  | panic payload => cases payload <;> rfl

theorem StepError.of?_firstError (first second : Except StepError Unit) :
    StepError.of? (Scopes.firstError first second) =
      (StepError.of? first).or (StepError.of? second) := by
  cases first <;> rfl

theorem Feature.Test.outcome_of? (test : Feature.Test) (result : Except StepError Unit) :
    test.outcome (StepError.of? result) = ⟨test.path, test.step.testName, .ofResult result⟩ := by
  rw [test.step.testName_eq]
  cases result <;> rfl

/-! ## Events and outcomes -/

/-- The events of a step where its feature is set up. A step whose `beforeEach` hook fails is not
resolved, and its handler is called only if it has one; the `afterEach` hook is called in any
case. -/
inductive Runner.StepRun (runner : Runner σ) (step : Step) :
    List (Event σ) → Option StepError → Prop where
  | refused {before after : Reply} {error : StepError} (fails : before.failure? = some error) :
      StepRun runner step [.hook .beforeEach before, .hook .afterEach after] (some error)
  | unmatched {before after : Reply} (passes : before.failure? = none)
      (resolved : (runner.steps.resolve step.text).value = .error (.noMatchingStep none step.text)) :
      StepRun runner step [.hook .beforeEach before, .hook .afterEach after]
        (some (.noMatchingStep none step.text))
  | matched {before reply after : Reply} {found : ResolvedStep σ} (passes : before.failure? = none)
      (resolved : (runner.steps.resolve step.text).value = .ok found) :
      StepRun runner step
        [.hook .beforeEach before, .handler found reply, .hook .afterEach after]
        (reply.failure?.or after.failure?)

/-- The events and outcomes of tests in a feature, from one setup of the feature to another. -/
inductive Runner.TestsRun (runner : Runner σ) :
    Setup → List Feature.Test → List (Event σ) → List Outcome → Setup → Prop where
  | nil (setup : Setup) : TestsRun runner setup [] [] [] setup
  | setUp {test : Feature.Test} {tests : List Feature.Test} {events : List (Event σ)}
      {outcomes : List Outcome} {last : Setup} (reply : Reply)
      (others : TestsRun runner (.ofResult reply.result) (test :: tests) events outcomes last) :
      TestsRun runner .pending (test :: tests) (.hook .beforeAll reply :: events) outcomes last
  | run {test : Feature.Test} {tests : List Feature.Test} {events more : List (Event σ)}
      {outcomes : List Outcome} {failure : Option StepError} {last : Setup}
      (first : runner.StepRun test.step events failure)
      (others : TestsRun runner .done tests more outcomes last) :
      TestsRun runner .done (test :: tests) (events ++ more) (test.outcome failure :: outcomes) last
  | skip {test : Feature.Test} {tests : List Feature.Test} {events : List (Event σ)}
      {outcomes : List Outcome} {last : Setup} (error : StepError)
      (others : TestsRun runner (.failed error) tests events outcomes last) :
      TestsRun runner (.failed error) (test :: tests) events
        (test.outcome (some error) :: outcomes) last

/-- The steps of a feature that is set up, one after another. -/
inductive Runner.StepsRun (runner : Runner σ) :
    List Feature.Test → List (Event σ) → List Outcome → Prop where
  | nil : StepsRun runner [] [] []
  | cons {test : Feature.Test} {tests : List Feature.Test} {events more : List (Event σ)}
      {outcomes : List Outcome} {failure : Option StepError}
      (first : runner.StepRun test.step events failure)
      (others : StepsRun runner tests more outcomes) :
      StepsRun runner (test :: tests) (events ++ more) (test.outcome failure :: outcomes)

/-- An `afterAll` hook has an outcome only if it fails. -/
def Outcome.closing (path : List String) (after : Reply) : List Outcome :=
  match after.failure? with
  | none => []
  | some error => [⟨path, "afterAll hook", .failed error⟩]

/-- A feature with steps calls its `beforeAll` hook once before all else, and its `afterAll` hook
once after all else. If the first fails, all steps fail with its error, and nothing else is called. -/
inductive Runner.FeatureRun (runner : Runner σ) (feature : Feature) :
    List (Event σ) → List Outcome → Prop where
  | idle (empty : feature.tests = []) : FeatureRun runner feature [] []
  | refused {before after : Reply} {error : StepError} (nonempty : feature.tests ≠ [])
      (fails : before.failure? = some error) :
      FeatureRun runner feature [.hook .beforeAll before, .hook .afterAll after]
        (feature.tests.map (·.outcome (some error)) ++
          Outcome.closing ["Feature: " ++ feature.name] after)
  | run {before after : Reply} {events : List (Event σ)} {outcomes : List Outcome}
      (nonempty : feature.tests ≠ []) (passes : before.failure? = none)
      (steps : runner.StepsRun feature.tests events outcomes) :
      FeatureRun runner feature (.hook .beforeAll before :: events ++ [.hook .afterAll after])
        (outcomes ++ Outcome.closing ["Feature: " ++ feature.name] after)

inductive Runner.FeaturesRun (runner : Runner σ) :
    List Feature → List (Event σ) → List Outcome → Prop where
  | nil : FeaturesRun runner [] [] []
  | cons {feature : Feature} {features : List Feature} {events more : List (Event σ)}
      {outcomes others : List Outcome} (first : runner.FeatureRun feature events outcomes)
      (rest : FeaturesRun runner features more others) :
      FeaturesRun runner (feature :: features) (events ++ more) (outcomes ++ others)

/-! ## Tests in a row -/

namespace Runner
variable {runner : Runner σ} {setup middle last : Setup} {tests others : List Feature.Test}
  {events more : List (Event σ)} {outcomes later : List Outcome}

theorem TestsRun.append (h : runner.TestsRun setup tests events outcomes middle)
    (h' : runner.TestsRun middle others more later last) :
    runner.TestsRun setup (tests ++ others) (events ++ more) (outcomes ++ later) last := by
  induction h with
  | nil setup => exact h'
  | setUp reply others ih => exact .setUp reply (ih h')
  | run first others ih =>
    rw [List.append_assoc]
    exact .run first (ih h')
  | skip error others ih => exact .skip error (ih h')

theorem TestsRun.of_done (h : runner.TestsRun .done tests events outcomes last) :
    runner.StepsRun tests events outcomes ∧ last = .done := by
  generalize hsetup : Setup.done = setup at h
  induction h with
  | nil setup => exact ⟨.nil, rfl⟩
  | setUp reply others ih => cases hsetup
  | run first others ih => exact ⟨.cons first (ih rfl).1, (ih rfl).2⟩
  | skip error others ih => cases hsetup

theorem TestsRun.of_failed {error : StepError}
    (h : runner.TestsRun (.failed error) tests events outcomes last) :
    events = [] ∧ outcomes = tests.map (·.outcome (some error)) ∧ last = .failed error := by
  generalize hsetup : Setup.failed error = setup at h
  induction h with
  | nil setup => exact ⟨rfl, rfl, rfl⟩
  | setUp reply others ih => cases hsetup
  | run first others ih => cases hsetup
  | skip other others ih =>
    cases hsetup
    obtain ⟨hevents, houtcomes, hlast⟩ := ih rfl
    exact ⟨hevents, by rw [houtcomes, List.map_cons], hlast⟩

/-- What the setup of a feature at its end tells of all its tests. -/
theorem TestsRun.featureRun {feature : Feature}
    (h : runner.TestsRun .pending feature.tests events outcomes last) :
    (last = .pending ∧ events = [] ∧ outcomes = [] ∧ runner.FeatureRun feature [] []) ∨
      (last ≠ .pending ∧ ∀ after : Reply,
        runner.FeatureRun feature (events ++ [.hook .afterAll after])
          (outcomes ++ Outcome.closing ["Feature: " ++ feature.name] after)) := by
  generalize hpending : Setup.pending = setup at h
  generalize htests : feature.tests = tests at h
  cases h with
  | nil setup => exact .inl ⟨rfl, rfl, rfl, .idle htests⟩
  | run first others => cases hpending
  | skip error others => cases hpending
  | @setUp test tests events _ _ reply others =>
    have hsome : feature.tests ≠ [] := by
      rw [htests]
      exact List.cons_ne_nil _ _
    refine .inr ?_
    cases hresult : reply.result with
    | ok value =>
      rw [hresult] at others
      obtain ⟨hsteps, rfl⟩ := others.of_done
      rw [← htests] at hsteps
      have hpasses : reply.failure? = none := by
        rw [reply.failure?_eq, hresult]
        rfl
      exact ⟨nofun, fun after => .run hsome hpasses hsteps⟩
    | error error =>
      rw [hresult] at others
      obtain ⟨rfl, rfl, rfl⟩ := others.of_failed
      rw [← htests]
      have hfails : reply.failure? = some error := by
        rw [reply.failure?_eq, hresult]
        rfl
      exact ⟨nofun, fun after => .refused hsome hfails⟩

end Runner

end Stepbook
