import Stepbook.Proofs.Run.FeatureScope

/-! # Runs of features

On a host without groups and hooks of its own, a runner makes one outcome for each step of the
features, and calls the hooks and handlers around them in order.

* `plays_runTest`: a step, with the setup of its feature before it.
* `Conducts`: what a host does for declarations in a feature.
* `plays_features`: what it does for features.
* `features_in_order`: what a runner does for an input.
-/

namespace Stepbook
set_option autoImplicit false

open Host (Setup Scopes)

variable {σ : Type}

/-! ## Tests on a host -/

/-- Resolving fails only where nothing matches. -/
theorem Registry.eq_of_resolve_eq_error {registry : Registry σ} {text : String} {error : StepError}
    (h : (registry.resolve text).value = .error error) : error = .noMatchingStep none text := by
  rw [Registry.resolve, Logged.value_bind] at h
  generalize Registry.earliest (registry.firstMatches text StepType.all).value = found at h
  cases found with
  | some hit => cases h
  | none =>
    cases h
    rfl

namespace Runner
variable {runner : Runner σ}

theorem stepBody_eq (runner : Runner σ) (step : Step) :
    runner.stepBody step = fun session =>
      (match (runner.steps.resolve step.text).value with
        | .ok found => found.invoke
        | .error error => pure (Reply.error error) : Action σ Reply)
        ⟨session.memory, session.log ++ (runner.steps.resolve step.text).records⟩ :=
  rfl

theorem plays_stepBody (runner : Runner σ) (step : Step) :
    Plays runner.hooks (runner.stepBody step) fun reply events =>
      match (runner.steps.resolve step.text).value with
      | .ok found => events = [.handler found reply]
      | .error error => reply = .error error ∧ events = [] := by
  refine (Plays.told (runner.steps.resolve step.text)).bind fun resolved events hresolved => ?_
  obtain ⟨rfl, rfl⟩ := hresolved
  cases hvalue : (runner.steps.resolve step.text).value with
  | ok found => exact Plays.handler found
  | error error => exact .pure ⟨rfl, rfl⟩

/-- The step among the hooks of its feature. -/
theorem plays_runBody {feature scenario : String} {setup : Setup} {scopes : Scopes σ}
    (h : Host.InScenario runner.hooks feature scenario setup scopes) (step : Step) :
    Plays runner.hooks (scopes.runBody (runner.stepBody step)) fun result events =>
      runner.StepRun step events (StepError.of? result) := by
  -- Whatever came before it, the `afterEach` hook is called, and an error of its own comes second.
  have hafter : ∀ (result : Except StepError Unit) (events : List (Event σ)),
      (∀ after : Reply, runner.StepRun step (events ++ [.hook .afterEach after])
        ((StepError.of? result).or after.failure?)) →
      Plays runner.hooks
        (do
          let after ← scopes.afterEach
          return Scopes.firstError result after)
        fun result more => runner.StepRun step (events ++ more) (StepError.of? result) := by
    intro result events hsteps
    refine h.afterEach.bind_pure fun after more hmore => ?_
    obtain ⟨reply, rfl, rfl⟩ := hmore
    rw [StepError.of?_firstError, ← reply.failure?_eq]
    exact hsteps reply
  refine h.beforeEach.bind fun result events hevents => ?_
  obtain ⟨before, hbefore, rfl⟩ := hevents
  have hbefore : before.failure? = StepError.of? result := by rw [before.failure?_eq, hbefore]
  cases result with
  | error error => exact hafter (.error error) _ fun after => .refused hbefore
  | ok value =>
    refine (runner.plays_stepBody step).guarded.bind fun result more hmore => ?_
    obtain ⟨reply, rfl, hreply⟩ := hmore
    refine (hafter reply.result ([.hook .beforeEach before] ++ more) fun after => ?_).mono
      fun _ _ hstep => by rwa [List.append_assoc] at hstep
    cases hvalue : (runner.steps.resolve step.text).value with
    | ok found =>
      rw [hvalue] at hreply
      obtain rfl : more = [.handler found reply] := hreply
      rw [← reply.failure?_eq]
      exact .matched hbefore hvalue
    | error error =>
      rw [hvalue] at hreply
      obtain ⟨rfl, rfl⟩ := hreply
      obtain rfl := Registry.eq_of_resolve_eq_error hvalue
      exact .unmatched hbefore hvalue

theorem TestsRun.of_setUp {setup middle last : Setup} {first events : List (Event σ)}
    (hsetUp : Host.SetUp setup first middle) {test : Feature.Test} {tests : List Feature.Test}
    {outcomes : List Outcome} (h : runner.TestsRun middle (test :: tests) events outcomes last) :
    runner.TestsRun setup (test :: tests) (first ++ events) outcomes last := by
  cases hsetUp with
  | now reply => exact .setUp reply h
  | already started => exact h

theorem plays_runTest {feature scenario : String} {setup : Setup} {scopes : Scopes σ}
    (h : Host.InScenario runner.hooks feature scenario setup scopes) (test : Feature.Test) :
    Plays runner.hooks (scopes.runTest (runner.stepBody test.step)) fun out events =>
      ∃ last, runner.TestsRun setup [test] events [test.outcome (StepError.of? out.2)] last ∧
        Host.InScenario runner.hooks feature scenario last out.1 := by
  refine h.start.bind fun out first hout => ?_
  obtain ⟨next, result⟩ := out
  obtain ⟨last, hsetUp, hnext, rfl : result = (Host.Scope.hooked runner.hooks last).ready⟩ := hout
  cases last with
  | pending => exact absurd rfl hsetUp.ne_pending
  | done =>
    refine (plays_runBody hnext test.step).bind fun result events hstep => .pure ?_
    have hrun : runner.TestsRun .done [test] (events ++ []) [test.outcome (StepError.of? result)] .done :=
      .run hstep (.nil .done)
    exact ⟨.done, .of_setUp hsetUp hrun, hnext⟩
  | failed error =>
    have hskip : runner.TestsRun (.failed error) [test] [] [test.outcome (some error)]
        (.failed error) := .skip error (.nil _)
    exact .pure ⟨.failed error, .of_setUp hsetUp hskip, hnext⟩

/-- Wherever `InScope` holds of the scopes, an action on a host comes to the events and outcomes of
tests; it goes on to hold, for what has become of the setup of the feature. -/
def Conducts (runner : Runner σ) (InScope : Setup → Scopes σ → Prop)
    (action : Host σ → Action σ (Host σ × Except RunError Unit)) (tests : List Feature.Test) :
    Prop :=
  ∀ (setup : Setup) (host : Host σ), InScope setup host.scopes →
    Plays runner.hooks (action host) fun out events => out.2 = .ok () ∧ ∃ outcomes last,
      runner.TestsRun setup tests events outcomes last ∧ InScope last out.1.scopes ∧
        out.1.report.outcomes = host.report.outcomes ++ outcomes

theorem plays_test {feature scenario : String} {setup : Setup} {host : Host σ}
    (h : Host.InScenario runner.hooks feature scenario setup host.scopes) (step : Step) :
    Plays runner.hooks (host.runTest step.testName (runner.stepBody step)) fun next events =>
      ∃ outcome last,
        runner.TestsRun setup [⟨[feature, scenario], step⟩] events [outcome] last ∧
          Host.InScenario runner.hooks feature scenario last next.scopes ∧
            next.report.outcomes = host.report.outcomes ++ [outcome] := by
  refine (plays_runTest h ⟨[feature, scenario], step⟩).bind fun out events hout => ?_
  obtain ⟨scopes, result⟩ := out
  obtain ⟨last, hrun, hscopes⟩ := hout
  refine .log_bind _ (.pure ?_)
  rw [List.append_nil]
  refine ⟨_, last, hrun, hscopes, ?_⟩
  rw [hscopes.path_eq, Feature.Test.outcome_of?]
  rfl

theorem conducts_step (runner : Runner σ) (feature scenario : String) (step : Step) :
    runner.Conducts (Host.InScenario runner.hooks feature scenario)
      (fun host => host.declare (runner.step step)) [⟨[feature, scenario], step⟩] := by
  intro setup host hopen
  dsimp only
  rw [Runner.step, Host.declare]
  refine (plays_test hopen step).bind_pure fun next events hnext => ?_
  obtain ⟨outcome, last, hrun, hscopes, hreport⟩ := hnext
  exact ⟨rfl, [outcome], last, hrun, hscopes, hreport⟩

/-- Declarations one after another. -/
theorem Conducts.all {InScope : Setup → Scopes σ → Prop} {α : Type} {declaration : α → Declaration σ}
    {tests : α → List Feature.Test}
    (h : ∀ item, runner.Conducts InScope (fun host => host.declare (declaration item)) (tests item))
    (items : List α) :
    runner.Conducts InScope (fun host => host.declareAll (items.map declaration))
      (items.flatMap tests) := by
  induction items with
  | nil =>
    intro setup host hopen
    dsimp only
    rw [List.map_nil, Host.declareAll]
    exact .pure ⟨rfl, [], setup, .nil setup, hopen, (List.append_nil _).symm⟩
  | cons item items ih =>
    intro setup host hopen
    dsimp only
    rw [List.map_cons, Host.declareAll, List.flatMap_cons]
    refine (h item setup host hopen).bind fun out events hout => ?_
    obtain ⟨next, result⟩ := out
    obtain ⟨rfl : result = .ok (), outcomes, middle, hrun, hnext, hreport⟩ := hout
    refine (ih middle next hnext).mono fun out more hmore => ?_
    obtain ⟨hok, others, last, hothers, hlast, hlater⟩ := hmore
    refine ⟨hok, outcomes ++ others, last, hrun.append hothers, hlast, ?_⟩
    rw [hlater, hreport, List.append_assoc]

/-! ## Scenarios and features -/

theorem conducts_scenario (runner : Runner σ) (feature : String) (scenario : Scenario) :
    runner.Conducts (Host.InFeature runner.hooks feature)
      (fun host => host.declare (runner.scenario scenario)) (scenario.tests [feature]) := by
  intro setup host hopen
  dsimp only
  rw [Runner.scenario, Host.declare]
  have htests : scenario.tests [feature] =
      scenario.steps.flatMap fun step => [⟨[feature, scenario.groupName], step⟩] :=
    List.map_eq_flatMap
  have hsteps := Conducts.all (runner.conducts_step feature scenario.groupName) scenario.steps
  rw [← htests] at hsteps
  refine (hsteps setup (host.enter scenario.groupName) (.mk .empty hopen)).bind
    fun out events hout => ?_
  obtain ⟨next, result⟩ := out
  obtain ⟨rfl : result = .ok (), outcomes, last, hrun, hnext, hreport⟩ := hout
  obtain ⟨outer, houter, hleave⟩ := Host.InScenario.leave hnext
  dsimp only
  rw [hleave, pure_bind]
  refine .pure ⟨rfl, outcomes, last, ?_, houter, hreport⟩
  rwa [List.append_nil]

/-- A feature that is declared to a bare root. -/
theorem plays_feature (runner : Runner σ) (feature : Feature) {host : Host σ}
    (h : Host.AtRoot host.scopes) :
    Plays runner.hooks (host.declareAll (runner.feature feature)) fun out events =>
      out.2 = .ok () ∧ Host.AtRoot out.1.scopes ∧ ∃ outcomes,
        runner.FeatureRun feature events outcomes ∧
          out.1.report.outcomes = host.report.outcomes ++ outcomes := by
  obtain ⟨scopes, report⟩ := host
  obtain ⟨hbare⟩ := h
  rw [Runner.feature]
  simp only [Host.declareAll, Host.declare, bind_assoc, pure_bind]
  refine .log_bind _ ?_
  rw [Host.enter, Host.declareAll_hooks]
  have hscenarios := Conducts.all
    (runner.conducts_scenario ("Feature: " ++ feature.name)) feature.scenarios
  refine (hscenarios .pending _ (.mk hbare)).bind fun out events hout => ?_
  obtain ⟨next, result⟩ := out
  obtain ⟨rfl : result = .ok (), outcomes, last, hrun, hnext, hreport⟩ := hout
  refine (Host.InFeature.leave hnext).bind_pure fun left more hleft => ?_
  obtain ⟨hroot, hpending, hstarted⟩ := hleft
  refine ⟨rfl, hroot, ?_⟩
  -- The first test sets the feature up, so its setup at the end tells whether it has tests.
  rcases TestsRun.featureRun hrun with ⟨rfl, rfl, rfl, hidle⟩ | ⟨hlast, hfeature⟩
  · obtain ⟨rfl, hsame⟩ := hpending rfl
    exact ⟨[], hidle, by rw [hsame, hreport]⟩
  · obtain ⟨after, rfl, hafter⟩ := hstarted hlast
    exact ⟨_, hfeature after, by rw [hafter, hreport, List.append_assoc]⟩

theorem plays_features (runner : Runner σ) (features : List Feature) {host : Host σ}
    (h : Host.AtRoot host.scopes) :
    Plays runner.hooks (host.declareAll (features.flatMap runner.feature)) fun out events =>
      out.2 = .ok () ∧ Host.AtRoot out.1.scopes ∧ ∃ outcomes,
        runner.FeaturesRun features events outcomes ∧
          out.1.report.outcomes = host.report.outcomes ++ outcomes := by
  induction features generalizing host with
  | nil =>
    rw [List.flatMap_nil, Host.declareAll]
    exact .pure ⟨rfl, h, [], .nil, (List.append_nil _).symm⟩
  | cons feature features ih =>
    rw [List.flatMap_cons, Host.declareAll_append]
    refine (runner.plays_feature feature h).bind fun out events hout => ?_
    obtain ⟨next, result⟩ := out
    obtain ⟨rfl : result = .ok (), hnext, outcomes, hrun, hreport⟩ := hout
    refine (ih hnext).mono fun out more hmore => ?_
    obtain ⟨hok, hlast, others, hothers, hlater⟩ := hmore
    exact ⟨hok, hlast, outcomes ++ others, .cons hrun hothers,
      by rw [hlater, hreport, List.append_assoc]⟩

/-! ## Inputs -/

theorem plays_notes (hooks : HookRegistry σ) (host : Host σ) (records : List Log.Record) :
    Plays hooks (host.declareAll (records.map .note)) fun out events =>
      out = (host, .ok ()) ∧ events = [] := by
  induction records with
  | nil =>
    rw [List.map_nil, Host.declareAll]
    exact .pure ⟨rfl, rfl⟩
  | cons record records ih =>
    rw [List.map_cons, Host.declareAll, Host.declare, bind_assoc]
    exact .log_bind record ih

/-- An input without features ends with its error before anything is called. -/
theorem plays_declarations (runner : Runner σ) (input : FeatureInput) {host : Host σ}
    (h : Host.AtRoot host.scopes) :
    Plays runner.hooks (host.declareAll (runner.declarations input)) fun out events =>
      match input.features.value with
      | .error error => out = (host, .error error) ∧ events = []
      | .ok features => out.2 = .ok () ∧ Host.AtRoot out.1.scopes ∧ ∃ outcomes,
          runner.FeaturesRun features events outcomes ∧
            out.1.report.outcomes = host.report.outcomes ++ outcomes := by
  rw [declarations, Host.declareAll_append]
  refine (plays_notes runner.hooks host _).bind fun out events hout => ?_
  obtain ⟨rfl, rfl⟩ := hout
  dsimp only
  cases input.features.value with
  | error error =>
    dsimp only
    rw [Host.declareAll, Host.declare, pure_bind]
    exact .pure ⟨rfl, rfl⟩
  | ok features =>
    dsimp only
    rw [Runner.features, Host.declareAll, Host.declare, bind_assoc]
    exact .log_bind _ (runner.plays_features features h)

/-- Keeps a word, and then ends with a reply. -/
def saying (word : String) (reply : Reply) : Callback (List String) :=
  fun session => (reply, { session with memory := session.memory ++ [word] })

def boxSteps : Registry (List String) :=
  Registry.empty.add .context ⟨⟨.context, "2", .regex, ""⟩, .regex (.literal '2')⟩ fun _ =>
    saying "step" .ok

/-- The first hook is replaced, and the last one panics. -/
def boxHooks : List (HookPoint × Callback (List String)) :=
  [(.beforeEach, saying "replaced" .ok), (.beforeEach, saying "before" .ok),
   (.afterAll, saying "last" (.panic none))]

def boxFeatures : List Feature :=
  [⟨"idle", [⟨"none", []⟩]⟩,
   ⟨"boxes", [⟨"two", [⟨.context, "2 boxes"⟩, ⟨.action, "a bag"⟩]⟩]⟩]

def boxRun : (Host (List String) × Except RunError Unit) × Session (List String) :=
  Host.declareAll .empty
    (declarations ⟨boxSteps, .registered boxHooks⟩ (.many boxFeatures)) ⟨[], []⟩

/-- Of the steps, one has a handler and one has none. -/
theorem resolve_boxSteps :
    (boxSteps.resolve "2 boxes").value =
        .ok ⟨⟨.context, "2", .regex, ""⟩, fun _ => saying "step" .ok, []⟩ ∧
      (boxSteps.resolve "a bag").value = .error (.noMatchingStep none "a bag") := by
  exact ⟨by cbv, by cbv⟩

def boxOutcomes : List Outcome :=
  [⟨["Feature: boxes", "Scenario: two"], "Given 2 boxes", .passed⟩,
   ⟨["Feature: boxes", "Scenario: two"], "When a bag", .failed (.noMatchingStep none "a bag")⟩,
   ⟨["Feature: boxes"], "afterAll hook",
     .failed (.panicked "panicked with a non-string payload")⟩]

theorem boxRun_eq :
    boxRun.1.1.report.outcomes = boxOutcomes ∧
      boxRun.2.memory = ["before", "step", "before", "last"] := by
  simp only [boxRun, boxFeatures, declarations, FeatureInput.features, Logged.value_pure, features,
    List.flatMap_cons, feature, List.map_cons, scenario, step, stepBody_eq, resolve_boxSteps]
  decide +kernel

end Runner

end Stepbook
