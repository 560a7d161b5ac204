import Stepbook.Proofs.Command.Resolve
import Stepbook.Proofs.Gherkin
import Stepbook.Proofs.Run.Quiet

/-! # Checking features against step files

The steps of features are checked one by one, and each is told to pass if its text alone would be
matched.

* `Parses`, `Matches`: a file that holds a document, and a text that is matched.
* `resolution_cases`: how a text is resolved, for step files that can be loaded.
* `result_checkFiles`: the outcomes of features on one host after another.
* `runCheck_agrees`: the report on features.
-/

namespace Stepbook.Command
set_option autoImplicit false

open Commanded

/-! ## Texts of steps -/

def Parses (files : Files) (path : String) (document : Gherkin.Document) : Prop :=
  ∃ source, files path = some source ∧ Gherkin.Document.read? source = some document

/-- The text is matched, whatever the kind of step. -/
def Matches (files : Files) (format : Format) (steps : List String) (text : String) : Prop :=
  (runResolve files format steps none text).result.map (·.status) = .ok .success

section
variable {files : Files} {steps : List String} {registry : Registry Unit}
  (h : (loadRegistry files steps).result = .ok registry)
include h

/-- A text without a kind is resolved to the first definition that matches it. -/
theorem value_resolve (text : String) :
    (registry.resolve text).value =
      match Definition.firstIn (definitionsIn files steps) text with
      | some (definition, arguments) => .ok (.silent definition arguments)
      | none => .error (.noMatchingStep none text) := by
  obtain ⟨-, -, rfl⟩ := loadRegistry_eq_ok_iff.1 h
  exact value_resolveText (definitionsIn files steps) none text

theorem quiet_loadRegistry : Runner.Quiet ⟨registry, .empty⟩ := by
  refine ⟨fun point => rfl, fun text found hfound => ?_⟩
  rw [value_resolve h] at hfound
  split at hfound
  · cases hfound
    rfl
  · cases hfound

/-- A text is resolved if it is matched, and otherwise there is no step for it. -/
theorem resolution_cases (format : Format) (text : String) :
    (Matches files format steps text ∧
      Runner.resolution ⟨registry, .empty⟩ text = none) ∨
    (¬ Matches files format steps text ∧
      Runner.resolution ⟨registry, .empty⟩ text = some (.noMatchingStep none text)) := by
  rw [Matches, result_runResolve h, Definition.ofKind, Runner.resolution, value_resolve h]
  cases Definition.firstIn (definitionsIn files steps) text with
  | some found => exact .inl ⟨rfl, rfl⟩
  | none =>
    refine .inr ⟨fun hmatches => ?_, rfl⟩
    cases hmatches

end

/-! ## Features one after another -/

/-- The outcomes of the steps of a document. -/
def outcomesOf (runner : Runner Unit) (document : Gherkin.Document) : List Outcome :=
  document.feature.tests.map fun test => test.outcome (runner.resolution test.step.text)

theorem features_text {source : String} {document : Gherkin.Document}
    (h : Gherkin.Document.read? source = some document) :
    (FeatureInput.text source).features.value = .ok [document.feature] := by
  have hblank : Text.isBlankText source.toList = false := by
    rw [Bool.eq_false_iff]
    intro hblank
    rw [Gherkin.read?_eq_none_of_blank hblank] at h
    cases h
  unfold FeatureInput.features
  dsimp only
  rw [hblank, readFeature, h]
  rfl

section
variable {files : Files} {runner : Runner Unit} (hquiet : runner.Quiet)
include hquiet

theorem result_checkFile {host : Host Unit} (hroot : Host.AtRoot host.scopes) {path : String}
    {document : Gherkin.Document} (hparses : Parses files path document) :
    ∃ next, (checkFile files runner host path).result = .ok next ∧ Host.AtRoot next.scopes ∧
      next.report.outcomes = host.report.outcomes ++ outcomesOf runner document := by
  obtain ⟨source, hsource, hdocument⟩ := hparses
  obtain ⟨events, hperforms, hrun⟩ :=
    runner.plays_declarations (.text source) hroot ⟨(), []⟩
  rw [features_text hdocument] at hrun
  obtain ⟨hok, hnext, outcomes, hfeatures, hreport⟩ := hrun
  -- The events of a quiet runner leave no choice of the outcomes.
  have houtcomes : outcomes = outcomesOf runner document := by
    rw [hquiet.outcomes_eq hperforms hfeatures]
    exact List.append_nil _
  rw [houtcomes] at hreport
  rw [checkFile, result_bind_of_ok (result_readSource_eq_ok.2 hsource),
    result_bind_of_ok (result_lift _)]
  have hvalue : (perform (host.declareAll (runner.declarations (.text source)))).value =
      (host.declareAll (runner.declarations (.text source)) ⟨(), []⟩).1 := rfl
  rw [hvalue]
  generalize (host.declareAll (runner.declarations (.text source)) ⟨(), []⟩).1 = out
    at hok hnext hreport ⊢
  obtain ⟨next, result⟩ := out
  obtain rfl : result = .ok () := hok
  exact ⟨next, rfl, hnext, hreport⟩

theorem result_checkFiles {features : List String} {documents : List Gherkin.Document}
    (hparses : List.Forall₂ (Parses files) features documents) {host : Host Unit}
    (hroot : Host.AtRoot host.scopes) :
    ∃ last, Commanded.result (features.foldlM (checkFile files runner) host) = .ok last ∧
      Host.AtRoot last.scopes ∧
      last.report.outcomes = host.report.outcomes ++ documents.flatMap (outcomesOf runner) := by
  induction hparses generalizing host with
  | nil => exact ⟨host, rfl, hroot, (List.append_nil _).symm⟩
  | cons first others ih =>
    obtain ⟨next, hnext, hat, hreport⟩ := result_checkFile hquiet hroot first
    obtain ⟨last, hlast, hatLast, hlater⟩ := ih hat
    refine ⟨last, ?_, hatLast, ?_⟩
    · rw [List.foldlM_cons, result_bind_of_ok hnext, hlast]
    · rw [hlater, hreport, List.append_assoc, List.flatMap_cons]

end

/-- A bare root adds nothing when it is left. -/
theorem perform_finish {host : Host Unit} (h : Host.AtRoot host.scopes) :
    (perform host.finish).value = host.report := by
  obtain ⟨scopes, report⟩ := host
  obtain ⟨hbare⟩ := h
  rw [Host.finish]
  dsimp only
  rw [hbare.close]
  rfl

/-- The report on features that can be read. -/
theorem result_runCheck {files : Files} {steps features : List String} {registry : Registry Unit}
    (hload : (loadRegistry files steps).result = .ok registry) {documents : List Gherkin.Document}
    (hparses : List.Forall₂ (Parses files) features documents) (format : Format) :
    ∃ report : Report,
      (runCheck files format steps features).result =
        .ok ⟨.ofBool report.isSuccess, writeReport format report⟩ ∧
      report.outcomes = documents.flatMap (outcomesOf ⟨registry, .empty⟩) := by
  have hempty : Host.AtRoot (Host.empty : Host Unit).scopes := .mk .empty
  obtain ⟨last, hlast, hat, hreport⟩ :=
    result_checkFiles (quiet_loadRegistry hload) hparses hempty
  refine ⟨last.report, ?_, hreport⟩
  rw [runCheck, result_bind_of_ok hload, result_bind_of_ok hlast,
    result_bind_of_ok (result_lift _), perform_finish hat]
  rfl

/-! ## Outcomes and steps -/

theorem step_tests (feature : Feature) :
    feature.tests.map (·.step) = feature.scenarios.flatMap Scenario.steps := by
  simp [Feature.tests, Scenario.tests, List.map_flatMap, Function.comp_def]

/-- An outcome that tells whether the text of a step alone is matched. -/
structure Tells (Matched : String → Prop) (step : Step) (outcome : Outcome) : Prop where
  name_eq : outcome.name = step.caption
  passed_iff : outcome.status = .passed ↔ Matched step.text
  error_eq : ∀ error, outcome.status = .failed error → error = .noMatchingStep none step.text

namespace Tells
variable {Matched : String → Prop} {step : Step} {outcome : Outcome}

theorem eq_passed (h : Tells Matched step outcome) (hmatched : Matched step.text) :
    outcome = ⟨outcome.path, step.caption, .passed⟩ := by
  rw [← h.name_eq, ← h.passed_iff.2 hmatched]

theorem eq_failed (h : Tells Matched step outcome) (hnot : ¬ Matched step.text) :
    outcome = ⟨outcome.path, step.caption, .failed (.noMatchingStep none step.text)⟩ := by
  cases hstatus : outcome.status with
  | passed => exact absurd (h.passed_iff.1 hstatus) hnot
  | failed error => rw [← h.name_eq, ← h.error_eq error hstatus, ← hstatus]

end Tells

theorem tells_outcome {files : Files} {steps : List String} {registry : Registry Unit}
    (h : (loadRegistry files steps).result = .ok registry) (format : Format)
    (test : Feature.Test) :
    Tells (Matches files format steps) test.step
      (test.outcome (Runner.resolution ⟨registry, .empty⟩ test.step.text)) := by
  rcases resolution_cases h format test.step.text with ⟨hmatches, heq⟩ | ⟨hnot, heq⟩
  · rw [heq]
    exact ⟨rfl, iff_of_true rfl hmatches, nofun⟩
  · rw [heq]
    refine ⟨rfl, iff_of_false nofun hnot, fun error herror => ?_⟩
    cases herror
    rfl

theorem isSuccess_iff {report : Report} :
    report.isSuccess = true ↔ ∀ outcome ∈ report.outcomes, outcome.status = .passed := by
  simp [Report.isSuccess, Report.failures, List.filter_eq_nil_iff, Outcome.isPassed]

/-- Where step files can be loaded and features read, the report that is written on the features has
one outcome for each of their steps, in order, and no other. It has passed if the text of the step
would be matched, and else tells that nothing matches that text. The command succeeds if all texts
would be matched. -/
theorem runCheck_agrees {files : Files} {steps features : List String}
    (hload : ∃ registry, (loadRegistry files steps).result = .ok registry)
    {documents : List Gherkin.Document}
    (hparses : List.Forall₂ (Parses files) features documents) (format matching : Format) :
    ∃ (report : Report) (status : CommandStatus) (output : String),
      (runCheck files format steps features).result = .ok ⟨status, output⟩ ∧
      report.WrittenAs format output ∧
      List.Forall₂ (Tells (Matches files matching steps))
        (documents.flatMap (·.expandedSteps)) report.outcomes ∧
      report.outcomes.map (·.path) =
        documents.flatMap (fun document => document.feature.tests.map (·.path)) ∧
      (status = .success ↔
        ∀ step ∈ documents.flatMap (·.expandedSteps), Matches files matching steps step.text) := by
  obtain ⟨registry, hregistry⟩ := hload
  obtain ⟨report, hresult, houtcomes⟩ := result_runCheck hregistry hparses format
  have hsteps : documents.flatMap (·.expandedSteps) =
      (documents.flatMap fun document => document.feature.tests).map (·.step) := by
    rw [List.map_flatMap]
    simp only [step_tests, Gherkin.steps_feature]
  have hreport : report.outcomes = (documents.flatMap fun document => document.feature.tests).map
      fun test => test.outcome (Runner.resolution ⟨registry, .empty⟩ test.step.text) := by
    rw [houtcomes, List.map_flatMap]
    rfl
  refine ⟨report, _, _, hresult, report.writtenAs_writeReport format, ?_, ?_, ?_⟩
  · rw [hsteps, hreport, List.forall₂_map_left_iff, List.forall₂_map_right_iff, List.forall₂_same]
    exact fun test _ => tells_outcome hregistry matching test
  · rw [hreport, List.map_map, List.map_flatMap]
    rfl
  · rw [ofBool_eq_success_iff, isSuccess_iff, hsteps, hreport]
    simp only [List.forall_mem_map]
    exact forall₂_congr fun test _ => (tells_outcome hregistry matching test).passed_iff

def basketDocument : Gherkin.Document :=
  ⟨"basket", [⟨.context, "I have 3 items"⟩],
    [⟨"more", [⟨.action, "I take <n> items"⟩], [⟨["n"], [["2"]]⟩]⟩],
    [⟨[], [⟨"empty", [⟨.outcome, "nothing is left"⟩], []⟩]⟩]⟩

def itemsTokens : List Expression.Token :=
  [.text "I".toList, .blank [' '], .text "have".toList, .blank [' '], .parameter 7 "int".toList,
   .blank [' '], .text "items".toList]

/-- One definition is searched for everywhere in a text, and the other has to match all of it. -/
theorem arguments?_basketFiles :
    (∀ text ∈ ["I have 3 items", "I take 2 items"],
      Definition.arguments? ⟨.outcome, "items", .regex, "Then(/items/, g)"⟩ text = some []) ∧
    Definition.arguments? ⟨.outcome, "items", .regex, "Then(/items/, g)"⟩ "nothing is left" =
      none ∧
    Definition.arguments? ⟨.context, "I have {int} items", .expression,
      "Given('I have {int} items', f)"⟩ "nothing is left" = none := by
  obtain ⟨compiled, hcompiled⟩ :
      ∃ compiled, Expression.compile "I have {int} items".toList = .ok compiled := ⟨_, rfl⟩
  have hread : Expression.tokens "I have {int} items".toList = .ok itemsTokens := rfl
  have hsplits : Expression.splits itemsTokens "nothing is left".toList = [] := by decide +kernel
  have hmatch : compiled.match? "nothing is left".toList = .ok none := by
    rw [Expression.match?_eq_head? hcompiled hread, hsplits]
    rfl
  refine ⟨?_, by cbv, Definition.arguments?_of_match? rfl hcompiled hmatch⟩
  simp only [List.forall_mem_cons]
  exact ⟨by cbv, by cbv, List.forall_mem_nil _⟩

/-- The texts of the steps, each of them alone. -/
theorem matches_basketFiles :
    Matches basketFiles .json ["shared.js", "basket.js"] "I have 3 items" ∧
      Matches basketFiles .json ["shared.js", "basket.js"] "I take 2 items" ∧
      ¬ Matches basketFiles .json ["shared.js", "basket.js"] "nothing is left" := by
  have hload := loadRegistry_eq_ok_iff.2 ⟨isSome_basketFiles, compiles_basketFiles, rfl⟩
  obtain ⟨hsome, hsearch, hwhole⟩ := arguments?_basketFiles
  have hhave := hsome "I have 3 items" (by simp)
  have htake := hsome "I take 2 items" (by simp)
  simp [Matches, result_runResolve hload, Definition.ofKind, definitionsIn_basketFiles,
    Definition.firstIn, hhave, htake, hsearch, hwhole, matchFound, Except.isOk, Except.toBool,
    CommandStatus.ofBool, Except.map]

def basketReport : Report where
  outcomes :=
    [⟨["Feature: basket", "Scenario: more (example 1)"], "Given I have 3 items", .passed⟩,
     ⟨["Feature: basket", "Scenario: more (example 1)"], "When I take 2 items", .passed⟩,
     ⟨["Feature: basket", "Scenario: empty"], "Given I have 3 items", .passed⟩,
     ⟨["Feature: basket", "Scenario: empty"], "Then nothing is left",
       .failed (.noMatchingStep none "nothing is left")⟩]

def basketOutput : String :=
  "ok   Feature: basket > Scenario: more (example 1) > Given I have 3 items\n" ++
    "ok   Feature: basket > Scenario: more (example 1) > When I take 2 items\n" ++
    "ok   Feature: basket > Scenario: empty > Given I have 3 items\n" ++
    "FAIL Feature: basket > Scenario: empty > Then nothing is left" ++
    " - no step definition matches \"nothing is left\"\n" ++
    "3 passed, 1 failed\n"

theorem runCheck_agrees_basketFiles :
    (runCheck basketFiles .text ["shared.js", "basket.js"] ["basket.feature"]).result =
      .ok ⟨.failure, basketOutput⟩ := by
  have hload := loadRegistry_eq_ok_iff.2 ⟨isSome_basketFiles, compiles_basketFiles, rfl⟩
  have hparses : Parses basketFiles "basket.feature" basketDocument := ⟨_, rfl, by decide +kernel⟩
  obtain ⟨hhave, htake, hleft⟩ := matches_basketFiles
  obtain ⟨report, status, output, hresult, hwritten, htells, hpaths, hstatus⟩ :=
    runCheck_agrees ⟨_, hload⟩ (.cons hparses .nil) .text .json
  have hsteps : [basketDocument].flatMap (·.expandedSteps) =
      [⟨.context, "I have 3 items"⟩, ⟨.action, "I take 2 items"⟩,
        ⟨.context, "I have 3 items"⟩, ⟨.outcome, "nothing is left"⟩] := by
    decide +kernel
  have hplaces : [basketDocument].flatMap (·.feature.tests.map (·.path)) =
      basketReport.outcomes.map (·.path) := by
    decide +kernel
  rw [hsteps] at htells hstatus
  rw [hplaces] at hpaths
  obtain rfl : status = .failure := by
    cases status with
    | success => exact absurd (hstatus.1 rfl ⟨.outcome, "nothing is left"⟩ (by simp)) hleft
    | failure => rfl
  obtain rfl : report = basketReport := by
    obtain ⟨outcomes⟩ := report
    simp only [List.forall₂_cons_left_iff, List.forall₂_nil_left_iff] at htells
    obtain ⟨first, _, hfirst, ⟨second, _, hsecond, ⟨third, _, hthird,
      ⟨fourth, _, hfourth, rfl, rfl⟩, rfl⟩, rfl⟩, rfl⟩ := htells
    rw [hfirst.eq_passed hhave, hsecond.eq_passed htake, hthird.eq_passed hhave,
      hfourth.eq_failed hleft]
    simpa [basketReport, Step.caption] using hpaths
  obtain rfl := hwritten.eq_writeReport
  have houtput : writeReport .text basketReport = basketOutput := by decide +kernel
  rw [hresult, houtput]

end Stepbook.Command
