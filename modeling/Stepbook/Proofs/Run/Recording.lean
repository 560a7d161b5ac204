import Mathlib.Data.List.TakeWhile
import Stepbook.Run.Recorder
import Stepbook.Run.Runner

/-! # Recorders that cannot do everything

What a recorder keeps of declarations is what a recorder that can do everything keeps of them, up to
the first event that it cannot take.

* `Event.method`: what an event takes.
* `Recording.andThen`: recordings in order, up to the first that ends with an error.
* `Recorder.cut`, `record_eq_cut`: all up to the first event that a recorder cannot take.
* `Feature.events`: what there is to record of a feature.
* `Method.UsedBy`: what features use of a host.
* `Runner.record_features`: what a recorder keeps of the features of an input.
-/

namespace Stepbook
set_option autoImplicit false

variable {σ α : Type}

namespace Recorder

/-! ## Events -/

def Event.method : Event → Method
  | .enter _ | .leave _ => .group
  | .test _ => .test
  | .hook point => .hook point

/-- The recorder that can do everything. -/
def full : Recorder :=
  ⟨fun _ => true⟩

/-- The recorder can do what the event takes. -/
def takes (recorder : Recorder) (event : Event) : Bool :=
  recorder.provides event.method

/-! ## Recordings in order -/

def Recording.andThen (first others : Recording) : Recording :=
  match first.result with
  | .ok () => ⟨first.events ++ others.events, others.result⟩
  | .error error => ⟨first.events, .error error⟩

theorem Recording.andThen_assoc (first second third : Recording) :
    (first.andThen second).andThen third = first.andThen (second.andThen third) := by
  obtain ⟨events, result⟩ := first
  obtain ⟨more, later⟩ := second
  cases result with
  | ok value =>
    cases later with
    | ok value => exact congrArg (Recording.mk · third.result) (List.append_assoc _ _ _)
    | error error => rfl
  | error error => rfl

theorem Recording.andThen_nil (first : Recording) : first.andThen ⟨[], .ok ()⟩ = first := by
  obtain ⟨events, result⟩ := first
  cases result with
  | ok value => exact congrArg (Recording.mk · (.ok ())) (List.append_nil events)
  | error error => rfl

theorem Recording.within_eq (body : Recording) (name : String) :
    body.within name = andThen ⟨[.enter name], .ok ()⟩ (body.andThen ⟨[.leave name], .ok ()⟩) := by
  rw [within, andThen, andThen]
  cases body.result <;> rfl

/-- A group is entered, its body is recorded, and it is left. -/
theorem declare_group (recorder : Recorder) (name : String) (body : List (Declaration σ)) :
    (recorder.declare (.group name body)).value = (recorder.keep .group (.enter name)).andThen
      ((recorder.record body).value.andThen (recorder.keep .group (.leave name))) := by
  rw [declare, keep, keep]
  cases recorder.provides .group with
  | true => exact Recording.within_eq _ name
  | false => rfl

theorem record_cons (recorder : Recorder) (declaration : Declaration σ)
    (rest : List (Declaration σ)) : (recorder.record (declaration :: rest)).value =
      (recorder.declare declaration).value.andThen (recorder.record rest).value := by
  rw [record, Recording.andThen, Logged.value_bind]
  cases (recorder.declare declaration).value.result <;> rfl

theorem record_single (recorder : Recorder) (declaration : Declaration σ) :
    (recorder.record [declaration]).value = (recorder.declare declaration).value := by
  rw [record_cons, record]
  exact Recording.andThen_nil _

theorem record_append (recorder : Recorder) (declarations more : List (Declaration σ)) :
    (recorder.record (declarations ++ more)).value =
      (recorder.record declarations).value.andThen (recorder.record more).value := by
  induction declarations with
  | nil =>
    rw [List.nil_append, record]
    rfl
  | cons declaration rest ih =>
    rw [List.cons_append, record_cons, record_cons, ih, Recording.andThen_assoc]

/-! ## Up to the first event that cannot be taken -/

/-- The first part of a recording that holds only events that the recorder can take. -/
def cut (recorder : Recorder) (whole : Recording) : Recording where
  events := whole.events.takeWhile recorder.takes
  result :=
    match (whole.events.dropWhile recorder.takes).head? with
    | none => whole.result
    | some event => .error (.missingMethod event.method.name)

section
variable {recorder : Recorder}

theorem cut_of_all {whole : Recording} (h : ∀ event ∈ whole.events, recorder.takes event = true) :
    recorder.cut whole = whole := by
  rw [cut, List.takeWhile_eq_self_iff.2 h, List.dropWhile_eq_nil_iff.2 h]
  rfl

theorem cut_of_split {before after : List Event} {event : Event}
    (hbefore : ∀ other ∈ before, recorder.takes other = true)
    (hevent : recorder.takes event = false) (result : Except RunError Unit) :
    recorder.cut ⟨before ++ event :: after, result⟩ =
      ⟨before, .error (.missingMethod event.method.name)⟩ := by
  have hnot : ¬ recorder.takes event = true := by rw [hevent]; exact Bool.false_ne_true
  rw [cut, List.takeWhile_append_of_pos hbefore, List.dropWhile_append_of_pos hbefore,
    List.takeWhile_cons_of_neg hnot, List.dropWhile_cons_of_neg hnot, List.append_nil]
  rfl

theorem all_or_split (recorder : Recorder) (events : List Event) :
    (∀ event ∈ events, recorder.takes event = true) ∨
      ∃ before event after, events = before ++ event :: after ∧
        (∀ other ∈ before, recorder.takes other = true) ∧ recorder.takes event = false := by
  induction events with
  | nil => exact .inl fun _ hevent => absurd hevent List.not_mem_nil
  | cons first rest ih =>
    cases hfirst : recorder.takes first with
    | false => exact .inr ⟨[], first, rest, rfl, fun _ hother => absurd hother List.not_mem_nil, hfirst⟩
    | true =>
      refine ih.imp (fun hall => List.forall_mem_cons.2 ⟨hfirst, hall⟩) ?_
      rintro ⟨before, event, after, rfl, hbefore, hevent⟩
      exact ⟨first :: before, event, after, rfl, List.forall_mem_cons.2 ⟨hfirst, hbefore⟩, hevent⟩

theorem cut_andThen (recorder : Recorder) (first others : Recording) :
    recorder.cut (first.andThen others) = (recorder.cut first).andThen (recorder.cut others) := by
  obtain ⟨events, result⟩ := first
  rcases recorder.all_or_split events with hall | ⟨before, event, after, rfl, hbefore, hevent⟩
  · have hfirst : recorder.cut ⟨events, result⟩ = ⟨events, result⟩ := cut_of_all hall
    rw [hfirst]
    cases result with
    | ok value =>
      rw [Recording.andThen, Recording.andThen, cut, List.takeWhile_append_of_pos hall,
        List.dropWhile_append_of_pos hall]
      rfl
    | error error => exact cut_of_all hall
  · rw [cut_of_split hbefore hevent]
    cases result with
    | ok value =>
      rw [Recording.andThen, Recording.andThen, List.append_assoc, List.cons_append]
      exact cut_of_split hbefore hevent _
    | error error => exact cut_of_split hbefore hevent _

theorem cut_single (recorder : Recorder) (event : Event) :
    recorder.cut ⟨[event], .ok ()⟩ = recorder.keep event.method event := by
  rw [keep]
  cases h : recorder.provides event.method with
  | true => exact cut_of_all (List.forall_mem_singleton.2 h)
  | false =>
    have hnone : ∀ other ∈ ([] : List Event), recorder.takes other = true :=
      fun _ hother => absurd hother List.not_mem_nil
    exact cut_of_split hnone h _

mutual

theorem declare_eq_cut (recorder : Recorder) : (declaration : Declaration σ) →
    (recorder.declare declaration).value = recorder.cut (full.declare declaration).value
  | .group name body => by
    rw [declare_group, declare_group, record_eq_cut recorder body, cut_andThen, cut_andThen]
    exact congrArg₂ Recording.andThen (cut_single recorder (.enter name)).symm
      (congrArg _ (cut_single recorder (.leave name)).symm)
  | .test name body => by
    rw [declare, declare]
    exact (cut_single recorder (.test name)).symm
  | .hook point callback => by
    rw [declare, declare]
    exact (cut_single recorder (.hook point)).symm
  | .stop error => by
    rw [declare, declare]
    rfl
  | .note record => by
    rw [declare, declare]
    rfl

/-- What a recorder keeps is what one that can do everything keeps, up to the first event that it
cannot take. -/
theorem record_eq_cut (recorder : Recorder) : (declarations : List (Declaration σ)) →
    (recorder.record declarations).value = recorder.cut (full.record declarations).value
  | [] => by
    rw [record, record]
    rfl
  | declaration :: rest => by
    rw [record_cons, record_cons, declare_eq_cut recorder declaration, record_eq_cut recorder rest,
      cut_andThen]

end

theorem cut_result_eq_ok_iff (recorder : Recorder) (events : List Event) :
    (recorder.cut ⟨events, .ok ()⟩).result = .ok () ↔
      ∀ event ∈ events, recorder.takes event = true := by
  constructor
  · intro hresult
    rcases recorder.all_or_split events with hall | ⟨before, event, after, rfl, hbefore, hevent⟩
    · exact hall
    · rw [cut_of_split hbefore hevent] at hresult
      cases hresult
  · intro hall
    rw [cut_of_all hall]

theorem exists_of_cut_result {events : List Event} {error : RunError}
    (h : (recorder.cut ⟨events, .ok ()⟩).result = .error error) :
    ∃ event ∈ events, recorder.takes event = false ∧ error = .missingMethod event.method.name := by
  rcases recorder.all_or_split events with hall | ⟨before, event, after, rfl, hbefore, hevent⟩
  · rw [cut_of_all hall] at h
    cases h
  · rw [cut_of_split hbefore hevent] at h
    cases h
    exact ⟨event, List.mem_append_right _ List.mem_cons_self, hevent, rfl⟩

end

/-! ## Features -/

theorem record_flatMap {recorder : Recorder} {declarations : α → List (Declaration σ)}
    {events : α → List Event} (items : List α)
    (h : ∀ item, (recorder.record (declarations item)).value = ⟨events item, .ok ()⟩) :
    (recorder.record (items.flatMap declarations)).value = ⟨items.flatMap events, .ok ()⟩ := by
  induction items with
  | nil =>
    rw [List.flatMap_nil, record]
    rfl
  | cons item items ih =>
    rw [List.flatMap_cons, record_append, h, ih]
    rfl

theorem record_notes (recorder : Recorder) (records : List Log.Record) :
    (recorder.record (records.map (Declaration.note (σ := σ)))).value = ⟨[], .ok ()⟩ := by
  induction records with
  | nil =>
    rw [List.map_nil, record]
    rfl
  | cons record records ih =>
    rw [List.map_cons, record_cons, ih, declare]
    rfl

end Recorder

/-- What there is to record of a scenario: a test for each step. -/
def Scenario.events (scenario : Scenario) : List Recorder.Event :=
  .enter scenario.groupName :: (scenario.steps.map (fun step => .test step.testName) ++
    [.leave scenario.groupName])

/-- What there is to record of a feature: the four hooks, and then its scenarios. -/
def Feature.events (feature : Feature) : List Recorder.Event :=
  .enter feature.groupName :: (HookPoint.all.map .hook ++
    feature.scenarios.flatMap Scenario.events ++ [.leave feature.groupName])

namespace Runner

open Recorder (full)

theorem record_scenario (runner : Runner σ) (document : Scenario) :
    (full.record [runner.scenario document]).value = ⟨document.events, .ok ()⟩ := by
  have hsteps : (full.record (document.steps.map runner.step)).value =
      ⟨document.steps.map (fun step => .test step.testName), .ok ()⟩ := by
    rw [List.map_eq_flatMap, List.map_eq_flatMap]
    refine Recorder.record_flatMap document.steps fun item => ?_
    rw [Recorder.record_single, step, Recorder.declare]
    rfl
  rw [Recorder.record_single, scenario, Recorder.declare_group, hsteps]
  rfl

theorem record_feature (runner : Runner σ) (document : Feature) :
    (full.record (runner.feature document)).value = ⟨document.events, .ok ()⟩ := by
  have hhooks : (full.record (HookPoint.all.map runner.hook)).value =
      ⟨HookPoint.all.map .hook, .ok ()⟩ := by
    rw [List.map_eq_flatMap, List.map_eq_flatMap]
    refine Recorder.record_flatMap HookPoint.all fun point => ?_
    rw [Recorder.record_single, hook, Recorder.declare]
    rfl
  have hscenarios : (full.record (document.scenarios.map runner.scenario)).value =
      ⟨document.scenarios.flatMap Scenario.events, .ok ()⟩ := by
    rw [List.map_eq_flatMap]
    exact Recorder.record_flatMap document.scenarios runner.record_scenario
  rw [feature, Recorder.record_cons, Recorder.record_single, Recorder.declare_group,
    Recorder.record_append, hhooks, hscenarios, Recorder.declare]
  rfl

/-- What there is to record of an input. -/
theorem record_full (runner : Runner σ) {input : FeatureInput} {documents : List Feature}
    (h : input.features.value = .ok documents) :
    (full.record (runner.declarations input)).value =
      ⟨documents.flatMap Feature.events, .ok ()⟩ := by
  rw [declarations, h]
  show (full.record (input.features.records.map .note ++ runner.features documents)).value = _
  rw [Recorder.record_append, Recorder.record_notes, features, Recorder.record_cons,
    Recorder.record_flatMap documents runner.record_feature, Recorder.declare]
  rfl

end Runner

/-! ## What features use of a host -/

def Method.UsedBy (features : List Feature) : Method → Prop
  | .group | .hook _ => features ≠ []
  | .test => ∃ feature ∈ features, ∃ scenario ∈ feature.scenarios, scenario.steps ≠ []

theorem Feature.test_mem_events {feature : Feature} {name : String} :
    .test name ∈ feature.events ↔
      ∃ scenario ∈ feature.scenarios, ∃ step ∈ scenario.steps, step.testName = name := by
  simp [events, Scenario.events]

theorem Feature.hook_mem_events (feature : Feature) (point : HookPoint) :
    .hook point ∈ feature.events := by
  cases point <;> simp [events, HookPoint.all]

theorem Method.usedBy_iff (features : List Feature) (method : Method) : method.UsedBy features ↔
    ∃ event ∈ features.flatMap Feature.events, event.method = method := by
  constructor
  · intro hused
    cases method with
    | group =>
      obtain ⟨feature, hfeature⟩ := List.exists_mem_of_ne_nil features hused
      exact ⟨_, List.mem_flatMap.2 ⟨feature, hfeature, List.mem_cons_self⟩, rfl⟩
    | test =>
      obtain ⟨feature, hfeature, scenario, hscenario, hsteps⟩ := hused
      obtain ⟨step, hstep⟩ := List.exists_mem_of_ne_nil scenario.steps hsteps
      have hmem : .test step.testName ∈ feature.events :=
        Feature.test_mem_events.2 ⟨scenario, hscenario, step, hstep, rfl⟩
      exact ⟨_, List.mem_flatMap.2 ⟨feature, hfeature, hmem⟩, rfl⟩
    | hook point =>
      obtain ⟨feature, hfeature⟩ := List.exists_mem_of_ne_nil features hused
      exact ⟨_, List.mem_flatMap.2 ⟨feature, hfeature, feature.hook_mem_events point⟩, rfl⟩
  · rintro ⟨event, hevent, rfl⟩
    obtain ⟨feature, hfeature, hmem⟩ := List.mem_flatMap.1 hevent
    have hne : features ≠ [] := List.ne_nil_of_mem hfeature
    cases event with
    | enter name => exact hne
    | leave name => exact hne
    | test name =>
      obtain ⟨scenario, hscenario, step, hstep, -⟩ := Feature.test_mem_events.1 hmem
      exact ⟨feature, hfeature, scenario, hscenario, List.ne_nil_of_mem hstep⟩
    | hook point => exact hne

namespace Runner

/-- What a recorder keeps of the features of an input is all that there is to record of them, up to
the first event that it cannot take. It needs no more than what the features use. -/
theorem record_features (runner : Runner σ) {input : FeatureInput} {features : List Feature}
    (h : input.features.value = .ok features) (recorder : Recorder) :
    (Recorder.full.record (runner.declarations input)).value =
        ⟨features.flatMap Feature.events, .ok ()⟩ ∧
      (recorder.record (runner.declarations input)).value =
        recorder.cut ⟨features.flatMap Feature.events, .ok ()⟩ ∧
      ((recorder.record (runner.declarations input)).value.result = .ok () ↔
        ∀ method : Method, method.UsedBy features → recorder.provides method = true) ∧
      (∀ error, (recorder.record (runner.declarations input)).value.result = .error error →
        ∃ method : Method, method.UsedBy features ∧ recorder.provides method = false ∧
          error = .missingMethod method.name) := by
  have hcut : (recorder.record (runner.declarations input)).value =
      recorder.cut ⟨features.flatMap Feature.events, .ok ()⟩ := by
    rw [Recorder.record_eq_cut, runner.record_full h]
  refine ⟨runner.record_full h, hcut, ?_, fun error herror => ?_⟩
  · rw [hcut, Recorder.cut_result_eq_ok_iff]
    constructor
    · intro hall method hused
      obtain ⟨event, hevent, rfl⟩ := (Method.usedBy_iff features method).1 hused
      exact hall event hevent
    · intro hall event hevent
      exact hall event.method ((Method.usedBy_iff features event.method).2 ⟨event, hevent, rfl⟩)
  · rw [hcut] at herror
    obtain ⟨event, hevent, hmissing, heq⟩ := Recorder.exists_of_cut_result herror
    exact ⟨event.method, (Method.usedBy_iff features event.method).2 ⟨event, hevent, rfl⟩,
      hmissing, heq⟩

/-- All but tests. -/
def testless : Recorder :=
  ⟨fun method => method ≠ .test⟩

/-- A feature without scenarios, and one whose second scenario has a step. -/
def basketFeatures : List Feature :=
  [⟨"Empty", []⟩, ⟨"Basket", [⟨"Idle", []⟩, ⟨"Adding", [⟨.context, "an empty basket"⟩]⟩]⟩]

def bareRunner : Runner Nat :=
  ⟨.empty, .empty⟩

theorem record_features_testless :
    (FeatureInput.many basketFeatures).features.value = .ok basketFeatures ∧
      (testless.record (bareRunner.declarations (.many basketFeatures))).value =
        ⟨[.enter "Feature: Empty", .hook .beforeAll, .hook .afterAll, .hook .beforeEach,
            .hook .afterEach, .leave "Feature: Empty", .enter "Feature: Basket", .hook .beforeAll,
            .hook .afterAll, .hook .beforeEach, .hook .afterEach, .enter "Scenario: Idle",
            .leave "Scenario: Idle", .enter "Scenario: Adding"],
          .error (.missingMethod "test")⟩ := by
  have hfeatures : (FeatureInput.many basketFeatures).features.value = .ok basketFeatures := rfl
  exact ⟨hfeatures, (record_features bareRunner hfeatures testless).2.1⟩

end Runner

end Stepbook
