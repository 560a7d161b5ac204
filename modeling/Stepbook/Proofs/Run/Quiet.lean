import Stepbook.Proofs.Run.Features

/-! # Quiet runs

A runner is quiet if neither its hooks nor its handlers do anything. Its runs then show nothing but
how the texts of steps are resolved.

* `Runner.Quiet`: a runner whose callbacks do nothing.
* `Runner.resolution`: why the text of a step is not resolved, if it is not.
* `FeaturesRun.outcomes_eq`: without failures, the outcomes are these resolutions.
* `Quiet.reply_eq`: the calls of a quiet runner do not fail.
-/

namespace Stepbook
set_option autoImplicit false

variable {σ : Type}

namespace Runner

structure Quiet (runner : Runner σ) : Prop where
  hooks : ∀ point, runner.hooks.callback point = .nothing
  handlers : ∀ (text : String) (found : ResolvedStep σ),
    (runner.steps.resolve text).value = .ok found → found.invoke = .nothing

def resolution (runner : Runner σ) (text : String) : Option StepError :=
  StepError.of? (runner.steps.resolve text).value

/-! ## Outcomes without failures -/

section
variable {runner : Runner σ} {events : List (Event σ)} {outcomes : List Outcome}

theorem StepRun.failure_eq {step : Step} {failure : Option StepError}
    (h : runner.StepRun step events failure) (hok : ∀ event ∈ events, event.reply = .ok) :
    failure = runner.resolution step.text := by
  cases h with
  | @refused before after error fails =>
    have hbefore : before = .ok := hok _ (List.mem_cons_self ..)
    rw [hbefore] at fails
    cases fails
  | unmatched passes resolved =>
    rw [resolution, resolved]
    rfl
  | @matched before reply after found passes resolved =>
    simp only [List.forall_mem_cons] at hok
    obtain ⟨-, hreply : reply = .ok, hafter : after = .ok, -⟩ := hok
    rw [resolution, resolved, hreply, hafter]
    rfl

theorem StepsRun.outcomes_eq {tests : List Feature.Test}
    (h : runner.StepsRun tests events outcomes) (hok : ∀ event ∈ events, event.reply = .ok) :
    outcomes = tests.map fun test => test.outcome (runner.resolution test.step.text) := by
  induction h with
  | nil => rfl
  | cons first others ih =>
    obtain ⟨hfirst, hothers⟩ := List.forall_mem_append.1 hok
    rw [List.map_cons, ih hothers, first.failure_eq hfirst]

theorem FeatureRun.outcomes_eq {feature : Feature} (h : runner.FeatureRun feature events outcomes)
    (hok : ∀ event ∈ events, event.reply = .ok) :
    outcomes = feature.tests.map fun test => test.outcome (runner.resolution test.step.text) := by
  cases h with
  | idle none =>
    rw [none]
    rfl
  | @refused before after error some fails =>
    have hbefore : before = .ok := hok _ (List.mem_cons_self ..)
    rw [hbefore] at fails
    cases fails
  | @run before after events outcomes some passes steps =>
    obtain ⟨hothers, hlast⟩ := List.forall_mem_append.1 hok
    obtain rfl : after = .ok := hlast _ (List.mem_singleton_self _)
    rw [steps.outcomes_eq (List.forall_mem_cons.1 hothers).2]
    exact List.append_nil _

/-- Where all calls succeed, a step passes if its text is resolved. -/
theorem FeaturesRun.outcomes_eq {features : List Feature}
    (h : runner.FeaturesRun features events outcomes)
    (hok : ∀ event ∈ events, event.reply = .ok) :
    outcomes = features.flatMap fun feature =>
      feature.tests.map fun test => test.outcome (runner.resolution test.step.text) := by
  induction h with
  | nil => rfl
  | cons first rest ih =>
    obtain ⟨hfirst, hrest⟩ := List.forall_mem_append.1 hok
    rw [List.flatMap_cons, ih hrest, first.outcomes_eq hfirst]

end

/-! ## Calls of a quiet runner -/

namespace Quiet
variable {runner : Runner σ} {events : List (Event σ)} {outcomes : List Outcome}

theorem callback_step (h : runner.Quiet) {step : Step} {failure : Option StepError}
    (hrun : runner.StepRun step events failure) :
    ∀ event ∈ events, event.callback runner.hooks = .nothing := by
  cases hrun with
  | refused fails => simp [Event.callback, h.hooks]
  | unmatched passes resolved => simp [Event.callback, h.hooks]
  | matched passes resolved =>
    simp [Event.callback, h.hooks, h.handlers _ _ resolved]

theorem callback_steps (h : runner.Quiet) {tests : List Feature.Test}
    (hrun : runner.StepsRun tests events outcomes) :
    ∀ event ∈ events, event.callback runner.hooks = .nothing := by
  induction hrun with
  | nil => simp
  | cons first others ih => exact List.forall_mem_append.2 ⟨h.callback_step first, ih⟩

theorem callback_feature (h : runner.Quiet) {feature : Feature}
    (hrun : runner.FeatureRun feature events outcomes) :
    ∀ event ∈ events, event.callback runner.hooks = .nothing := by
  cases hrun with
  | idle none => simp
  | refused some fails => simp [Event.callback, h.hooks]
  | run some passes steps =>
    refine List.forall_mem_append.2 ⟨List.forall_mem_cons.2 ⟨h.hooks _, ?_⟩, ?_⟩
    · exact h.callback_steps steps
    · simp [Event.callback, h.hooks]

theorem callback_features (h : runner.Quiet) {features : List Feature}
    (hrun : runner.FeaturesRun features events outcomes) :
    ∀ event ∈ events, event.callback runner.hooks = .nothing := by
  induction hrun with
  | nil => simp
  | cons first rest ih => exact List.forall_mem_append.2 ⟨h.callback_feature first, ih⟩

end Quiet

end Runner

/-- What does nothing succeeds. -/
theorem Performs.reply_eq {hooks : HookRegistry σ} {events : List (Event σ)}
    {session last : Session σ} (h : Performs hooks events session last)
    (hnothing : ∀ event ∈ events, event.callback hooks = .nothing) :
    ∀ event ∈ events, event.reply = .ok := by
  induction h with
  | nil session => simp
  | told records others ih => exact ih hnothing
  | call replies others ih =>
    obtain ⟨hfirst, hothers⟩ := List.forall_mem_cons.1 hnothing
    rw [hfirst] at replies
    exact List.forall_mem_cons.2 ⟨replies.symm, ih hothers⟩

/-- A quiet run of features has one outcome for each step, which tells how its text is resolved. -/
theorem Runner.Quiet.outcomes_eq {runner : Runner σ} (h : runner.Quiet)
    {features : List Feature} {events : List (Event σ)} {outcomes : List Outcome}
    {session last : Session σ} (hperforms : Performs runner.hooks events session last)
    (hrun : runner.FeaturesRun features events outcomes) :
    outcomes = features.flatMap fun feature =>
      feature.tests.map fun test => test.outcome (runner.resolution test.step.text) :=
  hrun.outcomes_eq (hperforms.reply_eq (h.callback_features hrun))

end Stepbook
