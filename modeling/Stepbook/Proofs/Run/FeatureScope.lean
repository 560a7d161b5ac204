import Stepbook.Proofs.Run.FeatureRun
import Stepbook.Proofs.Run.Root

/-! # The scopes of features and scenarios

While features run on a root that has no hooks, only the scope of a feature has any: one for each
point. The scopes around it and in it are passed through without a call.

* `Scope.Bare`: a scope without hooks, and ready for tests.
* `InFeature`, `InScenario`: the open scopes in a feature, and in one of its scenarios.
* `SetUp`: setting up the scope of a feature.
* `InScenario.start`, `InScenario.beforeEach`, `InScenario.afterEach`, `InFeature.leave`: what the
  scopes call.
-/

namespace Stepbook
set_option autoImplicit false

variable {σ : Type}

/-! ## Open scopes -/

namespace Host

/-- Neither has hooks nor has failed. -/
structure Scope.Bare (scope : Scope σ) : Prop where
  hooks : ∀ point, scope.hooks point = []
  ready : scope.ready = .ok ()

namespace Scope.Bare

theorem empty : (Scope.empty : Scope σ).Bare :=
  ⟨fun _ => rfl, rfl⟩

variable {scope : Scope σ}

theorem run (h : scope.Bare) (point : HookPoint) : scope.run point = pure (.ok ()) := by
  rw [Scope.run, h.hooks]
  rfl

theorem start (h : scope.Bare) : ∃ next, scope.start = pure next ∧ next.Bare := by
  rw [Scope.start.eq_def]
  cases hsetup : scope.setup with
  | pending =>
    refine ⟨{ scope with setup := .done }, ?_, h.hooks, rfl⟩
    dsimp only
    rw [h.run, pure_bind]
  | done => exact ⟨scope, rfl, h⟩
  | failed error =>
    have hready := h.ready
    rw [Scope.ready.eq_def, hsetup] at hready
    cases hready

theorem finish (h : scope.Bare) : scope.finish = pure (.ok ()) := by
  rw [Scope.finish.eq_def, h.run]
  cases scope.setup <;> rfl

theorem close (h : scope.Bare) (path : List String) (report : Report) :
    close path scope report = pure report := by
  rw [Host.close, h.finish, pure_bind]

end Scope.Bare

/-- The scope of a feature, with one hook for each point. -/
def Scope.hooked (hooks : HookRegistry σ) (setup : Setup) : Scope σ :=
  ⟨fun point => [hooks.callback point], setup⟩

inductive InFeature (hooks : HookRegistry σ) (feature : String) (setup : Setup) :
    Scopes σ → Prop where
  | mk {root : Scope σ} (bare : root.Bare) :
      InFeature hooks feature setup (.group feature (.hooked hooks setup) (.root root))

inductive InScenario (hooks : HookRegistry σ) (feature scenario : String) (setup : Setup) :
    Scopes σ → Prop where
  | mk {own : Scope σ} {outer : Scopes σ} (bare : own.Bare)
      (others : InFeature hooks feature setup outer) :
      InScenario hooks feature scenario setup (.group scenario own outer)

/-- Setting up the scope of a feature before a test in it. -/
inductive SetUp : Setup → List (Event σ) → Setup → Prop where
  | now (reply : Reply) : SetUp .pending [.hook .beforeAll reply] (.ofResult reply.result)
  | already {setup : Setup} (started : setup ≠ .pending) : SetUp setup [] setup

theorem SetUp.ne_pending {setup last : Setup} {events : List (Event σ)}
    (h : SetUp setup events last) : last ≠ .pending := by
  cases h with
  | now reply => cases reply.result <;> exact nofun
  | already started => exact started

variable {hooks : HookRegistry σ} {feature scenario : String} {setup : Setup} {scopes : Scopes σ}

theorem plays_start_hooked (hooks : HookRegistry σ) (setup : Setup) :
    Plays hooks (Scope.hooked hooks setup).start fun next events =>
      ∃ last, next = .hooked hooks last ∧ SetUp setup events last := by
  rw [Scope.start.eq_def]
  cases setup with
  | pending =>
    refine (Plays.inOrder_hook .beforeAll).bind fun result events hevents => ?_
    obtain ⟨reply, rfl, rfl⟩ := hevents
    have hsetUp : SetUp .pending ([.hook .beforeAll reply] ++ [] : List (Event σ))
        (.ofResult reply.result) := .now reply
    cases hresult : reply.result with
    | ok value =>
      rw [hresult] at hsetUp
      exact .pure ⟨.done, rfl, hsetUp⟩
    | error error =>
      rw [hresult] at hsetUp
      exact .pure ⟨.failed error, rfl, hsetUp⟩
  | done => exact .pure ⟨.done, rfl, .already (by simp)⟩
  | failed error => exact .pure ⟨.failed error, rfl, .already (by simp)⟩

namespace InFeature

theorem path_eq (h : InFeature hooks feature setup scopes) : scopes.path = [feature] := by
  cases h
  rfl

theorem start (h : InFeature hooks feature setup scopes) :
    Plays hooks scopes.start fun out events => ∃ last, SetUp setup events last ∧
      InFeature hooks feature last out.1 ∧ out.2 = (Scope.hooked hooks last).ready := by
  cases h with
  | @mk root bare =>
    obtain ⟨next, hstart, hnext⟩ := bare.start
    rw [Scopes.start, Scopes.start, hstart]
    simp only [pure_bind, hnext.ready]
    refine (plays_start_hooked hooks setup).bind_pure fun own events hown => ?_
    obtain ⟨last, rfl, hsetUp⟩ := hown
    exact ⟨last, hsetUp, .mk hnext, rfl⟩

theorem beforeEach (h : InFeature hooks feature setup scopes) :
    Plays hooks scopes.beforeEach fun result events =>
      ∃ reply : Reply, reply.result = result ∧ events = [.hook .beforeEach reply] := by
  cases h with
  | mk bare =>
    rw [Scopes.beforeEach, Scopes.beforeEach, bare.run, pure_bind]
    exact Plays.inOrder_hook .beforeEach

theorem afterEach (h : InFeature hooks feature setup scopes) :
    Plays hooks scopes.afterEach fun result events =>
      ∃ reply : Reply, reply.result = result ∧ events = [.hook .afterEach reply] := by
  cases h with
  | mk bare =>
    rw [Scopes.afterEach, Scopes.afterEach, bare.run]
    refine (Plays.inOrder_hook .afterEach).bind_pure fun result events hevents => ?_
    obtain ⟨reply, rfl, rfl⟩ := hevents
    refine ⟨reply, ?_, rfl⟩
    cases reply.result <;> rfl

end InFeature

namespace InScenario

theorem path_eq (h : InScenario hooks feature scenario setup scopes) :
    scopes.path = [feature, scenario] := by
  cases h with
  | mk bare others =>
    rw [Scopes.path, others.path_eq]
    rfl

theorem start (h : InScenario hooks feature scenario setup scopes) :
    Plays hooks scopes.start fun out events => ∃ last, SetUp setup events last ∧
      InScenario hooks feature scenario last out.1 ∧ out.2 = (Scope.hooked hooks last).ready := by
  cases h with
  | mk bare others =>
    refine others.start.bind fun out events hout => ?_
    obtain ⟨outer, result⟩ := out
    obtain ⟨last, hsetUp, houter, hready⟩ := hout
    cases result with
    | ok value =>
      obtain ⟨next, hstart, hnext⟩ := bare.start
      dsimp only
      rw [hstart, pure_bind, hnext.ready]
      refine .pure ⟨last, ?_, .mk hnext houter, hready⟩
      rwa [List.append_nil]
    | error error =>
      refine .pure ⟨last, ?_, .mk bare houter, hready⟩
      rwa [List.append_nil]

theorem beforeEach (h : InScenario hooks feature scenario setup scopes) :
    Plays hooks scopes.beforeEach fun result events =>
      ∃ reply : Reply, reply.result = result ∧ events = [.hook .beforeEach reply] := by
  cases h with
  | mk bare others =>
    refine others.beforeEach.bind fun result events hevents => ?_
    cases result with
    | ok value =>
      dsimp only
      rw [bare.run]
      exact .pure (by rwa [List.append_nil])
    | error error => exact .pure (by rwa [List.append_nil])

theorem afterEach (h : InScenario hooks feature scenario setup scopes) :
    Plays hooks scopes.afterEach fun result events =>
      ∃ reply : Reply, reply.result = result ∧ events = [.hook .afterEach reply] := by
  cases h with
  | mk bare others =>
    rw [Scopes.afterEach, bare.run, pure_bind]
    exact others.afterEach.bind_pure fun _ _ hevents => hevents

theorem leave {host : Host σ} (h : InScenario hooks feature scenario setup host.scopes) :
    ∃ outer, InFeature hooks feature setup outer ∧ host.leave = pure ⟨outer, host.report⟩ := by
  obtain ⟨scopes, report⟩ := host
  cases h with
  | @mk own outer bare others =>
    refine ⟨outer, others, ?_⟩
    rw [Host.leave]
    dsimp only
    rw [bare.close, pure_bind]

end InScenario

/-- Only the root is open, and it is bare. -/
inductive AtRoot : Scopes σ → Prop where
  | mk {root : Scope σ} (bare : root.Bare) : AtRoot (.root root)

theorem AtRoot.of_reached {host : Host σ} (h : Reached host) {root : Scope σ}
    (hroot : host.scopes = .root root) (hfree : ∀ point, root.hooks point = []) :
    AtRoot host.scopes := by
  have hready := ready_of_reached h hroot (hfree .beforeAll)
  rw [hroot]
  exact .mk ⟨hfree, hready⟩

/-- The scope of a feature that is left calls its `afterAll` hook if it has been set up. -/
theorem plays_close (hooks : HookRegistry σ) (setup : Setup) (path : List String)
    (report : Report) :
    Plays hooks (close path (Scope.hooked hooks setup) report) fun next events =>
      (setup = .pending → events = [] ∧ next = report) ∧
      (setup ≠ .pending → ∃ after : Reply, events = [.hook .afterAll after] ∧
        next.outcomes = report.outcomes ++ Outcome.closing path after) := by
  by_cases hpending : setup = .pending
  · subst hpending
    exact .pure ⟨fun _ => ⟨rfl, rfl⟩, fun hne => absurd rfl hne⟩
  · have hfinish : (Scope.hooked hooks setup).finish =
        Action.inOrder [hooks.callback .afterAll] := by
      rw [Scope.finish.eq_def]
      cases setup with
      | pending => exact absurd rfl hpending
      | done => rfl
      | failed error => rfl
    rw [close, hfinish]
    refine (Plays.inOrder_hook .afterAll).bind fun result events hevents => ?_
    obtain ⟨after, rfl, rfl⟩ := hevents
    have hcalled : ([.hook .afterAll after] ++ [] : List (Event σ)) = [.hook .afterAll after] := rfl
    cases hresult : after.result with
    | ok value =>
      refine .pure ⟨fun heq => absurd heq hpending, fun _ => ⟨after, hcalled, ?_⟩⟩
      rw [Outcome.closing, after.failure?_eq, hresult]
      exact (List.append_nil _).symm
    | error error =>
      refine .log_bind _ (.pure ?_)
      refine ⟨fun heq => absurd heq hpending, fun _ => ⟨after, hcalled, ?_⟩⟩
      rw [Outcome.closing, after.failure?_eq, hresult]
      rfl

theorem InFeature.leave {host : Host σ} (h : InFeature hooks feature setup host.scopes) :
    Plays hooks host.leave fun next events => AtRoot next.scopes ∧
      (setup = .pending → events = [] ∧ next.report = host.report) ∧
      (setup ≠ .pending → ∃ after : Reply, events = [.hook .afterAll after] ∧
        next.report.outcomes = host.report.outcomes ++ Outcome.closing [feature] after) := by
  obtain ⟨scopes, report⟩ := host
  cases h with
  | @mk root bare =>
    exact (plays_close hooks setup [feature] report).bind_pure fun _ _ hnext => ⟨.mk bare, hnext⟩

/-- The hooks of a feature are attached before its scenarios are run. -/
theorem declareAll_hooks (runner : Runner σ) (feature : String) {root : Scope σ}
    (report : Report) (rest : List (Declaration σ)) :
    declareAll ⟨.group feature .empty (.root root), report⟩
        (HookPoint.all.map runner.hook ++ rest) =
      declareAll ⟨.group feature (.hooked runner.hooks .pending) (.root root), report⟩ rest := by
  have hhooks : ((((Scope.empty.attach .beforeAll (runner.hooks.callback .beforeAll)).attach
      .afterAll (runner.hooks.callback .afterAll)).attach
      .beforeEach (runner.hooks.callback .beforeEach)).attach
      .afterEach (runner.hooks.callback .afterEach)) = Scope.hooked runner.hooks .pending := by
    rw [Scope.hooked]
    refine congrArg (Scope.mk · .pending) (funext fun point => ?_)
    cases point <;> rfl
  rw [← hhooks]
  simp only [HookPoint.all, List.map_cons, List.map_nil, List.cons_append, List.nil_append,
    Runner.hook, declareAll, declare, pure_bind, Scopes.attach]

theorem declareAll_append (host : Host σ) (declarations more : List (Declaration σ)) :
    declareAll host (declarations ++ more) = do
      match ← declareAll host declarations with
      | (next, .ok ()) => declareAll next more
      | (next, .error error) => return (next, .error error) := by
  induction declarations generalizing host with
  | nil => rw [List.nil_append, declareAll, pure_bind]
  | cons declaration declarations ih =>
    rw [List.cons_append, declareAll, declareAll, bind_assoc]
    refine bind_congr fun out => ?_
    obtain ⟨next, result⟩ := out
    cases result with
    | ok value => exact ih next
    | error error => exact (pure_bind _ _).symm

end Host

end Stepbook
