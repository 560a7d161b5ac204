import Stepbook.Proofs.Run.Turn

/-! # Relations between runs

Two hosts whose callbacks are related do related things. Which relation between actions that is does
not matter, as long as it holds of actions that do nothing, of one action after another, and of
what is told to the log.

* `Relator`: such a relation between actions.
* `Relator.OnScope`, `Relator.OnScopes`, `Relator.OnMove`: it carries over to what holds callbacks.
* `Relator.Beside`: hosts that stay related and have the same outcomes added to their reports.
* `Relator.perform`: one turn of related hosts.
-/

namespace Stepbook
set_option autoImplicit false

structure Relator (σ τ : Type) where
  Relates : {α β : Type} → (α → β → Prop) → Action σ α → Action τ β → Prop
  pure : ∀ {α β : Type} {rel : α → β → Prop} {x : α} {y : β}, rel x y →
    Relates rel (Pure.pure x) (Pure.pure y)
  bind : ∀ {α β γ δ : Type} {rel : α → β → Prop} {rel' : γ → δ → Prop} {action : Action σ α}
    {other : Action τ β} {next : α → Action σ γ} {otherNext : β → Action τ δ},
    Relates rel action other → (∀ x y, rel x y → Relates rel' (next x) (otherNext y)) →
    Relates rel' (action >>= next) (other >>= otherNext)
  log : ∀ record : Log.Record, Relates (· = ·) (Action.log record) (Action.log record)

variable {σ τ : Type}

namespace Relator
open Host
variable (R : Relator σ τ)

/-! ## Callbacks -/

/-- Actions that come to the same result. -/
abbrev Same {α : Type} (action : Action σ α) (other : Action τ α) : Prop :=
  R.Relates (· = ·) action other

variable {R}

theorem guarded {callback : Callback σ} {other : Callback τ} (h : R.Same callback other) :
    R.Same (Action.guarded callback) (Action.guarded other) := by
  refine R.bind h fun reply otherReply heq => R.pure ?_
  rw [heq]

theorem inOrder {hooks : List (Callback σ)} {others : List (Callback τ)}
    (h : List.Forall₂ R.Same hooks others) :
    R.Same (Action.inOrder hooks) (Action.inOrder others) := by
  induction h with
  | nil => exact R.pure rfl
  | cons first others ih =>
    refine R.bind (guarded first) fun result other heq => ?_
    subst heq
    cases result with
    | ok value => exact ih
    | error error => exact R.pure rfl

/-! ## Scopes -/

variable (R)

structure OnScope (scope : Scope σ) (other : Scope τ) : Prop where
  setup : scope.setup = other.setup
  hooks : ∀ point, List.Forall₂ R.Same (scope.hooks point) (other.hooks point)

inductive OnScopes : Scopes σ → Scopes τ → Prop where
  | root {scope : Scope σ} {other : Scope τ} (own : R.OnScope scope other) :
      OnScopes (.root scope) (.root other)
  | group (name : String) {scope : Scope σ} {other : Scope τ} {outer : Scopes σ}
      {otherOuter : Scopes τ} (own : R.OnScope scope other) (others : OnScopes outer otherOuter) :
      OnScopes (.group name scope outer) (.group name other otherOuter)

variable {R}

namespace OnScope
variable {scope : Scope σ} {other : Scope τ}

theorem empty : R.OnScope .empty .empty :=
  ⟨rfl, fun _ => .nil⟩

theorem attach (h : R.OnScope scope other) (point : HookPoint) {callback : Callback σ}
    {otherCallback : Callback τ} (hcallback : R.Same callback otherCallback) :
    R.OnScope (scope.attach point callback) (other.attach point otherCallback) where
  setup := h.setup
  hooks at_ := by
    rw [Scope.attach, Scope.attach]
    by_cases heq : at_ = point
    · simp only [heq, if_true]
      exact List.rel_append (h.hooks point) (.cons hcallback .nil)
    · simp only [heq, if_false]
      exact h.hooks at_

theorem run (h : R.OnScope scope other) (point : HookPoint) :
    R.Same (scope.run point) (other.run point) :=
  inOrder (h.hooks point)

theorem start (h : R.OnScope scope other) : R.Relates R.OnScope scope.start other.start := by
  rw [Scope.start.eq_def, Scope.start.eq_def, h.setup]
  cases other.setup with
  | pending =>
    refine R.bind (h.run .beforeAll) fun result otherResult heq => ?_
    subst heq
    cases result with
    | ok value => exact R.pure ⟨rfl, h.hooks⟩
    | error error => exact R.pure ⟨rfl, h.hooks⟩
  | done => exact R.pure h
  | failed error => exact R.pure h

theorem ready_eq (h : R.OnScope scope other) : scope.ready = other.ready := by
  rw [Scope.ready.eq_def, Scope.ready.eq_def, h.setup]

theorem finish (h : R.OnScope scope other) : R.Same scope.finish other.finish := by
  rw [Scope.finish.eq_def, Scope.finish.eq_def, h.setup]
  cases other.setup with
  | pending => exact R.pure rfl
  | done => exact h.run .afterAll
  | failed error => exact h.run .afterAll

end OnScope

namespace OnScopes
variable {scopes : Scopes σ} {other : Scopes τ}

theorem path_eq (h : R.OnScopes scopes other) : scopes.path = other.path := by
  induction h with
  | root own => rfl
  | group name own others ih => rw [Scopes.path, Scopes.path, ih]

theorem attach (h : R.OnScopes scopes other) (point : HookPoint) {callback : Callback σ}
    {otherCallback : Callback τ} (hcallback : R.Same callback otherCallback) :
    R.OnScopes (scopes.attach point callback) (other.attach point otherCallback) := by
  cases h with
  | root own => exact .root (own.attach point hcallback)
  | group name own others => exact .group name (own.attach point hcallback) others

theorem start (h : R.OnScopes scopes other) :
    R.Relates (fun out out' => R.OnScopes out.1 out'.1 ∧ out.2 = out'.2) scopes.start
      other.start := by
  induction h with
  | root own => exact R.bind own.start fun scope other h => R.pure ⟨.root h, h.ready_eq⟩
  | group name own others ih =>
    refine R.bind ih fun out out' hout => ?_
    obtain ⟨outer, result⟩ := out
    obtain ⟨outer', result'⟩ := out'
    obtain ⟨houter, rfl : result = result'⟩ := hout
    cases result with
    | ok value =>
      exact R.bind own.start fun scope other h => R.pure ⟨.group name h houter, h.ready_eq⟩
    | error error => exact R.pure ⟨.group name own houter, rfl⟩

theorem beforeEach (h : R.OnScopes scopes other) : R.Same scopes.beforeEach other.beforeEach := by
  induction h with
  | root own => exact own.run .beforeEach
  | group name own others ih =>
    refine R.bind ih fun result result' heq => ?_
    subst heq
    cases result with
    | ok value => exact own.run .beforeEach
    | error error => exact R.pure rfl

theorem afterEach (h : R.OnScopes scopes other) : R.Same scopes.afterEach other.afterEach := by
  induction h with
  | root own => exact own.run .afterEach
  | group name own others ih =>
    refine R.bind (own.run .afterEach) fun result result' heq => ?_
    refine R.bind ih fun rest rest' hrest => R.pure ?_
    rw [heq, hrest]

theorem runBody (h : R.OnScopes scopes other) {body : Callback σ} {otherBody : Callback τ}
    (hbody : R.Same body otherBody) : R.Same (scopes.runBody body) (other.runBody otherBody) := by
  have hafter : ∀ result : Except StepError Unit, R.Same
      (do
        let after ← scopes.afterEach
        return Scopes.firstError result after)
      (do
        let after ← other.afterEach
        return Scopes.firstError result after) := by
    intro result
    refine R.bind h.afterEach fun after after' heq => R.pure ?_
    rw [heq]
  refine R.bind h.beforeEach fun result result' heq => ?_
  subst heq
  cases result with
  | ok value =>
    refine R.bind (guarded hbody) fun result result' heq => ?_
    subst heq
    exact hafter result
  | error error => exact hafter (.error error)

theorem runTest (h : R.OnScopes scopes other) {body : Callback σ} {otherBody : Callback τ}
    (hbody : R.Same body otherBody) :
    R.Relates (fun out out' => R.OnScopes out.1 out'.1 ∧ out.2 = out'.2) (scopes.runTest body)
      (other.runTest otherBody) := by
  refine R.bind h.start fun out out' hout => ?_
  obtain ⟨next, result⟩ := out
  obtain ⟨next', result'⟩ := out'
  obtain ⟨hnext, rfl : result = result'⟩ := hout
  cases result with
  | ok value => exact R.bind (hnext.runBody hbody) fun _ _ heq => R.pure ⟨hnext, heq⟩
  | error error => exact R.pure ⟨hnext, rfl⟩

end OnScopes

/-! ## Hosts -/

variable (R)

inductive OnMove : Move σ → Move τ → Prop where
  | enter (name : String) : OnMove (.enter name) (.enter name)
  | test (name : String) {body : Callback σ} {other : Callback τ} (hbody : R.Same body other) :
      OnMove (.test name body) (.test name other)
  | attach (point : HookPoint) {callback : Callback σ} {other : Callback τ}
      (hcallback : R.Same callback other) : OnMove (.attach point callback) (.attach point other)
  | note (record : Log.Record) : OnMove (.note record) (.note record)
  | leave : OnMove .leave .leave
  | finish : OnMove .finish .finish

/-- The outcomes that are added to two reports are the same. -/
def Extend (report other next otherNext : Report) : Prop :=
  ∃ outcomes, next.outcomes = report.outcomes ++ outcomes ∧
    otherNext.outcomes = other.outcomes ++ outcomes

/-- What two hosts have become. -/
structure Beside (host : Host σ) (other : Host τ) (next : Host σ) (otherNext : Host τ) : Prop where
  scopes : R.OnScopes next.scopes otherNext.scopes
  report : Extend host.report other.report next.report otherNext.report

variable {R}

theorem Extend.refl (report other : Report) : Extend report other report other :=
  ⟨[], (List.append_nil _).symm, (List.append_nil _).symm⟩

theorem Extend.add (report other : Report) (outcome : Outcome) :
    Extend report other (report.add outcome) (other.add outcome) :=
  ⟨[outcome], rfl, rfl⟩

theorem Extend.eq_of_eq {report other next otherNext : Report}
    (h : Extend report other next otherNext) (heq : report = other) : next = otherNext := by
  obtain ⟨outcomes, hnext, hother⟩ := h
  rw [heq, ← hother] at hnext
  exact congrArg Report.mk hnext

theorem OnScope.close {scope : Scope σ} {other : Scope τ} (h : R.OnScope scope other)
    (path : List String) (report otherReport : Report) :
    R.Relates (Extend report otherReport) (close path scope report)
      (close path other otherReport) := by
  refine R.bind h.finish fun result result' heq => ?_
  subst heq
  cases result with
  | ok value => exact R.pure (.refl _ _)
  | error error => exact R.bind (R.log _) fun _ _ _ => R.pure (.add _ _ _)

section
variable {host : Host σ} {other : Host τ}

theorem runTest (h : R.OnScopes host.scopes other.scopes) (name : String) {body : Callback σ}
    {otherBody : Callback τ} (hbody : R.Same body otherBody) :
    R.Relates (R.Beside host other) (host.runTest name body) (other.runTest name otherBody) := by
  refine R.bind (h.runTest hbody) fun out out' hout => ?_
  obtain ⟨next, result⟩ := out
  obtain ⟨next', result'⟩ := out'
  obtain ⟨hnext, rfl : result = result'⟩ := hout
  dsimp only
  rw [hnext.path_eq]
  exact R.bind (R.log _) fun _ _ _ => R.pure ⟨hnext, .add _ _ _⟩

theorem leave (h : R.OnScopes host.scopes other.scopes) :
    R.Relates (R.Beside host other) host.leave other.leave := by
  obtain ⟨scopes, report⟩ := host
  obtain ⟨scopes', report'⟩ := other
  have hpath := h.path_eq
  cases h with
  | root own => exact R.pure ⟨.root own, .refl _ _⟩
  | group name own others =>
    rw [Host.leave, Host.leave]
    dsimp only at hpath ⊢
    rw [hpath]
    exact R.bind (own.close _ report report') fun _ _ hreport => R.pure ⟨others, hreport⟩

theorem finish (h : R.OnScopes host.scopes other.scopes) :
    R.Relates (Extend host.report other.report) host.finish other.finish := by
  obtain ⟨scopes, report⟩ := host
  obtain ⟨scopes', report'⟩ := other
  have hpath := h.path_eq
  cases h with
  | root own => exact own.close [] report report'
  | group name own others =>
    rw [Host.finish, Host.finish]
    dsimp only at hpath ⊢
    rw [hpath]
    exact own.close _ report report'

theorem perform (h : R.OnScopes host.scopes other.scopes) {move : Move σ} {otherMove : Move τ}
    (hmove : R.OnMove move otherMove) :
    R.Relates (R.Beside host other) (host.perform move) (other.perform otherMove) := by
  cases hmove with
  | enter name => exact R.pure ⟨.group name .empty h, .refl _ _⟩
  | test name hbody => exact runTest h name hbody
  | attach point hcallback => exact R.pure ⟨h.attach point hcallback, .refl _ _⟩
  | note record => exact R.bind (R.log record) fun _ _ _ => R.pure ⟨h, .refl _ _⟩
  | leave => exact leave h
  | finish => exact R.bind (finish h) fun _ _ hreport => R.pure ⟨h, hreport⟩

end

end Relator

end Stepbook
