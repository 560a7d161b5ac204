import Stepbook.Proofs.Run.Turn

/-! # The root of a host

Whatever has been declared to a host, the setup of its root has failed only if there is a hook that
can have failed.

* `Ensures`: what holds of the result of an action, whatever the session.
* `Reached`: hosts to which anything has been declared.
* `ready_of_reached`: a root without `beforeAll` hooks is ready for tests.
-/

namespace Stepbook.Host
set_option autoImplicit false

variable {σ α β : Type}

/-! ## Results of actions -/

def Ensures (action : Action σ α) (post : α → Prop) : Prop :=
  ∀ session, post (action session).1

namespace Ensures

theorem pure {x : α} {post : α → Prop} (h : post x) :
    Ensures (Pure.pure x : Action σ α) post :=
  fun _ => h

theorem bind {action : Action σ α} {next : α → Action σ β} {middle : α → Prop}
    {post : β → Prop} (first : Ensures action middle)
    (second : ∀ x, middle x → Ensures (next x) post) : Ensures (action >>= next) post :=
  fun session => second _ (first session) (action session).2

theorem trivial (action : Action σ α) : Ensures action fun _ => True :=
  fun _ => True.intro

end Ensures

/-! ## Failed setups -/

/-- A setup that has failed is the fault of a hook. -/
def Scope.Accountable (scope : Scope σ) : Prop :=
  ∀ error, scope.setup = .failed error → scope.hooks .beforeAll ≠ []

namespace Scope

theorem accountable_empty : (empty : Scope σ).Accountable := nofun

theorem Accountable.attach {scope : Scope σ} (h : scope.Accountable) (point : HookPoint)
    (callback : Callback σ) : (scope.attach point callback).Accountable := by
  intro error hfailed
  have hhooks := h error hfailed
  rw [Scope.attach]
  dsimp only
  split
  · simp
  · exact hhooks

theorem Accountable.start {scope : Scope σ} (h : scope.Accountable) :
    Ensures scope.start Accountable := by
  rw [Scope.start.eq_def]
  cases hsetup : scope.setup with
  | pending =>
    have hrun : Ensures (scope.run .beforeAll) fun result =>
        ∀ error, result = .error error → scope.hooks .beforeAll ≠ [] := by
      intro session error herror hnone
      rw [Scope.run, hnone] at herror
      cases herror
    refine hrun.bind fun result hresult => ?_
    cases result with
    | ok value => exact .pure nofun
    | error error => exact .pure fun _ _ => hresult error rfl
  | done => exact .pure h
  | failed error => exact .pure h

theorem Accountable.ready_eq {scope : Scope σ} (h : scope.Accountable)
    (hnone : scope.hooks .beforeAll = []) : scope.ready = .ok () := by
  rw [Scope.ready.eq_def]
  cases hsetup : scope.setup with
  | pending => rfl
  | done => rfl
  | failed error => exact absurd hnone (h error hsetup)

end Scope

/-! ## The outermost scope -/

def Scopes.outermost : Scopes σ → Scope σ
  | .root scope => scope
  | .group _ _ outer => outer.outermost

theorem accountable_attach {scopes : Scopes σ} (h : scopes.outermost.Accountable)
    (point : HookPoint) (callback : Callback σ) :
    (scopes.attach point callback).outermost.Accountable := by
  cases scopes with
  | root scope => exact Scope.Accountable.attach h point callback
  | group name scope outer => exact h

theorem accountable_start {scopes : Scopes σ} (h : scopes.outermost.Accountable) :
    Ensures scopes.start fun out => out.1.outermost.Accountable := by
  induction scopes with
  | root scope => exact (Scope.Accountable.start h).bind fun next hnext => .pure hnext
  | group name scope outer ih =>
    refine (ih h).bind fun out hout => ?_
    obtain ⟨next, result⟩ := out
    cases result with
    | ok value => exact (Ensures.trivial scope.start).bind fun _ _ => .pure hout
    | error error => exact .pure hout

theorem accountable_runTest {scopes : Scopes σ} (h : scopes.outermost.Accountable)
    (body : Callback σ) :
    Ensures (scopes.runTest body) fun out => out.1.outermost.Accountable := by
  refine (accountable_start h).bind fun out hout => ?_
  obtain ⟨next, result⟩ := out
  cases result with
  | ok value => exact (Ensures.trivial (next.runBody body)).bind fun _ _ => .pure hout
  | error error => exact .pure hout

theorem accountable_perform {host : Host σ} (h : host.scopes.outermost.Accountable)
    (move : Move σ) :
    Ensures (host.perform move) fun next => next.scopes.outermost.Accountable := by
  cases move with
  | enter name => exact .pure h
  | test name body =>
    refine (accountable_runTest h body).bind fun out hout => ?_
    exact (Ensures.trivial (Action.log _)).bind fun _ _ => .pure hout
  | attach point callback => exact .pure (accountable_attach h point callback)
  | note record => exact (Ensures.trivial (Action.log record)).bind fun _ _ => .pure h
  | leave =>
    rw [perform, leave]
    cases hscopes : host.scopes with
    | root scope => exact .pure h
    | group name scope outer =>
      rw [hscopes] at h
      exact (Ensures.trivial (close _ scope host.report)).bind fun _ _ => .pure h
  | finish => exact (Ensures.trivial host.finish).bind fun _ _ => .pure h

theorem accountable_performAll {turns : List (Turn σ)} {host : Host σ}
    (h : host.scopes.outermost.Accountable) :
    Ensures (host.performAll turns) fun next => next.scopes.outermost.Accountable := by
  induction turns generalizing host with
  | nil => exact .pure h
  | cons turn turns ih => exact (accountable_perform h turn.move).bind fun _ hnext => ih hnext

/-! ## Hosts that can be reached -/

/-- Anything may have been declared before, in any sessions. -/
inductive Reached : Host σ → Prop where
  | empty : Reached empty
  | declared {host : Host σ} (before : Reached host) (declarations : List (Declaration σ))
      (session : Session σ) : Reached (declareAll host declarations session).1.1

theorem Reached.accountable {host : Host σ} (h : Reached host) :
    host.scopes.outermost.Accountable := by
  induction h with
  | empty => exact Scope.accountable_empty
  | declared before declarations session ih =>
    rw [declareAll_eq _ [] 0]
    exact accountable_performAll ih session

/-- A root without `beforeAll` hooks is ready for tests. -/
theorem ready_of_reached {host : Host σ} (h : Reached host) {root : Scope σ}
    (hroot : host.scopes = .root root) (hnone : root.hooks .beforeAll = []) :
    root.ready = .ok () := by
  have haccountable := h.accountable
  rw [hroot] at haccountable
  exact Scope.Accountable.ready_eq haccountable hnone

end Stepbook.Host
