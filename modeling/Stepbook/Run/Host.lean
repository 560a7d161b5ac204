import Stepbook.Run.Declaration
import Stepbook.Run.Report

/-! # A host that runs tests at once

A host runs a test as soon as it is declared. Its scopes are the groups that are open, with a root
around them. A scope is set up, by its `beforeAll` hooks, only when a first test runs in it; a scope
that has been set up, even if that failed, runs its `afterAll` hooks when it is left. Where a setup
has failed, every test fails with its error.

* `Host.Scope`, `Host.Scopes`: the scopes that are open.
* `Scopes.runTest`: a test among the hooks of the scopes around it.
* `Host.declare`, `Host.declareAll`: what a host does for a declaration.
* `Host.finish`: leaving the root.
-/

namespace Stepbook
set_option autoImplicit false

namespace Host

/-! ## Scopes -/

inductive Setup where
  | pending
  | done
  | failed (error : StepError)
  deriving DecidableEq, Repr

structure Scope (σ : Type) where
  /-- In the order in which they were declared. -/
  hooks : HookPoint → List (Callback σ)
  setup : Setup

namespace Scope
variable {σ : Type}

def empty : Scope σ :=
  ⟨fun _ => [], .pending⟩

def attach (scope : Scope σ) (point : HookPoint) (callback : Callback σ) : Scope σ :=
  { scope with
    hooks := fun other =>
      if other = point then scope.hooks other ++ [callback] else scope.hooks other }

/-- Calls the hooks of a point, up to the first that does not succeed. -/
def run (scope : Scope σ) (point : HookPoint) : Action σ (Except StepError Unit) :=
  Action.inOrder (scope.hooks point)

/-- Sets up a scope that has not been set up yet. -/
def start (scope : Scope σ) : Action σ (Scope σ) :=
  match scope.setup with
  | .pending => do
    match ← scope.run .beforeAll with
    | .ok () => return { scope with setup := .done }
    | .error error => return { scope with setup := .failed error }
  | _ => return scope

/-- Tests can run in a scope unless its setup has failed. -/
def ready (scope : Scope σ) : Except StepError Unit :=
  match scope.setup with
  | .failed error => .error error
  | _ => .ok ()

/-- The failure of the `afterAll` hooks; there is none in a scope that has not been set up. -/
def finish (scope : Scope σ) : Action σ (Except StepError Unit) :=
  match scope.setup with
  | .pending => return .ok ()
  | _ => scope.run .afterAll

end Scope

/-- The open scopes from the innermost outwards. -/
inductive Scopes (σ : Type) where
  | root (scope : Scope σ)
  | group (name : String) (scope : Scope σ) (outer : Scopes σ)

namespace Scopes
variable {σ : Type}

/-- The names of the open groups, the outermost first. -/
def path : Scopes σ → List String
  | .root _ => []
  | .group name _ outer => outer.path ++ [name]

def attach (point : HookPoint) (callback : Callback σ) : Scopes σ → Scopes σ
  | .root scope => .root (scope.attach point callback)
  | .group name scope outer => .group name (scope.attach point callback) outer

/-! ## Tests -/

/-- Sets up the scopes from the outermost on, up to the first whose setup has failed. -/
def start : Scopes σ → Action σ (Scopes σ × Except StepError Unit)
  | .root scope => do
    let scope ← scope.start
    return (.root scope, scope.ready)
  | .group name scope outer => do
    match ← outer.start with
    | (outer, .ok ()) =>
      let scope ← scope.start
      return (.group name scope outer, scope.ready)
    | (outer, .error error) => return (.group name scope outer, .error error)

/-- The `beforeEach` hooks from the outermost scope on, up to the first that does not succeed. -/
def beforeEach : Scopes σ → Action σ (Except StepError Unit)
  | .root scope => scope.run .beforeEach
  | .group _ scope outer => do
    match ← outer.beforeEach with
    | .ok () => scope.run .beforeEach
    | .error error => return .error error

/-- The first of two errors. -/
def firstError (first second : Except StepError Unit) : Except StepError Unit :=
  match first with
  | .ok () => second
  | .error error => .error error

/-- The `afterEach` hooks from the innermost scope on; a failure does not keep those of the other
scopes from being called. -/
def afterEach : Scopes σ → Action σ (Except StepError Unit)
  | .root scope => scope.run .afterEach
  | .group _ scope outer => do
    let own ← scope.run .afterEach
    let others ← outer.afterEach
    return firstError own others

/-- A test among the hooks, where all scopes are set up. -/
def runBody (scopes : Scopes σ) (body : Callback σ) : Action σ (Except StepError Unit) := do
  let result ← match ← scopes.beforeEach with
    | .ok () => Action.guarded body
    | .error error => pure (.error error)
  let after ← scopes.afterEach
  return firstError result after

def runTest (scopes : Scopes σ) (body : Callback σ) :
    Action σ (Scopes σ × Except StepError Unit) := do
  match ← scopes.start with
  | (scopes, .ok ()) => return (scopes, ← scopes.runBody body)
  | (scopes, .error error) => return (scopes, .error error)

end Scopes

end Host

/-! ## Hosts -/

structure Host (σ : Type) where
  scopes : Host.Scopes σ
  report : Report

namespace Host
variable {σ : Type}

def empty : Host σ :=
  ⟨.root .empty, .empty⟩

def describe (host : Host σ) : String :=
  "StdHost \x7b path: " ++ describePath host.scopes.path ++
    ", report: " ++ host.report.describe ++ " \x7d"

/-- Runs a test and keeps its outcome. -/
def runTest (host : Host σ) (name : String) (body : Callback σ) : Action σ (Host σ) := do
  let (scopes, result) ← host.scopes.runTest body
  let path := scopes.path
  let place := Text.joinWith " > " path ++ " > " ++ name ++ ": "
  Action.log <| match result with
    | .ok () => ⟨.info, place ++ "passed"⟩
    | .error error => ⟨.warn, place ++ error.message⟩
  return ⟨scopes, host.report.add ⟨path, name, .ofResult result⟩⟩

/-! ## Groups -/

/-- Leaves a scope; if its `afterAll` hooks fail, that is an outcome too. -/
def close (path : List String) (scope : Scope σ) (report : Report) : Action σ Report := do
  match ← scope.finish with
  | .ok () => return report
  | .error error =>
    Action.log ⟨.warn, "afterAll hook failed in '" ++ Text.joinWith " > " path ++ "': " ++
      error.message⟩
    return report.add ⟨path, HookPoint.afterAll.name ++ " hook", .failed error⟩

def enter (host : Host σ) (name : String) : Host σ :=
  { host with scopes := .group name .empty host.scopes }

/-- Leaves the innermost group. -/
def leave (host : Host σ) : Action σ (Host σ) :=
  match host.scopes with
  | .root _ => return host
  | .group _ scope outer => do
    return ⟨outer, ← close host.scopes.path scope host.report⟩

/-! ## Declarations -/

mutual

/-- What a host does for a declaration; a group ends with the error of its body. -/
def declare (host : Host σ) : Declaration σ → Action σ (Host σ × Except RunError Unit)
  | .group name body => do
    let (host, result) ← declareAll (host.enter name) body
    return (← host.leave, result)
  | .test name body => do
    return (← host.runTest name body, .ok ())
  | .hook point callback =>
    return ({ host with scopes := host.scopes.attach point callback }, .ok ())
  | .stop error => return (host, .error error)
  | .note record => do
    Action.log record
    return (host, .ok ())

/-- One declaration after another, up to the first that ends with an error. -/
def declareAll (host : Host σ) :
    List (Declaration σ) → Action σ (Host σ × Except RunError Unit)
  | [] => return (host, .ok ())
  | declaration :: rest => do
    match ← declare host declaration with
    | (host, .ok ()) => declareAll host rest
    | (host, .error error) => return (host, .error error)

end

/-- Leaves the root; groups are left when they end. -/
def finish (host : Host σ) : Action σ Report :=
  match host.scopes with
  | .root scope => close [] scope host.report
  | .group _ scope _ => close host.scopes.path scope host.report

end Host

end Stepbook
