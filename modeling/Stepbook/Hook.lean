import Stepbook.Callback

/-! # Hooks

A hook is called at one of four points around tests. A registry of hooks holds at most one callback
for each; where none is registered, nothing happens.

* `HookPoint`: the four points.
* `HookRegistry.register`, `HookRegistry.callback`: setting and getting the hook of a point.
-/

namespace Stepbook
set_option autoImplicit false

inductive HookPoint where
  | beforeAll
  | afterAll
  | beforeEach
  | afterEach
  deriving DecidableEq, Repr

namespace HookPoint

def all : List HookPoint :=
  [.beforeAll, .afterAll, .beforeEach, .afterEach]

def name : HookPoint → String
  | .beforeAll => "beforeAll"
  | .afterAll => "afterAll"
  | .beforeEach => "beforeEach"
  | .afterEach => "afterEach"

/-- A text that names no point. -/
structure UnknownName where
  reported : String
  deriving DecidableEq, Repr

def UnknownName.message (error : UnknownName) : String :=
  "expected hook type to be one of beforeAll, afterAll, beforeEach or afterEach; found '" ++
    error.reported ++ "'"

/-- Names are taken exactly. -/
def read (text : String) : Except UnknownName HookPoint :=
  match all.find? fun point => point.name == text with
  | some point => .ok point
  | none => .error ⟨text⟩

end HookPoint

structure HookRegistry (σ : Type) where
  hook? : HookPoint → Option (Callback σ)

namespace HookRegistry
variable {σ : Type}

def empty : HookRegistry σ :=
  ⟨fun _ => none⟩

/-- Sets the hook of a point in place of an earlier one. -/
def set (hooks : HookRegistry σ) (point : HookPoint) (callback : Callback σ) : HookRegistry σ :=
  ⟨fun other => if other = point then some callback else hooks.hook? other⟩

def isRegistered (hooks : HookRegistry σ) (point : HookPoint) : Bool :=
  (hooks.hook? point).isSome

def register (hooks : HookRegistry σ) (point : HookPoint) (callback : Callback σ) :
    Logged (HookRegistry σ) :=
  ⟨if hooks.isRegistered point then [⟨.debug, "replaced " ++ point.name ++ " hook"⟩] else [],
    hooks.set point callback⟩

/-- Where no hook is registered, a callback that does nothing. -/
def callback (hooks : HookRegistry σ) (point : HookPoint) : Callback σ :=
  (hooks.hook? point).getD .nothing

/-- The names of the points with a hook, in alphabetical order. -/
def describe (hooks : HookRegistry σ) : String :=
  let sorted : List HookPoint := [.afterAll, .afterEach, .beforeAll, .beforeEach]
  "HookRegistry \x7b registered: [" ++
    Text.joinWith ", " ((sorted.filter hooks.isRegistered).map fun point =>
      Text.quote point.name) ++ "] \x7d"

/-! ## Laws -/

@[simp] theorem callback_set (hooks : HookRegistry σ) (point other : HookPoint)
    (callback : Callback σ) :
    (hooks.set point callback).callback other =
      if other = point then callback else hooks.callback other := by
  by_cases h : other = point <;> simp [HookRegistry.callback, set, h]

end HookRegistry

end Stepbook
