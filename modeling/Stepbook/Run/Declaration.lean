import Stepbook.Hook
import Stepbook.Run.Error

/-! # Declarations

What is to be run is declared to a host: groups, tests in them, and hooks for the group in which
they are declared.

* `Declaration`: one thing that is declared to a host.
* `Method`: what a host has to be able to do for it.
-/

namespace Stepbook
set_option autoImplicit false

inductive Declaration (σ : Type) where
  | group (name : String) (body : List (Declaration σ))
  | test (name : String) (body : Callback σ)
  | hook (point : HookPoint) (callback : Callback σ)
  /-- Ends the groups that it stands in, with an error. -/
  | stop (error : RunError)
  /-- Is only told. -/
  | note (record : Log.Record)

inductive Method where
  | group
  | test
  | hook (point : HookPoint)
  deriving DecidableEq, Repr

namespace Method

def all : List Method :=
  .group :: .test :: HookPoint.all.map .hook

def name : Method → String
  | .group => "describe"
  | .test => "test"
  | .hook point => point.name

end Method

end Stepbook
