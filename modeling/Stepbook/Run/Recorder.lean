import Stepbook.Run.Declaration

/-! # A host that only records

A recorder keeps what is declared to it and runs nothing. It need not be able to do everything; the
first declaration that it cannot take ends the recording with an error.

* `Recorder.Event`: what is kept.
* `Recorder.record`: the events of declarations, and how they end.
-/

namespace Stepbook
set_option autoImplicit false

/-- A recorder, by what it can do. -/
structure Recorder where
  provides : Method → Bool

namespace Recorder
variable {σ : Type}

inductive Event where
  | enter (name : String)
  /-- Kept only of a group that ends without an error. -/
  | leave (name : String)
  | test (name : String)
  | hook (point : HookPoint)
  deriving DecidableEq, Repr

def Event.line : Event → String
  | .enter name => "describe " ++ name
  | .leave name => "end " ++ name
  | .test name => "test " ++ name
  | .hook point => point.name

structure Recording where
  events : List Event
  result : Except RunError Unit

/-- Keeps an event, if the recorder can do what is needed. -/
def keep (recorder : Recorder) (needed : Method) (event : Event) : Recording :=
  if recorder.provides needed then ⟨[event], .ok ()⟩
  else ⟨[], .error (.missingMethod needed.name)⟩

/-- What is kept of a group whose body has been recorded. -/
def Recording.within (body : Recording) (name : String) : Recording :=
  match body.result with
  | .ok () => ⟨.enter name :: body.events ++ [.leave name], .ok ()⟩
  | .error error => ⟨.enter name :: body.events, .error error⟩

mutual

def declare (recorder : Recorder) : Declaration σ → Logged Recording
  | .group name body =>
    if recorder.provides .group then do
      return (← recorder.record body).within name
    else return ⟨[], .error (.missingMethod Method.group.name)⟩
  | .test name _ => return recorder.keep .test (.test name)
  | .hook point _ => return recorder.keep (.hook point) (.hook point)
  | .stop error => return ⟨[], .error error⟩
  | .note record => ⟨[record], ⟨[], .ok ()⟩⟩

/-- One declaration after another, up to the first that ends with an error. -/
def record (recorder : Recorder) : List (Declaration σ) → Logged Recording
  | [] => return ⟨[], .ok ()⟩
  | declaration :: rest => do
    let first ← recorder.declare declaration
    match first.result with
    | .ok () =>
      let others ← recorder.record rest
      return ⟨first.events ++ others.events, others.result⟩
    | .error error => return ⟨first.events, .error error⟩

end

end Recorder

end Stepbook
