import Stepbook.Log
import Stepbook.Parameter
import Stepbook.StepType

/-! # Callbacks

Handlers of steps, hooks and bodies of tests are callbacks: they act on a memory that they share,
and succeed, fail or panic. What a callback does may differ from call to call, since its memory may.

* `StepError`: how a step can go wrong.
* `Reply`: how a call ends; `Reply.result` turns a panic into an error.
* `Session`: the memory that callbacks share, with the log so far.
* `Callback`, `Handler`: calls without and with arguments.
-/

namespace Stepbook
set_option autoImplicit false

/-! ## Outcomes of calls -/

inductive StepError where
  /-- No definition of the kind that was searched, of any kind if none is given, matches. -/
  | noMatchingStep (type : Option StepType) (text : String)
  | failed (message : String)
  | panicked (message : String)
  deriving DecidableEq, Repr

namespace StepError

def message : StepError → String
  | .noMatchingStep _ text => "no step definition matches \"" ++ text ++ "\""
  | .failed message => message
  | .panicked message => "panicked: " ++ message

/-- The error with all its fields. -/
def describe : StepError → String
  | .noMatchingStep type text =>
    "NoMatchingStep \x7b step_type: " ++
      (match type with
        | some type => "Some(" ++ type.title ++ ")"
        | none => "None") ++
      ", text: " ++ Text.quote text ++ " \x7d"
  | .failed message => "Failed(" ++ Text.quote message ++ ")"
  | .panicked message => "Panicked(" ++ Text.quote message ++ ")"

end StepError

inductive Reply where
  | ok
  | error (cause : StepError)
  /-- What a callback panics with need not be a text. -/
  | panic (payload : Option String)
  deriving DecidableEq, Repr

def Reply.result : Reply → Except StepError Unit
  | .ok => .ok ()
  | .error cause => .error cause
  | .panic payload =>
    .error (.panicked (payload.getD "panicked with a non-string payload"))

/-! ## Calls -/

structure Session (σ : Type) where
  memory : σ
  log : List Log.Record

/-- What acts on a session. -/
abbrev Action (σ : Type) (α : Type) := StateM (Session σ) α

abbrev Callback (σ : Type) := Action σ Reply

abbrev Handler (σ : Type) := List Value → Callback σ

/-- The callback that succeeds without doing anything. -/
def Callback.nothing {σ : Type} : Callback σ :=
  fun session => (.ok, session)

namespace Action
variable {σ α : Type}

def log (record : Log.Record) : Action σ Unit :=
  modify fun session => { session with log := session.log ++ [record] }

/-- Takes over the records of a value. -/
def told (logged : Logged α) : Action σ α := do
  modify fun session => { session with log := session.log ++ logged.records }
  return logged.value

/-- Calls a callback; a panic counts as an error. -/
def guarded (callback : Callback σ) : Action σ (Except StepError Unit) := do
  return (← callback).result

/-- The callbacks in order, up to the first that does not succeed. -/
def inOrder : List (Callback σ) → Action σ (Except StepError Unit)
  | [] => return .ok ()
  | callback :: rest => do
    match ← guarded callback with
    | .ok () => inOrder rest
    | .error error => return .error error

end Action

end Stepbook
