import Stepbook.Text.Basic

/-! # The three kinds of steps

A step sets the context of a scenario, acts, or states an outcome; its keyword is `given`, `when`
or `then`.

* `StepType.name`, `StepType.title`: the keyword in lower case and as a capitalised word.
* `StepType.ofName?`, `StepType.read`: the kind that a text names, in any letter case and between
  any blanks.
-/

namespace Stepbook
set_option autoImplicit false

inductive StepType where
  | context
  | action
  | outcome
  deriving DecidableEq, Repr

namespace StepType

def all : List StepType :=
  [.context, .action, .outcome]

theorem mem_all (type : StepType) : type ∈ all := by
  cases type <;> decide

def name : StepType → String
  | .context => "given"
  | .action => "when"
  | .outcome => "then"

def title : StepType → String
  | .context => "Given"
  | .action => "When"
  | .outcome => "Then"

/-! ## Reading -/

/-- The kind whose keyword the text is, in any letter case. -/
def ofName? (text : List Char) : Option StepType :=
  all.find? fun type => type.name.toList == Text.lower text

/-- A text that names no kind of step, without the blanks around it. -/
structure UnknownName where
  reported : String
  deriving DecidableEq, Repr

def UnknownName.message (error : UnknownName) : String :=
  "invalid step type: " ++ error.reported ++ " (expected given, when or then)"

def read (text : String) : Except UnknownName StepType :=
  let keyword := Text.trim text.toList
  match ofName? keyword with
  | some type => .ok type
  | none => .error ⟨String.ofList keyword⟩

end StepType

end Stepbook
