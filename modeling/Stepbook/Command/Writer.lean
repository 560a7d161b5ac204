import Stepbook.Command.Run

/-! # Writing reports

A command writes its report to a writer once it has come to a result.

* `Writer`: what has been written, and the room for more.
* `Reporting`: what may write, and may fail.
* `Command.runTo`: a command with the writer that it reports to.
-/

namespace Stepbook
set_option autoImplicit false

/-! ## Writers -/

def utf8 (text : String) : List UInt8 :=
  text.toByteArray.data.toList

structure Writer where
  written : List UInt8
  /-- The number of bytes that are still taken; without a limit, all are. -/
  room : Option Nat
  deriving DecidableEq, Repr

namespace Writer

def Takes (writer : Writer) (bytes : List UInt8) : Prop :=
  ∀ room, writer.room = some room → bytes.length ≤ room

/-- Writes as many bytes as are taken, and tells whether these are all. -/
def write (writer : Writer) (bytes : List UInt8) : Bool × Writer :=
  match writer.room with
  | none => (true, ⟨writer.written ++ bytes, none⟩)
  | some room =>
    (decide (bytes.length ≤ room),
      ⟨writer.written ++ bytes.take room, some (room - bytes.length)⟩)

end Writer

/-! ## Reports -/

inductive ReportError where
  /-- There is nothing to report. -/
  | command (cause : CommandError)
  /-- The report could not be written to its end. -/
  | unwritten
  deriving DecidableEq, Repr

abbrev Reporting (α : Type) := ExceptT ReportError (StateT Writer Logged) α

namespace Reporting
variable {α : Type}

/-- What does not write. -/
def ofCommanded (command : Commanded α) : Reporting α := fun writer => do
  match ← command.run with
  | .ok value => return (.ok value, writer)
  | .error cause => return (.error (.command cause), writer)

def write (text : String) : Reporting Unit := fun writer =>
  let (complete, next) := writer.write (utf8 text)
  return (if complete then .ok () else .error .unwritten, next)

end Reporting

/-- The status of a command whose report has been written. -/
def Command.runTo (files : Files) (format : Format) (command : Command) :
    Reporting CommandStatus := do
  let result ← Reporting.ofCommanded (command.run files format)
  Reporting.write result.output
  return result.status

end Stepbook
