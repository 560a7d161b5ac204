import Stepbook.Command.Writer

/-! # The command line tool

Reads the arguments, the environment and the files, and leaves the rest to `Command.runTo`. Reports
go to the standard output, everything else to the standard error.
-/

namespace Stepbook
set_option autoImplicit false

/-- The text of a file, if it can be read. -/
def readFile? (path : String) : IO (Option String) := do
  try
    return some (← IO.FS.readFile path)
  catch _ =>
    return none

/-- Tells an error, and returns its exit code. -/
def reportError (error : ToolError) : IO UInt32 := do
  if error.isAnswer then IO.println error.message else IO.eprintln error.message
  return error.exitCode.toUInt32

/-- Carries out a job, and returns the exit code. -/
def carryOut (job : Job) : IO UInt32 := do
  let sources ← job.command.paths.mapM fun path => do return (path, ← readFile? path)
  let files : Files := fun path => (sources.lookup path).join
  let told := (job.command.runTo files job.config.format).run.run ⟨[], none⟩
  for record in told.records do
    if job.config.verbosity.tells record.level then IO.eprintln record.line
  let (outcome, writer) := told.value
  (← IO.getStdout).write ⟨writer.written.toArray⟩
  match outcome with
  | .error (.command cause) => reportError (.command cause)
  | .error .unwritten => return 1
  | .ok status => return status.exitCode.toUInt32

end Stepbook

open Stepbook in
def main (arguments : List String) : IO UInt32 := do
  let environment ← [Config.verbosityVariable, Config.formatVariable].mapM fun name => do
    return (name, ← IO.getEnv name)
  match Job.ofArguments arguments fun name => (environment.lookup name).join with
  | .error error => reportError error
  | .ok job => carryOut job
