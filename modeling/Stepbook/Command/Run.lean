import Stepbook.Command.Output
import Stepbook.Command.Usage
import Stepbook.Run.Host
import Stepbook.Run.Runner

/-! # Commands

A command reads files and writes one report. All step files are loaded before any feature is read,
and the first failure ends the command without a report.

* `CommandError`: what can fail.
* `loadRegistry`: the definitions of step files in order, with handlers that do nothing.
* `Command.run`: what a command reports, and whether it found what it was to check.
* `Job.ofArguments`: the command and the settings that a command line and an environment call for.
-/

namespace Stepbook
set_option autoImplicit false

/-! ## Results -/

inductive CommandStatus where
  | success
  | failure
  deriving DecidableEq, Repr

namespace CommandStatus

def name : CommandStatus → String
  | .success => "Success"
  | .failure => "Failure"

def exitCode : CommandStatus → Nat
  | .success => 0
  | .failure => 1

def ofBool (found : Bool) : CommandStatus :=
  if found then .success else .failure

end CommandStatus

inductive CommandError where
  | unreadable (path : String)
  | pattern (path : String) (cause : DefinitionError)
  | run (path : String) (cause : RunError)
  deriving DecidableEq, Repr

def CommandError.message : CommandError → String
  | .unreadable path => "failed to read " ++ path ++ ": <io error>"
  | .pattern path cause => path ++ ": " ++ cause.message
  | .run path cause => path ++ ": " ++ cause.message

structure CommandResult where
  status : CommandStatus
  output : String
  deriving DecidableEq, Repr

/-- The texts of the files that can be read. -/
abbrev Files := String → Option String

abbrev Commanded (α : Type) := ExceptT CommandError Logged α

/-! ## Files -/

def readSource (files : Files) (path : String) : Commanded String :=
  match files path with
  | some source => return source
  | none => throw (.unreadable path)

def extractFile (files : Files) (path : String) : Commanded Source.Extraction := do
  let extraction := Source.extract (← readSource files path)
  ExceptT.lift ⟨extraction.records, extraction⟩

/-- Registers one definition more. -/
def loadDefinition (path : String) (registry : Registry Unit) (definition : Definition) :
    Commanded (Registry Unit) :=
  match registry.registerDefinition definition (fun _ => .nothing) with
  | .ok registered => ExceptT.lift registered
  | .error cause => throw (.pattern path cause)

def loadFile (files : Files) (registry : Registry Unit) (path : String) :
    Commanded (Registry Unit) := do
  let extraction ← extractFile files path
  extraction.definitions.foldlM (loadDefinition path) registry

def loadRegistry (files : Files) (paths : List String) : Commanded (Registry Unit) :=
  paths.foldlM (loadFile files) .empty

/-! ## The three commands -/

namespace Command

/-- The result of an action that needs no memory. -/
def perform {α : Type} (action : Action Unit α) : Logged α :=
  let (value, session) := action.run ⟨(), []⟩
  ⟨session.log, value⟩

def runExtract (files : Files) (format : Format) (paths : List String) :
    Commanded CommandResult := do
  let extracted ← paths.mapM fun path => do return (⟨path, ← extractFile files path⟩ : Extracted)
  return ⟨.success, writeExtractions format extracted⟩

def resolveText (registry : Registry Unit) (type : Option StepType) (text : String) :
    Logged (Except StepError (ResolvedStep Unit)) :=
  match type with
  | some type => registry.resolveTyped type text
  | none => registry.resolve text

def runResolve (files : Files) (format : Format) (steps : List String) (type : Option StepType)
    (text : String) : Commanded CommandResult := do
  let registry ← loadRegistry files steps
  let resolved ← ExceptT.lift (resolveText registry type text)
  let found := resolved.map fun step => (step.definition, step.arguments)
  return ⟨.ofBool found.isOk, writeMatch format text found⟩

/-- Runs the features of one file more. -/
def checkFile (files : Files) (runner : Runner Unit) (host : Host Unit) (path : String) :
    Commanded (Host Unit) := do
  let source ← readSource files path
  let (host, result) ← ExceptT.lift (perform (host.declareAll (runner.declarations (.text source))))
  match result with
  | .ok () => return host
  | .error cause => throw (.run path cause)

def runCheck (files : Files) (format : Format) (steps features : List String) :
    Commanded CommandResult := do
  let runner : Runner Unit := ⟨← loadRegistry files steps, .empty⟩
  let host ← features.foldlM (checkFile files runner) .empty
  let report ← ExceptT.lift (perform host.finish)
  return ⟨.ofBool report.isSuccess, writeReport format report⟩

def run (files : Files) (format : Format) : Command → Commanded CommandResult
  | .extract paths => runExtract files format paths
  | .resolve steps type text => runResolve files format steps type text
  | .check steps features => runCheck files format steps features

end Command

/-! ## The whole tool -/

/-- Why there is no report. -/
inductive ToolError where
  | usage (cause : UsageError)
  | config (cause : ConfigError)
  | command (cause : CommandError)
  deriving DecidableEq, Repr

namespace ToolError

def message : ToolError → String
  | .usage cause => cause.message
  | .config cause => cause.message
  | .command cause => cause.message

def exitCode : ToolError → Nat
  | .usage cause => cause.exitCode
  | _ => 1

/-- What was asked for belongs on the standard output. -/
def isAnswer (error : ToolError) : Bool :=
  error.exitCode == 0

end ToolError

structure Job where
  command : Command
  config : Config
  deriving DecidableEq, Repr

namespace Job

/-- A mistake on the command line is found before one in the environment. -/
def ofArguments (arguments : List String) (lookup : String → Option String) :
    Except ToolError Job :=
  match Invocation.read arguments with
  | .error cause => .error (.usage cause)
  | .ok invocation =>
    match Config.ofEnvironment lookup with
    | .error cause => .error (.config cause)
    | .ok config =>
      .ok ⟨invocation.command, config.override invocation.verbosity invocation.format⟩

def run (job : Job) (files : Files) : Logged (Except ToolError CommandResult) := do
  match ← (job.command.run files job.config.format).run with
  | .error cause => return .error (.command cause)
  | .ok result => return .ok result

end Job

end Stepbook
