import Stepbook.Command.Config
import Stepbook.StepType

/-! # The command line

A command line holds options and a command with options and arguments of its own. The options for
the settings may stand before and behind the name of the command; behind it they count more. What
follows `--` is taken as it is.

* `Command`: what the tool is told to do.
* `Invocation.read`: the command that a command line calls for, with its settings.
* `UsageError`: a command line that calls for none.
* `Grammar`, `Progress.take`: what may be given, and what one more argument means.
-/

namespace Stepbook
set_option autoImplicit false

inductive Command where
  /-- Lists the definitions in files. -/
  | extract (files : List String)
  /-- Looks for the definition that matches a text. -/
  | resolve (steps : List String) (type : Option StepType) (text : String)
  /-- Looks for the steps of features that no definition matches. -/
  | check (steps features : List String)
  deriving DecidableEq, Repr

/-- The files that a command reads. -/
def Command.paths : Command → List String
  | .extract files => files
  | .resolve steps _ _ => steps
  | .check steps features => steps ++ features

inductive UsageError where
  | helpRequested
  | versionRequested
  | nothingGiven
  | missingCommand
  | unknownCommand
  | unknownArgument
  | missingArgument
  | repeatedArgument
  /-- A value for an option that takes none. -/
  | unexpectedValue
  | emptyValue
  | invalidValue
  deriving DecidableEq, Repr

namespace UsageError

/-- To ask for help or for the version is no mistake. -/
def exitCode : UsageError → Nat
  | .helpRequested => 0
  | .versionRequested => 0
  | _ => 2

def version : String :=
  "stepwise 0.1.0"

def help : String :=
  "Inspect step definitions and check features against them

Usage: stepwise [--log-level LEVEL] [--format FORMAT] COMMAND

Commands:
  extract FILES                      List the step definitions found in step files
  match --steps FILE [--type TYPE] TEXT
                                     Show which definition matches a line of step text
  check --steps FILE FEATURES        Report the steps of features that have no definition"

def message : UsageError → String
  | .helpRequested => help
  | .versionRequested => version
  | .nothingGiven => help
  | .missingCommand => "error: a command is required"
  | .unknownCommand => "error: unrecognized command"
  | .unknownArgument => "error: unexpected argument"
  | .missingArgument => "error: a required argument was not provided"
  | .repeatedArgument => "error: an argument cannot be used multiple times"
  | .unexpectedValue => "error: unexpected value"
  | .emptyValue => "error: a value is required"
  | .invalidValue => "error: invalid value"

end UsageError

/-! ## What may be given -/

inductive Slot where
  | verbosity
  | format
  | steps
  | type
  | text
  | files
  | features
  deriving DecidableEq, Repr

/-- Takes any number of arguments. -/
def Slot.isRepeatable : Slot → Bool
  | .files => true
  | .features => true
  | _ => false

structure Given where
  verbosity : Option Verbosity
  format : Option Format
  type : Option StepType
  text : Option String
  steps : List String
  files : List String
  features : List String
  deriving DecidableEq, Repr

namespace Given

def empty : Given :=
  ⟨none, none, none, none, [], [], []⟩

/-- A value that may be given only once. -/
def once {α ε : Type} (earlier : Option α) (read : Except ε α) : Except UsageError (Option α) :=
  match earlier, read with
  | some _, _ => .error .repeatedArgument
  | none, .ok value => .ok (some value)
  | none, .error _ => .error .invalidValue

/-- One more path, which must not be empty. -/
def oneMore (paths : List String) (path : String) : Except UsageError (List String) :=
  if path.isEmpty then .error .emptyValue else .ok (paths ++ [path])

def put (given : Given) (slot : Slot) (value : String) : Except UsageError Given :=
  match slot with
  | .verbosity => do
    return { given with verbosity := ← once given.verbosity (Verbosity.read value) }
  | .format => do return { given with format := ← once given.format (Format.read value) }
  | .type => do return { given with type := ← once given.type (StepType.read value) }
  | .text => do return { given with text := ← once given.text (Except.ok (ε := Unit) value) }
  | .steps => do return { given with steps := ← oneMore given.steps value }
  | .files => do return { given with files := ← oneMore given.files value }
  | .features => do return { given with features := ← oneMore given.features value }

end Given

structure Grammar where
  options : List (String × Slot)
  hasVersion : Bool
  /-- Arguments without an option, in their order. -/
  positions : List Slot
  commands : List String
  deriving DecidableEq, Repr

namespace Grammar

def settings : List (String × Slot) :=
  [("log-level", .verbosity), ("format", .format)]

/-- Before the name of a command. -/
def top : Grammar :=
  ⟨settings, true, [], ["extract", "match", "check", "help"]⟩

def extract : Grammar :=
  ⟨settings, false, [.files], []⟩

def resolve : Grammar :=
  ⟨("steps", .steps) :: ("type", .type) :: settings, false, [.text], []⟩

def check : Grammar :=
  ⟨("steps", .steps) :: settings, false, [.features], []⟩

end Grammar

/-! ## One argument after another -/

structure Progress where
  given : Given
  /-- An option or a position with the values for it that have not been read yet. -/
  pending : Option (Slot × List String)
  /-- How many positions have been filled. -/
  position : Nat
  /-- Every further argument is taken as it is. -/
  literal : Bool
  deriving DecidableEq, Repr

inductive Argument where
  | separator
  | long (name : String) (value : Option String)
  | short (flag : Char)
  | plain
  deriving DecidableEq, Repr

/-- What an argument looks like; a dash alone is nothing special. -/
def Argument.ofString (argument : String) : Argument :=
  match argument.toList with
  | ['-', '-'] => .separator
  | '-' :: '-' :: rest =>
    let name := rest.takeWhile (· != '=')
    let value := (rest.drop name.length).tail?
    .long (String.ofList name) (value.map String.ofList)
  | '-' :: flag :: _ => .short flag
  | _ => .plain

namespace Progress

def start : Progress :=
  ⟨.empty, none, 0, false⟩

/-- Reads the values that are pending; an option needs one. -/
def settle (progress : Progress) : Except UsageError Progress :=
  match progress.pending with
  | none => .ok progress
  | some (_, []) => .error .emptyValue
  | some (slot, values) => do
    let given ← values.foldlM (fun given value => given.put slot value) progress.given
    return { progress with given := given, pending := none }

/-- The option that the next argument is the value of. -/
def awaiting? (progress : Progress) : Option Slot :=
  match progress.pending with
  | some (slot, []) => some slot
  | _ => none

/-- An argument for the next position. -/
def place (grammar : Grammar) (progress : Progress) (argument : String) :
    Except UsageError Progress :=
  match grammar.positions[progress.position]? with
  | some slot => do
    let earlier ← match progress.pending with
      | some (other, values) => if other = slot then pure values else pure []
      | none => pure []
    let settled ← if earlier.isEmpty then progress.settle else pure progress
    let position := if slot.isRepeatable then progress.position else progress.position + 1
    return { settled with pending := some (slot, earlier ++ [argument]), position := position }
  | none =>
    if grammar.commands.isEmpty ∨ (progress.literal = true ∧ argument ∈ grammar.commands) then
      .error .unknownArgument
    else .error .unknownCommand

/-- A flag that ends the reading; what is pending has to be readable. -/
def endWith (progress : Progress) (error : UsageError) : Except UsageError Progress := do
  let _ ← progress.settle
  .error error

def takeLong (grammar : Grammar) (progress : Progress) (name : String) (value : Option String) :
    Except UsageError Progress :=
  match grammar.options.lookup name, value with
  | some slot, some value => do
    let settled ← progress.settle
    return { settled with given := ← settled.given.put slot value }
  | some slot, none => do
    let settled ← progress.settle
    return { settled with pending := some (slot, []) }
  | none, value =>
    if name = "help" ∨ (name = "version" ∧ grammar.hasVersion = true) then
      if value.isSome then .error .unexpectedValue
      else progress.endWith (if name = "help" then .helpRequested else .versionRequested)
    else .error .unknownArgument

def takeShort (grammar : Grammar) (progress : Progress) (flag : Char) :
    Except UsageError Progress :=
  if flag = 'h' then progress.endWith .helpRequested
  else if flag = 'V' ∧ grammar.hasVersion = true then progress.endWith .versionRequested
  else .error .unknownArgument

/-- What an argument means that does not name a command. -/
def take (grammar : Grammar) (progress : Progress) (argument : String) :
    Except UsageError Progress :=
  if progress.literal = true then progress.place grammar argument
  else
    match Argument.ofString argument with
    | .separator => .ok { progress with literal := true }
    | .long name value => progress.takeLong grammar name value
    | .short flag => progress.takeShort grammar flag
    | .plain =>
      match progress.awaiting? with
      | some slot => .ok { progress with pending := some (slot, [argument]) }
      | none => progress.place grammar argument

/-- Up to the end, or to the name of a command, which is given back with the arguments after it. -/
def takeAll (grammar : Grammar) (progress : Progress) :
    List String → Except UsageError (Progress × Option (String × List String))
  | [] => .ok (progress, none)
  | argument :: rest =>
    if progress.literal = false ∧ progress.awaiting? = none ∧ argument ∈ grammar.commands then
      .ok (progress, some (argument, rest))
    else
      match progress.take grammar argument with
      | .ok next => takeAll grammar next rest
      | .error error => .error error

end Progress

/-! ## Commands -/

/-- What is given for a command. -/
def Grammar.read (grammar : Grammar) (arguments : List String) : Except UsageError Given := do
  let (progress, _) ← Progress.start.takeAll grammar arguments
  return (← progress.settle).given

namespace Command

/-- Help may be asked for about one command. -/
def readHelp (topics : List String) : UsageError :=
  match topics with
  | [] => .helpRequested
  | [topic] => if topic ∈ Grammar.top.commands then .helpRequested else .unknownCommand
  | _ => .unknownCommand

/-- The command of a name, with what is given for it. -/
def read (name : String) (arguments : List String) : Except UsageError (Command × Given) :=
  if name = "extract" then do
    let given ← Grammar.extract.read arguments
    if given.files.isEmpty then .error .missingArgument
    else return (.extract given.files, given)
  else if name = "match" then do
    let given ← Grammar.resolve.read arguments
    match given.text with
    | some text =>
      if given.steps.isEmpty then .error .missingArgument
      else return (.resolve given.steps given.type text, given)
    | none => .error .missingArgument
  else if name = "check" then do
    let given ← Grammar.check.read arguments
    if given.steps.isEmpty ∨ given.features.isEmpty then .error .missingArgument
    else return (.check given.steps given.features, given)
  else .error (readHelp arguments)

end Command

structure Invocation where
  verbosity : Option Verbosity
  format : Option Format
  command : Command
  deriving DecidableEq, Repr

namespace Invocation

def read (arguments : List String) : Except UsageError Invocation := do
  match ← Progress.start.takeAll Grammar.top arguments with
  | (progress, some (name, rest)) =>
    let (command, given) ← Command.read name rest
    let settings := (← progress.settle).given
    return ⟨given.verbosity.or settings.verbosity, given.format.or settings.format, command⟩
  | (progress, none) =>
    let given := (← progress.settle).given
    if given = .empty then .error .nothingGiven else .error .missingCommand

end Invocation

end Stepbook
