import Stepbook.Log
import Stepbook.Text.Basic

/-! # Configuration

The command line tool has two settings: how much it tells, and how it writes reports. Both have a
default, may be set by variables of the environment, and again by options of the command line.

* `Verbosity`, `Format`: the settings, with their readers.
* `Config.ofEnvironment`, `Config.override`: where they come from.
-/

namespace Stepbook
set_option autoImplicit false

inductive ConfigError where
  | unknownVerbosity (reported : String)
  | unknownFormat (reported : String)
  deriving DecidableEq, Repr

def ConfigError.message : ConfigError → String
  | .unknownVerbosity reported =>
    "invalid configuration: unknown log level '" ++ reported ++
      "', expected one of: trace, debug, info, warn, error"
  | .unknownFormat reported =>
    "invalid configuration: unknown output format '" ++ reported ++ "', expected text or json"

/-! ## How much is told -/

inductive Verbosity where
  | trace
  | debug
  | info
  | warn
  | error
  deriving DecidableEq, Repr

namespace Verbosity

def name : Verbosity → String
  | .trace => "trace"
  | .debug => "debug"
  | .info => "info"
  | .warn => "warn"
  | .error => "error"

/-- The names that are read, one of them a longer form. -/
def names : List (String × Verbosity) :=
  [("trace", .trace), ("debug", .debug), ("info", .info), ("warn", .warn), ("warning", .warn),
    ("error", .error)]

/-- In any letter case. -/
def read (text : String) : Except ConfigError Verbosity :=
  match names.lookup (String.ofList (Text.lower text.toList)) with
  | some verbosity => .ok verbosity
  | none => .error (.unknownVerbosity text)

/-- A record is told if it is at least as important as what is asked for. -/
def tells (verbosity : Verbosity) (level : Log.Level) : Bool :=
  match level with
  | .debug => verbosity == .trace || verbosity == .debug
  | .info => verbosity != .warn && verbosity != .error
  | .warn => verbosity != .error

end Verbosity

/-! ## How reports are written -/

inductive Format where
  | text
  | json
  deriving DecidableEq, Repr

namespace Format

def name : Format → String
  | .text => "text"
  | .json => "json"

/-- In any letter case. -/
def read (source : String) : Except ConfigError Format :=
  match [("text", Format.text), ("json", .json)].lookup
      (String.ofList (Text.lower source.toList)) with
  | some format => .ok format
  | none => .error (.unknownFormat source)

end Format

/-! ## Settings -/

structure Config where
  verbosity : Verbosity
  format : Format
  deriving DecidableEq, Repr

namespace Config

def default : Config :=
  ⟨.warn, .text⟩

def verbosityVariable : String :=
  "STEPWISE_LOG_LEVEL"

def formatVariable : String :=
  "STEPWISE_OUTPUT"

/-- The value of a variable, or a default if it is not set. -/
def setting {α : Type} (read : String → Except ConfigError α) (otherwise : α) :
    Option String → Except ConfigError α
  | some text => read text
  | none => .ok otherwise

def ofEnvironment (lookup : String → Option String) : Except ConfigError Config := do
  let verbosity ← setting Verbosity.read default.verbosity (lookup verbosityVariable)
  let format ← setting Format.read default.format (lookup formatVariable)
  return ⟨verbosity, format⟩

/-- What is given takes the place of what was there. -/
def override (config : Config) (verbosity : Option Verbosity) (format : Option Format) : Config :=
  ⟨verbosity.getD config.verbosity, format.getD config.format⟩

end Config

end Stepbook
