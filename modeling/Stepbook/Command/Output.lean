import Stepbook.Command.Config
import Stepbook.Json.Document
import Stepbook.Json.Layout
import Stepbook.Registry
import Stepbook.Run.Report
import Stepbook.Source.Extraction

/-! # Reports of commands

Each report can be written as text, line by line, or as one JSON document.

* `Extracted`: a file with what has been found in it.
* `writeExtractions`, `writeMatch`, `writeReport`: the reports of the three commands.
-/

namespace Stepbook
set_option autoImplicit false

open Json (Tree)

/-! ## Lines and documents -/

def unlines (lines : List String) : String :=
  String.join (lines.map (· ++ "\n"))

def writeDocument (tree : Tree) : String :=
  unlines [tree.layout]

def Definition.line (definition : Definition) : String :=
  definition.type.title ++ " " ++ definition.variant.name ++ " '" ++ definition.pattern ++ "'"

/-- Numbers without a value are written as nothing. -/
def Value.toJson : Value → Tree
  | .int value => .number (toString value)
  | .float value => if value.isFinite then .number (Decimal.json.write value) else .null
  | .text value => .string value

/-! ## Definitions in files -/

structure Extracted where
  file : String
  extraction : Source.Extraction
  deriving DecidableEq, Repr

namespace Extracted

def lines (extracted : Extracted) : List String :=
  (extracted.extraction.definitions.map fun definition =>
      definition.line ++ " (" ++ extracted.file ++ ")") ++
    extracted.extraction.skipped.map fun call =>
      "skipped " ++ extracted.file ++ ":" ++ toString call.line ++ " - " ++ call.message

def skippedToJson (call : Source.SkippedCall) : Tree :=
  .object [
    ("line", .ofNat call.line),
    ("offset", .ofNat call.offset),
    ("message", .string call.message),
    ("snippet", .string call.snippet)]

def toJson (extracted : Extracted) : Tree :=
  .object [
    ("file", .string extracted.file),
    ("definitions", .array (extracted.extraction.definitions.map Definition.toJson)),
    ("diagnostics", .array (extracted.extraction.skipped.map skippedToJson))]

end Extracted

def writeExtractions (format : Format) (files : List Extracted) : String :=
  match format with
  | .text => unlines (files.flatMap Extracted.lines)
  | .json => writeDocument (.array (files.map Extracted.toJson))

/-! ## The match of a text -/

/-- What a text has been matched with. -/
abbrev Match := Except StepError (Definition × List Value)

namespace Match

def lines : Match → List String
  | .ok (definition, arguments) =>
    definition.line :: arguments.map fun argument => "  " ++ argument.display
  | .error error => [error.message]

def definition? : Match → Option Definition
  | .ok (definition, _) => some definition
  | .error _ => none

def arguments : Match → List Value
  | .ok (_, arguments) => arguments
  | .error _ => []

def toJson (text : String) (found : Match) : Tree :=
  .object [
    ("text", .string text),
    ("matched", .boolean (definition? found).isSome),
    ("definition", .ofOption ((definition? found).map Definition.toJson)),
    ("arguments", .array ((arguments found).map Value.toJson))]

end Match

def writeMatch (format : Format) (text : String) (found : Match) : String :=
  match format with
  | .text => unlines (Match.lines found)
  | .json => writeDocument (Match.toJson text found)

/-! ## Outcomes of runs -/

namespace Outcome

def line (outcome : Outcome) : String :=
  match outcome.status with
  | .passed => "ok   " ++ outcome.place
  | .failed error => "FAIL " ++ outcome.place ++ " - " ++ error.message

def toJson (outcome : Outcome) : Tree :=
  .object [
    ("path", .array (outcome.path.map .string)),
    ("name", .string outcome.name),
    ("passed", .boolean outcome.isPassed),
    ("error", .ofOption (outcome.status.error?.map fun error => .string error.message))]

end Outcome

namespace Report

def failed (report : Report) : Nat :=
  report.outcomes.length - report.passed

def lines (report : Report) : List String :=
  report.outcomes.map Outcome.line ++
    [toString report.passed ++ " passed, " ++ toString report.failed ++ " failed"]

def toJson (report : Report) : Tree :=
  .object [
    ("passed", .ofNat report.passed),
    ("failed", .ofNat report.failed),
    ("outcomes", .array (report.outcomes.map Outcome.toJson))]

end Report

def writeReport (format : Format) (report : Report) : String :=
  match format with
  | .text => unlines report.lines
  | .json => writeDocument report.toJson

end Stepbook
