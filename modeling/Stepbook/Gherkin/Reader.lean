import Stepbook.Gherkin.Document
import Stepbook.Gherkin.Line

/-! # Reading Gherkin

* `Document.read?`: the document that a text holds, if the text is well formed.
* `table?`, `step?`, `outline?`, `rule?`: the readers of its parts.
-/

namespace Stepbook.Gherkin
set_option autoImplicit false

/-! ## Keywords of English -/

namespace Keywords

def feature : List String := ["Feature", "Business Need", "Ability"]

def background : List String := ["Background"]

def rule : List String := ["Rule"]

def scenario : List String := ["Example", "Scenario"]

def outline : List String := ["Scenario Outline", "Scenario Template"]

def examples : List String := ["Examples", "Scenarios"]

/-- Keywords of steps end in a blank. -/
def context : List String := ["* ", "Given "]

def action : List String := ["* ", "When "]

def outcome : List String := ["* ", "Then "]

def also : List String := ["* ", "And "]

def however : List String := ["* ", "But "]

def ofType : StepType → List String
  | .context => context
  | .action => action
  | .outcome => outcome

/-- What no line of a description of steps may start with. -/
def inScenario : List String :=
  scenario ++ outline ++ context ++ action ++ outcome ++ also ++ however

end Keywords

/-! ## Descriptions -/

def descriptionLine? (keywords : List String) : Reader Unit := fun rest =>
  let start := skipGap rest
  if start.head? = some '@' ∨ (keyword? keywords start).isSome then none
  else (line? start).bind fun (_, next) => (lineEnd? next).map fun next => ((), next)

/-- Any number of lines, none of which starts with one of the keywords. -/
def skipDescription (keywords : List String) (rest : List Char) : List Char :=
  skipGapsAndBreaks (separated skipGap (descriptionLine? keywords) rest).2

/-! ## Tables -/

/-- The text of a cell reaches to the next bar; nothing follows the last bar of a row. -/
def cell? : Reader String
  | '|' :: rest =>
    let start := skipGap rest
    if start.isEmpty ∨ (lineBreak? start).isSome then none
    else
      let line := (restOfLine start).1
      let text := line.takeWhile (· != '|')
      some (String.ofList (Text.trim text), start.drop text.length)
  | _ => none

def row? : Reader (List String) := fun rest =>
  let (cells, next) := separated skipGap cell? rest
  match skipGap next with
  | '|' :: next => (lineEnd? (skipGap next)).map fun next => (cells, next)
  | _ => none

/-- Cells beyond the header are dropped; a row with too few makes no table. -/
def tableOfRows? : List (List String) → Option Table
  | [] => none
  | header :: rows =>
    if rows.all fun row => header.length ≤ row.length then
      some ⟨header, rows.map (·.take header.length)⟩
    else none

def table? : Reader Table := fun rest =>
  let (rows, next) := separated skipGap row? (skipGap rest)
  (tableOfRows? rows).map fun table => (table, next)

/-! ## Steps -/

/-- After the opening mark, up to a closing mark of the same kind. What follows a `#` on a line is a
comment, so that no mark in it closes. -/
def docStringFrom (mark : List Char) (inComment : Bool) : Skipper
  | [] => none
  | c :: rest =>
    if inComment && (lineBreak? (c :: rest)).isNone then docStringFrom mark true rest
    else
      match word? mark (c :: rest) with
      | some next => lineEnd? next
      | none => docStringFrom mark (c == '#') rest

def docString? : Skipper := fun rest =>
  let quotes := ['"', '"', '"']
  let ticks := ['`', '`', '`']
  ((word? quotes rest).bind (docStringFrom quotes false)).or
    ((word? ticks rest).bind (docStringFrom ticks false))

/-- A step of a given type: the text on its line, and what is attached to it. -/
def stepOf? (type : StepType) (keywords : List String) : Reader Step := fun rest => do
  let afterKeyword ← keyword? keywords rest
  let (text, afterText) ← line? (skipGap afterKeyword)
  let afterLine ← lineEnd? afterText
  let start := skipGap afterLine
  let afterDoc := (docString? start).getD start
  let next := (optionally table? afterDoc).2
  return (⟨type, String.ofList (Text.trimEnd text)⟩, next)

/-- A step that continues is of the type of the one before it. -/
def step? (before : Option StepType) : Reader Step := fun rest =>
  let plain := StepType.all.findSome? fun type => stepOf? type (Keywords.ofType type) rest
  plain.or <| before.bind fun type =>
    (stepOf? type Keywords.also rest).or (stepOf? type Keywords.however rest)

/-- Steps after one of type `before`, at most one for each character of `bound`. -/
def stepsFrom (before : Option StepType) : (bound rest : List Char) → List Step × List Char
  | [], rest => ([], rest)
  | _ :: bound, rest =>
    match step? before (if before.isSome then skipGap rest else rest) with
    | some (step, next) =>
      let (steps, last) := stepsFrom (some step.type) bound next
      (step :: steps, last)
    | none => ([], rest)

def steps (rest : List Char) : List Step × List Char :=
  stepsFrom none rest rest

/-! ## Scenarios -/

def background? : Reader (List Step) := fun rest => do
  let afterKeyword ← keyword? Keywords.background (skipGap (many comment? rest))
  let (_, afterTitle) ← title? afterKeyword
  return steps (skipDescription Keywords.inScenario afterTitle)

/-- The table of examples, if there is one. -/
def examples? : Reader (Option Table) := fun rest => do
  let start := skipGap (skipTags (skipGap (many comment? rest)))
  let afterKeyword ← keyword? Keywords.examples start
  let (_, afterTitle) ← title? afterKeyword
  return optionally table? (skipDescription (Keywords.inScenario ++ ["|"]) afterTitle)

def outlineOf? (keywords : List String) : Reader Outline := fun rest => do
  let start := skipGap (skipTags (skipGap (many comment? rest)))
  let afterKeyword ← keyword? keywords start
  let (name, afterTitle) ← title? afterKeyword
  let (steps, afterSteps) := steps (skipDescription Keywords.inScenario afterTitle)
  let (tables, next) := separated id examples? afterSteps
  return (⟨String.ofList name, steps, tables.filterMap id⟩, next)

def outline? : Reader Outline := fun rest =>
  (outlineOf? Keywords.scenario rest).or (outlineOf? Keywords.outline rest)

def outlines (rest : List Char) : List Outline × List Char :=
  separated skipGap outline? (skipGap rest)

/-! ## Rules and features -/

def rule? : Reader Rule := fun rest => do
  let afterKeyword ← keyword? Keywords.rule (skipGap (skipTags (skipGap rest)))
  let (_, afterTitle) ← title? afterKeyword
  let others := Keywords.background ++ Keywords.scenario ++ Keywords.outline
  let (background, afterBackground) :=
    optionally background? (skipDescription others afterTitle)
  let (outlines, afterOutlines) := outlines (skipBreaks afterBackground)
  return (⟨background.getD [], outlines⟩, skipBreaks afterOutlines)

def rules (rest : List Char) : List Rule × List Char :=
  separated skipGap rule? (skipGap rest)

/-- A line that names the language of the keywords. -/
def language? : Reader (List Char) := fun rest => do
  let blank := fun rest => (gapChar? rest).or (lineBreak? rest)
  let afterHash ← word? ['#'] (many blank rest)
  let afterWord ← word? "language".toList (skipGap afterHash)
  let afterColon ← word? [':'] (skipGap afterWord)
  let (language, afterLine) ← line? (skipGap afterColon)
  let next ← breakAfterComment? (skipGap afterLine)
  return (language, next)

/-- The document of a text that ends in the end of a line. -/
def document? (text : List Char) : Option Document := do
  let (language, afterLanguage) := optionally language? (skipGap text)
  if language.getD "en".toList ≠ "en".toList then none
  let afterKeyword ← keyword? Keywords.feature (skipTags (skipBreaks afterLanguage))
  let (name, afterTitle) ← title? afterKeyword
  let others := Keywords.background ++ Keywords.rule ++ Keywords.scenario ++ Keywords.outline
  let (background, afterBackground) :=
    optionally background? (skipDescription others afterTitle)
  let (outlines, afterOutlines) := outlines (skipBreaks afterBackground)
  let (rules, afterRules) := rules (skipBreaks afterOutlines)
  if (skipBreaks afterRules).isEmpty then
    return ⟨String.ofList name, background.getD [], outlines, rules⟩
  else none

/-- The last line need not be ended. -/
def Document.read? (text : String) : Option Document :=
  let chars := text.toList
  document? (if chars.getLast? = some '\n' then chars else chars ++ ['\n'])

end Stepbook.Gherkin
