import Stepbook.Feature

/-! # Gherkin documents

A document holds scenarios, directly and grouped in rules. The steps of a background come before
those of every scenario that it is for. A scenario with tables of examples stands for one scenario
for each row of them: the names of the columns, in angle brackets, are replaced by the cells.

* `Table`, `Outline`, `Rule`, `Document`: what a text holds.
* `Outline.expand`: the scenarios that a scenario stands for.
* `Document.feature`: the feature that a document stands for.
-/

namespace Stepbook.Gherkin
set_option autoImplicit false

/-! ## Documents -/

/-- Rows are as long as the header. -/
structure Table where
  header : List String
  rows : List (List String)
  deriving DecidableEq, Repr

/-- A scenario with the tables of its examples. -/
structure Outline where
  name : String
  steps : List Step
  tables : List Table
  deriving DecidableEq, Repr

structure Rule where
  background : List Step
  outlines : List Outline
  deriving DecidableEq, Repr

structure Document where
  name : String
  background : List Step
  outlines : List Outline
  rules : List Rule
  deriving DecidableEq, Repr

/-! ## Examples -/

/-- A column's name where it stands for the cell. -/
def placeholder (column : String) : List Char :=
  '<' :: column.toList ++ ['>']

/-- Columns one after another; what a cell brings in, a later column may replace again. -/
def substitute (header row : List String) (text : String) : String :=
  String.ofList <|
    (header.zip row).foldl (fun text (column, cell) =>
      Text.replaceAll (placeholder column) cell.toList text) text.toList

def Step.substitute (header row : List String) (step : Step) : Step :=
  { step with text := Gherkin.substitute header row step.text }

namespace Outline

/-- The rows of all tables, each with the header of its table. -/
def examples (outline : Outline) : List (List String × List String) :=
  outline.tables.flatMap fun table => table.rows.map fun row => (table.header, row)

/-- The scenario of an example, which is the given one of all, from 1. -/
def instantiate (outline : Outline) (background : List Step) (header row : List String)
    (number : Nat) : Scenario :=
  ⟨substitute header row outline.name ++ " (example " ++ toString number ++ ")",
    (background ++ outline.steps).map (Step.substitute header row)⟩

/-- A scenario without tables stands for itself. -/
def expand (outline : Outline) (background : List Step) : List Scenario :=
  if outline.tables.isEmpty then [⟨outline.name, background ++ outline.steps⟩]
  else
    outline.examples.mapIdx fun index (header, row) =>
      outline.instantiate background header row (index + 1)

end Outline

/-! ## Features -/

def Rule.expand (rule : Rule) (background : List Step) : List Scenario :=
  rule.outlines.flatMap fun outline => outline.expand (background ++ rule.background)

def Document.feature (document : Document) : Feature :=
  ⟨document.name,
    document.outlines.flatMap (·.expand document.background) ++
      document.rules.flatMap (·.expand document.background)⟩

end Stepbook.Gherkin
