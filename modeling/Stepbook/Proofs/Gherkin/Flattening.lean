import Mathlib.Data.List.Forall2
import Stepbook.Proofs.Gherkin.Template

/-! # Scenarios of a document

The feature of a document holds the scenarios that the document stands for, each once and in order:
those that it holds directly, then those of its rules, and of each as many as its tables have rows.

* `Shows`: a text with the cells of a row for its placeholders.
* `Instantiates`: the scenario of a row.
* `Unfolds`: the scenarios that a scenario with tables stands for.
* `Document.Flattens`: the scenarios that a document stands for.
* `unfolds_expand`, `feature_flattens`: these are the scenarios of its feature.
-/

namespace Stepbook.Gherkin
set_option autoImplicit false

/-! ## Scenarios of rows -/

/-- The columns are replaced one after another, and all at once where there are no other
brackets. -/
structure Shows (header row : List String) (written shown : String) : Prop where
  in_order : shown = substitute header row written
  at_once : CleanCells (header.zip row) → ∀ template : Template, template.Clean →
    written.toList = template.written → shown.toList = template.filled (header.zip row)

theorem shows_substitute (header row : List String) (written : String) :
    Shows header row written (substitute header row written) :=
  ⟨rfl, fun hcells _ hclean hwritten => toList_substitute hcells hclean hwritten⟩

/-- The scenario has all steps, those of the background first, with the cells of the row; its name
ends in its number. -/
structure Instantiates (background : List Step) (outline : Outline) (header row : List String)
    (number : Nat) (scenario : Scenario) : Prop where
  name : ∃ shown, Shows header row outline.name shown ∧
    scenario.name = shown ++ " (example " ++ toString number ++ ")"
  steps : List.Forall₂ (fun written taken : Step =>
      taken.type = written.type ∧ Shows header row written.text taken.text)
    (background ++ outline.steps) scenario.steps

theorem instantiates_instantiate (background : List Step) (outline : Outline)
    (header row : List String) (number : Nat) :
    Instantiates background outline header row number
      (outline.instantiate background header row number) where
  name := ⟨_, shows_substitute header row outline.name, rfl⟩
  steps := by
    refine List.forall₂_map_right_iff.2 (List.forall₂_same.2 fun step _ => ?_)
    exact ⟨rfl, shows_substitute header row step.text⟩

/-! ## Scenarios with tables -/

def rowCount (tables : List Table) : Nat :=
  (tables.flatMap (·.rows)).length

/-- The scenarios that a scenario stands for. Rows are numbered from 1 through all tables. -/
inductive Unfolds (background : List Step) (outline : Outline) : List Scenario → Prop where
  | plain (without : outline.tables = []) :
      Unfolds background outline [⟨outline.name, background ++ outline.steps⟩]
  | rows {scenarios : List Scenario} (tables : outline.tables ≠ [])
      (count : scenarios.length = rowCount outline.tables)
      (each : ∀ before table after, outline.tables = before ++ table :: after →
        ∀ earlier row later, table.rows = earlier ++ row :: later →
          ∃ scenario, scenarios[rowCount before + earlier.length]? = some scenario ∧
            Instantiates background outline table.header row
              (rowCount before + earlier.length + 1) scenario) :
      Unfolds background outline scenarios

/-- The rows of tables, each with the header of its table. -/
def rowsOf (tables : List Table) : List (List String × List String) :=
  tables.flatMap fun table => table.rows.map fun row => (table.header, row)

theorem length_rowsOf (tables : List Table) : (rowsOf tables).length = rowCount tables := by
  simp only [rowsOf, rowCount, List.length_flatMap, List.length_map]

/-- A row of a table is behind those of the tables before it, and those before it in its table. -/
theorem rowsOf_getElem? {before after : List Table} {table : Table}
    {earlier later : List (List String)} {row : List String}
    (h : table.rows = earlier ++ row :: later) :
    (rowsOf (before ++ table :: after))[rowCount before + earlier.length]? =
      some (table.header, row) := by
  have hbefore : rowsOf (before ++ table :: after) =
      (rowsOf before ++ earlier.map (table.header, ·)) ++
        (table.header, row) :: (later.map (table.header, ·) ++ rowsOf after) := by
    simp only [rowsOf, List.flatMap_append, List.flatMap_cons, h, List.map_append, List.map_cons,
      List.append_assoc, List.cons_append]
  have hlength : (rowsOf before ++ earlier.map (table.header, ·)).length =
      rowCount before + earlier.length := by
    rw [List.length_append, length_rowsOf, List.length_map]
  rw [hbefore, ← hlength]
  simp

theorem unfolds_expand (background : List Step) (outline : Outline) :
    Unfolds background outline (outline.expand background) := by
  rw [Outline.expand]
  by_cases htables : outline.tables = []
  · rw [htables, List.isEmpty_nil, if_pos rfl]
    exact .plain htables
  · rw [if_neg (by rwa [List.isEmpty_iff])]
    refine .rows htables ?_ fun before table after hsplit earlier row later hrows => ?_
    · rw [List.length_mapIdx]
      exact length_rowsOf outline.tables
    · have hexample : outline.examples[rowCount before + earlier.length]? =
          some (table.header, row) := by
        show (rowsOf outline.tables)[_]? = _
        rw [hsplit]
        exact rowsOf_getElem? hrows
      refine ⟨_, ?_, instantiates_instantiate background outline table.header row _⟩
      rw [List.getElem?_mapIdx, hexample]
      rfl

/-! ## Documents -/

/-- The scenarios of the document itself, then those of each rule, whose background is that of the
document and its own. -/
def Document.Flattens (document : Document) (scenarios : List Scenario) : Prop :=
  ∃ (direct : List (List Scenario)) (grouped : List (List (List Scenario))),
    scenarios = direct.flatten ++ (grouped.map List.flatten).flatten ∧
      List.Forall₂ (Unfolds document.background) document.outlines direct ∧
      List.Forall₂ (fun rule parts =>
        List.Forall₂ (Unfolds (document.background ++ rule.background)) rule.outlines parts)
        document.rules grouped

theorem forall₂_expand (background : List Step) (outlines : List Outline) :
    List.Forall₂ (Unfolds background) outlines (outlines.map (·.expand background)) :=
  List.forall₂_map_right_iff.2 (List.forall₂_same.2 fun outline _ =>
    unfolds_expand background outline)

/-- The feature of a document has the scenarios that the document stands for, none lost, repeated or
in another place. Each has the steps of its backgrounds and then its own, with their types; where
there are no other brackets, texts and names have all placeholders replaced at once. -/
theorem feature_flattens (document : Document) :
    document.Flattens document.feature.scenarios := by
  refine ⟨document.outlines.map (·.expand document.background),
    document.rules.map fun rule =>
      rule.outlines.map (·.expand (document.background ++ rule.background)), ?_,
    forall₂_expand _ _, ?_⟩
  · rw [List.map_map]
    rfl
  · exact List.forall₂_map_right_iff.2 (List.forall₂_same.2 fun rule _ =>
      forall₂_expand _ rule.outlines)

/-- Rows of the second table are numbered behind those of the first one. -/
example :
    let first : Table := ⟨["start", "left"], [["12", "7"]]⟩
    let second : Table := ⟨["left", "start"], [["15", "20"]]⟩
    let outline : Outline := ⟨"<start>", [⟨.outcome, "<left> of <start>"⟩], [first, second]⟩
    let rule : Rule := ⟨[⟨.context, "a shelf"⟩], [outline]⟩
    let before : List Step := [⟨.context, "a shop"⟩, ⟨.context, "a shelf"⟩]
    (Document.feature ⟨"Rules", [⟨.context, "a shop"⟩], [], [rule]⟩).scenarios =
      [⟨"12 (example 1)", before ++ [⟨.outcome, "7 of 12"⟩]⟩,
       ⟨"20 (example 2)", before ++ [⟨.outcome, "15 of 20"⟩]⟩] := by
  decide

end Stepbook.Gherkin
