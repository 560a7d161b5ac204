import Mathlib.Data.List.Basic
import Stepbook.Gherkin.Document

/-! # Texts with placeholders

Columns are replaced one after another. Where neither names nor cells nor the text between
placeholders hold angle brackets, this comes to the same as replacing all placeholders at once.

* `Fragment`, `Template`: a text as it is written with placeholders.
* `Template.written`, `Template.filled`: the text itself, and the text with all placeholders
  replaced at once.
* `Unbracketed`, `Template.Clean`: texts and templates without other brackets.
* `replaceAll_written`: what the replacement of one column does.
* `toList_substitute`: all columns, one after another.
-/

namespace Stepbook.Gherkin
set_option autoImplicit false

/-! ## Templates -/

inductive Fragment where
  | literal (chars : List Char)
  /-- A name in angle brackets, which need not be that of a column. -/
  | slot (name : String)
  deriving DecidableEq, Repr

abbrev Template := List Fragment

def Fragment.written : Fragment → List Char
  | .literal chars => chars
  | .slot name => placeholder name

/-- The cell stands for the name; a name that is not that of a column stands for itself. -/
def Fragment.filled (cells : List (String × String)) : Fragment → List Char
  | .literal chars => chars
  | .slot name =>
    match cells.lookup name with
    | some cell => cell.toList
    | none => placeholder name

def Template.written (template : Template) : List Char :=
  template.flatMap Fragment.written

/-- Each placeholder is replaced by what was written, not by what another cell brought in. -/
def Template.filled (cells : List (String × String)) (template : Template) : List Char :=
  template.flatMap (Fragment.filled cells)

def Unbracketed (text : List Char) : Prop :=
  '<' ∉ text ∧ '>' ∉ text

instance (text : List Char) : Decidable (Unbracketed text) :=
  inferInstanceAs (Decidable (_ ∧ _))

def Fragment.Clean : Fragment → Prop
  | .literal chars => Unbracketed chars
  | .slot name => Unbracketed name.toList

/-- All brackets are those of placeholders. -/
def Template.Clean (template : Template) : Prop :=
  ∀ fragment ∈ template, fragment.Clean

/-- The names of columns, and the cells of a row, hold no brackets. -/
def CleanCells (cells : List (String × String)) : Prop :=
  ∀ cell ∈ cells, Unbracketed cell.1.toList ∧ Unbracketed cell.2.toList

/-! ## One column -/

section
variable {name value : List Char}

/-- The replacement passes over a text in which no placeholder starts. -/
theorem replaceFrom_append {chars : List Char} (h : '<' ∉ chars) (rest : List Char) :
    Text.replaceFrom ('<' :: name) value 0 (chars ++ rest) =
      chars ++ Text.replaceFrom ('<' :: name) value 0 rest := by
  induction chars with
  | nil => rfl
  | cons c chars ih =>
    simp only [List.mem_cons, not_or] at h
    have hother : ('<' :: name).isPrefixOf (c :: (chars ++ rest)) = false := by
      rw [List.isPrefixOf, beq_false_of_ne h.1, Bool.false_and]
    rw [List.cons_append, Text.replaceFrom, hother, if_neg Bool.false_ne_true, ih h.2]
    rfl

/-- What is left of an occurrence is dropped. -/
theorem replaceFrom_skip (part skipped rest : List Char) :
    Text.replaceFrom part value skipped.length (skipped ++ rest) =
      Text.replaceFrom part value 0 rest := by
  induction skipped with
  | nil => rfl
  | cons c skipped ih => exact ih

theorem replaceFrom_self (c : Char) (part rest : List Char) :
    Text.replaceFrom (c :: part) value 0 (c :: part ++ rest) =
      value ++ Text.replaceFrom (c :: part) value 0 rest := by
  have hprefix : (c :: part).isPrefixOf (c :: part ++ rest) = true :=
    List.isPrefixOf_iff_prefix.2 (List.prefix_append _ _)
  rw [List.cons_append] at hprefix ⊢
  rw [Text.replaceFrom, if_pos hprefix]
  exact congrArg (value ++ ·) (replaceFrom_skip (c :: part) part rest)

end

/-- A name ends at the first closing bracket. -/
theorem name_eq_of_append {first second rest other : List Char} (hfirst : '>' ∉ first)
    (hsecond : '>' ∉ second) (h : first ++ '>' :: rest = second ++ '>' :: other) :
    first = second := by
  have hname : ∀ {name : List Char}, '>' ∉ name → ∀ rest : List Char,
      (name ++ '>' :: rest).takeWhile (· != '>') = name := by
    intro name hname rest
    have hall : ∀ c ∈ name, (c != '>') = true := by
      intro c hc
      rw [bne_iff_ne]
      rintro rfl
      exact hname hc
    rw [List.takeWhile_append_of_pos hall]
    simp
  rw [← hname hfirst rest, h, hname hsecond other]

/-- The placeholder of another column stays. -/
theorem replaceFrom_other {column name : String} (hcolumn : Unbracketed column.toList)
    (hname : Unbracketed name.toList) (hne : name ≠ column) (value rest : List Char) :
    Text.replaceFrom (placeholder column) value 0 (placeholder name ++ rest) =
      placeholder name ++ Text.replaceFrom (placeholder column) value 0 rest := by
  have hother : ¬ (placeholder column).isPrefixOf
      ('<' :: (name.toList ++ ['>'] ++ rest)) = true := by
    rw [List.isPrefixOf_iff_prefix]
    rintro ⟨more, hmore⟩
    simp only [placeholder, List.cons_append, List.append_assoc, List.nil_append,
      List.cons.injEq, true_and] at hmore
    exact hne (String.toList_inj.1 (name_eq_of_append hcolumn.2 hname.2 hmore).symm)
  have hbehind : '<' ∉ name.toList ++ ['>'] := by
    simp only [List.mem_append, List.mem_singleton, not_or]
    exact ⟨hname.1, by decide⟩
  show Text.replaceFrom (placeholder column) value 0 ('<' :: (name.toList ++ ['>'] ++ rest)) = _
  rw [Text.replaceFrom, if_neg hother]
  exact congrArg ('<' :: ·) (replaceFrom_append hbehind rest)

def Fragment.put (column cell : String) : Fragment → Fragment
  | .literal chars => .literal chars
  | .slot name => if name = column then .literal cell.toList else .slot name

theorem replaceAll_written {column : String} (hcolumn : Unbracketed column.toList)
    (cell : String) {template : Template} (h : template.Clean) :
    Text.replaceAll (placeholder column) cell.toList template.written =
      Template.written (template.map (Fragment.put column cell)) := by
  rw [Text.replaceAll]
  induction template with
  | nil => rfl
  | cons fragment template ih =>
    obtain ⟨hfragment, htemplate⟩ := List.forall_mem_cons.1 h
    rw [Template.written, Template.written, List.map_cons, List.flatMap_cons, List.flatMap_cons,
      ← Template.written, ← Template.written, ← ih htemplate]
    cases fragment with
    | literal chars => exact replaceFrom_append hfragment.1 _
    | slot name =>
      by_cases hname : name = column
      · subst hname
        rw [Fragment.put, if_pos rfl]
        exact replaceFrom_self '<' (name.toList ++ ['>']) _
      · rw [Fragment.put, if_neg hname]
        exact replaceFrom_other hcolumn hfragment hname _ _

/-! ## All columns -/

theorem clean_put {column cell : String} (hcell : Unbracketed cell.toList) {template : Template}
    (h : template.Clean) : Template.Clean (template.map (Fragment.put column cell)) := by
  refine List.forall_mem_map.2 fun fragment hfragment => ?_
  have hclean := h fragment hfragment
  cases fragment with
  | literal chars => exact hclean
  | slot name =>
    rw [Fragment.put]
    split
    · exact hcell
    · exact hclean

theorem filled_put (column cell : String) (cells : List (String × String)) (template : Template) :
    Template.filled cells (template.map (Fragment.put column cell)) =
      template.filled ((column, cell) :: cells) := by
  rw [Template.filled, Template.filled, List.flatMap_map]
  refine List.flatMap_congr fun fragment _ => ?_
  cases fragment with
  | literal chars => rfl
  | slot name =>
    rw [Fragment.put, Fragment.filled, List.lookup_cons]
    by_cases hname : name = column
    · rw [if_pos hname, beq_iff_eq.2 hname]
      rfl
    · rw [if_neg hname, beq_false_of_ne hname]
      rfl

theorem filled_nil (template : Template) : template.filled [] = template.written :=
  List.flatMap_congr fun fragment _ => by cases fragment <;> rfl

/-- Columns one after another replace all placeholders at once. -/
theorem foldl_replaceAll {cells : List (String × String)} (hcells : CleanCells cells)
    {template : Template} (h : template.Clean) :
    cells.foldl (fun text (column, cell) =>
        Text.replaceAll (placeholder column) cell.toList text) template.written =
      template.filled cells := by
  induction cells generalizing template with
  | nil => exact (filled_nil template).symm
  | cons cell cells ih =>
    obtain ⟨⟨hcolumn, hvalue⟩, hothers⟩ := List.forall_mem_cons.1 hcells
    rw [List.foldl_cons]
    dsimp only
    rw [replaceAll_written hcolumn cell.2 h, ih hothers (clean_put hvalue h), filled_put]

/-- A text that is written with placeholders has them replaced at once. -/
theorem toList_substitute {header row : List String} (hcells : CleanCells (header.zip row))
    {template : Template} (h : template.Clean) {text : String}
    (htext : text.toList = template.written) :
    (substitute header row text).toList = template.filled (header.zip row) := by
  rw [substitute, String.toList_ofList, htext]
  exact foldl_replaceAll hcells h

end Stepbook.Gherkin
