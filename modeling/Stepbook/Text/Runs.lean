/-! # Tables of consecutive characters

A property of characters that comes as a standard's data is kept as a table of runs: consecutive
characters that share a value. The table's text writes one word per run, in the order of the code
points.

* `RunTable.ofText` reads a table from its text; `RunTable.find?` looks a code point up.
* `CodeRanges.ofText` reads a set of code points from words such as `2B0-2B8`, `37A` and
  `100-12E/2`, which takes every second code point.
-/

namespace Stepbook.Text
set_option autoImplicit false

/-- The words of a table's text, which stand between spaces and line ends. -/
def wordsOf (text : String) : List String :=
  ((text.map fun c => if c == '\n' then ' ' else c).splitOn " ").filter (!·.isEmpty)

/-! ## Runs with a value -/

/-- Each entry holds the first code point of a run and the value of the run's characters. -/
structure RunTable (α : Type) where
  runs : Array (Nat × α)

namespace RunTable
variable {α : Type}

/-- A word of the text: the name of a value, then how many characters the run has, one if unsaid. -/
private def addRun (name? : List Char → Option α) (nameLength : Nat) (word : String)
    (seen : Nat × Array (Nat × α)) : Nat × Array (Nat × α) :=
  let chars := word.toList
  let length := (String.ofList (chars.drop nameLength)).toNat?.getD 1
  match name? (chars.take nameLength) with
  | some value => (seen.1 + length, seen.2.push (seen.1, value))
  | none => (seen.1 + length, seen.2)

def ofText (name? : List Char → Option α) (nameLength : Nat) (text : String) : RunTable α :=
  ⟨((wordsOf text).foldl (fun seen word => addRun name? nameLength word seen) (0, #[])).2⟩

/-- The last run from `low` to below `high` that starts at or before `code`, found by at most
`steps` halvings. -/
private def search (runs : Array (Nat × α)) (code : Nat) : Nat → Nat → Nat → Option α
  | 0, low, _ => (runs[low]?).map (·.2)
  | steps + 1, low, high =>
    if high ≤ low + 1 then (runs[low]?).map (·.2)
    else
      let middle := (low + high) / 2
      match runs[middle]? with
      | some run =>
        if run.1 ≤ code then search runs code steps middle high
        else search runs code steps low middle
      | none => none

/-- The value of the last run that starts at or before a code point, or of the first run. -/
def find? (table : RunTable α) (code : Nat) : Option α :=
  search table.runs code (table.runs.size.log2 + 1) 0 table.runs.size

end RunTable

/-! ## Sets of code points -/

/-- The value of hexadecimal digits. -/
def hexValue (digits : List Char) : Nat :=
  digits.foldl (fun value c =>
    16 * value +
      (if c.isDigit then c.toNat - '0'.toNat else c.toUpper.toNat - 'A'.toNat + 10)) 0

/-- Every `step`-th code point from the first to the last. -/
structure CodeRange where
  first : Nat
  last : Nat
  step : Nat

namespace CodeRange

def contains (range : CodeRange) (code : Nat) : Bool :=
  range.first ≤ code && code ≤ range.last && (code - range.first) % range.step == 0

def ofWord? (word : String) : Option CodeRange :=
  let value := fun digits : String => hexValue digits.toList
  match word.splitOn "-" with
  | [single] => some ⟨value single, value single, 1⟩
  | [first, last] =>
    match last.splitOn "/" with
    | [last] => some ⟨value first, value last, 1⟩
    | [last, step] => some ⟨value first, value last, value step⟩
    | _ => none
  | _ => none

end CodeRange

/-- Ranges that ascend and lie apart. -/
structure CodeRanges where
  table : RunTable CodeRange

namespace CodeRanges

def ofWords (words : List String) : CodeRanges :=
  ⟨⟨((words.filterMap CodeRange.ofWord?).map fun range => (range.first, range)).toArray⟩⟩

def ofText (text : String) : CodeRanges :=
  ofWords (wordsOf text)

def contains (set : CodeRanges) (code : Nat) : Bool :=
  (set.table.find? code).any (·.contains code)

end CodeRanges

end Stepbook.Text
