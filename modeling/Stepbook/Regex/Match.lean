import Std.Data.HashSet
import Stepbook.Regex.Program

/-! # Matches of regular expressions

Of all ways of a program through a text the preferred one counts: earlier starts before later ones,
earlier alternatives before later ones, more repetitions before fewer unless the repetition is lazy.
The ways are followed best first. No way comes to the same address at the same place again, and
what has been followed from there in vain is not followed again.

* `Way`: an address of a program and a cursor there.
* `explore`: the first way that ends.
* `Regex.search`: the preferred match in a text.
* `Regex.captures?`: the texts of the groups of that match.
-/

namespace Stepbook.Regex
set_option autoImplicit false

structure Way where
  address : Nat
  cursor : Cursor
  deriving DecidableEq, Repr

/-- The ways on, the preferred one first. -/
def Instruction.follow (instruction : Instruction) (cursor : Cursor) : List Way :=
  match instruction with
  | .jump next => [⟨next, cursor⟩]
  | .take set next => (cursor.take? set).toList.map fun cursor => ⟨next, cursor⟩
  | .check condition next => if cursor.meets condition then [⟨next, cursor⟩] else []
  | .branch preferred other => [⟨preferred, cursor⟩, ⟨other, cursor⟩]
  | .enter number next => [⟨next, cursor.enter number⟩]
  | .leave number next => [⟨next, cursor.leave number⟩]
  | .accept => []

/-- The first of the waiting ways that ends, with what they branch into; `fuel` bounds the number
of ways. -/
def explore (program : Array Instruction) :
    Nat → Std.HashSet (Nat × Nat) → List Way → Option Cursor
  | 0, _, _ => none
  | _, _, [] => none
  | fuel + 1, visited, way :: waiting =>
    let point := (way.address, way.cursor.place.offset)
    if visited.contains point then explore program fuel visited waiting
    else
      match program[way.address]? with
      | some .accept => some way.cursor
      | some instruction =>
        explore program fuel (visited.insert point) (instruction.follow way.cursor ++ waiting)
      | none => explore program fuel visited waiting

/-- The end of the preferred match. Every point is followed once, in at most two ways. -/
def search (regex : Regex) (text : List Char) : Option Cursor :=
  let program := regex.program
  explore program (2 * program.size * (text.length + 1) + 2) ∅ [⟨0, .start text⟩]

/-- The texts of all groups in the preferred match; the text of a group that takes no part in it is
empty. -/
def captures? (regex : Regex) (text : List Char) : Option (List (List Char)) :=
  (regex.search text).map fun cursor =>
    (List.range regex.groupCount).map fun index => (cursor.captured? (index + 1)).getD []

end Stepbook.Regex
