/-! # Depth of patterns

Parts of a pattern that hold other parts may not nest without bound: a group, a repetition, a
bracketed class, a combination of sets, and each place where parts stand side by side, be it in a
row, as branches or in a class, count one more than the deepest part within.

* `Nested`: a part that has been read, with its depth.
* `rowDepth`: the depth of parts side by side.
* `maxDepth`: the depth that a pattern may have.
-/

namespace Stepbook.Regex
set_option autoImplicit false

structure Nested (α : Type) where
  value : α
  depth : Nat
  deriving DecidableEq, Repr

namespace Nested
variable {α : Type}

/-- A part that holds no other. -/
def flat (value : α) : Nested α :=
  ⟨value, 0⟩

end Nested

/-- A part alone counts as itself. -/
def rowDepth : List Nat → Nat
  | [] => 0
  | [depth] => depth
  | depths => depths.foldl max 0 + 1

def maxDepth : Nat :=
  250

end Stepbook.Regex
