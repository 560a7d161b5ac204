/-! # JSON

* `Json.Tree`: what a JSON text stands for. Numbers keep the text that they are written with, and
  the members of an object their order.
* `Tree.record?`: the fields of a record, which may be written as an object or as an array.
-/

namespace Stepbook.Json
set_option autoImplicit false

inductive Tree where
  | null
  | boolean (value : Bool)
  | number (literal : String)
  | string (value : String)
  | array (items : List Tree)
  | object (members : List (String × Tree))
  deriving Repr, Inhabited

namespace Tree

def ofNat (n : Nat) : Tree :=
  .number (toString n)

def ofOption : Option Tree → Tree
  | some tree => tree
  | none => .null

def string? : Tree → Option String
  | .string value => some value
  | _ => none

/-! ## Lists and records -/

variable {α : Type}

/-- All items have to be readable. -/
def list? (read : Tree → Option α) : Tree → Option (List α)
  | .array items => items.mapM read
  | _ => none

/-- The fields with the given names. An object may have other members as well; an array holds the
fields in the order of their names, and the last ones may be missing. -/
def record? (names : List String) : Tree → Option (List (Option Tree))
  | .object members => some (names.map fun name => members.lookup name)
  | .array items =>
    if items.length ≤ names.length then
      some (items.map some ++ List.replicate (names.length - items.length) none)
    else none
  | _ => none

end Tree

end Stepbook.Json
