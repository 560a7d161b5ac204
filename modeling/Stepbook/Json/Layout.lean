import Stepbook.Json.Basic

/-! # JSON texts

A tree is laid out over lines: each item of an array and each member of an object stands on a line
of its own, two blanks further in than the brackets around it. Without items there is no line.

* `quote`: a text as a string of JSON.
* `Tree.layout`: the text of a tree.
-/

namespace Stepbook.Json
set_option autoImplicit false

/-! ## Strings -/

/-- Quotes, backslashes and control characters are escaped. -/
def escapeChar (c : Char) : List Char :=
  match c with
  | '"' => ['\\', '"']
  | '\\' => ['\\', '\\']
  | '\x08' => ['\\', 'b']
  | '\t' => ['\\', 't']
  | '\n' => ['\\', 'n']
  | '\x0c' => ['\\', 'f']
  | '\r' => ['\\', 'r']
  | c =>
    if c.toNat < 32 then
      ['\\', 'u', '0', '0', Nat.digitChar (c.toNat / 16), Nat.digitChar (c.toNat % 16)]
    else [c]

def quote (text : List Char) : List Char :=
  '"' :: text.flatMap escapeChar ++ ['"']

/-! ## Lines -/

/-- The end of a line, with the blanks before what stands on the next one. -/
def newline (depth : Nat) : List Char :=
  '\n' :: List.replicate (2 * depth) ' '

/-- Lines with commas between them. -/
def separate (depth : Nat) : List (List Char) → List Char
  | [] => []
  | [last] => newline depth ++ last
  | line :: rest => newline depth ++ line ++ ',' :: separate depth rest

/-- Lines between brackets that stand `depth` levels in. -/
def block (opening closing : Char) (depth : Nat) : List (List Char) → List Char
  | [] => [opening, closing]
  | lines => opening :: separate (depth + 1) lines ++ newline depth ++ [closing]

/-! ## Trees -/

namespace Tree

mutual

def write (depth : Nat) : Tree → List Char
  | .null => "null".toList
  | .boolean true => "true".toList
  | .boolean false => "false".toList
  | .number literal => literal.toList
  | .string value => quote value.toList
  | .array items => block '[' ']' depth (writeItems (depth + 1) items)
  | .object members => block '{' '}' depth (writeMembers (depth + 1) members)

def writeItems (depth : Nat) : List Tree → List (List Char)
  | [] => []
  | item :: rest => write depth item :: writeItems depth rest

def writeMembers (depth : Nat) : List (String × Tree) → List (List Char)
  | [] => []
  | (name, value) :: rest =>
    (quote name.toList ++ ':' :: ' ' :: write depth value) :: writeMembers depth rest

end

def layout (tree : Tree) : String :=
  String.ofList (tree.write 0)

end Tree

end Stepbook.Json
