import Stepbook.Regex.Escape
import Stepbook.Regex.Nesting

/-! # Bracketed classes of characters

A bracketed class lists characters, ranges and classes; classes nest, and `&&`, `--` and `~~`
combine what stands on their sides from left to right.

* `readBracket`: the class at a place of a pattern, after its opening bracket.
* `Bracket`: a class that is being read.
-/

namespace Stepbook.Regex
set_option autoImplicit false

inductive SetOperation where
  | inter
  | diff
  | symmDiff
  deriving DecidableEq, Repr

/-- The items read since the last operation with their depths, and what stands before it. -/
structure Bracket where
  negated : Bool
  before : Option (Nested CharSet × SetOperation)
  items : CharSet
  depths : List Nat
  deriving DecidableEq, Repr

namespace Bracket

def opening (negated : Bool) : Bracket :=
  ⟨negated, none, .empty, []⟩

def add (bracket : Bracket) (set : Nested CharSet) : Bracket :=
  { bracket with items := bracket.items.join set.value, depths := set.depth :: bracket.depths }

def addChar (bracket : Bracket) (c : Char) : Bracket :=
  bracket.add (.flat (.single c))

/-- The set, with the characters that differ from its own in case where the flags ask for them. -/
def folded (flags : Flags) (set : CharSet) : CharSet :=
  if flags.caseless then .caseless (!flags.unicode) set else set

/-- What has been read so far as one set. -/
def combined (bracket : Bracket) (flags : Flags) : Nested CharSet :=
  let depth := rowDepth bracket.depths
  match bracket.before with
  | none => ⟨bracket.items, depth⟩
  | some (before, operation) =>
    let left := folded flags before.value
    let right := folded flags bracket.items
    let set := match operation with
      | .inter => .inter left right
      | .diff => .diff left right
      | .symmDiff => .symmDiff left right
    ⟨set, max before.depth depth + 1⟩

def operate (bracket : Bracket) (flags : Flags) (operation : SetOperation) : Bracket :=
  ⟨bracket.negated, some (bracket.combined flags, operation), .empty, []⟩

def close (bracket : Bracket) (flags : Flags) : Option (Nested CharSet) :=
  let combined := bracket.combined flags
  (negatable flags bracket.negated (folded flags combined.value)).map fun set =>
    ⟨set, combined.depth + 1⟩

end Bracket

/-- Hyphens at the front; `fuel` bounds their number. -/
def readHyphens (flags : Flags) : Nat → Bracket → List Char → Bracket × List Char
  | 0, bracket, rest => (bracket, rest)
  | fuel + 1, bracket, rest =>
    match rest with
    | '-' :: rest => readHyphens flags fuel (bracket.addChar '-') (skipSpace flags rest)
    | rest => (bracket, rest)

/-- After the opening bracket: a caret negates; hyphens, or else a closing bracket, at the front
stand for themselves. -/
def openBracket (flags : Flags) (rest : List Char) : Option (Bracket × List Char) :=
  let rest := skipSpace flags rest
  let (negated, rest) := match rest with
    | '^' :: rest => (true, skipSpace flags rest)
    | rest => (false, rest)
  let (bracket, rest) := readHyphens flags rest.length (.opening negated) rest
  match rest with
  | [] => none
  | ']' :: after =>
    if bracket.depths.isEmpty then some (bracket.addChar ']', skipSpace flags after)
    else some (bracket, rest)
  | rest => some (bracket, rest)

/-- A name between `[:` and `:]`, after the first bracket, and whether a caret asks for all other
characters. -/
def readAsciiClass? (rest : List Char) : Option (Bool × CharSet × List Char) :=
  match rest with
  | ':' :: rest =>
    let (negated, rest) := match rest with
      | '^' :: rest => (true, rest)
      | rest => (false, rest)
    let name := rest.takeWhile (· != ':')
    match rest.drop name.length with
    | ':' :: ']' :: rest => (CharSet.asciiNamed? name).map fun set => (negated, set, rest)
    | _ => none
  | _ => none

/-- A character or a class; without Unicode only characters of ASCII may stand in a class. -/
def readMember (flags : Flags) (rest : List Char) : Option (Escape × List Char) :=
  match rest with
  | [] => none
  | '\\' :: rest => readEscape flags rest
  | c :: rest => some (.literal c, rest)

def memberChar? (flags : Flags) : Escape → Option Char
  | .literal c => if flags.unicode || c.toNat < 128 then some c else none
  | _ => none

def memberSet? (flags : Flags) (member : Escape) : Option CharSet :=
  match member with
  | .set set => some set
  | member => (memberChar? flags member).map CharSet.single

/-- One member, or the range between two. -/
def readRange (flags : Flags) (rest : List Char) : Option (CharSet × List Char) :=
  (readMember flags rest).bind fun (first, rest) =>
    match skipSpace flags rest with
    | [] => none
    | '-' :: after =>
      match skipSpace flags after with
      | ']' :: _ | '-' :: _ => (memberSet? flags first).map fun set => (set, '-' :: after)
      | after =>
        (readMember flags after).bind fun (last, rest) =>
          match memberChar? flags first, memberChar? flags last with
          | some first, some last =>
            if first ≤ last then some (.range first last, rest) else none
          | _, _ => none
    | rest => (memberSet? flags first).map fun set => (set, rest)

/-- The members of a class up to its closing bracket; `fuel` is at least the number of characters
left. -/
def readMembers (flags : Flags) : Nat → Bracket → List Char → Option (Nested CharSet × List Char)
  | 0, _, _ => none
  | fuel + 1, bracket, rest =>
    match skipSpace flags rest with
    | [] => none
    | ']' :: rest => (bracket.close flags).map fun set => (set, rest)
    | '[' :: rest =>
      match readAsciiClass? rest with
      | some (negated, set, rest) =>
        (negatable flags negated (Bracket.folded flags set)).bind fun set =>
          readMembers flags fuel (bracket.add (.flat set)) rest
      | none =>
        (openBracket flags rest).bind fun (inner, rest) =>
          (readMembers flags fuel inner rest).bind fun (set, rest) =>
            readMembers flags fuel (bracket.add set) rest
    | '&' :: '&' :: rest => readMembers flags fuel (bracket.operate flags .inter) rest
    | '-' :: '-' :: rest => readMembers flags fuel (bracket.operate flags .diff) rest
    | '~' :: '~' :: rest => readMembers flags fuel (bracket.operate flags .symmDiff) rest
    | rest =>
      (readRange flags rest).bind fun (set, rest) =>
        readMembers flags fuel (bracket.add (.flat set)) rest

def readBracket (flags : Flags) (rest : List Char) : Option (Nested CharSet × List Char) :=
  (openBracket flags rest).bind fun (bracket, inner) =>
    readMembers flags (rest.length + 1) bracket inner

end Stepbook.Regex
