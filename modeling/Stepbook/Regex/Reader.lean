import Stepbook.Regex.Basic
import Stepbook.Regex.Bracket

/-! # Reading patterns

A pattern is read item by item. What has been read is kept as the branches and items of the group
that is open, and of every group around it.

* `Regex.read?`: the expression that a pattern writes, if it is well formed.
* `Reading`: a pattern that has been read in part.
* `readItem`: one item of a pattern.
-/

namespace Stepbook.Regex
set_option autoImplicit false

/-! ## State -/

/-- The contents of a group, last first. -/
structure Level where
  branches : List (Nested Regex)
  items : List (Nested Regex)
  /-- The last item may be repeated. -/
  repeatable : Bool
  deriving DecidableEq, Repr

/-- Parts side by side as one. -/
def gather (join : List Regex → Regex) (parts : List (Nested Regex)) : Nested Regex :=
  ⟨join (parts.map (·.value)), rowDepth (parts.map (·.depth))⟩

namespace Level

def initial : Level :=
  ⟨[], [], false⟩

def push (level : Level) (item : Nested Regex) : Level :=
  { level with items := item :: level.items, repeatable := true }

/-- A setting of flags stands among the items, matches nothing and cannot be repeated. -/
def pushSetting (level : Level) : Level :=
  { level with items := .flat .empty :: level.items, repeatable := false }

def alternate (level : Level) : Level :=
  ⟨gather concat level.items.reverse :: level.branches, [], false⟩

def close (level : Level) : Nested Regex :=
  gather oneOf level.alternate.branches.reverse

/-- The last item repeated. -/
def repeatLast? (level : Level) (least : Nat) (most : Option Nat) (greedy : Bool) :
    Option Level :=
  match level.items with
  | item :: items =>
    if level.repeatable then
      let repeated := ⟨item.value.repeated least most greedy, item.depth + 1⟩
      some { level with items := repeated :: items }
    else none
  | [] => none

end Level

/-- A group whose end has not been read yet: what stands before it, its number if it captures, and
the flags in force around it. -/
structure OpenGroup where
  outer : Level
  number : Option Nat
  flags : Flags
  deriving DecidableEq, Repr

structure Reading where
  level : Level
  groups : List OpenGroup
  flags : Flags
  /-- How many capture groups have been opened. -/
  captures : Nat
  /-- The names of groups so far. -/
  names : List (List Char)
  deriving DecidableEq, Repr

namespace Reading

def initial : Reading :=
  ⟨.initial, [], .initial, 0, []⟩

def push (reading : Reading) (item : Nested Regex) : Reading :=
  { reading with level := reading.level.push item }

def pushSet (reading : Reading) (set : CharSet) : Reading :=
  reading.push (.flat (.chars set))

def pushLiteral (reading : Reading) (c : Char) : Reading :=
  reading.pushSet (Bracket.folded reading.flags (.single c))

def alternate (reading : Reading) : Reading :=
  { reading with level := reading.level.alternate }

def repeatLast? (reading : Reading) (least : Nat) (most : Option Nat) (greedy : Bool) :
    Option Reading :=
  (reading.level.repeatLast? least most (greedy != reading.flags.swapGreed)).map fun level =>
    { reading with level := level }

/-- The flags hold from here to the end of the group. -/
def setFlags (reading : Reading) (flags : Flags) : Reading :=
  { reading with flags := flags, level := reading.level.pushSetting }

def openPlain (reading : Reading) (flags : Flags) : Reading :=
  { reading with
    level := .initial
    groups := ⟨reading.level, none, reading.flags⟩ :: reading.groups
    flags := flags }

def openCapture (reading : Reading) : Reading :=
  { reading with
    level := .initial
    groups := ⟨reading.level, some (reading.captures + 1), reading.flags⟩ :: reading.groups
    captures := reading.captures + 1 }

def openNamed? (reading : Reading) (name : List Char) : Option Reading :=
  if reading.names.contains name then none
  else some { reading.openCapture with names := name :: reading.names }

def close? (reading : Reading) : Option Reading :=
  match reading.groups with
  | [] => none
  | opened :: groups =>
    let body := reading.level.close
    let item := match opened.number with
      | some number => .group number body.value
      | none => body.value
    let level := opened.outer.push ⟨item, body.depth + 1⟩
    some { reading with level := level, groups := groups, flags := opened.flags }

/-- The whole pattern, if all groups are closed and it does not nest too deep. -/
def finish? (reading : Reading) : Option Regex :=
  let pattern := reading.level.close
  if reading.groups.isEmpty ∧ pattern.depth ≤ maxDepth then some pattern.value else none

end Reading

/-! ## Groups -/

def isNameStart (c : Char) : Bool :=
  c == '_' || Text.isAlphabetic .ofTexts c

def isNameChar (c : Char) : Bool :=
  isNameStart c || Text.isNumeric .ofTexts c || c == '.' || c == '[' || c == ']'

/-- The name of a group up to `>`. -/
def readGroupName (rest : List Char) : Option (List Char × List Char) :=
  let name := rest.takeWhile (· != '>')
  match name, rest.drop name.length with
  | first :: others, _ :: rest =>
    if isNameStart first && others.all isNameChar then some (first :: others, rest) else none
  | _, _ => none

/-- After an opening parenthesis: a capture group, a named one, a plain one with flags, or flags
alone. Looking around is not supported. -/
def readOpening (reading : Reading) (rest : List Char) : Option (Reading × List Char) :=
  let named := fun rest : List Char =>
    (readGroupName rest).bind fun (name, rest) =>
      (reading.openNamed? name).map fun next => (next, rest)
  match skipSpace reading.flags rest with
  | '?' :: '=' :: _ | '?' :: '!' :: _ => none
  | '?' :: '<' :: '=' :: _ | '?' :: '<' :: '!' :: _ => none
  | '?' :: 'P' :: '<' :: rest => named rest
  | '?' :: '<' :: rest => named rest
  | '?' :: rest =>
    match readFlags reading.flags rest with
    | some (flags, ':' :: after) => some (reading.openPlain flags, after)
    | some (flags, _ :: after) =>
      if rest.head? = some ')' then none else some (reading.setFlags flags, after)
    | _ => none
  | rest => some (reading.openCapture, rest)

/-! ## Repetitions -/

/-- A repetition is lazy if a question mark follows. -/
def readLazy (rest : List Char) : Bool × List Char :=
  match rest with
  | '?' :: rest => (false, rest)
  | rest => (true, rest)

def readSimpleRepetition (reading : Reading) (least : Nat) (most : Option Nat)
    (rest : List Char) : Option (Reading × List Char) :=
  let (greedy, rest) := readLazy rest
  (reading.repeatLast? least most greedy).map fun next => (next, rest)

/-- Digits, blanks between them left out where allowed. -/
def readCountDigits (flags : Flags) : Nat → List Char → List Char → List Char × List Char
  | 0, digits, rest => (digits, rest)
  | fuel + 1, digits, rest =>
    match rest with
    | c :: more =>
      if c.isDigit then readCountDigits flags fuel (digits ++ [c]) (skipSpace flags more)
      else (digits, rest)
    | [] => (digits, [])

/-- A number between any blanks, if one is there. -/
def readCount (flags : Flags) (rest : List Char) : Option Nat × List Char :=
  let start := rest.dropWhile Text.isBlank
  let (digits, after) := readCountDigits flags start.length [] start
  let value := String.toNat? (String.ofList digits)
  (value.filter (· < Nat.pow 2 32), skipSpace flags (after.dropWhile Text.isBlank))

/-- After the opening brace: the bounds, and the rest from the closing brace on. -/
def readBounds (flags : Flags) (rest : List Char) :
    Option (Nat × Option Nat × List Char) :=
  match readCount flags (skipSpace flags rest) with
  | (some least, ',' :: rest) =>
    match skipSpace flags rest with
    | '\x7d' :: rest => some (least, none, '\x7d' :: rest)
    | rest =>
      match readCount flags rest with
      | (some most, rest) => if least ≤ most then some (least, some most, rest) else none
      | (none, _) => none
  | (some count, rest) => some (count, some count, rest)
  | (none, _) => none

def readCountedRepetition (reading : Reading) (rest : List Char) :
    Option (Reading × List Char) :=
  match readBounds reading.flags rest with
  | some (least, most, '\x7d' :: rest) =>
    readSimpleRepetition reading least most (skipSpace reading.flags rest)
  | _ => none

/-! ## Items -/

def anyChar? (flags : Flags) : Option CharSet :=
  if !flags.unicode then none
  else if flags.dotAll then some .all
  else if flags.crlf then some (.compl (.union (.single '\r') (.single '\n')))
  else some (.compl (.single '\n'))

def pushEscape (reading : Reading) : Escape → Reading
  | .literal c => reading.pushLiteral c
  | .set set => reading.pushSet set
  | .anchor condition => reading.push (.flat (.anchor condition))

/-- One item of a pattern that starts with `c`. -/
def readItem (reading : Reading) (c : Char) (rest : List Char) : Option (Reading × List Char) :=
  let flags := reading.flags
  match c with
  | '(' => readOpening reading rest
  | ')' => reading.close?.map fun next => (next, rest)
  | '|' => some (reading.alternate, rest)
  | '[' =>
    (readBracket flags rest).map fun (set, rest) =>
      (reading.push ⟨.chars set.value, set.depth⟩, rest)
  | '?' => readSimpleRepetition reading 0 (some 1) rest
  | '*' => readSimpleRepetition reading 0 none rest
  | '+' => readSimpleRepetition reading 1 none rest
  | '\x7b' => readCountedRepetition reading rest
  | '\\' =>
    (readEscape flags rest).map fun (escape, rest) => (pushEscape reading escape, rest)
  | '.' => (anyChar? flags).map fun set => (reading.pushSet set, rest)
  | '^' =>
    let condition := if flags.multiLine then .lineStart flags.crlf else .textStart
    some (reading.push (.flat (.anchor condition)), rest)
  | '$' =>
    let condition := if flags.multiLine then .lineEnd flags.crlf else .textEnd
    some (reading.push (.flat (.anchor condition)), rest)
  | c => some (reading.pushLiteral c, rest)

/-- Item by item; `fuel` is at least the number of items left. -/
def readItems : Nat → Reading → List Char → Option Reading
  | 0, _, _ => none
  | fuel + 1, reading, rest =>
    match skipSpace reading.flags rest with
    | [] => some reading
    | c :: rest => (readItem reading c rest).bind fun (next, rest) => readItems fuel next rest

def read? (pattern : List Char) : Option Regex :=
  (readItems (pattern.length + 1) .initial pattern).bind Reading.finish?

end Stepbook.Regex
