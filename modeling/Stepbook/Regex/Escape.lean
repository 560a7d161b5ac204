import Stepbook.Regex.Flags

/-! # Escapes in patterns

* `Escape`: what a backslash and the characters after it stand for.
* `readEscape`: the escape at a place of a pattern, after the backslash.
* `escape`: a text as a pattern that matches just that text.
* `isMeta`: the characters with a meaning of their own in patterns.
-/

namespace Stepbook.Regex
set_option autoImplicit false

inductive Escape where
  | literal (c : Char)
  | set (set : CharSet)
  | anchor (condition : Anchor)
  deriving DecidableEq, Repr

/-! ## Literal characters -/

def isMeta (c : Char) : Bool :=
  "\\.+*?()|[]\x7b\x7d^$#&-~".toList.contains c

/-- A backslash before such a character stands for the character: ASCII but no letter or digit. -/
def isEscapable (c : Char) : Bool :=
  isMeta c || (c.toNat < 128 && !c.isAlphanum && c != '<' && c != '>')

def escape (text : List Char) : List Char :=
  text.flatMap fun c => if isMeta c then ['\\', c] else [c]

/-- The controls that a letter after a backslash stands for. -/
def control? (c : Char) : Option Char :=
  match c with
  | 'a' => some '\x07'
  | 'f' => some '\x0c'
  | 't' => some '\t'
  | 'n' => some '\n'
  | 'r' => some '\r'
  | 'v' => some '\x0b'
  | _ => none

/-! ## Code points -/

def isHexDigit (c : Char) : Bool :=
  c.isDigit || ('a' ≤ c && c ≤ 'f') || ('A' ≤ c && c ≤ 'F')

/-- The character of a code point; without Unicode no byte beyond ASCII stands for one. -/
def charOfHex? (bytes : Bool) (digits : List Char) : Option Char :=
  let code := Text.hexValue digits
  if code.isValidChar && !(bytes && 128 ≤ code) then some (Char.ofNat code) else none

def readHexDigits (flags : Flags) : Nat → List Char → List Char → Option (List Char × List Char)
  | 0, digits, rest => some (digits, rest)
  | count + 1, digits, rest =>
    match rest with
    | c :: rest =>
      if isHexDigit c then readHexDigits flags count (digits ++ [c]) (skipSpace flags rest)
      else none
    | [] => none

/-- Digits up to a closing brace; `fuel` is at least the number of characters left. -/
def readBracedHex (flags : Flags) : Nat → List Char → List Char → Option (List Char × List Char)
  | 0, _, _ => none
  | fuel + 1, digits, rest =>
    match rest with
    | '\x7d' :: rest => if digits.isEmpty then none else some (digits, skipSpace flags rest)
    | c :: rest =>
      if isHexDigit c then readBracedHex flags fuel (digits ++ [c]) (skipSpace flags rest)
      else none
    | [] => none

def readCodePoint (flags : Flags) (count : Nat) (rest : List Char) : Option (Char × List Char) :=
  match skipSpace flags rest with
  | '\x7b' :: rest =>
    let rest := skipSpace flags rest
    (readBracedHex flags (rest.length + 1) [] rest).bind fun (digits, rest) =>
      (charOfHex? false digits).map fun c => (c, rest)
  | rest =>
    (readHexDigits flags count [] rest).bind fun (digits, rest) =>
      (charOfHex? (count = 2 && !flags.unicode) digits).map fun c => (c, rest)

/-! ## Classes -/

/-- A class or its complement; without Unicode a complement would reach beyond ASCII. -/
def negatable (flags : Flags) (negated : Bool) (set : CharSet) : Option CharSet :=
  if negated then (if flags.unicode then some (.compl set) else none) else some set

/-- The classes `d`, `s` and `w`. -/
def letterClass? (flags : Flags) (c : Char) : Option CharSet :=
  match c with
  | 'd' => some (if flags.unicode then .property (.category .decimalNumber) else CharSet.asciiDigit)
  | 's' => some (if flags.unicode then .property (.binary .blank) else CharSet.asciiBlank)
  | 'w' => some (if flags.unicode then .property .wordChar else CharSet.asciiWordChar)
  | _ => none

/-- What stands before and behind the first occurrence of a separator. -/
def splitAtFirst (separator : List Char) : List Char → Option (List Char × List Char)
  | [] => none
  | c :: rest =>
    if separator.isPrefixOf (c :: rest) then some ([], (c :: rest).drop separator.length)
    else (splitAtFirst separator rest).map fun (before, after) => (c :: before, after)

/-- A property by name, or by kind and value, and whether the name asks for the complement. -/
def namedProperty? (name : List Char) : Option (Text.Property × Bool) :=
  match splitAtFirst ['!', '='] name with
  | some (kind, value) =>
    (Text.Property.valued? kind value).map fun property => (property, true)
  | none =>
    match (splitAtFirst [':'] name).or (splitAtFirst ['='] name) with
    | some (kind, value) =>
      (Text.Property.valued? kind value).map fun property => (property, false)
    | none => (Text.Property.named? name).map fun property => (property, false)

/-- Up to a closing brace, without the blanks and comments where the flags allow them; the Boolean
tells that a comment has begun. -/
def readBracedName (flags : Flags) :
    Bool → List Char → List Char → Option (List Char × List Char)
  | _, _, [] => none
  | true, name, c :: rest => readBracedName flags (c != '\n') name rest
  | false, name, c :: rest =>
    if flags.spaced && c == '#' then readBracedName flags true name rest
    else if flags.spaced && Text.isBlank c then readBracedName flags false name rest
    else if c = '\x7d' then some (name, rest)
    else readBracedName flags false (name ++ [c]) rest

/-- The name of a property: one character, or several between braces. -/
def readPropertyName (flags : Flags) (rest : List Char) : Option (List Char × List Char) :=
  match skipSpace flags rest with
  | '\x7b' :: rest => readBracedName flags false [] rest
  | c :: rest => if c = '\\' then none else some ([c], skipSpace flags rest)
  | [] => none

def readProperty (flags : Flags) (negated : Bool) (rest : List Char) :
    Option (CharSet × List Char) :=
  if flags.unicode then
    (readPropertyName flags rest).bind fun (name, rest) =>
      (namedProperty? name).map fun (property, inverted) =>
        let set := if flags.caseless then .caseless false (.property property)
          else CharSet.property property
        (if negated != inverted then .compl set else set, rest)
  else none

/-! ## Word boundaries -/

/-- Letters and hyphens at the front of a text, blanks between them left out where allowed. -/
def readEdgeName (flags : Flags) : Nat → List Char → List Char → List Char × List Char
  | 0, name, rest => (name, rest)
  | fuel + 1, name, rest =>
    match rest with
    | c :: more =>
      if c.isAlpha || c == '-' then readEdgeName flags fuel (name ++ [c]) (skipSpace flags more)
      else (name, rest)
    | [] => (name, [])

/-- After `\b`: a named edge between braces, or a plain boundary. Braces around anything but a name
belong to a repetition and stay. -/
def readBoundary (flags : Flags) (rest : List Char) : Option (WordEdge × List Char) :=
  match rest with
  | '\x7b' :: inner =>
    let inner := skipSpace flags inner
    match readEdgeName flags inner.length [] inner with
    | ([], []) => none
    | ([], _) => some (.boundary, rest)
    | (name, '\x7d' :: rest) =>
      match String.ofList name with
      | "start" => some (.start, rest)
      | "end" => some (.stop, rest)
      | "start-half" => some (.startHalf, rest)
      | "end-half" => some (.stopHalf, rest)
      | _ => none
    | _ => none
  | _ => some (.boundary, rest)

/-! ## Escapes -/

def readEscape (flags : Flags) (rest : List Char) : Option (Escape × List Char) :=
  let word := fun edge : WordEdge => Escape.anchor (.word edge (!flags.unicode))
  match rest with
  | [] => none
  | c :: rest =>
    if isEscapable c then some (.literal c, rest)
    else
      match control? c, letterClass? flags c.toLower with
      | some control, _ => some (.literal control, rest)
      | none, some set => (negatable flags c.isUpper set).map fun set => (.set set, rest)
      | none, none =>
        match c with
        | 'x' => (readCodePoint flags 2 rest).map fun (c, rest) => (.literal c, rest)
        | 'u' => (readCodePoint flags 4 rest).map fun (c, rest) => (.literal c, rest)
        | 'U' => (readCodePoint flags 8 rest).map fun (c, rest) => (.literal c, rest)
        | 'p' => (readProperty flags false rest).map fun (set, rest) => (.set set, rest)
        | 'P' => (readProperty flags true rest).map fun (set, rest) => (.set set, rest)
        | 'A' => some (.anchor .textStart, rest)
        | 'z' => some (.anchor .textEnd, rest)
        | 'b' => (readBoundary flags rest).map fun (edge, rest) => (word edge, rest)
        | 'B' => some (word .inside, rest)
        | '<' => some (word .start, rest)
        | '>' => some (word .stop, rest)
        | _ => none

end Stepbook.Regex
