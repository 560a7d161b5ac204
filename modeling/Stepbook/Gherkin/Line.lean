import Stepbook.Text.Basic

/-! # Lines of Gherkin

What a reader of Gherkin takes from the front of a text: blanks, ends of lines, comments, keywords
and tags. Choices are ordered, repetitions take as much as they can, and neither is reconsidered.

* `Reader`: takes something from the front of a text, or fails.
* `many`, `separated`: repetitions.
* `lineBreak?`, `lineEnd?`, `restOfLine`: ends of lines and what stands before them.
* `keyword?`: a keyword after any comments.
* `skipTags`: tags with the blanks and lines after them.
-/

namespace Stepbook.Gherkin
set_option autoImplicit false

/-! ## Readers -/

abbrev Reader (α : Type) := List Char → Option (α × List Char)

/-- What is left after something that carries no value, if it is there. -/
abbrev Skipper := List Char → Option (List Char)

variable {α : Type}

/-- As often as possible, and at most once for each character of `bound`. -/
def manyFrom (skip : Skipper) : (bound rest : List Char) → List Char
  | [], rest => rest
  | _ :: bound, rest =>
    match skip rest with
    | some next => manyFrom skip bound next
    | none => rest

/-- Each time takes something from the text, so its characters bound the number. -/
def many (skip : Skipper) (rest : List Char) : List Char :=
  manyFrom skip rest rest

def separatedFrom (between : List Char → List Char) (read : Reader α) :
    (bound rest : List Char) → List α × List Char
  | [], rest => ([], rest)
  | _ :: bound, rest =>
    match read (between rest) with
    | some (value, next) =>
      let (values, last) := separatedFrom between read bound next
      (value :: values, last)
    | none => ([], rest)

/-- As many values as possible, with something between two of them. -/
def separated (between : List Char → List Char) (read : Reader α) (rest : List Char) :
    List α × List Char :=
  match read rest with
  | some (value, next) =>
    let (values, last) := separatedFrom between read next next
    (value :: values, last)
  | none => ([], rest)

def optionally (read : Reader α) (rest : List Char) : Option α × List Char :=
  match read rest with
  | some (value, next) => (some value, next)
  | none => (none, rest)

/-! ## Lines -/

def isGap (c : Char) : Bool :=
  c == ' ' || c == '\t'

def skipGap (rest : List Char) : List Char :=
  rest.dropWhile isGap

def gapChar? : Skipper
  | c :: rest => if isGap c then some rest else none
  | [] => none

def lineBreak? : Skipper
  | '\n' :: rest => some rest
  | '\r' :: '\n' :: rest => some rest
  | _ => none

/-- What stands before the next end of a line, and what follows. -/
def restOfLine : List Char → List Char × List Char
  | [] => ([], [])
  | c :: rest =>
    if (lineBreak? (c :: rest)).isSome then ([], c :: rest)
    else
      let (line, next) := restOfLine rest
      (c :: line, next)

/-- The rest of a line, if it is not empty. -/
def line? : Reader (List Char) := fun rest =>
  match restOfLine rest with
  | ([], _) => none
  | (line, next) => some (line, next)

/-- A comment without the end of its line. -/
def commentText? : Skipper := fun rest =>
  match skipGap rest with
  | '#' :: rest => some (restOfLine rest).2
  | _ => none

/-- The end of a line, with a comment before it. -/
def breakAfterComment? : Skipper := fun rest =>
  lineBreak? ((commentText? rest).getD rest)

def gapOrBreak? : Skipper := fun rest =>
  (breakAfterComment? rest).or (gapChar? rest)

/-- Ends of lines with the blanks and comments between them; at the end of the text, nothing. -/
def lineEnd? : Skipper := fun rest =>
  match gapOrBreak? rest with
  | some next => some (many gapOrBreak? next)
  | none => if rest.isEmpty then some [] else none

def comment? : Skipper := fun rest =>
  (commentText? rest).bind lineEnd?

def skipBreaks (rest : List Char) : List Char :=
  many breakAfterComment? rest

def skipGapsAndBreaks (rest : List Char) : List Char :=
  many gapOrBreak? rest

/-! ## Keywords -/

def word? (word : List Char) : Skipper := fun rest =>
  word.isPrefixOf? rest

/-- The first of several words that stands at the front, after any comments. -/
def keyword? (words : List String) : Skipper := fun rest =>
  let start := many comment? rest
  words.findSome? fun word => word? word.toList start

/-- A title after a keyword: a colon, then what stands on its line. -/
def title? : Reader (List Char) := fun rest =>
  match rest with
  | ':' :: rest =>
    let (title, next) := restOfLine (skipGap rest)
    (lineEnd? next).map fun next => (Text.trimEnd title, next)
  | _ => none

/-! ## Tags -/

def isTagChar (c : Char) : Bool :=
  !Text.isBlank c && c != '@'

def tag? : Reader Unit
  | '@' :: rest =>
    if (rest.takeWhile isTagChar).isEmpty then none else some ((), rest.dropWhile isTagChar)
  | _ => none

def skipTags (rest : List Char) : List Char :=
  skipBreaks (skipGap (separated skipGapsAndBreaks tag? rest).2)

end Stepbook.Gherkin
