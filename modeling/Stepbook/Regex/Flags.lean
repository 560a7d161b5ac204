import Stepbook.Regex.Basic

/-! # Flags of a pattern

* `Flags`: the flags in force at a place of a pattern.
* `readFlags`: a list of flags such as `i-s`, up to the `:` or `)` that ends it.
* `skipSpace`: the rest of a pattern after blanks and comments, where the flags allow them.
-/

namespace Stepbook.Regex
set_option autoImplicit false

structure Flags where
  caseless : Bool
  multiLine : Bool
  dotAll : Bool
  swapGreed : Bool
  unicode : Bool
  crlf : Bool
  spaced : Bool
  deriving DecidableEq, Repr

/-- All off, except that classes of characters reach beyond ASCII. -/
def Flags.initial : Flags :=
  ⟨false, false, false, false, true, false, false⟩

/-- The flags with one of them set, if the letter names one. -/
def Flags.set? (flags : Flags) (letter : Char) (value : Bool) : Option Flags :=
  match letter with
  | 'i' => some { flags with caseless := value }
  | 'm' => some { flags with multiLine := value }
  | 's' => some { flags with dotAll := value }
  | 'U' => some { flags with swapGreed := value }
  | 'u' => some { flags with unicode := value }
  | 'R' => some { flags with crlf := value }
  | 'x' => some { flags with spaced := value }
  | _ => none

/-- The flags after a list of letters, each named once; `seen` are the characters before. -/
def readFlagsFrom (flags : Flags) (seen : List Char) : List Char → Option (Flags × List Char)
  | [] => none
  | c :: rest =>
    if c = ':' ∨ c = ')' then
      if seen.getLast? = some '-' then none else some (flags, c :: rest)
    else if seen.contains c then none
    else if c = '-' then readFlagsFrom flags (seen ++ [c]) rest
    else
      match flags.set? c (!seen.contains '-') with
      | some next => readFlagsFrom next (seen ++ [c]) rest
      | none => none

/-- Stops before the `:` or `)`. -/
def readFlags (flags : Flags) (rest : List Char) : Option (Flags × List Char) :=
  readFlagsFrom flags [] rest

/-- After blanks and comments; a comment reaches from `#` to the end of the line. -/
def skipSpaceFrom : Bool → List Char → List Char
  | _, [] => []
  | true, c :: rest => skipSpaceFrom (c != '\n') rest
  | false, c :: rest =>
    if Text.isBlank c then skipSpaceFrom false rest
    else if c = '#' then skipSpaceFrom true rest
    else c :: rest

def skipSpace (flags : Flags) (rest : List Char) : List Char :=
  if flags.spaced then skipSpaceFrom false rest else rest

end Stepbook.Regex
