import Stepbook.Text.Basic

/-! # Lexemes of scripts

The scripts in which steps are registered consist of comments, literals, words and single
characters. A slash starts a regular expression only where a value may start, which the last
character before it tells.

* `closedString`, `closedRegex`: how far a literal reaches from behind its opening character.
* `commentLength?`, `triviaLength`: how far a comment, or blanks and comments, reach.
* `Place`: a place in a script.
* `Place.lexeme`: the lexeme at a place, with its length in characters.
* `Place.closing`: how far it is to the bracket that closes the one at a place.
-/

namespace Stepbook.Source
set_option autoImplicit false

/-! ## Literals -/

/-- The number of characters up to the closing quote, with it. A backslash takes the meaning from
the next character; only a template may reach over the end of a line. -/
def closedString (quote : Char) : List Char → Option Nat
  | [] => none
  | '\\' :: [] => none
  | '\\' :: _ :: rest => (closedString quote rest).map (· + 2)
  | c :: rest =>
    if c = quote then some 1
    else if c = '\n' ∧ quote ≠ '`' then none
    else (closedString quote rest).map (· + 1)

/-- The number of characters up to the closing slash, with it. A slash in a class of characters
closes nothing. -/
def closedRegex (inClass : Bool) : List Char → Option Nat
  | [] => none
  | '\\' :: [] => none
  | '\\' :: _ :: rest => (closedRegex inClass rest).map (· + 2)
  | c :: rest =>
    if c = '\n' then none
    else if c = '[' then (closedRegex true rest).map (· + 1)
    else if c = ']' then (closedRegex false rest).map (· + 1)
    else if c = '/' ∧ inClass = false then some 1
    else (closedRegex inClass rest).map (· + 1)

/-! ## Comments and blanks -/

/-- The number of characters to the end of the line. -/
def lineLength (rest : List Char) : Nat :=
  (rest.takeWhile (· != '\n')).length

theorem lineLength_le (text : List Char) : lineLength text ≤ text.length :=
  (List.takeWhile_prefix _).length_le

/-- The number of characters to the end of a block comment, or to the end of the script. -/
def blockLength : List Char → Nat
  | [] => 0
  | '*' :: '/' :: _ => 2
  | _ :: rest => blockLength rest + 1

theorem blockLength_le (text : List Char) : blockLength text ≤ text.length := by
  fun_induction blockLength text with
  | case1 => exact Nat.le_refl 0
  | case2 text => simp
  | case3 c text hend ih => exact Nat.succ_le_succ ih

def commentLength? : List Char → Option Nat
  | '/' :: '/' :: rest => some (lineLength rest + 2)
  | '/' :: '*' :: rest => some (blockLength rest + 2)
  | _ => none

theorem two_le_of_commentLength? {rest : List Char} {length : Nat}
    (h : commentLength? rest = some length) : 2 ≤ length ∧ rest ≠ [] := by
  unfold commentLength? at h
  split at h <;> simp_all <;> omega

theorem commentLength?_le_length {text : List Char} {length : Nat}
    (h : commentLength? text = some length) : length ≤ text.length := by
  unfold commentLength? at h
  split at h
  · next rest =>
    cases h
    exact Nat.add_le_add_right (lineLength_le rest) 2
  · next rest =>
    cases h
    exact Nat.add_le_add_right (blockLength_le rest) 2
  · cases h

/-- The number of blanks and characters of comments at the front. -/
def triviaLength (rest : List Char) : Nat :=
  match h : commentLength? rest with
  | some length => length + triviaLength (rest.drop length)
  | none =>
    match rest with
    | [] => 0
    | c :: tail => if Text.isAsciiBlank c then 1 + triviaLength tail else 0
termination_by rest.length
decreasing_by
  · have bound := two_le_of_commentLength? h
    have : 0 < rest.length := List.length_pos_iff.2 bound.2
    simp only [List.length_drop]
    omega
  · simp

/-! ## Places -/

/-- The characters before a place, the nearest first, and those from it on. -/
structure Place where
  before : List Char
  rest : List Char
  deriving DecidableEq, Repr

namespace Place

def start (source : List Char) : Place :=
  ⟨[], source⟩

def source (place : Place) : List Char :=
  place.before.reverse ++ place.rest

/-- The offset in bytes. -/
def offset (place : Place) : Nat :=
  Text.byteLength place.before

/-- The number of the line, from 1. -/
def line (place : Place) : Nat :=
  place.before.count '\n' + 1

/-- The place a number of characters further on, or the end. -/
def advance : Place → Nat → Place
  | place, 0 => place
  | ⟨before, []⟩, _ + 1 => ⟨before, []⟩
  | ⟨before, c :: rest⟩, count + 1 => advance ⟨c :: before, rest⟩ count

@[simp] theorem rest_advance (place : Place) (count : Nat) :
    (place.advance count).rest = place.rest.drop count := by
  fun_induction advance place count <;> simp_all

@[simp] theorem source_advance (place : Place) (count : Nat) :
    (place.advance count).source = place.source := by
  fun_induction advance place count <;> simp_all [source]

theorem advance_shorter {place : Place} {count : Nat} (h : place.rest ≠ []) (pos : 0 < count) :
    (place.advance count).rest.length < place.rest.length := by
  have : 0 < place.rest.length := List.length_pos_iff.2 h
  simp only [rest_advance, List.length_drop]
  omega

/-- A value may start here, so that a slash starts a regular expression. -/
def regexAllowed (place : Place) : Bool :=
  match place.before.find? (!Text.isAsciiBlank ·) with
  | some c => "(,=:[!&|?\x7b\x7d;+-*%<>~^".toList.contains c
  | none => true

end Place

/-! ## Lexemes -/

inductive Lexeme where
  | comment
  | literal
  /-- A quote or slash that opens a literal which nothing closes. -/
  | unclosed
  | word
  | opening
  | closing
  | other
  deriving DecidableEq, Repr

def isWordStart (c : Char) : Bool :=
  c.isAlpha || c == '_' || c == '$'

def isWordPart (c : Char) : Bool :=
  isWordStart c || c.isDigit

def isQuote (c : Char) : Bool :=
  c == '"' || c == '\'' || c == '`'

/-- A literal that is not closed reaches to the end of its line, a template to the end. -/
def unclosedLength (c : Char) (tail : List Char) : Nat :=
  if c = '`' then tail.length + 1 else lineLength tail + 1

/-- What starts with the character `c`. -/
def lexemeFrom (regexAllowed : Bool) (c : Char) (tail : List Char) : Lexeme × Nat :=
  match commentLength? (c :: tail) with
  | some length => (.comment, length)
  | none =>
    if isQuote c then
      match closedString c tail with
      | some length => (.literal, length + 1)
      | none => (.unclosed, unclosedLength c tail)
    else if c = '/' ∧ regexAllowed = true then
      match closedRegex false tail with
      | some length => (.literal, length + 1)
      | none => (.unclosed, unclosedLength c tail)
    else if isWordStart c then (.word, (tail.takeWhile isWordPart).length + 1)
    else if c = '(' ∨ c = '[' ∨ c = '{' then (.opening, 1)
    else if c = ')' ∨ c = ']' ∨ c = '}' then (.closing, 1)
    else (.other, 1)

theorem lexemeFrom_pos (regexAllowed : Bool) (c : Char) (tail : List Char) :
    0 < (lexemeFrom regexAllowed c tail).2 := by
  unfold lexemeFrom
  split
  · have := two_le_of_commentLength? ‹_›
    omega
  · repeat' split
    all_goals simp only [unclosedLength]
    all_goals try split
    all_goals omega

namespace Place

/-- At the end of a script there is nothing more. -/
def lexeme (place : Place) : Lexeme × Nat :=
  match place.rest with
  | [] => (.other, 0)
  | c :: tail => lexemeFrom (c == '/' && place.regexAllowed) c tail

theorem lexeme_pos {place : Place} (h : place.rest ≠ []) : 0 < place.lexeme.2 := by
  unfold lexeme
  split
  · contradiction
  · exact lexemeFrom_pos _ _ _

/-! ## Brackets -/

/-- The number of characters up to the bracket that closes the outermost of `depth` open brackets,
with it; kinds of brackets are not told apart. -/
def closingFrom (depth : Nat) (place : Place) : Option Nat :=
  if _ : place.rest = [] then none
  else
    let length := place.lexeme.2
    match place.lexeme.1 with
    | .unclosed => none
    | .opening => (closingFrom (depth + 1) (place.advance length)).map (· + length)
    | .closing =>
      match depth with
      | 0 => none
      | 1 => some length
      | depth + 2 => (closingFrom (depth + 1) (place.advance length)).map (· + length)
    | _ => (closingFrom depth (place.advance length)).map (· + length)
termination_by place.rest.length
decreasing_by all_goals exact advance_shorter ‹_› (lexeme_pos ‹_›)

/-- From the opening bracket at a place. -/
def closing (place : Place) : Option Nat :=
  closingFrom 0 place

end Place

end Stepbook.Source
