import Stepbook.Regex.CharSet

/-! # Regular expressions

* `Regex`: the expressions.
* `Regex.Anchor`: conditions on a place between two characters.
* `Regex.concat`, `Regex.oneOf`, `Regex.repeated`: expressions made of others.
-/

namespace Stepbook
set_option autoImplicit false

namespace Regex

/-! ## Conditions on a place -/

/-- Where a place lies with respect to words. -/
inductive WordEdge where
  | boundary
  | inside
  | start
  | stop
  | startHalf
  | stopHalf
  deriving DecidableEq, Repr

inductive Anchor where
  | textStart
  | textEnd
  | lineStart (crlf : Bool)
  | lineEnd (crlf : Bool)
  | word (edge : WordEdge) (ascii : Bool)
  deriving DecidableEq, Repr

def WordEdge.holds (edge : WordEdge) (wordBefore wordAfter : Bool) : Bool :=
  match edge with
  | .boundary => wordBefore != wordAfter
  | .inside => wordBefore == wordAfter
  | .start => !wordBefore && wordAfter
  | .stop => wordBefore && !wordAfter
  | .startHalf => !wordBefore
  | .stopHalf => !wordAfter

/-- Whether a condition holds between two characters; none stands for an end of the text. -/
def Anchor.holds (anchor : Anchor) (before after : Option Char) : Bool :=
  match anchor with
  | .textStart => before.isNone
  | .textEnd => after.isNone
  | .lineStart false => before.all (· == '\n')
  | .lineEnd false => after.all (· == '\n')
  | .lineStart true =>
    before.all fun c => c == '\n' || (c == '\r' && after != some '\n')
  | .lineEnd true =>
    after.all fun c => c == '\r' || (c == '\n' && before != some '\r')
  | .word edge ascii =>
    let inWord := fun c : Char =>
      if ascii then CharSet.asciiWordChar.contains c else Text.isWordChar c
    edge.holds (before.any inWord) (after.any inWord)

end Regex

/-! ## Expressions -/

inductive Regex where
  | empty
  | chars (set : Regex.CharSet)
  | anchor (condition : Regex.Anchor)
  | cat (left right : Regex)
  | alt (left right : Regex)
  /-- At least `least` and at most `most` matches of the body, as many as possible if `greedy`. -/
  | iterate (body : Regex) (least : Nat) (most : Option Nat) (greedy : Bool)
  /-- A capture group; groups are numbered from 1. -/
  | group (number : Nat) (body : Regex)
  deriving DecidableEq, Repr

namespace Regex

def literal (c : Char) : Regex :=
  .chars (.single c)

/-- One expression after another. -/
def concat : List Regex → Regex
  | [] => .empty
  | [single] => single
  | first :: rest => .cat first (concat rest)

/-- Earlier branches are preferred. -/
def oneOf : List Regex → Regex
  | [] => .empty
  | [single] => single
  | first :: rest => .alt first (oneOf rest)

/-- The highest number of a group. -/
def groupCount : Regex → Nat
  | .empty | .chars _ | .anchor _ => 0
  | .cat left right | .alt left right => max left.groupCount right.groupCount
  | .iterate body _ _ _ => body.groupCount
  | .group number body => max number body.groupCount

/-- Whether an expression may match without taking a character. -/
def canBeEmpty : Regex → Bool
  | .empty | .anchor _ => true
  | .chars _ => false
  | .cat left right => left.canBeEmpty && right.canBeEmpty
  | .alt left right => left.canBeEmpty || right.canBeEmpty
  | .iterate body least _ _ => least == 0 || body.canBeEmpty
  | .group _ body => body.canBeEmpty

/-- Whether an expression takes no character in any match. -/
def takesNothing : Regex → Bool
  | .empty | .anchor _ => true
  | .chars _ => false
  | .cat left right | .alt left right => left.takesNothing && right.takesNothing
  | .iterate body _ _ _ | .group _ body => body.takesNothing

/-- A repetition. What is repeated no times at all leaves nothing, no group either; what takes no
character is repeated at most once. -/
def repeated (body : Regex) (least : Nat) (most : Option Nat) (greedy : Bool) : Regex :=
  let least := if body.takesNothing then min least 1 else least
  let most := if body.takesNothing then some (min (most.getD 1) 1) else most
  if most = some 0 then .empty
  else if least = 1 ∧ most = some 1 then body
  else .iterate body least most greedy

end Regex

end Stepbook
