import Stepbook.Regex.Basic

/-! # Places in a text

* `Place`: a place between two characters of a text.
* `Cursor`: a place, with what capture groups have done on the way there.
* `Cursor.take?`, `Cursor.meets`: what stands at a cursor.
* `Cursor.captured?`: the text that a group has captured.
-/

namespace Stepbook.Regex
set_option autoImplicit false

/-! ## Places -/

structure Place where
  before : Option Char
  rest : List Char
  /-- The number of characters before it. -/
  offset : Nat
  deriving DecidableEq, Repr

namespace Place

def start (text : List Char) : Place :=
  ⟨none, text, 0⟩

/-- The place behind the next character, if that is of a set. -/
def take? (place : Place) (set : CharSet) : Option Place :=
  match place.rest with
  | [] => none
  | c :: rest => if set.contains c then some ⟨some c, rest, place.offset + 1⟩ else none

def meets (place : Place) (condition : Anchor) : Bool :=
  condition.holds place.before place.rest.head?

/-- The characters between two places. -/
def textTo (place later : Place) : List Char :=
  place.rest.take (later.offset - place.offset)

end Place

/-! ## Cursors -/

structure Cursor where
  place : Place
  /-- Where groups have been entered, the last time first. -/
  entered : List (Nat × Place)
  /-- Where the captures of groups start and end, the last one first. -/
  captured : List (Nat × Place × Place)
  deriving DecidableEq, Repr

namespace Cursor

def start (text : List Char) : Cursor :=
  ⟨.start text, [], []⟩

def take? (cursor : Cursor) (set : CharSet) : Option Cursor :=
  (cursor.place.take? set).map fun place => { cursor with place := place }

def meets (cursor : Cursor) (condition : Anchor) : Bool :=
  cursor.place.meets condition

def enter (cursor : Cursor) (number : Nat) : Cursor :=
  { cursor with entered := (number, cursor.place) :: cursor.entered }

def leave (cursor : Cursor) (number : Nat) : Cursor :=
  match cursor.entered.lookup number with
  | some place => { cursor with captured := (number, place, cursor.place) :: cursor.captured }
  | none => cursor

/-- The last text that a group has captured. -/
def captured? (cursor : Cursor) (number : Nat) : Option (List Char) :=
  (cursor.captured.lookup number).map fun (place, later) => place.textTo later

end Cursor

end Stepbook.Regex
