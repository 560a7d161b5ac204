import Stepbook.Expression.Token
import Stepbook.Parameter

/-! # Parts of expressions

Blanks and placeholders divide an expression into segments. A segment that holds separators is a
choice among its branches; a branch consists of literal and optional texts, not all optional.

* `Piece`, `Segment`, `Part`: the structure of an expression.
* `parts`: the parts that tokens make up.
* `Part.parameters`: the types of the placeholders among parts.
-/

namespace Stepbook.Expression
set_option autoImplicit false

/-! ## Structure -/

inductive Piece where
  | text (chars : List Char)
  | optional (start : Nat) (text : List Char)
  deriving DecidableEq, Repr

def Piece.isOptional : Piece → Bool
  | .text _ => false
  | .optional _ _ => true

abbrev Branch := List Piece

/-- Branches that end in a separator, with the offset of the separator, and the last branch. -/
structure Segment where
  closed : List (Branch × Nat)
  last : Branch
  deriving DecidableEq, Repr

inductive Part where
  | blank (chars : List Char)
  | parameter (type : ParameterType)
  | segment (segment : Segment)
  deriving DecidableEq, Repr

def Part.parameter? : Part → Option ParameterType
  | .parameter type => some type
  | _ => none

def Part.parameters (parts : List Part) : List ParameterType :=
  parts.filterMap Part.parameter?

namespace Segment

def empty : Segment :=
  ⟨[], []⟩

def addPiece (segment : Segment) (piece : Piece) : Segment :=
  { segment with last := segment.last ++ [piece] }

def separate (segment : Segment) (offset : Nat) : Segment :=
  ⟨segment.closed ++ [(segment.last, offset)], []⟩

/-- All branches of a choice; the whole segment where there is no choice. -/
def branches (segment : Segment) : List Branch :=
  segment.closed.map (·.1) ++ [segment.last]

/-! ## Well-formed choices -/

/-- `position` is where a branch that is missing would stand. -/
def checkBranch (branch : Branch) (position : Nat) : Except SyntaxError Unit :=
  match branch with
  | [] => .error ⟨.emptyAlternative, position, none⟩
  | .optional start _ :: rest =>
    if rest.all Piece.isOptional then .error ⟨.optionalOnlyAlternative, start, none⟩ else .ok ()
  | .text _ :: _ => .ok ()

def checkClosed : List (Branch × Nat) → Except SyntaxError Unit
  | [] => .ok ()
  | (branch, offset) :: rest => do
    checkBranch branch offset
    checkClosed rest

/-- Only the branches of a choice are checked. -/
def check (segment : Segment) : Except SyntaxError Unit :=
  match segment.closed.getLast? with
  | none => .ok ()
  | some (_, offset) => do
    checkClosed segment.closed
    checkBranch segment.last (offset + 1)

end Segment

/-! ## From tokens to parts -/

/-- A placeholder whose brace is at `start`. -/
def parameterType (start : Nat) (name : List Char) : Except SyntaxError ParameterType :=
  match ParameterType.ofName? name with
  | some type => .ok type
  | none => .error ⟨.unknownParameterType, start, some name⟩

/-- The parts of the tokens after those of a segment that is not complete yet. -/
def partsAfter (segment : Segment) : List Token → Except SyntaxError (List Part)
  | [] => do
    segment.check
    return [.segment segment]
  | .blank chars :: rest => do
    segment.check
    return .segment segment :: .blank chars :: (← partsAfter .empty rest)
  | .parameter start name :: rest => do
    segment.check
    let type ← parameterType start name
    return .segment segment :: .parameter type :: (← partsAfter .empty rest)
  | .text chars :: rest => partsAfter (segment.addPiece (.text chars)) rest
  | .optional start text :: rest => partsAfter (segment.addPiece (.optional start text)) rest
  | .separator offset :: rest => partsAfter (segment.separate offset) rest

def parts (tokens : List Token) : Except SyntaxError (List Part) :=
  partsAfter .empty tokens

end Stepbook.Expression
