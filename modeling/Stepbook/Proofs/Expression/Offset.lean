import Stepbook.Proofs.Expression.PatternRegex
import Stepbook.Expression.Token

/-! # Offsets from another start

An expression that stands behind other text has the same tokens and the same pattern as on its own;
only offsets, and the positions of errors, count from another start.

* `SyntaxError.shift`, `Token.shift`, `Part.shift`: offsets from another start.
* `shifted`: what is reported from another start.
* `run_shift`, `partsAfter_shift`: nothing else depends on the start.
* `pattern_shift`: patterns hold no offsets.
-/

namespace Stepbook.Expression
set_option autoImplicit false

/-! ## Tokens -/

/-- The same error where the expression stands behind `base` bytes. -/
def SyntaxError.shift (base : Nat) (error : SyntaxError) : SyntaxError :=
  { error with position := base + error.position }

/-- What is reported where the expression stands behind `base` bytes. -/
def shifted {α : Type} (base : Nat) (move : α → α) : Except SyntaxError α → Except SyntaxError α
  | .ok value => .ok (move value)
  | .error error => .error (error.shift base)

def Token.shift (base : Nat) : Token → Token
  | .parameter start name => .parameter (base + start) name
  | .optional start chars => .optional (base + start) chars
  | .separator offset => .separator (base + offset)
  | token => token

def Mode.shift (base : Nat) : Mode → Mode
  | .parameter start name => .parameter (base + start) name
  | .optional start chars => .optional (base + start) chars
  | .optionalEscape start chars => .optionalEscape (base + start) chars
  | mode => mode

/-- What one character does, from another start. -/
def shiftStep (base : Nat) : List Token × Mode → List Token × Mode
  | (complete, next) => (complete.map (Token.shift base), next.shift base)

section
variable (mode : Mode) (base offset : Nat)

theorem map_shift_pending : mode.pending.map (Token.shift base) = mode.pending := by
  cases mode <;> rfl

theorem map_shift_beforeLiteral :
    mode.beforeLiteral.map (Token.shift base) = mode.beforeLiteral := by
  cases mode <;> rfl

/-- Outside of placeholders and optional texts a mode holds no offset. -/
theorem stepOutside_shift (c : Char) :
    mode.stepOutside (base + offset) c =
      shifted base (shiftStep base) (mode.stepOutside offset c) := by
  have hpending := map_shift_pending mode base
  have hbefore := map_shift_beforeLiteral mode base
  unfold Mode.stepOutside
  split
  · simp only [shifted, shiftStep, hbefore, Mode.shift]
  · simp only [shifted, shiftStep, hpending, Mode.shift]
  · simp only [shifted, shiftStep, hpending, Mode.shift]
  · simp only [shifted, shiftStep, List.map_append, hpending, List.map_cons, List.map_nil,
      Token.shift, Mode.shift]
  · rfl
  · rfl
  · split
    · split
      · rfl
      · simp only [shifted, shiftStep, hpending, Mode.shift]
    · simp only [shifted, shiftStep, hbefore, Mode.shift]

theorem step_shift (c : Char) :
    (mode.shift base).step (base + offset) c =
      shifted base (shiftStep base) (mode.step offset c) := by
  cases mode with
  | between => exact stepOutside_shift .between base offset c
  | text chars => exact stepOutside_shift (.text chars) base offset c
  | blank chars => exact stepOutside_shift (.blank chars) base offset c
  | escape chars => rfl
  | parameter start name =>
    unfold Mode.shift Mode.step
    dsimp only
    split <;> rfl
  | «optional» start chars =>
    unfold Mode.shift Mode.step
    dsimp only
    split
    · rfl
    · split <;> rfl
    · rfl
    · rfl
    · rfl
  | optionalEscape start chars => rfl

theorem finish_shift :
    (mode.shift base).finish = shifted base (List.map (Token.shift base)) mode.finish := by
  cases mode <;> rfl

theorem run_shift (rest : List Char) :
    (mode.shift base).run (base + offset) rest =
      shifted base (List.map (Token.shift base)) (mode.run offset rest) := by
  induction rest generalizing mode offset with
  | nil => exact finish_shift mode base
  | cons c rest ih =>
    rw [Mode.run, Mode.run, step_shift]
    cases mode.step offset c with
    | error error => rfl
    | ok both =>
      obtain ⟨complete, next⟩ := both
      have hrest := ih next (offset + c.utf8Size)
      rw [← Nat.add_assoc] at hrest
      dsimp only [shifted, shiftStep]
      rw [hrest]
      cases next.run (offset + c.utf8Size) rest with
      | error error => rfl
      | ok others => simp only [shifted, List.map_append]

end

/-! ## Parts -/

def Piece.shift (base : Nat) : Piece → Piece
  | .text chars => .text chars
  | .optional start chars => .optional (base + start) chars

def Segment.shift (base : Nat) (segment : Segment) : Segment where
  closed := segment.closed.map fun (branch, offset) =>
    (branch.map (Piece.shift base), base + offset)
  last := segment.last.map (Piece.shift base)

def Part.shift (base : Nat) : Part → Part
  | .segment choice => .segment (choice.shift base)
  | part => part

section
variable (base : Nat)

theorem checkBranch_shift (branch : Branch) (position : Nat) :
    Segment.checkBranch (branch.map (Piece.shift base)) (base + position) =
      shifted base id (Segment.checkBranch branch position) := by
  have hall : ∀ pieces : Branch,
      (pieces.map (Piece.shift base)).all Piece.isOptional = pieces.all Piece.isOptional := by
    intro pieces
    rw [List.all_map]
    congr 1
    funext piece
    cases piece <;> rfl
  cases branch with
  | nil => rfl
  | cons piece rest =>
    cases piece with
    | text chars => rfl
    | «optional» start chars =>
      simp only [List.map_cons, Piece.shift, Segment.checkBranch, hall]
      split <;> rfl

theorem shifted_bind {α β : Type} (move : β → β) (first : Except SyntaxError α)
    (next : α → Except SyntaxError β) :
    shifted base move (first >>= next) =
      shifted base id first >>= fun value => shifted base move (next value) := by
  cases first <;> rfl

theorem checkClosed_shift (closed : List (Branch × Nat)) :
    Segment.checkClosed
        (closed.map fun (branch, offset) => (branch.map (Piece.shift base), base + offset)) =
      shifted base id (Segment.checkClosed closed) := by
  induction closed with
  | nil => rfl
  | cons branch closed ih =>
    rw [List.map_cons, Segment.checkClosed, Segment.checkClosed, shifted_bind, ih,
      checkBranch_shift]

theorem check_shift (segment : Segment) :
    (segment.shift base).check = shifted base id segment.check := by
  unfold Segment.check Segment.shift
  rw [List.getLast?_map]
  cases segment.closed.getLast? with
  | none => rfl
  | some closed =>
    dsimp only [Option.map_some]
    rw [checkClosed_shift, shifted_bind, ← checkBranch_shift, Nat.add_assoc]

theorem parameterType_shift (start : Nat) (name : List Char) :
    parameterType (base + start) name = shifted base id (parameterType start name) := by
  unfold parameterType
  split <;> rfl

theorem addPiece_shift (segment : Segment) (piece : Piece) :
    (segment.addPiece piece).shift base = (segment.shift base).addPiece (piece.shift base) := by
  simp only [Segment.addPiece, Segment.shift, List.map_append, List.map_cons, List.map_nil]

theorem separate_shift (segment : Segment) (offset : Nat) :
    (segment.separate offset).shift base = (segment.shift base).separate (base + offset) := by
  simp only [Segment.separate, Segment.shift, List.map_append, List.map_cons, List.map_nil]

theorem partsAfter_shift (segment : Segment) (tokens : List Token) :
    partsAfter (segment.shift base) (tokens.map (Token.shift base)) =
      shifted base (List.map (Part.shift base)) (partsAfter segment tokens) := by
  induction tokens generalizing segment with
  | nil =>
    rw [List.map_nil, partsAfter, partsAfter, check_shift, shifted_bind]
    rfl
  | cons token tokens ih =>
    have hempty : Segment.empty.shift base = .empty := rfl
    have hlater := ih .empty
    rw [hempty] at hlater
    rw [List.map_cons]
    cases token with
    | text chars =>
      have hpiece := addPiece_shift base segment (.text chars)
      simp only [Token.shift, Piece.shift, partsAfter] at hpiece ⊢
      rw [← hpiece, ih]
    | «optional» start chars =>
      have hpiece := addPiece_shift base segment (.optional start chars)
      simp only [Token.shift, Piece.shift, partsAfter] at hpiece ⊢
      rw [← hpiece, ih]
    | separator offset =>
      simp only [Token.shift, partsAfter]
      rw [← separate_shift, ih]
    | blank chars =>
      simp only [Token.shift, partsAfter]
      rw [check_shift, hlater, shifted_bind]
      cases partsAfter .empty tokens <;> rfl
    | parameter start name =>
      simp only [Token.shift, partsAfter]
      rw [check_shift, hlater, parameterType_shift]
      simp only [shifted_bind]
      cases partsAfter .empty tokens <;> rfl

theorem branchPattern_shift (branch : Branch) :
    branchPattern (branch.map (Piece.shift base)) = branchPattern branch := by
  have hpiece : ∀ piece : Piece, (piece.shift base).pattern = piece.pattern := fun piece => by
    cases piece <;> rfl
  rw [branchPattern, List.flatMap_map]
  simp only [hpiece]
  rfl

theorem choicePattern_shift (branches : List Branch) :
    choicePattern (branches.map (List.map (Piece.shift base))) = choicePattern branches := by
  have hbranch : branchPattern ∘ List.map (Piece.shift base) = branchPattern :=
    funext (branchPattern_shift base)
  rw [choicePattern_eq, choicePattern_eq, List.map_map, hbranch]

/-- Patterns hold no offsets. -/
theorem pattern_shift (part : Part) : (part.shift base).pattern = part.pattern := by
  cases part with
  | blank chars => rfl
  | parameter type => rfl
  | segment choice =>
    have hbranches : (choice.shift base).branches =
        choice.branches.map (List.map (Piece.shift base)) := by
      simp [Segment.branches, Segment.shift, Function.comp_def]
    show (choice.shift base).pattern = choice.pattern
    unfold Segment.pattern
    rw [hbranches, choicePattern_shift]
    cases hclosed : choice.closed with
    | nil =>
      simp only [Segment.shift, hclosed, List.map_nil]
      exact branchPattern_shift base choice.last
    | cons closed others => simp only [Segment.shift, hclosed, List.map_cons]

theorem parameter?_shift (part : Part) : (part.shift base).parameter? = part.parameter? := by
  cases part <;> rfl

end

end Stepbook.Expression
