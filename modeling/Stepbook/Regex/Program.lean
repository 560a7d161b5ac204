import Stepbook.Regex.Cursor

/-! # Programs of regular expressions

A program is a list of instructions that leads a cursor through a text. Where its way branches, one
of the two ways is preferred.

* `Instruction`: what may stand at an address of a program.
* `Fragment`: instructions for a part of an expression, wherever they stand.
* `Regex.fragment`: the instructions of an expression.
* `Regex.program`: the program that searches a text for an expression.
-/

namespace Stepbook.Regex
set_option autoImplicit false

/-! ## Instructions -/

/-- All but the last one lead on to other addresses. -/
inductive Instruction where
  | jump (next : Nat)
  | take (set : CharSet) (next : Nat)
  | check (condition : Anchor) (next : Nat)
  | branch (preferred other : Nat)
  | enter (number next : Nat)
  | leave (number next : Nat)
  | accept
  deriving DecidableEq, Repr

/-- The loop of a repetition goes round again first if it is greedy. -/
def Instruction.loop (greedy : Bool) (again next : Nat) : Instruction :=
  if greedy then .branch again next else .branch next again

/-! ## Fragments -/

/-- Instructions that stand from a base address on, and lead to a next address elsewhere. -/
structure Fragment where
  size : Nat
  code : (base next : Nat) → List Instruction
  length_code : ∀ base next, (code base next).length = size

attribute [simp] Fragment.length_code

namespace Fragment

def single (instruction : Nat → Instruction) : Fragment where
  size := 1
  code _ next := [instruction next]
  length_code := by simp

def append (first second : Fragment) : Fragment where
  size := first.size + second.size
  code base next :=
    first.code base (base + first.size) ++ second.code (base + first.size) next
  length_code := by simp

def orElse (first second : Fragment) : Fragment where
  size := 1 + first.size + second.size
  code base next :=
    .branch (base + 1) (base + 1 + first.size) ::
      (first.code (base + 1) next ++ second.code (base + 1 + first.size) next)
  length_code := by simp; omega

def enclose (number : Nat) (body : Fragment) : Fragment :=
  ((single (.enter number)).append body).append (single (.leave number))

/-- The body once or not at all. -/
def optional (greedy : Bool) (body : Fragment) : Fragment where
  size := 1 + body.size
  code base next := .loop greedy (base + 1) next :: body.code (base + 1) next
  length_code := by simp; omega

/-- The body once or more often. -/
def plus (greedy : Bool) (body : Fragment) : Fragment where
  size := body.size + 1
  code base next := body.code base (base + body.size) ++ [.loop greedy base next]
  length_code := by simp

/-- The body any number of times. -/
def star (greedy : Bool) (body : Fragment) : Fragment where
  size := 1 + body.size
  code base next := .loop greedy (base + 1) next :: body.code (base + 1) base
  length_code := by simp; omega

/-- The body a number of times. -/
def times (body : Fragment) (count : Nat) : Fragment where
  size := count * body.size + 1
  code base next :=
    (List.range count).flatMap (fun index =>
      body.code (base + index * body.size) (base + (index + 1) * body.size)) ++ [.jump next]
  length_code := by simp [List.length_flatMap, List.map_const']

/-- The body at most a number of times. Each time may be the last, and leads behind all of them. -/
def atMost (greedy : Bool) (body : Fragment) (count : Nat) : Fragment where
  size := count * (body.size + 1) + 1
  code base next :=
    (List.range count).flatMap (fun index =>
      let start := base + index * (body.size + 1)
      .loop greedy (start + 1) next :: body.code (start + 1) (start + 1 + body.size)) ++
    [.jump next]
  length_code := by simp [List.length_flatMap, List.map_const']

/-- At least `least` times. A body that may match nothing is matched once before the loop at its end
is come to: a loop at its start would be come to twice at one place, and the second way around would
end there. -/
def atLeast (greedy canBeEmpty : Bool) (body : Fragment) (least : Nat) : Fragment :=
  match least with
  | 0 => if canBeEmpty then optional greedy (plus greedy body) else star greedy body
  | 1 => plus greedy body
  | least + 1 => (body.times least).append (plus greedy body)

end Fragment

/-! ## Expressions -/

def fragment : Regex → Fragment
  | .empty => .single .jump
  | .chars set => .single (.take set)
  | .anchor condition => .single (.check condition)
  | .cat left right => left.fragment.append right.fragment
  | .alt left right => left.fragment.orElse right.fragment
  | .iterate body least (some most) greedy =>
    (body.fragment.times least).append (body.fragment.atMost greedy (most - least))
  | .iterate body least none greedy => body.fragment.atLeast greedy body.canBeEmpty least
  | .group number body => body.fragment.enclose number

/-- An expression is tried at a place first, and then behind the next character. -/
def program (regex : Regex) : Array Instruction :=
  let body := regex.fragment
  (.branch 2 1 :: .take .all 0 :: (body.code 2 (2 + body.size) ++ [.accept])).toArray

end Stepbook.Regex
