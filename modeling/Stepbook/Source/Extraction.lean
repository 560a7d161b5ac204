import Stepbook.Definition
import Stepbook.Log
import Stepbook.Source.Lexeme

/-! # Finding step definitions in scripts

A script registers a step by a call such as `Given("I have {int} items", handler)`. The first
argument has to be a literal: a regular expression, a string, or a template without parts that are
computed. A call whose first argument is none, or that is not closed, is skipped.

* `unescape`: the text that the body of a string stands for.
* `Finding`: a definition, or a call that was skipped.
* `Place.step`: what is found at a place, and how far the search goes on from there.
* `extract`: all findings of a script, in order.
-/

namespace Stepbook.Source
set_option autoImplicit false

/-! ## Findings -/

inductive Fault where
  | ambiguousPattern
  | unterminatedPattern
  | unterminatedCall
  deriving DecidableEq, Repr

def Fault.name : Fault → String
  | .ambiguousPattern => "AmbiguousPattern"
  | .unterminatedPattern => "UnterminatedPattern"
  | .unterminatedCall => "UnterminatedCall"

structure SkippedCall where
  type : StepType
  fault : Fault
  /-- The offset of the keyword in bytes. -/
  offset : Nat
  line : Nat
  /-- The call, or its first line if it is not closed. -/
  snippet : String
  deriving DecidableEq, Repr

def SkippedCall.message (call : SkippedCall) : String :=
  call.type.name ++ match call.fault with
    | .ambiguousPattern => " registration pattern is neither a regex nor a string literal"
    | .unterminatedPattern => " registration pattern literal is not terminated"
    | .unterminatedCall => " registration call is not closed"

inductive Finding where
  | definition (found : Definition)
  | skipped (call : SkippedCall)
  deriving DecidableEq, Repr

namespace Finding

def definition? : Finding → Option Definition
  | .definition found => some found
  | .skipped _ => none

def skipped? : Finding → Option SkippedCall
  | .definition _ => none
  | .skipped call => some call

def record : Finding → Log.Record
  | .definition found =>
    ⟨.debug, "found " ++ found.type.name ++ " " ++ found.variant.name ++ " definition '" ++
      found.pattern ++ "'"⟩
  | .skipped call =>
    ⟨.warn, "skipping step registration on line " ++ toString call.line ++ ": " ++ call.message⟩

end Finding

/-! ## Patterns -/

/-- The body of a string without its escapes. -/
def unescape : List Char → List Char
  | [] => []
  | '\\' :: [] => ['\\']
  | '\\' :: c :: rest =>
    (match c with
      | 'n' => '\n'
      | 't' => '\t'
      | 'r' => '\r'
      | c => c) :: unescape rest
  | c :: rest => c :: unescape rest

/-- A template with parts that are computed. -/
def hasInterpolation : List Char → Bool
  | [] => false
  | '$' :: '{' :: _ => true
  | _ :: rest => hasInterpolation rest

/-- The pattern that the literal at the front of a text writes. -/
def literalPattern (rest : List Char) : Except Fault (List Char × Variant) :=
  match rest with
  | [] => .error .ambiguousPattern
  | c :: tail =>
    if c = '/' then
      match closedRegex false tail with
      | some length => .ok (tail.take (length - 1), .regex)
      | none => .error .unterminatedPattern
    else if isQuote c then
      match closedString c tail with
      | some length =>
        let body := tail.take (length - 1)
        if c = '`' ∧ hasInterpolation body = true then .error .ambiguousPattern
        else .ok (unescape body, .expression)
      | none => .error .unterminatedPattern
    else .error .ambiguousPattern

/-! ## Calls -/

namespace Place

/-- The call whose keyword is at the place and whose bracket opens after `length` characters, and
how far to go on: behind the call, or behind the bracket if nothing closes it. -/
def call (place : Place) (type : StepType) (length : Nat) : Finding × Nat :=
  let skipped := fun (fault : Fault) (snippet : List Char) =>
    Finding.skipped ⟨type, fault, place.offset, place.line, String.ofList snippet⟩
  match (place.advance length).closing with
  | none =>
    (skipped .unterminatedCall (place.rest.take (lineLength place.rest)), length + 1)
  | some closing =>
    let snippet := place.rest.take (length + closing)
    let arguments := place.rest.drop (length + 1)
    match literalPattern (arguments.drop (triviaLength arguments)) with
    | .ok (pattern, variant) =>
      (.definition ⟨type, String.ofList pattern, variant, String.ofList snippet⟩,
        length + closing)
    | .error fault => (skipped fault snippet, length + closing)

/-- What is found at a place, and the number of characters after which the search goes on. -/
def step (place : Place) : List Finding × Nat :=
  let length := place.lexeme.2
  match place.lexeme.1 with
  | .word =>
    match StepType.ofName? (place.rest.take length) with
    | none => ([], length)
    | some type =>
      let gap := triviaLength (place.rest.drop length)
      match place.rest.drop (length + gap) with
      | '(' :: _ =>
        let (finding, count) := place.call type (length + gap)
        ([finding], count)
      | _ => ([], length)
  | _ => ([], length)

theorem call_pos (place : Place) (type : StepType) {length : Nat} (h : 0 < length) :
    0 < (place.call type length).2 := by
  unfold call
  dsimp only
  repeat' split
  all_goals dsimp only
  all_goals omega

theorem step_pos {place : Place} (h : place.rest ≠ []) : 0 < place.step.2 := by
  have pos := lexeme_pos h
  unfold step
  dsimp only
  repeat' split
  all_goals first | exact pos | exact call_pos _ _ (by omega)

def findings (place : Place) : List Finding :=
  if _ : place.rest = [] then []
  else place.step.1 ++ findings (place.advance place.step.2)
termination_by place.rest.length
decreasing_by exact advance_shorter ‹_› (step_pos ‹_›)

end Place

/-! ## Scripts -/

structure Extraction where
  findings : List Finding
  deriving DecidableEq, Repr

def extract (source : String) : Extraction :=
  ⟨(Place.start source.toList).findings⟩

namespace Extraction

def definitions (extraction : Extraction) : List Definition :=
  extraction.findings.filterMap Finding.definition?

def skipped (extraction : Extraction) : List SkippedCall :=
  extraction.findings.filterMap Finding.skipped?

def records (extraction : Extraction) : List Log.Record :=
  extraction.findings.map Finding.record ++
    [⟨.debug, "extracted " ++ toString extraction.definitions.length ++ " step definitions (" ++
      toString extraction.skipped.length ++ " skipped)"⟩]

end Extraction

end Stepbook.Source
