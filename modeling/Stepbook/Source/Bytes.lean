import Stepbook.Source.Extraction

/-! # Searching the bytes of a script

The search looks for ASCII characters only. It can go through the bytes of a script without decoding
them: each byte is read as the character with its code, and those of other characters are passed one
by one. What is recorded is sliced from the script at offsets in bytes. A slice that started or ended
within a character would be replaced by a fallback, and nothing would tell.

* `bytes`: the bytes of a script.
* `slice?`: the text between two offsets.
* `Bytes.step`: what is found at a place among the bytes, and how many bytes to go on.
* `Bytes.extract`: all findings of a script.
-/

namespace Stepbook.Source
set_option autoImplicit false

/-! ## Bytes -/

/-- A byte as the character with its code. -/
def byteChar (byte : UInt8) : Char :=
  Char.ofNat byte.toNat

def bytes (source : String) : List Char :=
  source.toByteArray.data.toList.map byteChar

/-- The text between two offsets, if they lie between characters. -/
def slice? (source : String) (start stop : Nat) : Option String :=
  if h : start ≤ stop ∧ String.Pos.Raw.IsValid source ⟨start⟩ ∧
      String.Pos.Raw.IsValid source ⟨stop⟩ then
    some (String.extract (source.pos ⟨start⟩ h.2.1) (source.pos ⟨stop⟩ h.2.2))
  else none

namespace Bytes

section
variable (fallback source : String)

def slice (start stop : Nat) : String :=
  (slice? source start stop).getD fallback

/-! ## Calls -/

/-- The pattern that the literal at a place among the bytes writes. -/
def literalPattern (place : Place) : Except Fault (List Char × Variant) :=
  let start := place.before.length
  match place.rest with
  | [] => .error .ambiguousPattern
  | c :: tail =>
    if c = '/' then
      match closedRegex false tail with
      | some length => .ok ((slice fallback source (start + 1) (start + length)).toList, .regex)
      | none => .error .unterminatedPattern
    else if isQuote c then
      match closedString c tail with
      | some length =>
        let body := (slice fallback source (start + 1) (start + length)).toList
        if c = '`' ∧ hasInterpolation body = true then .error .ambiguousPattern
        else .ok (unescape body, .expression)
      | none => .error .unterminatedPattern
    else .error .ambiguousPattern

/-- The call whose keyword is at the place and whose bracket opens after `length` bytes, and how far
to go on. -/
def call (place : Place) (type : StepType) (length : Nat) : Finding × Nat :=
  let start := place.before.length
  let skipped := fun (fault : Fault) (snippet : String) =>
    Finding.skipped ⟨type, fault, start, place.line, snippet⟩
  match (place.advance length).closing with
  | none =>
    (skipped .unterminatedCall (slice fallback source start (start + lineLength place.rest)),
      length + 1)
  | some closing =>
    let snippet := slice fallback source start (start + length + closing)
    let arguments := place.advance (length + 1)
    match literalPattern fallback source (arguments.advance (triviaLength arguments.rest)) with
    | .ok (pattern, variant) =>
      (.definition ⟨type, String.ofList pattern, variant, snippet⟩, length + closing)
    | .error fault => (skipped fault snippet, length + closing)

/-! ## The search -/

/-- What is found at a place among the bytes, and the number of bytes after which the search goes
on. -/
def step (place : Place) : List Finding × Nat :=
  let start := place.before.length
  let length := place.lexeme.2
  match place.lexeme.1 with
  | .word =>
    match StepType.ofName? (slice fallback source start (start + length)).toList with
    | none => ([], length)
    | some type =>
      let gap := triviaLength (place.rest.drop length)
      match place.rest.drop (length + gap) with
      | '(' :: _ =>
        let (finding, count) := call fallback source place type (length + gap)
        ([finding], count)
      | _ => ([], length)
  | _ => ([], length)

theorem call_pos (place : Place) (type : StepType) {length : Nat} (h : 0 < length) :
    0 < (call fallback source place type length).2 := by
  unfold call
  dsimp only
  repeat' split
  all_goals dsimp only
  all_goals omega

theorem step_pos {place : Place} (h : place.rest ≠ []) : 0 < (step fallback source place).2 := by
  have pos := Place.lexeme_pos h
  unfold step
  dsimp only
  repeat' split
  all_goals first | exact pos | exact call_pos _ _ _ _ (by omega)

def findings (place : Place) : List Finding :=
  if _ : place.rest = [] then []
  else
    (step fallback source place).1 ++
      findings (place.advance (step fallback source place).2)
termination_by place.rest.length
decreasing_by exact Place.advance_shorter ‹_› (step_pos _ _ ‹_›)

def extract : Extraction :=
  ⟨findings fallback source (Place.start (bytes source))⟩

end

end Bytes

end Stepbook.Source
