import Stepbook.Json.Basic
import Stepbook.Text.Runs

/-! # Reading JSON texts

A text is read token by token. What has been read is kept as the value that ends last and the
arrays and objects that are still open around it. Numbers keep the text that they are written with.

* `stringBody?`: the text that a string stands for, from behind its opening quote.
* `isNumber`: a text that writes a number.
* `token?`: the token at the front of a text.
* `Reading.step`: what one token does.
* `read?`: the tree that a text writes, if it is well formed.
-/

namespace Stepbook.Json
set_option autoImplicit false

/-! ## Strings -/

def isHexDigit (c : Char) : Bool :=
  c.isDigit || ('a' ≤ c && c ≤ 'f') || ('A' ≤ c && c ≤ 'F')

/-- The number that four digits write. -/
def codeUnit? (digits : List Char) : Option Nat :=
  if digits.length = 4 ∧ digits.all isHexDigit = true then some (Text.hexValue digits) else none

/-- The character beyond the first 65536 that two numbers stand for together. -/
def surrogatePair? (high low : Nat) : Option Char :=
  if 0xD800 ≤ high ∧ high < 0xDC00 ∧ 0xDC00 ≤ low ∧ low < 0xE000 then
    some (Char.ofNat (0x10000 + 0x400 * (high - 0xD800) + (low - 0xDC00)))
  else none

/-- The character that is escaped behind a backslash, and the number of characters that this
takes. -/
def escaped? : List Char → Option (Char × Nat)
  | '"' :: _ => some ('"', 1)
  | '\\' :: _ => some ('\\', 1)
  | '/' :: _ => some ('/', 1)
  | 'b' :: _ => some ('\x08', 1)
  | 'f' :: _ => some ('\x0c', 1)
  | 'n' :: _ => some ('\n', 1)
  | 'r' :: _ => some ('\r', 1)
  | 't' :: _ => some ('\t', 1)
  | 'u' :: rest => do
    let unit ← codeUnit? (rest.take 4)
    if unit.isValidChar then return (Char.ofNat unit, 5)
    match rest.drop 4 with
    | '\\' :: 'u' :: rest => return (← surrogatePair? unit (← codeUnit? (rest.take 4)), 11)
    | _ => none
  | _ => none

/-- The text up to the closing quote, and the number of characters with that quote. Control
characters have to be escaped. -/
def stringBody? (rest : List Char) : Option (List Char × Nat) :=
  match rest with
  | [] => none
  | c :: tail =>
    if c = '"' then some ([], 1)
    else if c = '\\' then do
      let (read, count) ← escaped? tail
      let (text, length) ← stringBody? (tail.drop count)
      return (read :: text, length + (count + 1))
    else if c.toNat < 32 then none
    else do
      let (text, length) ← stringBody? tail
      return (c :: text, length + 1)
termination_by rest.length
decreasing_by all_goals simp only [List.length_drop, List.length_cons]; omega

/-! ## Numbers -/

def isDigits (text : List Char) : Bool :=
  !text.isEmpty && text.all Char.isDigit

/-- A zero is not followed by other digits. -/
def isInteger (text : List Char) : Bool :=
  isDigits text && (text.head? != some '0' || text.length == 1)

/-- A text without the sign in front of it. -/
def unsigned (signs : List Char) : List Char → List Char
  | [] => []
  | c :: rest => if signs.contains c then rest else c :: rest

def isNumber (text : List Char) : Bool :=
  let (coefficient, exponent) := (unsigned ['-'] text).span fun c => c != 'e' && c != 'E'
  let (integer, fraction) := coefficient.span (· != '.')
  isInteger integer && (fraction.isEmpty || isDigits fraction.tail) &&
    (exponent.isEmpty || isDigits (unsigned ['+', '-'] exponent.tail))

/-! ## Tokens -/

def isBlank (c : Char) : Bool :=
  c == ' ' || c == '\n' || c == '\r' || c == '\t'

/-- The characters of numbers and of names. -/
def isBare (c : Char) : Bool :=
  c.isAlphanum || c == '-' || c == '+' || c == '.'

def isMark (c : Char) : Bool :=
  "[]\x7b\x7d,:".toList.contains c

inductive Token where
  /-- A bracket, a comma or a colon. -/
  | mark (c : Char)
  | string (text : String)
  /-- A number, or the name of a value. -/
  | bare (tree : Tree)
  deriving Repr

/-- The value that a text without quotes and brackets writes. -/
def bare? (text : List Char) : Option Tree :=
  if text = "null".toList then some .null
  else if text = "true".toList then some (.boolean true)
  else if text = "false".toList then some (.boolean false)
  else if isNumber text then some (.number (String.ofList text))
  else none

/-- The token that starts with the character `c`, and how many characters of `tail` belong to it. -/
def token? (c : Char) (tail : List Char) : Option (Token × Nat) :=
  if isMark c then some (.mark c, 0)
  else if c = '"' then
    (stringBody? tail).map fun (text, length) => (.string (String.ofList text), length)
  else
    let word := tail.takeWhile isBare
    (bare? (c :: word)).map fun tree => (.bare tree, word.length)

/-! ## Trees -/

/-- An array or an object that is open, with what has been read of it, last first. -/
inductive Frame where
  | array (items : List Tree)
  /-- What is being read is the value of the member `name`. -/
  | object (members : List (String × Tree)) (name : String)
  deriving Repr

/-- What may follow, and the frames around it, the innermost first. -/
inductive Reading where
  | value (frames : List Frame)
  /-- The first item of an array, or its end. -/
  | firstItem (frames : List Frame)
  /-- The first member of an object, or its end. -/
  | firstMember (frames : List Frame)
  /-- The name of a member, behind the members so far. -/
  | key (members : List (String × Tree)) (frames : List Frame)
  /-- The colon behind the name of a member. -/
  | colon (members : List (String × Tree)) (name : String) (frames : List Frame)
  /-- What stands behind a value. -/
  | behind (tree : Tree) (frames : List Frame)
  deriving Repr

namespace Reading

/-- The token that a value starts with. -/
def enter (frames : List Frame) : Token → Option Reading
  | .string text => some (.behind (.string text) frames)
  | .bare tree => some (.behind tree frames)
  | .mark '[' => some (.firstItem frames)
  | .mark '{' => some (.firstMember frames)
  | .mark _ => none

def step : Reading → Token → Option Reading
  | .value frames, token => enter frames token
  | .firstItem frames, .mark ']' => some (.behind (.array []) frames)
  | .firstItem frames, token => enter (.array [] :: frames) token
  | .firstMember frames, .mark '}' => some (.behind (.object []) frames)
  | .firstMember frames, .string name => some (.colon [] name frames)
  | .key members frames, .string name => some (.colon members name frames)
  | .colon members name frames, .mark ':' => some (.value (.object members name :: frames))
  | .behind tree (.array items :: frames), .mark ',' =>
    some (.value (.array (tree :: items) :: frames))
  | .behind tree (.array items :: frames), .mark ']' =>
    some (.behind (.array (tree :: items).reverse) frames)
  | .behind tree (.object members name :: frames), .mark ',' =>
    some (.key ((name, tree) :: members) frames)
  | .behind tree (.object members name :: frames), .mark '}' =>
    some (.behind (.object ((name, tree) :: members).reverse) frames)
  | _, _ => none

/-- The tree that has been read, if nothing is open. -/
def tree? : Reading → Option Tree
  | .behind tree [] => some tree
  | _ => none

def run (reading : Reading) (text : List Char) : Option Tree :=
  match text with
  | [] => reading.tree?
  | c :: tail =>
    if isBlank c then reading.run tail
    else do
      let (token, length) ← token? c tail
      let next ← reading.step token
      next.run (tail.drop length)
termination_by text.length
decreasing_by all_goals simp only [List.length_drop, List.length_cons]; omega

end Reading

def read? (text : String) : Option Tree :=
  (Reading.value []).run text.toList

end Stepbook.Json
