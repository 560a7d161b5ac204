import Stepbook.Text.Basic

/-! # Reading numbers

* `readInt`: a whole number with an optional sign that fits in 64 bits.
* `readFloat`: a decimal number with an optional sign, fraction and exponent, or a name of what is
  not finite, as the nearest double.
* `IntFault`, `FloatFault`: why a text is none.
-/

namespace Stepbook.Decimal
set_option autoImplicit false

/-! ## Whole numbers -/

inductive IntFault where
  | empty
  | invalidDigit
  | tooLarge
  | tooSmall
  deriving DecidableEq, Repr

def IntFault.message : IntFault → String
  | .empty => "cannot parse integer from empty string"
  | .invalidDigit => "invalid digit found in string"
  | .tooLarge => "number too large to fit in target type"
  | .tooSmall => "number too small to fit in target type"

def maxInt : Int := 0x7fffffffffffffff

def minInt : Int := -0x8000000000000000

def digitValue (c : Char) : Nat :=
  c.toNat - '0'.toNat

/-- Digits from left to right; the first that is none, or that leaves the range, decides. -/
def readDigits (negative : Bool) : Int → List Char → Except IntFault Int
  | value, [] => .ok value
  | value, c :: rest =>
    if c.isDigit then
      let next := if negative then 10 * value - digitValue c else 10 * value + digitValue c
      if maxInt < next then .error .tooLarge
      else if next < minInt then .error .tooSmall
      else readDigits negative next rest
    else .error .invalidDigit

def readInt : List Char → Except IntFault Int
  | [] => .error .empty
  | '+' :: [] => .error .invalidDigit
  | '-' :: [] => .error .invalidDigit
  | '+' :: rest => readDigits false 0 rest
  | '-' :: rest => readDigits true 0 rest
  | text => readDigits false 0 text

/-! ## Decimal numbers -/

inductive FloatFault where
  | empty
  | invalid
  deriving DecidableEq, Repr

def FloatFault.message : FloatFault → String
  | .empty => "cannot parse float from empty string"
  | .invalid => "invalid float literal"

/-- The number that digits write in base ten. -/
def digitsValue (digits : List Char) : Nat :=
  digits.foldl (fun value c => 10 * value + digitValue c) 0

/-- The double nearest to `digits * 10 ^ exponent`. -/
def nearestFloat (digits : Nat) (exponent : Int) : Float :=
  if 0 < exponent then Float.ofScientific digits false exponent.toNat
  else Float.ofScientific digits true (-exponent).toNat

/-- The exponent of a number, from its mark `e` on; none where no mark stands. -/
def readExponent : List Char → Option Int
  | [] => some 0
  | mark :: rest =>
    if mark == 'e' || mark == 'E' then
      let negative := rest.head? == some '-'
      let digits := if negative || rest.head? == some '+' then rest.drop 1 else rest
      if digits.isEmpty || !digits.all Char.isDigit then none
      else some (if negative then -(digitsValue digits : Int) else digitsValue digits)
    else none

/-- A magnitude: digits with at most one point among them, then an exponent. -/
def readMagnitude (text : List Char) : Option Float :=
  let whole := text.takeWhile Char.isDigit
  let afterWhole := text.dropWhile Char.isDigit
  let (fraction, rest) := match afterWhole with
    | '.' :: tail => (tail.takeWhile Char.isDigit, tail.dropWhile Char.isDigit)
    | tail => ([], tail)
  if whole.isEmpty && fraction.isEmpty then none
  else (readExponent rest).map fun exponent =>
    nearestFloat (digitsValue (whole ++ fraction)) (exponent - fraction.length)

/-- Infinity and what is not a number, in any letter case. -/
def readNonFinite (text : List Char) : Option Float :=
  let name := Text.lower text
  if name == "inf".toList || name == "infinity".toList then some (1.0 / 0.0)
  else if name == "nan".toList then some (0.0 / 0.0)
  else none

def readUnsigned (text : List Char) : Option Float :=
  (readNonFinite text).or (readMagnitude text)

def readFloat : List Char → Except FloatFault Float
  | [] => .error .empty
  | c :: rest =>
    let magnitude := if c == '-' || c == '+' then readUnsigned rest else readUnsigned (c :: rest)
    match magnitude with
    | some value => .ok (if c == '-' then -value else value)
    | none => .error .invalid

end Stepbook.Decimal
