import Stepbook.Decimal.Shortest

/-! # Written forms of decimals

A layout says how the digits of a number are written: which of two equally near decimals is taken,
which magnitudes are written positionally, whether a whole number keeps a fraction, and what stands
for the numbers that have no digits.

* `Layout`: the decisions of a written form; `plain`, `exact` and `json` are the three in use.
* `Layout.write`: the text of a double.
-/

namespace Stepbook.Decimal
set_option autoImplicit false

structure Layout where
  tie : Tie
  /-- Positional notation for leading digits `10 ^ e` with `lowest ≤ e < highest`. -/
  lowest : Option Int
  highest : Option Int
  /-- A whole number in positional notation ends in `.0`. -/
  keepsFraction : Bool
  /-- A positive exponent is written with its sign. -/
  signsExponent : Bool
  notANumber : String
  infinity : String
  negativeInfinity : String

/-- What a reader sees: no exponent, no fraction on a whole number. -/
def plain : Layout :=
  ⟨.up, none, none, false, false, "NaN", "inf", "-inf"⟩

/-- What tells a number from a text: a fraction or an exponent is always there. -/
def exact : Layout :=
  ⟨.up, some (-4), some 16, true, false, "NaN", "inf", "-inf"⟩

/-- A number of a JSON document, which has none for what is not finite. -/
def json : Layout :=
  ⟨.even, some (-5), some 16, true, true, "null", "null", "null"⟩

namespace Layout

/-- The point stands behind the first `point` digits; zeros fill what is missing. -/
def positional (layout : Layout) (digits : List Char) (point : Int) : List Char :=
  if point ≤ 0 then '0' :: '.' :: List.replicate (-point).toNat '0' ++ digits
  else if digits.length ≤ point.toNat then
    digits ++ List.replicate (point.toNat - digits.length) '0' ++
      (if layout.keepsFraction then ['.', '0'] else [])
  else digits.take point.toNat ++ '.' :: digits.drop point.toNat

/-- The point stands behind the first digit. -/
def scientific (layout : Layout) (digits : List Char) (exponent : Int) : List Char :=
  digits.take 1 ++ (if digits.length ≤ 1 then [] else '.' :: digits.drop 1) ++ 'e' ::
    (if exponent < 0 then ['-'] else if layout.signsExponent then ['+'] else []) ++
    Nat.toDigits 10 exponent.natAbs

/-- The text of a magnitude. -/
def magnitude (layout : Layout) (d : Decimal) : List Char :=
  let digits := Nat.toDigits 10 d.digits
  let point := if d.digits = 0 then 1 else d.exponent + digits.length
  let lowEnough := match layout.highest with
    | some highest => decide (point - 1 < highest)
    | none => true
  let highEnough := match layout.lowest with
    | some lowest => decide (lowest ≤ point - 1)
    | none => true
  if d.digits = 0 || (lowEnough && highEnough) then layout.positional digits point
  else layout.scientific digits (point - 1)

def write (layout : Layout) (value : Float) : String :=
  let bits : Nat := value.toBits.toNat
  let negative := bits / Nat.pow 2 63 = 1
  if bits / Nat.pow 2 52 % Nat.pow 2 11 = Nat.pow 2 11 - 1 then
    if bits % Nat.pow 2 52 ≠ 0 then layout.notANumber
    else if negative then layout.negativeInfinity
    else layout.infinity
  else
    let text := layout.magnitude (shortest layout.tie (.ofBits value.toBits))
    String.ofList (if negative then '-' :: text else text)

end Layout

end Stepbook.Decimal
