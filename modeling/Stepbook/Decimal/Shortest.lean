/-! # Shortest decimals of binary floating-point numbers

A finite double stands for every real number that rounds to it. Of the decimals among those, the
shortest are the ones with the fewest digits, and the nearest to the double is its text.

* `Binary`: the magnitude `mantissa * 2 ^ exponent` of a finite double, `Binary.ofBits`.
* `Decimal`: a magnitude `digits * 10 ^ exponent`.
* `shortest`: the nearest of the shortest decimals that read back; `Tie` decides between two.
-/

namespace Stepbook
set_option autoImplicit false

structure Decimal where
  digits : Nat
  exponent : Int
  deriving DecidableEq, Repr

namespace Decimal

/-! ## The binary side -/

structure Binary where
  mantissa : Nat
  exponent : Int
  /-- The double below is only half as far away as the double above. -/
  closeBelow : Bool
  deriving DecidableEq, Repr

/-- The magnitude of a finite double. -/
def Binary.ofBits (bits : UInt64) : Binary :=
  let fraction : Nat := bits.toNat % Nat.pow 2 52
  let scale : Nat := bits.toNat / Nat.pow 2 52 % Nat.pow 2 11
  if scale = 0 then ⟨fraction, -1074, false⟩
  else ⟨Nat.pow 2 52 + fraction, (scale : Int) - 1075, fraction = 0 && scale > 1⟩

/-! ## Decimal grids -/

/-- Which of two neighbours on a decimal grid is taken when both are equally near. -/
inductive Tie where
  | up
  | even
  deriving DecidableEq, Repr

/-- The neighbour of `value / unit` on the whole numbers that is nearer. -/
def nearerNeighbour (tie : Tie) (value unit : Nat) : Nat :=
  let below := value / unit
  if 2 * value < (2 * below + 1) * unit then below
  else if (2 * below + 1) * unit < 2 * value then below + 1
  else if tie = .even && below % 2 = 0 then below
  else below + 1

/-- The least number of places, from `places` up, with
`1 ≤ 10 ^ places * numerator / denominator`. -/
def leadingPlaces (numerator denominator : Nat) : Nat → Nat → Nat
  | 0, places => places
  | steps + 1, places =>
    if denominator ≤ numerator * Nat.pow 10 places then places
    else leadingPlaces numerator denominator steps (places + 1)

/-- The `e` with `10 ^ (e - 1) ≤ numerator / denominator < 10 ^ e`. -/
def pointOf (numerator denominator : Nat) : Int :=
  if denominator ≤ numerator then (Nat.toDigits 10 (numerator / denominator)).length
  else 1 - (leadingPlaces numerator denominator 400 1 : Int)

/-- The nearer of the two neighbours of `value / unit` if it is inside, or else the farther. -/
def neighbour? (tie : Tie) (inside : Nat → Bool) (value unit : Nat) : Option Nat :=
  let below := value / unit
  let nearer := nearerNeighbour tie value unit
  let farther := if nearer = below then below + 1 else below
  if inside nearer && nearer ≠ 0 then some nearer
  else if inside farther && farther ≠ 0 then some farther
  else none

/-- The neighbour of the value on the grid of `10 ^ exponent` that lies between the bounds. The
bounds and the value are numerators over `denominator`. -/
def hit? (tie : Tie) (low value high denominator : Nat) (closed : Bool) (exponent : Int) :
    Option Nat :=
  let unit := if 0 ≤ exponent then Nat.pow 10 exponent.toNat * denominator else denominator
  let scale := if 0 ≤ exponent then 1 else Nat.pow 10 (-exponent).toNat
  let inside := fun digits : Nat =>
    if closed then low * scale ≤ digits * unit && digits * unit ≤ high * scale
    else low * scale < digits * unit && digits * unit < high * scale
  neighbour? tie inside (value * scale) unit

/-- The hit with the fewest digits, from `count` up. -/
def firstHit (tie : Tie) (low value high denominator : Nat) (closed : Bool)
    (point : Int) : Nat → Nat → Option Decimal
  | 0, _ => none
  | steps + 1, count =>
    match hit? tie low value high denominator closed (point - count) with
    | some digits => some ⟨digits, point - count⟩
    | none => firstHit tie low value high denominator closed point steps (count + 1)

/-- Digits without trailing zeros. -/
def strip : Nat → Decimal → Decimal
  | 0, d => d
  | steps + 1, d =>
    if d.digits ≠ 0 && d.digits % 10 = 0 then strip steps ⟨d.digits / 10, d.exponent + 1⟩ else d

/-- Seventeen digits always suffice. -/
def shortest (tie : Tie) (b : Binary) : Decimal :=
  if b.mantissa = 0 then ⟨0, 0⟩
  else
    let scaled := fun m : Nat => if 2 ≤ b.exponent then m * Nat.pow 2 (b.exponent - 2).toNat else m
    let denominator := if 2 ≤ b.exponent then 1 else Nat.pow 2 (2 - b.exponent).toNat
    let value := scaled (4 * b.mantissa)
    let low := scaled (4 * b.mantissa - (if b.closeBelow then 1 else 2))
    let high := scaled (4 * b.mantissa + 2)
    let point := pointOf value denominator
    match firstHit tie low value high denominator (b.mantissa % 2 = 0) point 17 1 with
    | some d => strip 20 d
    | none => ⟨0, 0⟩

end Decimal

end Stepbook
