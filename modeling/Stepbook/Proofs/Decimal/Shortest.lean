import Mathlib.Algebra.Order.Field.Power
import Mathlib.Algebra.Order.Floor.Semifield
import Mathlib.Data.Nat.Cast.Order.Field
import Mathlib.Data.Rat.Cast.Order
import Mathlib.Data.Rat.Floor
import Mathlib.Tactic.FieldSimp
import Mathlib.Tactic.Linarith
import Mathlib.Tactic.LinearCombination
import Mathlib.Tactic.NormNum
import Mathlib.Tactic.Positivity
import Mathlib.Tactic.Ring
import Stepbook.Decimal.Shortest

/-! # Shortest decimals read back

The decimals that stand for a double lie between the midpoints to the doubles around it; a midpoint
itself stands for the double if its mantissa is even. On each decimal grid only the two neighbours
of the double have to be tried: whatever lies further away is cut off by them.

* `Binary.Rounds`: the numbers that stand for a double.
* `neighbour?_eq_some`, `neighbour?_eq_none`: what is found among the whole numbers.
* `IsShortest`, `isShortest_shortest`: no decimal with fewer digits stands for the double, and none
  with as few is nearer to it.
-/

namespace Stepbook.Decimal
set_option autoImplicit false

/-- The number that digits and an exponent write. -/
def value (d : Decimal) : ℚ :=
  d.digits * 10 ^ d.exponent

/-- Zeros at the end of the digits may stand in the exponent instead. -/
theorem cast_mul_pow (digits zeros : ℕ) (exponent : ℤ) :
    ((digits * 10 ^ zeros : ℕ) : ℚ) * 10 ^ exponent = digits * 10 ^ (exponent + zeros) := by
  rw [zpow_add₀ (by norm_num), zpow_natCast]
  push_cast
  ring

/-- What lies on the way is nearer. -/
theorem abs_sub_le_abs_sub {x y z : ℚ} (h : z ≤ y ∧ y ≤ x ∨ x ≤ y ∧ y ≤ z) :
    |y - x| ≤ |z - x| := by
  rcases h with ⟨hz, hy⟩ | ⟨hy, hz⟩
  · exact abs_le_abs_of_nonpos (sub_nonpos.2 hy) (sub_le_sub_right hz x)
  · exact abs_le_abs_of_nonneg (sub_nonneg.2 hy) (sub_le_sub_right hz x)

/-! ## Numbers between bounds -/

def Lies (closed : Bool) (low high x : ℚ) : Prop :=
  if closed then low ≤ x ∧ x ≤ high else low < x ∧ x < high

section Lies
variable {closed : Bool} {low high x y z : ℚ}

theorem lies_of_lt (hlow : low < x) (hhigh : x < high) : Lies closed low high x := by
  cases closed with
  | true => exact ⟨hlow.le, hhigh.le⟩
  | false => exact ⟨hlow, hhigh⟩

theorem Lies.between (hx : Lies closed low high x) (hy : Lies closed low high y) (hxz : x ≤ z)
    (hzy : z ≤ y) : Lies closed low high z := by
  cases closed with
  | true => exact ⟨hx.1.trans hxz, hzy.trans hy.2⟩
  | false => exact ⟨hx.1.trans_le hxz, hzy.trans_lt hy.2⟩

theorem Lies.pos (hx : Lies closed low high x) (hlow : 0 < low) : 0 < x := by
  cases closed with
  | true => exact hlow.trans_le hx.1
  | false => exact hlow.trans hx.1

end Lies

/-! ## Neighbours among the whole numbers -/

section Neighbours
variable {tie : Tie} {value unit : ℕ}

theorem lt_quotient_succ (value unit : ℕ) :
    (value : ℚ) / unit < ((value / unit : ℕ) : ℚ) + 1 := by
  rw [← Nat.floor_div_eq_div (K := ℚ)]
  exact Nat.lt_floor_add_one _

theorem nearerNeighbour_eq (tie : Tie) (value : ℕ) (hunit : 0 < unit) :
    nearerNeighbour tie value unit = value / unit ∧
        (value : ℚ) / unit - (value / unit : ℕ) ≤ 1 / 2 ∨
      nearerNeighbour tie value unit = value / unit + 1 ∧
        1 / 2 ≤ (value : ℚ) / unit - (value / unit : ℕ) := by
  have hpos : (0 : ℚ) < unit := by exact_mod_cast hunit
  have hhalf (n : ℕ) : (value : ℚ) / unit - n ≤ 1 / 2 ↔ 2 * value ≤ (2 * n + 1) * unit := by
    rw [sub_le_iff_le_add, div_le_iff₀ hpos, ← Nat.cast_le (α := ℚ)]
    push_cast
    constructor <;> intro h <;> linarith
  have hover (n : ℕ) : 1 / 2 ≤ (value : ℚ) / unit - n ↔ (2 * n + 1) * unit ≤ 2 * value := by
    rw [le_sub_iff_add_le, le_div_iff₀ hpos, ← Nat.cast_le (α := ℚ)]
    push_cast
    constructor <;> intro h <;> linarith
  rw [hhalf, hover]
  unfold nearerNeighbour
  dsimp only
  split_ifs <;> omega

/-- Every whole number lies on one side of the two neighbours. -/
theorem le_quotient_or_succ_le (value unit n : ℕ) :
    (n : ℚ) ≤ (value / unit : ℕ) ∨ ((value / unit : ℕ) : ℚ) + 1 ≤ n := by
  have hside : n ≤ value / unit ∨ value / unit + 1 ≤ n := by omega
  exact_mod_cast hside

theorem nearerNeighbour_le (tie : Tie) (hunit : 0 < unit) (n : ℕ) :
    |(nearerNeighbour tie value unit : ℚ) - value / unit| ≤ |(n : ℚ) - value / unit| := by
  have hbelow : ((value / unit : ℕ) : ℚ) ≤ value / unit := Nat.cast_div_le
  have habove := lt_quotient_succ value unit
  rcases nearerNeighbour_eq tie value hunit with ⟨heq, hhalf⟩ | ⟨heq, hhalf⟩
  · rw [heq]
    rcases le_quotient_or_succ_le value unit n with hn | hn
    · exact abs_sub_le_abs_sub (.inl ⟨hn, hbelow⟩)
    · rw [abs_sub_comm, abs_of_nonneg (sub_nonneg.2 hbelow)]
      exact (by linarith : _ ≤ (n : ℚ) - value / unit).trans (le_abs_self _)
  · rw [heq, Nat.cast_succ]
    rcases le_quotient_or_succ_le value unit n with hn | hn
    · rw [abs_of_nonneg (sub_nonneg.2 habove.le), abs_sub_comm (n : ℚ)]
      exact (by linarith : _ ≤ (value : ℚ) / unit - n).trans (le_abs_self _)
    · exact abs_sub_le_abs_sub (.inr ⟨habove.le, hn⟩)

/-- What lies between a number that counts and the middle counts as well, and zero does not. -/
structure Around (counts : ℚ → Prop) (middle : ℚ) : Prop where
  zero : ¬ counts 0
  up : ∀ y z, counts y → y ≤ z → z ≤ middle → counts z
  down : ∀ y z, counts y → middle ≤ z → z ≤ y → counts z

/-- A number that counts has a neighbour of the middle on its side that counts. -/
theorem Around.neighbour {counts : ℚ → Prop} (h : Around counts (value / unit)) {n : ℕ}
    (hn : counts n) :
    counts (value / unit : ℕ) ∧ (n : ℚ) ≤ (value / unit : ℕ) ∨
      counts (value / unit + 1 : ℕ) ∧ ((value / unit + 1 : ℕ) : ℚ) ≤ n := by
  rcases le_quotient_or_succ_le value unit n with hside | hside
  · exact .inl ⟨h.up _ _ hn hside Nat.cast_div_le, hside⟩
  · rw [← Nat.cast_succ] at hside
    refine .inr ⟨h.down _ _ hn ?_ hside, hside⟩
    rw [Nat.cast_succ]
    exact (lt_quotient_succ value unit).le

variable {inside : ℕ → Bool} {counts : ℚ → Prop} (haround : Around counts (value / unit))
  (hinside : ∀ n, inside n = true ↔ counts n) (hunit : 0 < unit)

include haround hinside

theorem inside_and_ne_zero_iff (n : ℕ) :
    (inside n && decide (n ≠ 0)) = true ↔ counts n := by
  rw [Bool.and_eq_true, decide_eq_true_eq, hinside, and_iff_left_iff_imp]
  rintro hn rfl
  exact haround.zero (by exact_mod_cast hn)

/-- The nearer neighbour is tried first, and then the other one. -/
theorem neighbour?_cases (nearer farther : ℕ) (hnearer : nearerNeighbour tie value unit = nearer)
    (hfarther : (if nearer = value / unit then value / unit + 1 else value / unit) = farther) :
    counts nearer ∧ neighbour? tie inside value unit = some nearer ∨
      ¬ counts nearer ∧ counts farther ∧ neighbour? tie inside value unit = some farther ∨
      ¬ counts nearer ∧ ¬ counts farther ∧ neighbour? tie inside value unit = none := by
  unfold neighbour?
  dsimp only
  rw [hnearer, hfarther]
  have hcounts := inside_and_ne_zero_iff haround hinside
  by_cases hn : counts nearer
  · exact .inl ⟨hn, if_pos ((hcounts nearer).2 hn)⟩
  · rw [if_neg (mt (hcounts nearer).1 hn)]
    by_cases hf : counts farther
    · exact .inr (.inl ⟨hn, hf, if_pos ((hcounts farther).2 hf)⟩)
    · exact .inr (.inr ⟨hn, hf, if_neg (mt (hcounts farther).1 hf)⟩)

include hunit

theorem neighbour?_eq_none (h : neighbour? tie inside value unit = none) (n : ℕ) :
    ¬ counts n := by
  intro hn
  have hside := haround.neighbour hn
  rcases neighbour?_cases haround hinside _ _ rfl rfl with
    ⟨-, hsome⟩ | ⟨-, -, hsome⟩ | ⟨hno, hor, -⟩
  · cases h.symm.trans hsome
  · cases h.symm.trans hsome
  · rcases nearerNeighbour_eq tie value hunit with ⟨heq, -⟩ | ⟨heq, -⟩
    · rw [heq, if_pos rfl] at hor
      rw [heq] at hno
      exact hside.elim (fun hbelow => hno hbelow.1) fun habove => hor habove.1
    · rw [heq, if_neg (Nat.succ_ne_self _)] at hor
      rw [heq] at hno
      exact hside.elim (fun hbelow => hor hbelow.1) fun habove => hno habove.1

theorem neighbour?_eq_some {n : ℕ} (h : neighbour? tie inside value unit = some n) :
    counts n ∧ n ≤ value / unit + 1 ∧
      ∀ other : ℕ, counts other → |(n : ℚ) - value / unit| ≤ |(other : ℚ) - value / unit| := by
  have hbelow : ((value / unit : ℕ) : ℚ) ≤ value / unit := Nat.cast_div_le
  have habove := lt_quotient_succ value unit
  rcases neighbour?_cases haround hinside _ _ rfl rfl with
    ⟨hn, hsome⟩ | ⟨hno, hf, hsome⟩ | ⟨-, -, hnone⟩
  · obtain rfl := Option.some.inj (h.symm.trans hsome)
    refine ⟨hn, ?_, fun other _ => nearerNeighbour_le tie hunit other⟩
    rcases nearerNeighbour_eq tie value hunit with ⟨heq, -⟩ | ⟨heq, -⟩ <;> omega
  · obtain rfl := Option.some.inj (h.symm.trans hsome)
    refine ⟨hf, ?_, fun other hother => ?_⟩
    · split_ifs <;> omega
    -- The nearer neighbour is not inside, so `other` lies beyond the farther one.
    · rcases nearerNeighbour_eq tie value hunit with ⟨heq, -⟩ | ⟨heq, -⟩
      · rw [heq] at hno ⊢
        rw [if_pos rfl]
        have hside := (haround.neighbour hother).resolve_left fun hside => hno hside.1
        rw [Nat.cast_succ] at hside ⊢
        exact abs_sub_le_abs_sub (.inr ⟨habove.le, hside.2⟩)
      · rw [heq] at hno ⊢
        rw [if_neg (Nat.succ_ne_self _)]
        have hside := (haround.neighbour hother).resolve_right fun hside => hno hside.1
        exact abs_sub_le_abs_sub (.inl ⟨hside.2, hbelow⟩)
  · cases h.symm.trans hnone

end Neighbours

/-! ## Neighbours on a decimal grid -/

/-- A number with its bounds, as numerators over one denominator. -/
structure Fractions (low value high denominator : ℕ) (lowest middle highest : ℚ) : Prop where
  denominator_pos : 0 < denominator
  low_eq : (low : ℚ) = lowest * denominator
  value_eq : (value : ℚ) = middle * denominator
  high_eq : (high : ℚ) = highest * denominator
  lowest_pos : 0 < lowest
  lowest_lt : lowest < middle
  lt_highest : middle < highest

theorem hit?_eq (tie : Tie) (low value high denominator : ℕ) (closed : Bool) (exponent : ℤ) :
    ∃ unit scale : ℕ, 0 < scale ∧ (unit : ℚ) = scale * denominator * 10 ^ exponent ∧
      hit? tie low value high denominator closed exponent =
        neighbour? tie (fun digits =>
          if closed then low * scale ≤ digits * unit && digits * unit ≤ high * scale
          else low * scale < digits * unit && digits * unit < high * scale)
          (value * scale) unit := by
  by_cases hexponent : 0 ≤ exponent
  · refine ⟨Nat.pow 10 exponent.toNat * denominator, 1, Nat.one_pos, ?_, ?_⟩
    · obtain ⟨k, rfl⟩ := Int.eq_ofNat_of_zero_le hexponent
      rw [Int.toNat_natCast, zpow_natCast, Nat.pow_eq]
      push_cast
      ring
    · simp only [hit?, if_pos hexponent]
  · refine ⟨denominator, Nat.pow 10 (-exponent).toNat, Nat.pow_pos (by decide), ?_, ?_⟩
    · obtain ⟨k, rfl⟩ : ∃ k : ℕ, exponent = -k := ⟨(-exponent).toNat, by omega⟩
      rw [neg_neg, Int.toNat_natCast, zpow_neg, zpow_natCast, Nat.pow_eq]
      push_cast
      field_simp
    · simp only [hit?, if_neg hexponent]

section Hits
variable {tie : Tie} {low value high denominator : ℕ} {lowest middle highest : ℚ} {closed : Bool}
  (hfractions : Fractions low value high denominator lowest middle highest)
include hfractions

theorem Fractions.around (closed : Bool) {grid : ℚ} (hgrid : 0 < grid) :
    Around (fun y => Lies closed lowest highest (y * grid)) (middle / grid) where
  zero := fun h => by
    have hpos := h.pos hfractions.lowest_pos
    rw [zero_mul] at hpos
    exact hpos.false
  up := fun y z hy hyz hz =>
    hy.between (lies_of_lt hfractions.lowest_lt hfractions.lt_highest)
      (mul_le_mul_of_nonneg_right hyz hgrid.le) ((le_div_iff₀ hgrid).1 hz)
  down := fun y z hy hz hzy =>
    (lies_of_lt hfractions.lowest_lt hfractions.lt_highest).between hy ((div_le_iff₀ hgrid).1 hz)
      (mul_le_mul_of_nonneg_right hzy hgrid.le)

theorem Fractions.unit_pos {unit scale : ℕ} {grid : ℚ} (hscale : 0 < scale) (hgrid : 0 < grid)
    (hunit : (unit : ℚ) = scale * denominator * grid) : 0 < unit := by
  have hpos := hfractions.denominator_pos
  have hcast : (0 : ℚ) < unit := by
    rw [hunit]
    positivity
  exact_mod_cast hcast

theorem Fractions.quotient_eq {unit scale : ℕ} {grid : ℚ} (hscale : 0 < scale) (hgrid : 0 < grid)
    (hunit : (unit : ℚ) = scale * denominator * grid) :
    ((value * scale : ℕ) : ℚ) / unit = middle / grid := by
  have hpos := hfractions.denominator_pos
  rw [hunit, Nat.cast_mul, hfractions.value_eq]
  field_simp

theorem Fractions.middle_eq : middle = value / denominator := by
  have hpos : (0 : ℚ) < denominator := by exact_mod_cast hfractions.denominator_pos
  rw [hfractions.value_eq, mul_div_cancel_right₀ _ hpos.ne']

/-- Comparing numerators is comparing the numbers. -/
theorem Fractions.inside_iff {unit scale : ℕ} {grid : ℚ} (hscale : 0 < scale)
    (hunit : (unit : ℚ) = scale * denominator * grid) (digits : ℕ) :
    (if closed then decide (low * scale ≤ digits * unit) && decide (digits * unit ≤ high * scale)
      else decide (low * scale < digits * unit) && decide (digits * unit < high * scale)) = true ↔
      Lies closed lowest highest (digits * grid) := by
  have hpos : (0 : ℚ) < scale * denominator := by
    have := hfractions.denominator_pos
    positivity
  have hdigits : ((digits * unit : ℕ) : ℚ) = digits * grid * (scale * denominator) := by
    rw [Nat.cast_mul, hunit]
    ring
  have hlow : ((low * scale : ℕ) : ℚ) = lowest * (scale * denominator) := by
    rw [Nat.cast_mul, hfractions.low_eq]
    ring
  have hhigh : ((high * scale : ℕ) : ℚ) = highest * (scale * denominator) := by
    rw [Nat.cast_mul, hfractions.high_eq]
    ring
  cases closed with
  | true =>
    simp only [if_true, Bool.and_eq_true, decide_eq_true_eq, Lies]
    rw [← Nat.cast_le (α := ℚ), ← Nat.cast_le (α := ℚ), hdigits, hlow, hhigh,
      mul_le_mul_iff_left₀ hpos, mul_le_mul_iff_left₀ hpos]
  | false =>
    simp only [Bool.false_eq_true, if_false, Bool.and_eq_true, decide_eq_true_eq, Lies]
    rw [← Nat.cast_lt (α := ℚ), ← Nat.cast_lt (α := ℚ), hdigits, hlow, hhigh,
      mul_lt_mul_iff_left₀ hpos, mul_lt_mul_iff_left₀ hpos]

/-- What a grid holds of the numbers between the bounds. -/
theorem hit?_eq_none {exponent : ℤ}
    (h : hit? tie low value high denominator closed exponent = none) (n : ℕ) :
    ¬ Lies closed lowest highest (n * 10 ^ exponent) := by
  obtain ⟨unit, scale, hscale, hunit, hhit⟩ :=
    hit?_eq tie low value high denominator closed exponent
  have hgrid : (0 : ℚ) < 10 ^ exponent := by positivity
  have haround := hfractions.around closed hgrid
  rw [← hfractions.quotient_eq hscale hgrid hunit] at haround
  rw [hhit] at h
  exact neighbour?_eq_none haround (hfractions.inside_iff hscale hunit)
    (hfractions.unit_pos hscale hgrid hunit) h n

theorem hit?_eq_some {exponent : ℤ} {n : ℕ}
    (h : hit? tie low value high denominator closed exponent = some n) :
    Lies closed lowest highest (n * 10 ^ exponent) ∧
      (n : ℚ) * 10 ^ exponent ≤ middle + 10 ^ exponent ∧
      ∀ other : ℕ, Lies closed lowest highest (other * 10 ^ exponent) →
        |n * 10 ^ exponent - middle| ≤ |other * 10 ^ exponent - middle| := by
  obtain ⟨unit, scale, hscale, hunit, hhit⟩ :=
    hit?_eq tie low value high denominator closed exponent
  have hgrid : (0 : ℚ) < 10 ^ exponent := by positivity
  have haround := hfractions.around closed hgrid
  have hquotient := hfractions.quotient_eq hscale hgrid hunit
  rw [← hquotient] at haround
  rw [hhit] at h
  obtain ⟨hlies, hle, hnearest⟩ := neighbour?_eq_some haround (hfractions.inside_iff hscale hunit)
    (hfractions.unit_pos hscale hgrid hunit) h
  have hdistance (m : ℕ) : |(m : ℚ) * 10 ^ exponent - middle| =
      |m - middle / 10 ^ exponent| * 10 ^ exponent := by
    rw [← abs_of_pos hgrid, ← abs_mul, abs_of_pos hgrid, sub_mul, div_mul_cancel₀ _ hgrid.ne']
  refine ⟨hlies, ?_, fun other hother => ?_⟩
  · have hn : (n : ℚ) ≤ middle / 10 ^ exponent + 1 := by
      have hcast : (n : ℚ) ≤ (value * scale / unit : ℕ) + 1 := by exact_mod_cast hle
      rw [← hquotient]
      exact hcast.trans (add_le_add_left Nat.cast_div_le 1)
    calc (n : ℚ) * 10 ^ exponent ≤ (middle / 10 ^ exponent + 1) * 10 ^ exponent :=
          mul_le_mul_of_nonneg_right hn hgrid.le
      _ = middle + 10 ^ exponent := by rw [add_mul, div_mul_cancel₀ _ hgrid.ne', one_mul]
  · rw [hdistance, hdistance, ← hquotient]
    exact mul_le_mul_of_nonneg_right (hnearest other hother) hgrid.le

end Hits

/-! ## The leading digit -/

theorem leadingPlaces_spec {numerator denominator : ℕ} (steps places : ℕ)
    (hbelow : numerator * 10 ^ places < denominator)
    (henough : denominator ≤ numerator * 10 ^ (places + 1 + steps)) :
    ∃ last, leadingPlaces numerator denominator steps (places + 1) = last + 1 ∧
      numerator * 10 ^ last < denominator ∧ denominator ≤ numerator * 10 ^ (last + 1) := by
  induction steps generalizing places with
  | zero => exact ⟨places, rfl, hbelow, henough⟩
  | succ steps ih =>
    by_cases hreached : denominator ≤ numerator * 10 ^ (places + 1)
    · exact ⟨places, if_pos hreached, hbelow, hreached⟩
    · rw [leadingPlaces, Nat.pow_eq, if_neg hreached]
      refine ih (places + 1) (not_le.1 hreached) ?_
      rwa [Nat.add_assoc (places + 1), Nat.add_comm 1]

theorem length_toDigits_eq {n : ℕ} (h : 0 < n) :
    ∃ count, (Nat.toDigits 10 n).length = count + 1 ∧ 10 ^ count ≤ n ∧ n < 10 ^ (count + 1) := by
  have hlength (k : ℕ) : (Nat.toDigits 10 n).length ≤ k + 1 ↔ n < 10 ^ (k + 1) :=
    Nat.length_toDigits_le_iff (by decide) (Nat.succ_pos k)
  obtain ⟨count, hcount⟩ : ∃ count, (Nat.toDigits 10 n).length = count + 1 :=
    Nat.exists_eq_succ_of_ne_zero (List.length_pos_iff.2 Nat.toDigits_ne_nil).ne'
  refine ⟨count, hcount, ?_, (hlength count).1 hcount.le⟩
  cases count with
  | zero => exact h
  | succ k =>
    refine not_lt.1 fun hlt => ?_
    have hshort := (hlength k).2 hlt
    omega

/-- Where the leading digit of a fraction stands. -/
theorem pointOf_spec {numerator denominator : ℕ} (hdenominator : 0 < denominator)
    (henough : denominator ≤ numerator * 10 ^ 401) :
    (10 : ℚ) ^ (pointOf numerator denominator - 1) ≤ numerator / denominator ∧
      (numerator : ℚ) / denominator < 10 ^ pointOf numerator denominator := by
  have hpos : (0 : ℚ) < denominator := by exact_mod_cast hdenominator
  unfold pointOf
  split
  · next hle =>
    obtain ⟨count, hcount, hlow, hhigh⟩ := length_toDigits_eq (Nat.div_pos hle hdenominator)
    rw [hcount, Nat.cast_succ, add_sub_cancel_right, zpow_natCast, ← Nat.cast_succ, zpow_natCast]
    constructor
    · calc (10 : ℚ) ^ count ≤ (numerator / denominator : ℕ) := by exact_mod_cast hlow
        _ ≤ numerator / denominator := Nat.cast_div_le
    · calc (numerator : ℚ) / denominator < (numerator / denominator : ℕ) + 1 :=
          lt_quotient_succ numerator denominator
        _ ≤ 10 ^ (count + 1) := by exact_mod_cast hhigh
  · next hlt =>
    obtain ⟨last, hlast, hbelow, hreached⟩ :=
      leadingPlaces_spec 400 0 (by rwa [pow_zero, mul_one, ← not_le])
        (by rwa [show 0 + 1 + 400 = 401 from rfl])
    rw [show leadingPlaces numerator denominator 400 1 = last + 1 from hlast]
    have hpower (n : ℕ) : (10 : ℚ) ^ (-n : ℤ) = 1 / 10 ^ n := by
      rw [zpow_neg, zpow_natCast, one_div]
    constructor
    · have hexponent : (1 : ℤ) - (last + 1 : ℕ) - 1 = -(last + 1 : ℕ) := by omega
      rw [hexponent, hpower, div_le_div_iff₀ (by positivity) hpos, one_mul]
      exact_mod_cast hreached
    · have hexponent : (1 : ℤ) - (last + 1 : ℕ) = -(last : ℕ) := by omega
      rw [hexponent, hpower, div_lt_div_iff₀ hpos (by positivity), one_mul]
      exact_mod_cast hbelow

/-! ## Fewest digits -/

section FirstHit
variable {tie : Tie} {low value high denominator : ℕ} {closed : Bool} {point : ℤ}

theorem firstHit_eq_some {steps count : ℕ} {d : Decimal}
    (h : firstHit tie low value high denominator closed point steps count = some d) :
    ∃ last, count ≤ last ∧ d.exponent = point - last ∧
      hit? tie low value high denominator closed (point - last) = some d.digits ∧
      ∀ fewer, count ≤ fewer → fewer < last →
        hit? tie low value high denominator closed (point - fewer) = none := by
  induction steps generalizing count with
  | zero => cases h
  | succ steps ih =>
    rw [firstHit] at h
    cases hhit : hit? tie low value high denominator closed (point - count) with
    | some digits =>
      rw [hhit] at h
      obtain rfl := Option.some.inj h
      exact ⟨count, le_rfl, rfl, hhit, fun fewer hle hlt => absurd hlt hle.not_gt⟩
    | none =>
      rw [hhit] at h
      obtain ⟨last, hlast, hexponent, hdigits, hfewer⟩ := ih h
      refine ⟨last, (Nat.le_succ _).trans hlast, hexponent, hdigits, fun fewer hle hlt => ?_⟩
      rcases hle.eq_or_lt with rfl | hle
      · exact hhit
      · exact hfewer fewer hle hlt

theorem firstHit_ne_none {steps count last : ℕ} (hle : count ≤ last) (hlt : last < count + steps)
    (h : hit? tie low value high denominator closed (point - last) ≠ none) :
    firstHit tie low value high denominator closed point steps count ≠ none := by
  induction steps generalizing count with
  | zero => omega
  | succ steps ih =>
    rw [firstHit]
    cases hhit : hit? tie low value high denominator closed (point - count) with
    | some digits => exact Option.some_ne_none _
    | none =>
      have hne : count ≠ last := fun heq => h (heq ▸ hhit)
      exact ih (by omega) (by omega)

end FirstHit

theorem value_strip (steps : ℕ) (d : Decimal) : (strip steps d).value = d.value := by
  induction steps generalizing d with
  | zero => rfl
  | succ steps ih =>
    rw [strip]
    split
    · next hzero =>
      rw [Bool.and_eq_true, decide_eq_true_eq, decide_eq_true_eq] at hzero
      have hdigits : d.digits / 10 * 10 ^ 1 = d.digits :=
        Nat.div_mul_cancel (Nat.dvd_of_mod_eq_zero hzero.2)
      rw [ih, value, value, ← hdigits, cast_mul_pow, hdigits, Nat.cast_one]
    · rfl

theorem digits_strip_le (steps : ℕ) (d : Decimal) : (strip steps d).digits ≤ d.digits := by
  induction steps generalizing d with
  | zero => exact le_rfl
  | succ steps ih =>
    rw [strip]
    split
    · exact (ih _).trans (Nat.div_le_self _ _)
    · exact le_rfl

/-- A power of ten loses its zeros. -/
theorem digits_strip_lt {count : ℕ} (hcount : 0 < count) (steps : ℕ) {d : Decimal}
    (h : d.digits ≤ 10 ^ count) : (strip (steps + 1) d).digits < 10 ^ count := by
  rcases h.lt_or_eq with hlt | heq
  · exact (digits_strip_le _ d).trans_lt hlt
  · obtain ⟨k, rfl⟩ := Nat.exists_eq_add_of_lt hcount
    rw [zero_add, pow_succ] at heq
    have hdiv : d.digits / 10 < 10 ^ (0 + k + 1) := by
      rw [zero_add, heq, Nat.mul_div_cancel _ (by decide)]
      exact Nat.pow_lt_pow_succ (by decide)
    rw [strip, if_pos]
    · exact (digits_strip_le _ _).trans_lt hdiv
    · simp [heq]

/-! ## Doubles -/

namespace Binary

def value (b : Binary) : ℚ :=
  b.mantissa * 2 ^ b.exponent

/-- The midpoint to the double below. -/
def lowest (b : Binary) : ℚ :=
  (b.mantissa - if b.closeBelow then 1 / 4 else 1 / 2) * 2 ^ b.exponent

/-- The midpoint to the double above. -/
def highest (b : Binary) : ℚ :=
  (b.mantissa + 1 / 2) * 2 ^ b.exponent

/-- The nearest double is the given one, or it is the even one of two. -/
def Rounds (b : Binary) (x : ℚ) : Prop :=
  Lies (b.mantissa % 2 = 0) b.lowest b.highest x

/-- A mantissa has 53 bits, and the double below is closer where all others are zero. -/
structure IsDouble (b : Binary) : Prop where
  mantissa_lt : b.mantissa < 2 ^ 53
  le_exponent : -1074 ≤ b.exponent
  mantissa_eq : b.closeBelow = true → b.mantissa = 2 ^ 52

theorem isDouble_ofBits (bits : UInt64) : (ofBits bits).IsDouble := by
  have hfraction : bits.toNat % Nat.pow 2 52 < 2 ^ 52 := Nat.mod_lt _ (by decide)
  unfold ofBits
  dsimp only
  split
  · exact ⟨hfraction.trans (by decide), le_rfl, nofun⟩
  · next hscale =>
    refine ⟨?_, ?_, fun hclose => ?_⟩
    · have hpow : Nat.pow 2 52 = 2 ^ 52 := rfl
      dsimp only
      omega
    · dsimp only
      omega
    · rw [Bool.and_eq_true, decide_eq_true_eq] at hclose
      rw [hclose.1]
      rfl

theorem lowest_lt (b : Binary) : b.lowest < b.value := by
  refine mul_lt_mul_of_pos_right ?_ (by positivity)
  split <;> linarith

theorem lt_highest (b : Binary) : b.value < b.highest :=
  mul_lt_mul_of_pos_right (by linarith) (by positivity)

theorem rounds_value (b : Binary) : b.Rounds b.value :=
  lies_of_lt b.lowest_lt b.lt_highest

theorem lowest_pos {b : Binary} (hmantissa : b.mantissa ≠ 0) : 0 < b.lowest := by
  have hone : (1 : ℚ) ≤ b.mantissa := by exact_mod_cast Nat.one_le_iff_ne_zero.2 hmantissa
  refine mul_pos ?_ (by positivity)
  split <;> linarith

section Gaps
variable {b : Binary} (hb : b.IsDouble)
include hb

/-- The gaps to both midpoints are at least a part in `2 ^ 54` of the number. -/
theorem IsDouble.value_le :
    b.value ≤ 2 ^ 54 * (b.value - b.lowest) ∧ b.value ≤ 2 ^ 54 * (b.highest - b.value) := by
  have hpower : (0 : ℚ) < 2 ^ b.exponent := by positivity
  have hmantissa : (b.mantissa : ℚ) ≤ 2 ^ 53 := by exact_mod_cast hb.mantissa_lt.le
  have hbelow : (b.mantissa : ℚ) ≤ 2 ^ 54 * (if b.closeBelow then 1 / 4 else 1 / 2) := by
    split
    · next hclose =>
      rw [hb.mantissa_eq hclose]
      norm_num
    · linarith
  unfold value lowest highest
  constructor
  · calc (b.mantissa : ℚ) * 2 ^ b.exponent
        ≤ 2 ^ 54 * (if b.closeBelow then 1 / 4 else 1 / 2) * 2 ^ b.exponent :=
          mul_le_mul_of_nonneg_right hbelow hpower.le
      _ = _ := by ring
  · calc (b.mantissa : ℚ) * 2 ^ b.exponent ≤ 2 ^ 54 * (1 / 2) * 2 ^ b.exponent :=
          mul_le_mul_of_nonneg_right (by linarith) hpower.le
      _ = _ := by ring

/-- Some decimal of seventeen digits lies between the midpoints. -/
theorem IsDouble.exists_rounds {point : ℤ} (hpoint : (10 : ℚ) ^ (point - 1) ≤ b.value) :
    ∃ n : ℕ, b.Rounds (n * 10 ^ (point - 17)) := by
  have hgrid : (0 : ℚ) < 10 ^ (point - 17) := by positivity
  have hfine : 10 ^ 16 * (10 : ℚ) ^ (point - 17) ≤ b.value := by
    rw [← zpow_natCast, ← zpow_add₀ (by norm_num)]
    convert hpoint using 2
    push_cast
    ring
  have hvalue : 0 < b.value := (by positivity : (0 : ℚ) < 10 ^ (point - 1)).trans_le hpoint
  obtain ⟨hbelow, habove⟩ := hb.value_le
  set n := ⌊b.value / 10 ^ (point - 17) + 1 / 2⌋₊
  have hle : (n : ℚ) ≤ b.value / 10 ^ (point - 17) + 1 / 2 := Nat.floor_le (by positivity)
  have hlt : b.value / 10 ^ (point - 17) + 1 / 2 < n + 1 := Nat.lt_floor_add_one _
  have hle' : (n : ℚ) * 10 ^ (point - 17) ≤ b.value + 10 ^ (point - 17) / 2 := by
    calc (n : ℚ) * 10 ^ (point - 17)
        ≤ (b.value / 10 ^ (point - 17) + 1 / 2) * 10 ^ (point - 17) :=
          mul_le_mul_of_nonneg_right hle hgrid.le
      _ = b.value + 10 ^ (point - 17) / 2 := by field_simp
  have hlt' : b.value - 10 ^ (point - 17) / 2 ≤ n * 10 ^ (point - 17) := by
    calc b.value - 10 ^ (point - 17) / 2
        = (b.value / 10 ^ (point - 17) - 1 / 2) * 10 ^ (point - 17) := by field_simp
      _ ≤ n * 10 ^ (point - 17) := mul_le_mul_of_nonneg_right (by linarith) hgrid.le
  exact ⟨n, lies_of_lt (by linarith) (by linarith)⟩

end Gaps

end Binary

/-! ## The shortest decimal -/

/-- Four times the mantissa, and the midpoints beside it, over one denominator. -/
theorem fractions_of_factor {b : Binary} (hmantissa : b.mantissa ≠ 0) {factor denominator : ℕ}
    (hdenominator : 0 < denominator) (hfactor : (factor : ℚ) * 4 = 2 ^ b.exponent * denominator) :
    Fractions ((4 * b.mantissa - if b.closeBelow then 1 else 2) * factor) (4 * b.mantissa * factor)
      ((4 * b.mantissa + 2) * factor) denominator b.lowest b.value b.highest := by
  have hle : (if b.closeBelow then 1 else 2) ≤ 4 * b.mantissa := by
    split <;> omega
  constructor
  · exact hdenominator
  · rw [Nat.cast_mul, Nat.cast_sub hle, Binary.lowest]
    split
    · push_cast
      linear_combination (b.mantissa - 1 / 4 : ℚ) * hfactor
    · push_cast
      linear_combination (b.mantissa - 1 / 2 : ℚ) * hfactor
  · rw [Binary.value]
    push_cast
    linear_combination (b.mantissa : ℚ) * hfactor
  · rw [Binary.highest]
    push_cast
    linear_combination (b.mantissa + 1 / 2 : ℚ) * hfactor
  · exact Binary.lowest_pos hmantissa
  · exact b.lowest_lt
  · exact b.lt_highest

theorem two_pow_le {k n : ℕ} (h : k ≤ 3 * n) : 2 ^ k ≤ 10 ^ n :=
  calc 2 ^ k ≤ 2 ^ (3 * n) := Nat.pow_le_pow_right (by decide) h
    _ = (2 ^ 3) ^ n := Nat.pow_mul 2 3 n
    _ ≤ 10 ^ n := Nat.pow_le_pow_left (by decide) n

/-- The numerators that are searched stand for a double and its midpoints. -/
theorem exists_fractions {b : Binary} (hb : b.IsDouble) (hmantissa : b.mantissa ≠ 0) (tie : Tie) :
    ∃ low value high denominator : ℕ,
      Fractions low value high denominator b.lowest b.value b.highest ∧
      denominator ≤ value * 10 ^ 401 ∧
      shortest tie b =
        match firstHit tie low value high denominator (b.mantissa % 2 = 0)
          (pointOf value denominator) 17 1 with
        | some d => strip 20 d
        | none => ⟨0, 0⟩ := by
  unfold shortest
  dsimp only
  rw [if_neg hmantissa]
  have htwo : (2 : ℚ) ≠ 0 := by norm_num
  by_cases hexponent : 2 ≤ b.exponent
  · obtain ⟨k, hk⟩ : ∃ k : ℕ, b.exponent = k + 2 := ⟨(b.exponent - 2).toNat, by omega⟩
    have hcount : (b.exponent - 2).toNat = k := by omega
    simp only [if_pos hexponent, hcount, Nat.pow_eq]
    have hfactor : ((2 ^ k : ℕ) : ℚ) * 4 = 2 ^ b.exponent * (1 : ℕ) := by
      rw [hk, zpow_add₀ htwo, zpow_natCast]
      push_cast
      norm_num
    refine ⟨_, _, _, _, fractions_of_factor hmantissa Nat.one_pos hfactor, ?_, rfl⟩
    exact Nat.one_le_iff_ne_zero.2 (by positivity)
  · obtain ⟨k, hk⟩ : ∃ k : ℕ, b.exponent = 2 - k := ⟨(2 - b.exponent).toNat, by omega⟩
    have hcount : (2 - b.exponent).toNat = k := by omega
    simp only [if_neg hexponent, hcount, Nat.pow_eq]
    have hfactor : ((1 : ℕ) : ℚ) * 4 = 2 ^ b.exponent * (2 ^ k : ℕ) := by
      rw [hk, zpow_sub₀ htwo, zpow_natCast]
      push_cast
      field_simp
    have hfractions := fractions_of_factor hmantissa (by positivity) hfactor
    simp only [mul_one] at hfractions
    refine ⟨_, _, _, _, hfractions, ?_, rfl⟩
    have hsize : 2 ^ k ≤ 10 ^ 401 := two_pow_le (by have := hb.le_exponent; omega)
    exact hsize.trans (Nat.le_mul_of_pos_left _ (by positivity))

/-- One of the decimals with at most `count` digits on the grid that the leading digit gives them is
at least as near as a given one. -/
theorem exists_on_grid {b : Binary} (hmantissa : b.mantissa ≠ 0) {point : ℤ}
    (hpoint : (10 : ℚ) ^ (point - 1) ≤ b.value) {other : Decimal} (hother : b.Rounds other.value)
    {count : ℕ} (hcount : other.digits < 10 ^ count) :
    0 < count ∧ ∃ n : ℕ, b.Rounds (n * 10 ^ (point - count)) ∧
      |(n : ℚ) * 10 ^ (point - count) - b.value| ≤ |other.value - b.value| := by
  have hten : (10 : ℚ) ≠ 0 := by norm_num
  have hpositive : 0 < other.value := hother.pos (Binary.lowest_pos hmantissa)
  have hfirst : 0 < count := by
    refine Nat.pos_of_ne_zero fun hzero => hpositive.ne' ?_
    rw [hzero, pow_zero, Nat.lt_one_iff] at hcount
    rw [value, hcount, Nat.cast_zero, zero_mul]
  refine ⟨hfirst, ?_⟩
  by_cases hlarge : (10 : ℚ) ^ (point - 1) ≤ other.value
  -- It stands on the grid itself.
  · have hexponent : point - count ≤ other.exponent := by
      have hpower : (10 : ℚ) ^ (point - 1) < 10 ^ (count + other.exponent) := by
        rw [zpow_add₀ hten, zpow_natCast]
        refine hlarge.trans_lt (mul_lt_mul_of_pos_right ?_ (by positivity))
        exact_mod_cast hcount
      have hlt := (zpow_lt_zpow_iff_right₀ (by norm_num)).1 hpower
      omega
    obtain ⟨k, hk⟩ : ∃ k : ℕ, other.exponent = point - count + k :=
      ⟨(other.exponent - (point - count)).toNat, by omega⟩
    have hvalue : ((other.digits * 10 ^ k : ℕ) : ℚ) * 10 ^ (point - count) = other.value := by
      rw [value, hk, cast_mul_pow]
    refine ⟨other.digits * 10 ^ k, ?_, ?_⟩
    · rwa [hvalue]
    · rw [hvalue]
  -- A power of ten stands between it and the double.
  · have hvalue : ((10 ^ (count - 1) : ℕ) : ℚ) * 10 ^ (point - count) = 10 ^ (point - 1) := by
      rw [Nat.cast_pow, ← zpow_natCast, Nat.cast_ofNat, ← zpow_add₀ hten]
      congr 1
      omega
    have hlt := not_le.1 hlarge
    refine ⟨10 ^ (count - 1), ?_, ?_⟩
    · rw [hvalue]
      exact hother.between b.rounds_value hlt.le hpoint
    · rw [hvalue]
      exact abs_sub_le_abs_sub (.inl ⟨hlt.le, hpoint⟩)

/-- What is found lies on the first grid that holds a decimal for the double. -/
theorem exists_first_grid {b : Binary} (hb : b.IsDouble) (hmantissa : b.mantissa ≠ 0) (tie : Tie) :
    ∃ (point : ℤ) (last : ℕ) (d : Decimal), (10 : ℚ) ^ (point - 1) ≤ b.value ∧ 0 < last ∧
      shortest tie b = strip 20 d ∧ d.exponent = point - last ∧ d.digits ≤ 10 ^ last ∧
      b.Rounds d.value ∧
      (∀ n : ℕ, b.Rounds (n * 10 ^ (point - last)) →
        |d.value - b.value| ≤ |n * 10 ^ (point - last) - b.value|) ∧
      ∀ fewer : ℕ, 0 < fewer → fewer < last → ∀ n : ℕ, ¬ b.Rounds (n * 10 ^ (point - fewer)) := by
  obtain ⟨low, value, high, denominator, hfractions, henough, hshortest⟩ :=
    exists_fractions hb hmantissa tie
  obtain ⟨hpoint, hbelow⟩ := pointOf_spec hfractions.denominator_pos henough
  rw [← hfractions.middle_eq] at hpoint hbelow
  generalize pointOf value denominator = point at *
  -- The grid of seventeen digits is fine enough, so the search does not come to its end.
  obtain ⟨n, hn⟩ := hb.exists_rounds hpoint
  have hsome : hit? tie low value high denominator (b.mantissa % 2 = 0) (point - (17 : ℕ)) ≠ none :=
    fun hnone => hit?_eq_none hfractions hnone n hn
  obtain ⟨d, hd⟩ : ∃ d, firstHit tie low value high denominator (b.mantissa % 2 = 0) point 17 1 =
      some d :=
    Option.ne_none_iff_exists'.1 (firstHit_ne_none (by decide) (by decide) hsome)
  obtain ⟨last, hlast, hexponent, hhit, hfewer⟩ := firstHit_eq_some hd
  obtain ⟨hlies, hle, hnearest⟩ := hit?_eq_some hfractions hhit
  have hdigits : d.digits ≤ 10 ^ last := by
    have hgrid : (10 : ℚ) ^ last * 10 ^ (point - last) = 10 ^ point := by
      rw [← zpow_natCast, ← zpow_add₀ (by norm_num), add_sub_cancel]
    have hlt : (d.digits : ℚ) * 10 ^ (point - last) < (10 ^ last + 1) * 10 ^ (point - last) := by
      rw [add_mul, one_mul, hgrid]
      exact hle.trans_lt (add_lt_add_left hbelow _)
    have hcast := lt_of_mul_lt_mul_right hlt (by positivity)
    exact Nat.le_of_lt_succ (by exact_mod_cast hcast)
  rw [hd] at hshortest
  rw [← hexponent] at hlies hnearest
  refine ⟨point, last, d, hpoint, hlast, hshortest, hexponent, hdigits, hlies, ?_, ?_⟩
  · rw [← hexponent]
    exact hnearest
  · exact fun fewer hpos hlt => hit?_eq_none hfractions (hfewer fewer hpos hlt)

/-- A decimal for a double: none with fewer digits stands for it, and none with as few is nearer. -/
structure IsShortest (b : Binary) (d : Decimal) : Prop where
  rounds : b.Rounds d.value
  fewest : ∀ other : Decimal, b.Rounds other.value →
    ∀ count, other.digits < 10 ^ count → d.digits < 10 ^ count
  nearest : ∀ other : Decimal, b.Rounds other.value →
    (∀ count, d.digits < 10 ^ count → other.digits < 10 ^ count) →
    |d.value - b.value| ≤ |other.value - b.value|

theorem isShortest_zero {b : Binary} (hmantissa : b.mantissa = 0) : IsShortest b ⟨0, 0⟩ := by
  have hvalue : (⟨0, 0⟩ : Decimal).value = b.value := by
    rw [value, Binary.value, hmantissa, Nat.cast_zero, zero_mul, zero_mul]
  refine ⟨?_, fun _ _ count _ => Nat.pow_pos (by decide), fun other _ _ => ?_⟩
  · rw [hvalue]
    exact b.rounds_value
  · rw [hvalue, sub_self, abs_zero]
    exact abs_nonneg _

theorem isShortest_shortest (tie : Tie) {b : Binary} (hb : b.IsDouble) :
    IsShortest b (shortest tie b) := by
  by_cases hmantissa : b.mantissa = 0
  · have hshortest : shortest tie b = ⟨0, 0⟩ := if_pos hmantissa
    rw [hshortest]
    exact isShortest_zero hmantissa
  · obtain ⟨point, last, d, hpoint, hlast, hshortest, hexponent, hdigits, hrounds, hnearest,
      hfewer⟩ := exists_first_grid hb hmantissa tie
    have hstrip := digits_strip_lt hlast 19 hdigits
    rw [hshortest]
    refine ⟨?_, fun other hother count hcount => ?_, fun other hother hcount => ?_⟩
    · rw [value_strip]
      exact hrounds
    · obtain ⟨hpos, n, hn, -⟩ := exists_on_grid hmantissa hpoint hother hcount
      have hle : last ≤ count := not_lt.1 fun hlt => hfewer count hpos hlt n hn
      exact hstrip.trans_le (Nat.pow_le_pow_right (by decide) hle)
    · obtain ⟨-, n, hn, hnear⟩ := exists_on_grid hmantissa hpoint hother (hcount last hstrip)
      rw [value_strip]
      exact (hnearest n hn).trans hnear

end Stepbook.Decimal
