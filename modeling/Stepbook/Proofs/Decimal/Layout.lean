import Stepbook.Decimal.Layout
import Stepbook.Proofs.Decimal.Shortest
import Stepbook.Proofs.Json.Reader

/-! # Written decimals

A double is written with whole digits, of which zero is the first only if it is the only one; a
fraction and an exponent may follow. The number that is written is the shortest decimal for the
double, whatever the layout.

* `Writes`: a text with the number that its digits and its exponent write.
* `writes_positional`, `writes_scientific`: the two notations of a magnitude.
* `write_spec`: a finite double is written as its shortest decimal.
* `isNumber_write`: a finite double is written as a number of JSON.
-/

namespace Stepbook.Decimal.Layout
set_option autoImplicit false

open Float.Model (Format)
open Float.Model.UnpackedFloat (Sign unpack unpackExponent unpackMantissa)
open Json (isDigits isInteger isNumber IsFraction IsExponent)

/-! ## Numbers in texts -/

/-- The digits behind a point. -/
inductive Fraction : List Char → List Char → Prop
  | none : Fraction [] []
  | point {digits : List Char} (h : isDigits digits = true) : Fraction ('.' :: digits) digits

/-- The power of ten at the end of a number. -/
inductive Power : List Char → ℤ → Prop
  | none : Power [] 0
  | positive {sign digits : List Char} (hsign : sign = [] ∨ sign = ['+'])
    (h : isDigits digits = true) :
    Power ('e' :: (sign ++ digits)) (Nat.ofDigitChars 10 digits 0)
  | negative {digits : List Char} (h : isDigits digits = true) :
    Power ('e' :: (['-'] ++ digits)) (-(Nat.ofDigitChars 10 digits 0 : ℤ))

/-- The number that whole digits, a fraction and a power of ten write. -/
inductive Writes : List Char → ℚ → Prop
  | intro {integer fraction digits exponent : List Char} {power : ℤ}
    (hinteger : isInteger integer = true) (hfraction : Fraction fraction digits)
    (hpower : Power exponent power) :
    Writes (integer ++ (fraction ++ exponent))
      (Nat.ofDigitChars 10 (integer ++ digits) 0 * 10 ^ (power - digits.length))

theorem Fraction.isFraction {text digits : List Char} (h : Fraction text digits) :
    IsFraction text := by
  cases h with
  | none => exact .none
  | point h => exact .point h

theorem Power.isExponent {text : List Char} {power : ℤ} (h : Power text power) :
    IsExponent text := by
  cases h with
  | none => exact .none
  | positive hsign h => exact .power (hsign.elim .inl fun hplus => .inr (.inl hplus)) h
  | negative h => exact .power (.inr (.inr rfl)) h

/-- A number in front of nothing but its digits. -/
theorem Writes.of_eq {text integer fraction digits exponent : List Char} {power : ℤ} {x : ℚ}
    (htext : text = integer ++ (fraction ++ exponent)) (hinteger : isInteger integer = true)
    (hfraction : Fraction fraction digits) (hpower : Power exponent power)
    (hx : x = Nat.ofDigitChars 10 (integer ++ digits) 0 * 10 ^ (power - digits.length)) :
    Writes text x := by
  rw [htext, hx]
  exact .intro hinteger hfraction hpower

theorem isDigits_append {first second : List Char} (hfirst : isDigits first = true)
    (hsecond : ∀ c ∈ second, c.isDigit = true) : isDigits (first ++ second) = true := by
  have hall : ∀ c ∈ first ++ second, c.isDigit = true :=
    List.forall_mem_append.2 ⟨Json.mem_isDigits hfirst, hsecond⟩
  cases first with
  | nil => cases hfirst
  | cons c first => exact List.all_eq_true.2 hall

theorem isDigits_of_mem {digits part : List Char} (hdigits : isDigits digits = true)
    (hpart : ∀ c ∈ part, c ∈ digits) (hne : part ≠ []) : isDigits part = true := by
  have hall : part.all Char.isDigit = true :=
    List.all_eq_true.2 fun c hc => Json.mem_isDigits hdigits c (hpart c hc)
  simp [isDigits, hall, hne]

theorem isDigit_of_mem_zeros {count : Nat} {c : Char} (h : c ∈ List.replicate count '0') :
    c.isDigit = true := by
  rw [List.eq_of_mem_replicate h]
  rfl

/-- Whole digits do not start with a zero, and neither do some of them with more behind. -/
theorem isInteger_of_head {digits : List Char} (hdigits : isDigits digits = true)
    (hhead : digits.head? ≠ some '0') : isInteger digits = true := by
  simp [isInteger, hdigits, hhead]

/-- Zeros in front count for nothing. -/
theorem ofDigitChars_zeros (count : Nat) (digits : List Char) :
    Nat.ofDigitChars 10 (List.replicate count '0' ++ digits) 0 = Nat.ofDigitChars 10 digits 0 := by
  induction count with
  | zero => rfl
  | succ count ih => exact ih

/-- Each zero behind counts ten times. -/
theorem ofDigitChars_append_zeros (digits : List Char) (count : Nat) :
    Nat.ofDigitChars 10 (digits ++ List.replicate count '0') 0 =
      Nat.ofDigitChars 10 digits 0 * 10 ^ count := by
  have hzeros := ofDigitChars_zeros count []
  rw [List.append_nil] at hzeros
  rw [Nat.ofDigitChars_append, Nat.ofDigitChars_eq_ofDigitChars_zero, hzeros,
    List.length_replicate, Nat.mul_comm]
  rfl

/-! ## The two notations -/

theorem writes_positional (layout : Layout) (point : Int) {digits : List Char}
    (hdigits : isDigits digits = true)
    (hhead : digits.head? ≠ some '0' ∨ digits = ['0'] ∧ point = 1) :
    Writes (layout.positional digits point)
      (Nat.ofDigitChars 10 digits 0 * 10 ^ (point - digits.length)) := by
  have hne : digits ≠ [] := fun hnil => by
    rw [hnil] at hdigits
    cases hdigits
  by_cases hlow : point ≤ 0
  · have hzeros : isDigits (List.replicate (-point).toNat '0' ++ digits) = true := by
      cases hcount : (-point).toNat with
      | zero => exact hdigits
      | succ count =>
        have hfirst : isDigits (List.replicate (count + 1) '0') = true := by
          simp [isDigits, List.replicate_succ]
        exact isDigits_append hfirst (Json.mem_isDigits hdigits)
    refine .of_eq ?_ (show isInteger ['0'] = true from rfl) (.point hzeros) .none ?_
    · simp [positional, hlow]
    · have hvalue := ofDigitChars_zeros (1 + (-point).toNat) digits
      rw [List.replicate_add, List.append_assoc] at hvalue
      rw [show ['0'] = List.replicate 1 '0' from rfl, hvalue, List.length_append,
        List.length_replicate]
      congr 2
      omega
  · by_cases hhigh : digits.length ≤ point.toNat
    · obtain ⟨count, hcount⟩ : ∃ count : ℕ, point = digits.length + count :=
        ⟨point.toNat - digits.length, by omega⟩
      have hzeros : point.toNat - digits.length = count := by omega
      have hinteger : isInteger (digits ++ List.replicate count '0') = true := by
        rcases hhead with hhead | ⟨rfl, rfl⟩
        · refine isInteger_of_head (isDigits_append hdigits fun c => isDigit_of_mem_zeros) ?_
          rwa [List.head?_append, Option.or_of_isSome (List.isSome_head?.2 hne)]
        · obtain rfl : count = 0 := by simpa using hcount
          rfl
      have hexponent : point - digits.length = count := by omega
      cases hkeeps : layout.keepsFraction with
      | true =>
        refine .of_eq ?_ hinteger (.point (show isDigits ['0'] = true from rfl)) .none ?_
        · simp [positional, hlow, hhigh, hkeeps, hzeros]
        · rw [List.append_assoc, show ['0'] = List.replicate 1 '0' from rfl, ← List.replicate_add,
            ofDigitChars_append_zeros, cast_mul_pow, hexponent, List.length_replicate]
          congr 2
          omega
      | false =>
        refine .of_eq ?_ hinteger .none .none ?_
        · simp [positional, hlow, hhigh, hkeeps, hzeros]
        · rw [List.append_nil, ofDigitChars_append_zeros, cast_mul_pow, hexponent]
          simp
    · have hhead : digits.head? ≠ some '0' := by
        rcases hhead with hhead | ⟨rfl, rfl⟩
        · exact hhead
        · exact absurd (by decide) hhigh
      have hwhole : isInteger (digits.take point.toNat) = true := by
        have hcount : point.toNat ≠ 0 := by omega
        refine isInteger_of_head
          (isDigits_of_mem hdigits (fun c => List.mem_of_mem_take) ?_) ?_
        · simp [hne, hcount]
        · rwa [List.head?_take, if_neg hcount]
      have hrest : isDigits (digits.drop point.toNat) = true := by
        refine isDigits_of_mem hdigits (fun c => List.mem_of_mem_drop) fun hnil => ?_
        have hlength := List.drop_eq_nil_iff.1 hnil
        omega
      refine .of_eq ?_ hwhole (.point hrest) .none ?_
      · simp [positional, hlow, hhigh]
      · rw [List.take_append_drop, List.length_drop]
        congr 2
        omega

theorem writes_scientific (layout : Layout) {digits : List Char} (exponent : Int)
    (hdigits : isDigits digits = true) (hhead : digits.head? ≠ some '0') :
    Writes (layout.scientific digits exponent)
      (Nat.ofDigitChars 10 digits 0 * 10 ^ (exponent + 1 - digits.length)) := by
  have hne : digits ≠ [] := fun hnil => by
    rw [hnil] at hdigits
    cases hdigits
  have hwhole : isInteger (digits.take 1) = true := by
    refine isInteger_of_head (isDigits_of_mem hdigits (fun c => List.mem_of_mem_take) ?_) ?_
    · simp [hne]
    · rwa [List.head?_take, if_neg Nat.one_ne_zero]
  have hfraction : Fraction (if digits.length ≤ 1 then [] else '.' :: digits.drop 1)
      (digits.drop 1) := by
    by_cases hlength : digits.length ≤ 1
    · rw [if_pos hlength, List.drop_of_length_le hlength]
      exact .none
    · rw [if_neg hlength]
      refine .point (isDigits_of_mem hdigits (fun c => List.mem_of_mem_drop) fun hnil => ?_)
      exact hlength (List.drop_eq_nil_iff.1 hnil)
  have hpower : Power ('e' :: ((if exponent < 0 then ['-']
      else if layout.signsExponent then ['+'] else []) ++ Nat.toDigits 10 exponent.natAbs))
      exponent := by
    have hvalue : Nat.ofDigitChars 10 (Nat.toDigits 10 exponent.natAbs) 0 = exponent.natAbs :=
      Nat.ofDigitChars_toDigits (by decide) (by decide)
    by_cases hexponent : exponent < 0
    · rw [if_pos hexponent]
      convert Power.negative (Json.isDigits_toDigits exponent.natAbs) using 1
      omega
    · rw [if_neg hexponent]
      have hsign : (if layout.signsExponent then ['+'] else []) = [] ∨
          (if layout.signsExponent then ['+'] else []) = ['+'] := by
        cases layout.signsExponent with
        | true => exact .inr rfl
        | false => exact .inl rfl
      convert Power.positive hsign (Json.isDigits_toDigits exponent.natAbs) using 1
      omega
  have hlength : 0 < digits.length := List.length_pos_iff.2 hne
  refine .of_eq ?_ hwhole hfraction hpower ?_
  · simp [scientific]
  · rw [List.take_append_drop, List.length_drop]
    congr 2
    omega

theorem writes_magnitude (layout : Layout) (d : Decimal) :
    Writes (layout.magnitude d) d.value := by
  have hdigits := Json.isDigits_toDigits d.digits
  have hvalue : Nat.ofDigitChars 10 (Nat.toDigits 10 d.digits) 0 = d.digits :=
    Nat.ofDigitChars_toDigits (by decide) (by decide)
  by_cases hzero : d.digits = 0
  · have hmagnitude : layout.magnitude d = layout.positional (Nat.toDigits 10 d.digits) 1 := by
      simp [magnitude, hzero]
    have hfirst : Nat.toDigits 10 d.digits = ['0'] := by
      rw [hzero]
      rfl
    have hwrites := layout.writes_positional 1 hdigits (.inr ⟨hfirst, rfl⟩)
    rw [← hmagnitude, hvalue, hzero, Nat.cast_zero, zero_mul] at hwrites
    rwa [value, hzero, Nat.cast_zero, zero_mul]
  · have hhead := Json.head?_toDigits (Nat.pos_of_ne_zero hzero)
    have hpositional (point : Int) := layout.writes_positional point hdigits (.inl hhead)
    have hscientific (exponent : Int) := layout.writes_scientific exponent hdigits hhead
    rw [hvalue] at hpositional hscientific
    rw [magnitude, value, if_neg hzero]
    split_ifs
    · convert hpositional _ using 3
      omega
    · convert hscientific _ using 3
      omega

/-! ## Finite doubles -/

theorem toNat_unpackMantissa (value : Float) :
    (@unpackMantissa .binary64 value.toModel.toBits.toBitVec).toNat =
      value.toBits.toNat % Nat.pow 2 52 := by
  rw [unpackMantissa, BitVec.toNat_cast, BitVec.extractLsb_toNat, Nat.shiftRight_zero]
  rfl

theorem toNat_unpackExponent (value : Float) :
    (@unpackExponent .binary64 value.toModel.toBits.toBitVec).toNat =
      value.toBits.toNat / Nat.pow 2 52 % Nat.pow 2 11 := by
  rw [unpackExponent, BitVec.toNat_cast, BitVec.extractLsb_toNat, Nat.shiftRight_eq_div_pow]
  rfl

/-- The mantissa and the exponent of a double are those that its arithmetic goes by. -/
theorem ofBits_eq {value : Float} {sign : Sign} {mantissa : ℕ} {exponent : ℤ}
    {hmantissa : 0 < mantissa} (h : unpack .binary64 value.toModel.toBits.toBitVec =
      .finite sign mantissa exponent hmantissa) :
    (Binary.ofBits value.toBits).mantissa = mantissa ∧
      (Binary.ofBits value.toBits).exponent = exponent := by
  unfold Binary.ofBits
  rw [← toNat_unpackMantissa, ← toNat_unpackExponent]
  unfold unpack at h
  dsimp only at h ⊢
  by_cases hfull : @unpackExponent .binary64 value.toModel.toBits.toBitVec = -1#_
  · rw [if_pos hfull] at h
    by_cases hfraction : @unpackMantissa .binary64 value.toModel.toBits.toBitVec = 0#_
    · rw [if_pos hfraction] at h
      cases h
    · rw [if_neg hfraction] at h
      cases h
  · rw [if_neg hfull] at h
    by_cases hzero : @unpackExponent .binary64 value.toModel.toBits.toBitVec = 0#_
    · rw [if_pos hzero] at h
      by_cases hfraction : @unpackMantissa .binary64 value.toModel.toBits.toBitVec = 0#_
      · rw [dif_pos hfraction] at h
        cases h
      · rw [dif_neg hfraction] at h
        cases h
        rw [hzero]
        exact ⟨rfl, rfl⟩
    · rw [if_neg hzero] at h
      cases h
      have hscale : (@unpackExponent .binary64 value.toModel.toBits.toBitVec).toNat ≠ 0 :=
        fun hnat => hzero (BitVec.eq_of_toNat_eq hnat)
      rw [if_neg hscale]
      refine ⟨?_, rfl⟩
      rw [BitVec.toNat_append, ← Nat.shiftLeft_add_eq_or_of_lt (BitVec.isLt _), Nat.shiftLeft_eq,
        BitVec.toNat_one Nat.one_pos, Nat.one_mul]
      rfl

/-- The bits of a finite double between its sign and its fraction are not all set. -/
theorem scale_ne_of_isFinite {value : Float} (h : value.isFinite = true) :
    ¬ value.toBits.toNat / Nat.pow 2 52 % Nat.pow 2 11 = Nat.pow 2 11 - 1 := by
  intro hscale
  have hexponent : @unpackExponent .binary64 value.toModel.toBits.toBitVec = -1#_ :=
    BitVec.eq_of_toNat_eq ((toNat_unpackExponent value).trans hscale)
  have hnone : (unpack .binary64 value.toModel.toBits.toBitVec).isFinite = false := by
    unfold unpack
    dsimp only
    rw [if_pos hexponent]
    split <;> rfl
  cases hnone.symm.trans h

theorem write_of_isFinite (layout : Layout) {value : Float} (h : value.isFinite = true) :
    (layout.write value).toList =
      (if value.toBits.toNat / 2 ^ 63 = 1 then ['-'] else []) ++
        layout.magnitude (shortest layout.tie (.ofBits value.toBits)) := by
  have hfinite := scale_ne_of_isFinite h
  generalize hmagnitude : layout.magnitude (shortest layout.tie (.ofBits value.toBits)) = text
  unfold write
  dsimp only
  rw [if_neg hfinite, hmagnitude, String.toList_ofList, Nat.pow_eq]
  split
  · rfl
  · rfl

/-- A sign, and then the shortest decimal. -/
theorem write_spec (layout : Layout) {value : Float} (h : value.isFinite = true) :
    ∃ sign text d, (layout.write value).toList = sign ++ text ∧
      sign = (if value.toBits.toNat / 2 ^ 63 = 1 then ['-'] else []) ∧
      Writes text d.value ∧ IsShortest (.ofBits value.toBits) d :=
  ⟨_, _, _, layout.write_of_isFinite h, rfl, layout.writes_magnitude _,
    isShortest_shortest layout.tie (Binary.isDouble_ofBits _)⟩

theorem Writes.isNumber {sign text : List Char} {x : ℚ} (h : Writes text x)
    (hsign : sign = [] ∨ sign = ['-']) : isNumber (sign ++ text) = true := by
  cases h with
  | intro hinteger hfraction hpower =>
    exact Json.isNumber_append hsign hinteger hfraction.isFraction hpower.isExponent

/-- What is not finite has no digits, and is not written as a number. -/
theorem isNumber_write (layout : Layout) {value : Float} (h : value.isFinite = true) :
    isNumber (layout.write value).toList = true := by
  rw [layout.write_of_isFinite h]
  refine (layout.writes_magnitude _).isNumber ?_
  split
  · exact .inr rfl
  · exact .inl rfl

end Stepbook.Decimal.Layout
