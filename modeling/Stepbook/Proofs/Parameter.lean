import Stepbook.Proofs.Expression.Alphabet

/-! # Values of captured texts

What a placeholder captures stands for a value that can be told from the text alone.

* `Decimal.signedValue`, `Decimal.pointedValue`: the numbers that texts write.
* `ParameterType.meaning`: the value of a text of the alphabet of a placeholder.
* `ParameterType.Fits`: the text is no whole number outside of the 64 bits.
* `ParameterType.coerce_int`, `ParameterType.coerce_of_admits`: a text of the alphabet is coerced to its
  value if it fits.
-/

namespace Stepbook
set_option autoImplicit false

/-! ## Whole numbers -/

namespace Decimal

theorem digitsValue_eq (digits : List Char) : digitsValue digits = Nat.ofDigitChars 10 digits 0 :=
  rfl

/-- The number of a sign and digits, of any size. -/
def signedValue (text : List Char) : Int :=
  if text.head? = some '-' then -(Nat.ofDigitChars 10 (unsigned text) 0 : Int)
  else Nat.ofDigitChars 10 (unsigned text) 0

def IsInt64 (value : Int) : Prop :=
  minInt ≤ value ∧ value ≤ maxInt

instance (value : Int) : Decidable (IsInt64 value) :=
  inferInstanceAs (Decidable (_ ∧ _))

def signed (negative : Bool) (magnitude : Nat) : Int :=
  if negative then -(magnitude : Int) else magnitude

/-- The magnitude of digits that follow others. -/
def continued (magnitude : Nat) (digits : List Char) : Nat :=
  digits.foldl (fun value c => 10 * value + digitValue c) magnitude

theorem le_continued (magnitude : Nat) (digits : List Char) :
    magnitude ≤ continued magnitude digits := by
  induction digits generalizing magnitude with
  | nil => exact Nat.le_refl _
  | cons c digits ih =>
    have hnext : 10 * magnitude + digitValue c ≤ continued magnitude (c :: digits) :=
      ih (10 * magnitude + digitValue c)
    omega

theorem isInt64_signed_of_le {negative : Bool} {magnitude other : Nat}
    (hle : magnitude ≤ other) (h : IsInt64 (signed negative other)) :
    IsInt64 (signed negative magnitude) := by
  unfold IsInt64 minInt maxInt signed at h ⊢
  cases negative <;> simp only [if_true, Bool.false_eq_true, if_false] at h ⊢ <;> omega

/-- What reading digits comes to: their number, or on which side it leaves the range. -/
def bounded (negative : Bool) (magnitude : Nat) : Except IntFault Int :=
  if IsInt64 (signed negative magnitude) then .ok (signed negative magnitude)
  else .error (if negative then .tooSmall else .tooLarge)

theorem readDigits_eq {digits : List Char} (hdigits : ∀ c ∈ digits, c.isDigit = true)
    {negative : Bool} {magnitude : Nat} (h : IsInt64 (signed negative magnitude)) :
    readDigits negative (signed negative magnitude) digits =
      bounded negative (continued magnitude digits) := by
  induction digits generalizing magnitude with
  | nil =>
    have hsame : continued magnitude [] = magnitude := rfl
    rw [readDigits, hsame, bounded, if_pos h]
  | cons c digits ih =>
    have hnext : (if negative = true then 10 * signed negative magnitude - digitValue c
        else 10 * signed negative magnitude + digitValue c) =
          signed negative (10 * magnitude + digitValue c) := by
      cases negative <;> simp only [signed, if_true, Bool.false_eq_true, if_false] <;> omega
    have hcontinued : continued magnitude (c :: digits) =
        continued (10 * magnitude + digitValue c) digits := rfl
    rw [readDigits, if_pos (hdigits c (List.mem_cons_self ..)), hnext, hcontinued]
    by_cases hfits : IsInt64 (signed negative (10 * magnitude + digitValue c))
    · have hmax : ¬ maxInt < signed negative (10 * magnitude + digitValue c) := by
        have hle := hfits.2
        omega
      have hmin : ¬ signed negative (10 * magnitude + digitValue c) < minInt := by
        have hle := hfits.1
        omega
      dsimp only
      rw [if_neg hmax, if_neg hmin]
      exact ih (fun d hd => hdigits d (List.mem_cons_of_mem _ hd)) hfits
    · -- Once out of the range, further digits do not lead back into it.
      have hlater : ¬ IsInt64 (signed negative (continued (10 * magnitude + digitValue c) digits)) :=
        fun hint => hfits (isInt64_signed_of_le (le_continued _ _) hint)
      rw [bounded, if_neg hlater]
      unfold IsInt64 minInt maxInt signed at hfits
      unfold minInt maxInt signed
      cases negative with
      | true =>
        simp only [if_true] at hfits ⊢
        rw [if_neg (by omega), if_pos (by omega)]
      | false =>
        simp only [Bool.false_eq_true, if_false] at hfits ⊢
        rw [if_pos (by omega)]

theorem readInt_of_unsigned_ne_nil {text : List Char} (h : unsigned text ≠ []) :
    readInt text = readDigits (text.head? = some '-') 0 (unsigned text) := by
  cases text with
  | nil => exact absurd rfl h
  | cons c rest =>
    by_cases hplus : c = '+'
    · subst hplus
      cases rest with
      | nil => exact absurd rfl h
      | cons d rest => rfl
    · by_cases hminus : c = '-'
      · subst hminus
        cases rest with
        | nil => exact absurd rfl h
        | cons d rest => rfl
      · have hread : readInt (c :: rest) = readDigits false 0 (c :: rest) := by
          unfold readInt
          split <;> simp_all
        have hsign : isSign c = false := by
          simp [isSign, hplus, hminus]
        rw [hread, unsigned_cons, hsign]
        simp [hminus]

theorem readInt_eq {text : List Char} (h : ParameterType.int.admits text = true) :
    readInt text = bounded (text.head? = some '-') (digitsValue (unsigned text)) := by
  simp only [ParameterType.admits, Bool.and_eq_true, Bool.not_eq_true', List.isEmpty_eq_false_iff,
    List.all_eq_true] at h
  have hzero : ∀ negative, IsInt64 (signed negative 0) := by decide
  have hstart : ∀ negative, (0 : Int) = signed negative 0 := by decide
  rw [readInt_of_unsigned_ne_nil h.1, hstart (text.head? = some '-')]
  exact readDigits_eq h.2 (hzero _)

/-! ## Decimal numbers -/

/-- The double nearest to the number of a sign, digits and at most one point: all digits together
make a whole number, which the digits behind the point divide by a power of ten. -/
def pointedValue (text : List Char) : Float :=
  let digits := Nat.ofDigitChars 10 ((unsigned text).filter Char.isDigit) 0
  let fraction := ((unsigned text).dropWhile (· != '.')).drop 1
  let magnitude := Float.ofScientific digits true fraction.length
  if text.head? = some '-' then -magnitude else magnitude

theorem nearestFloat_neg (digits places : Nat) :
    nearestFloat digits (-places) = Float.ofScientific digits true places := by
  have hneg : ¬ 0 < -(places : Int) := by omega
  rw [nearestFloat, if_neg hneg, Int.neg_neg, Int.toNat_natCast]

/-- Digits alone, or digits around a point. -/
theorem pointed_cases {text : List Char} (hall : ∀ c ∈ text, c.isDigit = true ∨ c = '.')
    (hcount : text.count '.' ≤ 1) :
    (∀ c ∈ text, c.isDigit = true) ∨
      ∃ whole fraction, text = whole ++ '.' :: fraction ∧ (∀ c ∈ whole, c.isDigit = true) ∧
        ∀ c ∈ fraction, c.isDigit = true := by
  by_cases hpoint : '.' ∈ text
  · obtain ⟨whole, fraction, rfl⟩ := List.append_of_mem hpoint
    rw [List.count_append, List.count_cons_self] at hcount
    have hwhole : '.' ∉ whole := List.count_eq_zero.1 (by omega)
    have hfraction : '.' ∉ fraction := List.count_eq_zero.1 (by omega)
    refine .inr ⟨whole, fraction, rfl, fun c hc => ?_, fun c hc => ?_⟩
    · refine (hall c (List.mem_append_left _ hc)).resolve_right ?_
      rintro rfl
      exact hwhole hc
    · refine (hall c (List.mem_append_right _ (List.mem_cons_of_mem _ hc))).resolve_right ?_
      rintro rfl
      exact hfraction hc
  · refine .inl fun c hc => (hall c hc).resolve_right ?_
    rintro rfl
    exact hpoint hc

theorem takeWhile_digits {digits : List Char} (h : ∀ c ∈ digits, c.isDigit = true)
    (rest : List Char) (hrest : rest.head?.all (!·.isDigit)) :
    (digits ++ rest).takeWhile Char.isDigit = digits ∧
      (digits ++ rest).dropWhile Char.isDigit = rest := by
  rw [List.takeWhile_append_of_pos h, List.dropWhile_append_of_pos h]
  cases rest with
  | nil => simp
  | cons c rest =>
    have hc : c.isDigit = false := by simpa using hrest
    simp [hc]

theorem dropWhile_ne_point {digits : List Char} (h : ∀ c ∈ digits, c.isDigit = true)
    (rest : List Char) :
    (digits ++ rest).dropWhile (· != '.') = rest.dropWhile (· != '.') := by
  refine List.dropWhile_append_of_pos fun c hc => ?_
  rw [bne_iff_ne]
  rintro rfl
  cases h '.' hc

theorem readMagnitude_eq {text : List Char} (hall : ∀ c ∈ text, c.isDigit = true ∨ c = '.')
    (hcount : text.count '.' ≤ 1) (hdigit : ∃ c ∈ text, c.isDigit = true) :
    readMagnitude text = some (Float.ofScientific (Nat.ofDigitChars 10 (text.filter Char.isDigit) 0)
      true ((text.dropWhile (· != '.')).drop 1).length) := by
  rw [← nearestFloat_neg, ← digitsValue_eq]
  rcases pointed_cases hall hcount with hdigits | ⟨whole, fraction, rfl, hwhole, hfraction⟩
  · obtain ⟨htake, hdrop⟩ := takeWhile_digits hdigits [] rfl
    have hpoint := dropWhile_ne_point hdigits []
    rw [List.append_nil] at htake hdrop hpoint
    have hne : text ≠ [] := by
      obtain ⟨c, hc, -⟩ := hdigit
      exact List.ne_nil_of_mem hc
    unfold readMagnitude
    rw [htake, hdrop, hpoint, List.filter_eq_self.2 hdigits]
    simp [hne, readExponent]
  · obtain ⟨htake, hdrop⟩ := takeWhile_digits hwhole ('.' :: fraction) rfl
    obtain ⟨htakeLater, hdropLater⟩ := takeWhile_digits hfraction [] rfl
    rw [List.append_nil] at htakeLater hdropLater
    have hpoint := dropWhile_ne_point hwhole ('.' :: fraction)
    have hne : ¬ (whole = [] ∧ fraction = []) := by
      rintro ⟨rfl, rfl⟩
      obtain ⟨c, hc, hdigit⟩ := hdigit
      rw [List.nil_append, List.mem_singleton] at hc
      subst hc
      cases hdigit
    have hfilter : (whole ++ '.' :: fraction).filter Char.isDigit = whole ++ fraction := by
      rw [List.filter_append, List.filter_cons_of_neg (by decide), List.filter_eq_self.2 hwhole,
        List.filter_eq_self.2 hfraction]
    unfold readMagnitude
    rw [htake, hdrop, hpoint, hfilter]
    simp [htakeLater, hdropLater, hne, readExponent]

theorem toLower_of_isDigit_or {c : Char} (h : c.isDigit = true ∨ c = '.') : c.toLower = c := by
  rcases h with h | rfl
  · have hrange : ¬ (c.val ≥ 'A'.val ∧ c.val ≤ 'Z'.val) := by
      simp only [Char.isDigit, Bool.and_eq_true, decide_eq_true_eq, ge_iff_le,
        UInt32.le_iff_toNat_le] at h ⊢
      have hnine : '9'.val.toNat = 57 := rfl
      have hA : 'A'.val.toNat = 65 := rfl
      have h57 : (57 : UInt32).toNat = 57 := rfl
      omega
    unfold Char.toLower
    rw [dif_neg hrange]
  · rfl

theorem readNonFinite_eq_none {c : Char} (h : c.isDigit = true ∨ c = '.') (rest : List Char) :
    readNonFinite (c :: rest) = none := by
  have hlower : Text.lower (c :: rest) = c :: Text.lower rest := by
    rw [Text.lower, List.map_cons, toLower_of_isDigit_or h]
    rfl
  have hi : c ≠ 'i' := by
    rintro rfl
    revert h
    decide
  have hn : c ≠ 'n' := by
    rintro rfl
    revert h
    decide
  have hinf : "inf".toList = ['i', 'n', 'f'] := rfl
  have hinfinity : "infinity".toList = ['i', 'n', 'f', 'i', 'n', 'i', 't', 'y'] := rfl
  have hnan : "nan".toList = ['n', 'a', 'n'] := rfl
  unfold readNonFinite
  rw [hlower, hinf, hinfinity, hnan]
  simp [hi, hn]

theorem readFloat_eq {text : List Char} (h : ParameterType.float.admits text = true) :
    readFloat text = .ok (pointedValue text) := by
  simp only [ParameterType.admits, Bool.and_eq_true, List.all_eq_true, Bool.or_eq_true, beq_iff_eq,
    decide_eq_true_eq, List.any_eq_true] at h
  obtain ⟨⟨hall, hcount⟩, hdigit⟩ := h
  have hmagnitude := readMagnitude_eq hall hcount hdigit
  have hunsigned : readUnsigned (unsigned text) = readMagnitude (unsigned text) := by
    obtain ⟨first, rest, hcons⟩ := List.exists_cons_of_ne_nil
      (List.ne_nil_of_mem hdigit.choose_spec.1)
    rw [hcons] at hall ⊢
    rw [readUnsigned, readNonFinite_eq_none (hall first (List.mem_cons_self ..)), Option.none_or]
  cases text with
  | nil =>
    obtain ⟨c, hc, -⟩ := hdigit
    cases hc
  | cons c rest =>
    have hsign : (if c == '-' || c == '+' then readUnsigned rest else readUnsigned (c :: rest)) =
        readUnsigned (unsigned (c :: rest)) := by
      rw [unsigned_cons, isSign, Bool.or_comm]
      exact (apply_ite readUnsigned _ rest (c :: rest)).symm
    rw [readFloat, hsign, hunsigned, hmagnitude, pointedValue]
    simp

end Decimal

/-! ## Quoted texts -/

theorem isQuoted_iff {quote : Char} {text : List Char} :
    isQuoted quote text = true ↔ ∃ body, text = quote :: body ++ [quote] ∧ quote ∉ body := by
  cases text with
  | nil => simp [isQuoted]
  | cons first rest =>
    simp only [isQuoted, Bool.and_eq_true, beq_iff_eq, Bool.not_eq_true', List.contains_eq_mem,
      decide_eq_false_iff_not, List.cons_append, List.cons.injEq]
    constructor
    · rintro ⟨⟨rfl, hlast⟩, hbody⟩
      exact ⟨rest.dropLast, ⟨rfl, (List.dropLast_append_getLast? _ hlast).symm⟩, hbody⟩
    · rintro ⟨body, ⟨rfl, rfl⟩, hbody⟩
      simp [hbody]

theorem unquoted?_quoted (quote : Char) (body : List Char) :
    unquoted? quote (quote :: body ++ [quote]) = some body := by
  simp [unquoted?]

theorem stripQuotes_eq {text : List Char} (h : ParameterType.string.admits text = true) :
    stripQuotes text = text.tail.dropLast := by
  rw [ParameterType.admits, Bool.or_eq_true, isQuoted_iff, isQuoted_iff] at h
  rcases h with ⟨body, rfl, -⟩ | ⟨body, rfl, -⟩
  · rw [stripQuotes, unquoted?_quoted]
    simp
  · have hdouble : unquoted? '"' ('\'' :: body ++ ['\'']) = none := by
      simp [unquoted?]
    rw [stripQuotes, unquoted?_quoted, hdouble]
    simp

/-! ## Values -/

namespace ParameterType

/-- The value of a text; quoted texts stand for what is between their first and last characters. -/
def meaning (type : ParameterType) (text : List Char) : Value :=
  match type with
  | .int => .int (Decimal.signedValue text)
  | .float => .float (Decimal.pointedValue text)
  | .word => .text (String.ofList text)
  | .string => .text (String.ofList text.tail.dropLast)

def Fits (type : ParameterType) (text : List Char) : Prop :=
  type = .int → Decimal.IsInt64 (Decimal.signedValue text)

instance (type : ParameterType) (text : List Char) : Decidable (type.Fits text) :=
  inferInstanceAs (Decidable (_ → _))

/-- A whole number out of range is too small with a minus sign, and else too large. -/
def outOfRange (text : List Char) : CoercionError where
  parameter := .int
  value := String.ofList text
  fault := .int (if text.head? = some '-' then .tooSmall else .tooLarge)

theorem coerce_int {text : List Char} (h : ParameterType.int.admits text = true) :
    ParameterType.int.coerce text =
      if Decimal.IsInt64 (Decimal.signedValue text) then .ok (.int (Decimal.signedValue text))
      else .error (outOfRange text) := by
  have hvalue : Decimal.signed (text.head? = some '-') (Decimal.digitsValue (unsigned text)) =
      Decimal.signedValue text := by
    simp [Decimal.signed, Decimal.signedValue, Decimal.digitsValue_eq]
  rw [coerce, Decimal.readInt_eq h, Decimal.bounded, hvalue]
  by_cases hrange : Decimal.IsInt64 (Decimal.signedValue text)
  · rw [if_pos hrange, if_pos hrange]
  · rw [if_neg hrange, if_neg hrange, outOfRange]
    simp only [decide_eq_true_eq]

theorem coerce_of_admits {type : ParameterType} {text : List Char}
    (hadmits : type.admits text = true) (hfits : type.Fits text) :
    type.coerce text = .ok (type.meaning text) := by
  cases type with
  | int =>
    rw [coerce_int hadmits, if_pos (hfits rfl)]
    rfl
  | float =>
    rw [coerce, Decimal.readFloat_eq hadmits]
    rfl
  | word => rfl
  | string =>
    rw [coerce, stripQuotes_eq hadmits]
    rfl

end ParameterType

end Stepbook
