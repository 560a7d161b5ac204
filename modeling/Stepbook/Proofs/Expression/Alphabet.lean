import Stepbook.Proofs.Expression.PatternRegex
import Stepbook.Proofs.Regex.Take

/-! # Alphabets of placeholders

The regular expression of a placeholder takes the pieces of its alphabet, longer ones first, although
it is written as a choice.

* `takes_int`, `takes_float`, `takes_word`, `takes_quotedText`: the four placeholders.
* `ParameterType.takes`: all of them.
-/

namespace Stepbook
set_option autoImplicit false

open Regex
open Expression (prefixes)
open Regex.CharSet (asciiDigit)

/-! ## Signs and digits -/

theorem contains_digit : asciiDigit.contains = Char.isDigit := by
  funext c
  simp [asciiDigit, CharSet.contains, Char.isDigit, Char.le_def, UInt32.le_iff_toNat_le]

def isSign (c : Char) : Bool :=
  c == '+' || c == '-'

theorem contains_sign : (CharSet.union (.single '+') (.single '-')).contains = isSign := by
  funext c
  rw [CharSet.contains, CharSet.contains_single, CharSet.contains_single, isSign,
    @Bool.beq_comm _ _ _ '+', @Bool.beq_comm _ _ _ '-']

theorem unsigned_cons (c : Char) (rest : List Char) :
    unsigned (c :: rest) = if isSign c then rest else c :: rest := by
  unfold unsigned
  split
  · next heq =>
    obtain ⟨rfl, rfl⟩ := List.cons.inj heq
    rfl
  · next heq =>
    obtain ⟨rfl, rfl⟩ := List.cons.inj heq
    rfl
  · next hplus hminus =>
    have hsign : isSign c = false := by
      rw [isSign, Bool.or_eq_false_iff, beq_eq_false_iff_ne, beq_eq_false_iff_ne]
      exact ⟨fun heq => hplus rest (by rw [heq]), fun heq => hminus rest (by rw [heq])⟩
    rw [hsign]
    rfl

/-- With a sign in front of it or not, if what is accepted has no sign itself. -/
theorem takes_signed {body : Regex} {accepts : List Char → Bool}
    (h : body.Takes fun text => (prefixes text).filter accepts) (hempty : accepts [] = false)
    (hsign : ∀ (c : Char) (rest : List Char), isSign c = true → accepts (c :: rest) = false) :
    (Regex.cat sign body).Takes fun text => (prefixes text).filter fun piece =>
      accepts (unsigned piece) := by
  refine Takes.congr ((takes_chars _).optional.cat h) fun text => ?_
  cases text with
  | nil => simp [followed, oneOfSet, prefixes, hempty, unsigned]
  | cons c rest =>
    rw [filter_prefixes_cons_of_nil (fun piece => accepts (unsigned piece)) hempty,
      followed, List.flatMap_append, oneOfSet, contains_sign]
    simp only [unsigned_cons]
    cases hc : isSign c with
    | false => simp [filter_prefixes_cons_of_nil accepts hempty]
    | true => simp [filter_prefixes_cons_of_nil accepts hempty, hsign c _ hc]

theorem takes_int : ParameterType.int.regex.Takes fun text =>
    (prefixes text).filter ParameterType.int.admits := by
  have hdigits := takes_plus asciiDigit
  unfold someOf at hdigits
  rw [contains_digit] at hdigits
  refine takes_signed hdigits rfl ?_
  intro c rest hc
  have hdigit : c.isDigit = false := by
    rw [isSign, Bool.or_eq_true, beq_iff_eq, beq_iff_eq] at hc
    rcases hc with rfl | rfl <;> rfl
  simp [hdigit]

/-! ## Decimal points -/

/-- Digits with at most one point among them. -/
def isPointed (piece : List Char) : Bool :=
  piece.all (fun c => c.isDigit || c == '.') && decide (piece.count '.' ≤ 1)

theorem isPointed_cons_digit {c : Char} (h : c.isDigit = true) (piece : List Char) :
    isPointed (c :: piece) = isPointed piece := by
  have hpoint : c ≠ '.' := by
    rintro rfl
    cases h
  simp [isPointed, h, hpoint]

theorem isPointed_cons_point (piece : List Char) :
    isPointed ('.' :: piece) = piece.all Char.isDigit := by
  have hcount : ('.' :: piece).count '.' ≤ 1 ↔ '.' ∉ piece := by
    rw [List.count_cons_self, ← List.count_eq_zero]
    omega
  rw [Bool.eq_iff_iff, isPointed]
  simp only [hcount, List.all_cons, beq_self_eq_true, Bool.or_true, Bool.true_and,
    Bool.and_eq_true, List.all_eq_true, Bool.or_eq_true, beq_iff_eq, decide_eq_true_eq]
  constructor
  · rintro ⟨hall, hnone⟩ c hc
    rcases hall c hc with hdigit | rfl
    · exact hdigit
    · exact absurd hc hnone
  · intro hall
    refine ⟨fun c hc => .inl (hall c hc), fun hpoint => ?_⟩
    cases hall '.' hpoint

theorem isPointed_cons_other {c : Char} (h : c.isDigit = false) (hpoint : c ≠ '.')
    (piece : List Char) : isPointed (c :: piece) = false := by
  simp [isPointed, h, hpoint]

/-- The choice that the pattern writes, behind digits, is the order of preference. -/
theorem digits_point_eq (text : List Char) :
    followed (anyOf asciiDigit) (followed (oneOfSet (.single '.')) (someOf asciiDigit)) text ++
        (followed (anyOf asciiDigit) (oneOfSet (.single '.')) text ++ anyOf asciiDigit text) =
      (prefixes text).filter isPointed := by
  induction text with
  | nil => rfl
  | cons c rest ih =>
    have hnil : [[]].filter isPointed = [[]] := rfl
    rw [followed_anyOf_cons, followed_anyOf_cons, anyOf_cons, followed_oneOfSet_cons,
      filter_prefixes_cons, hnil, oneOfSet, contains_digit, CharSet.contains_single]
    cases hdigit : c.isDigit with
    | true =>
      have hpoint : ('.' == c) = false := by
        rw [beq_eq_false_iff_ne]
        rintro rfl
        cases hdigit
      simp only [isPointed_cons_digit hdigit]
      rw [← ih, hpoint]
      simp
    | false =>
      cases hpoint : '.' == c with
      | true =>
        rw [beq_iff_eq] at hpoint
        subst hpoint
        simp only [isPointed_cons_point]
        have hall : (prefixes rest).filter (·.all Char.isDigit) = anyOf asciiDigit rest := by
          rw [anyOf, contains_digit]
        rw [hall, anyOf_eq asciiDigit rest]
        simp
      | false =>
        rw [beq_eq_false_iff_ne] at hpoint
        simp only [isPointed_cons_other hdigit hpoint.symm]
        simp

def isDecimal (piece : List Char) : Bool :=
  isPointed piece && piece.any Char.isDigit

theorem takes_decimal :
    (oneOf [concat [digits, literal '.', digits], concat [digits, literal '.'],
      concat [literal '.', digits], digits]).Takes fun text => (prefixes text).filter isDecimal := by
  have hdigits := takes_plus asciiDigit
  have hpoint := takes_chars (.single '.')
  have hchoice := (hdigits.cat (hpoint.cat hdigits)).alt
    ((hdigits.cat hpoint).alt ((hpoint.cat hdigits).alt hdigits))
  refine Takes.congr hchoice fun text => ?_
  cases text with
  | nil => rfl
  | cons c rest =>
    rw [followed_someOf_cons, followed_someOf_cons, followed_oneOfSet_cons, someOf_cons,
      contains_digit, CharSet.contains_single, filter_prefixes_cons_of_nil isDecimal rfl]
    cases hdigit : c.isDigit with
    | true =>
      have hpoint : ('.' == c) = false := by
        rw [beq_eq_false_iff_ne]
        rintro rfl
        cases hdigit
      have hdecimal : (fun piece => isDecimal (c :: piece)) = isPointed := by
        funext piece
        rw [isDecimal, isPointed_cons_digit hdigit, List.any_cons, hdigit, Bool.true_or,
          Bool.and_true]
      rw [hdecimal, hpoint, ← digits_point_eq]
      simp
    | false =>
      cases hpoint : '.' == c with
      | true =>
        rw [beq_iff_eq] at hpoint
        subst hpoint
        have hdecimal : (fun piece => isDecimal ('.' :: piece)) = fun piece =>
            !piece.isEmpty && piece.all Char.isDigit := by
          funext piece
          rw [isDecimal, isPointed_cons_point]
          cases piece with
          | nil => rfl
          | cons d piece => cases hd : d.isDigit <;> simp [hd, hdigit]
        rw [hdecimal, someOf, contains_digit]
        simp
      | false =>
        rw [beq_eq_false_iff_ne] at hpoint
        have hdecimal : (fun piece => isDecimal (c :: piece)) = fun _ => false := by
          funext piece
          rw [isDecimal, isPointed_cons_other hdigit hpoint.symm, Bool.false_and]
        rw [hdecimal]
        simp

theorem takes_float : ParameterType.float.regex.Takes fun text =>
    (prefixes text).filter ParameterType.float.admits := by
  have hsigned := takes_signed takes_decimal rfl fun c rest hc => ?_
  · exact hsigned
  · rw [isSign, Bool.or_eq_true, beq_iff_eq, beq_iff_eq] at hc
    rcases hc with rfl | rfl <;> exact congrArg (· && _) (isPointed_cons_other rfl (by decide) rest)

/-! ## Words and quoted texts -/

theorem takes_word : ParameterType.word.regex.Takes fun text =>
    (prefixes text).filter ParameterType.word.admits :=
  takes_plus (.compl (.property (.binary .blank)))

/-- Up to the quote, and with it. -/
def isClosed (quote : Char) (piece : List Char) : Bool :=
  piece.getLast? == some quote && !piece.dropLast.contains quote

theorem isClosed_cons_quote (quote : Char) (piece : List Char) :
    isClosed quote (quote :: piece) = piece.isEmpty := by
  cases piece with
  | nil => simp [isClosed]
  | cons d piece => simp [isClosed]

theorem isClosed_cons {quote c : Char} (h : quote ≠ c) (piece : List Char) :
    isClosed quote (c :: piece) = isClosed quote piece := by
  cases piece with
  | nil => simp [isClosed, h.symm]
  | cons d piece => simp [isClosed, h]

theorem followed_quote_eq (quote : Char) (text : List Char) :
    followed (anyOf (.compl (.single quote))) (oneOfSet (.single quote)) text =
      (prefixes text).filter (isClosed quote) := by
  induction text with
  | nil => rfl
  | cons c rest ih =>
    rw [followed_anyOf_cons, filter_prefixes_cons_of_nil (isClosed quote) rfl, oneOfSet,
      CharSet.contains, CharSet.contains_single]
    cases hquote : quote == c with
    | true =>
      rw [beq_iff_eq] at hquote
      subst hquote
      simp only [isClosed_cons_quote]
      have hempty : (prefixes rest).filter List.isEmpty = [[]] := by
        cases rest with
        | nil => rfl
        | cons d rest => simp [filter_prefixes_cons]
      rw [hempty]
      rfl
    | false =>
      rw [beq_eq_false_iff_ne] at hquote
      simp only [isClosed_cons hquote]
      rw [← ih]
      exact List.append_nil _

theorem takes_quoted (quote : Char) :
    (quoted quote).Takes fun text => (prefixes text).filter (isQuoted quote) := by
  have hquote := takes_chars (.single quote)
  have hall := hquote.cat ((takes_star (.compl (.single quote))).cat hquote)
  refine Takes.congr hall fun text => ?_
  cases text with
  | nil => rfl
  | cons c rest =>
    rw [followed_oneOfSet_cons, filter_prefixes_cons_of_nil (isQuoted quote) rfl,
      CharSet.contains_single, followed_quote_eq]
    cases hsame : quote == c with
    | true =>
      have hquoted : (fun piece => isQuoted quote (c :: piece)) = isClosed quote := by
        funext piece
        rw [isQuoted, Bool.beq_comm, hsame, Bool.true_and]
        rfl
      rw [hquoted]
      rfl
    | false =>
      have hquoted : (fun piece => isQuoted quote (c :: piece)) = fun _ => false := by
        funext piece
        rw [isQuoted, Bool.beq_comm, hsame, Bool.false_and, Bool.false_and]
      rw [hquoted]
      simp

theorem takes_string : ParameterType.string.regex.Takes fun text =>
    (prefixes text).filter ParameterType.string.admits := by
  refine Takes.congr ((takes_quoted '"').alt (takes_quoted '\'')) fun text => ?_
  have hadmits : ParameterType.string.admits = fun piece =>
      isQuoted '"' piece || isQuoted '\'' piece := rfl
  rw [hadmits]
  cases text with
  | nil => rfl
  | cons c rest =>
    rw [filter_prefixes_cons_of_nil _ rfl, filter_prefixes_cons_of_nil _ rfl,
      filter_prefixes_cons_of_nil _ rfl]
    cases hdouble : c == '"' with
    | true =>
      have hsingle : (c == '\'') = false := by
        rw [beq_iff_eq] at hdouble
        subst hdouble
        rfl
      simp [isQuoted, hsingle]
    | false => simp [isQuoted, hdouble]

/-- The regular expression of a placeholder takes the pieces of its alphabet, longer ones first. -/
theorem ParameterType.takes (type : ParameterType) :
    type.regex.Takes fun text => (prefixes text).filter type.admits := by
  cases type with
  | int => exact takes_int
  | float => exact takes_float
  | word => exact takes_word
  | string => exact takes_string

end Stepbook
