import Stepbook.Proofs.Expression.Tokens
import Stepbook.Proofs.Parameter

/-! # Texts between blanks

Where a text without blanks, or a piece of a placeholder, stands before a blank or at the end, there
is one way only to take it from a text.

* `NoBlank`, `BlankFirst`: texts without blanks, and what may follow them.
* `noBlank_of_admits`: the pieces of placeholders hold no blanks, unless they are quoted.
* `noBlank_unique`, `piece_unique`: where a text without blanks ends, and where a piece does.
-/

namespace Stepbook
set_option autoImplicit false

namespace Expression

/-! ## Texts without blanks -/

def NoBlank (text : List Char) : Prop :=
  ∀ c ∈ text, Text.isBlank c = false

instance (text : List Char) : Decidable (NoBlank text) :=
  decidable_of_iff (text.all fun c => !Text.isBlank c) (by simp [NoBlank])

/-- What is left of a text starts with a blank, if it is not empty. -/
def BlankFirst (rest : List Char) : Prop :=
  ∀ c ∈ rest.head?, Text.isBlank c = true

theorem AreBlanks.blankFirst {chars : List Char} (h : AreBlanks chars) (rest : List Char) :
    BlankFirst (chars ++ rest) := by
  obtain ⟨c, others, rfl⟩ := List.exists_cons_of_ne_nil h.1
  intro d hd
  obtain rfl : c = d := by simpa using hd
  exact h.2 c (List.mem_cons_self ..)

theorem takeWhile_noBlank {text rest : List Char} (h : NoBlank text) (hrest : BlankFirst rest) :
    (text ++ rest).takeWhile (!Text.isBlank ·) = text := by
  have hall : ∀ c ∈ text, (!Text.isBlank c) = true := fun c hc => by rw [h c hc]; rfl
  rw [List.takeWhile_append_of_pos hall]
  cases rest with
  | nil => exact List.append_nil _
  | cons c rest =>
    have hc : Text.isBlank c = true := hrest c rfl
    rw [List.takeWhile_cons, hc]
    exact List.append_nil _

/-- Two texts without blanks that are followed by blanks, or by nothing, are the same. -/
theorem noBlank_unique {first second rest other : List Char} (hfirst : NoBlank first)
    (hsecond : NoBlank second) (hrest : BlankFirst rest) (hother : BlankFirst other)
    (h : first ++ rest = second ++ other) : first = second := by
  rw [← takeWhile_noBlank hfirst hrest, h, takeWhile_noBlank hsecond hother]

theorem isBlank_of_isDigit {c : Char} (h : c.isDigit = true) : Text.isBlank c = false := by
  simp only [Char.isDigit, Bool.and_eq_true, decide_eq_true_eq, ge_iff_le,
    UInt32.le_iff_toNat_le] at h
  have hlow : '0'.val.toNat = 48 := rfl
  have hhigh : '9'.val.toNat = 57 := rfl
  have hnat : c.val.toNat = c.toNat := rfl
  simp only [Text.isBlank, Bool.or_eq_false_iff, Bool.and_eq_false_iff, beq_eq_false_iff_ne,
    decide_eq_false_iff_not]
  omega

theorem noBlank_of_unsigned {piece : List Char} (h : NoBlank (unsigned piece)) :
    NoBlank piece := by
  cases piece with
  | nil => exact h
  | cons c rest =>
    rw [unsigned_cons] at h
    split at h
    · next hsign =>
      refine List.forall_mem_cons.2 ⟨?_, h⟩
      rw [isSign, Bool.or_eq_true, beq_iff_eq, beq_iff_eq] at hsign
      rcases hsign with rfl | rfl <;> rfl
    · exact h

/-- Only quoted texts hold blanks. -/
theorem noBlank_of_admits {type : ParameterType} (htype : type ≠ .string) {piece : List Char}
    (h : type.admits piece = true) : NoBlank piece := by
  cases type with
  | int =>
    simp only [ParameterType.admits, Bool.and_eq_true, List.all_eq_true] at h
    exact noBlank_of_unsigned fun c hc => isBlank_of_isDigit (h.2 c hc)
  | float =>
    simp only [ParameterType.admits, Bool.and_eq_true, List.all_eq_true, Bool.or_eq_true,
      beq_iff_eq] at h
    refine noBlank_of_unsigned fun c hc => ?_
    rcases h.1.1 c hc with hdigit | rfl
    · exact isBlank_of_isDigit hdigit
    · rfl
  | word =>
    simp only [ParameterType.admits, Bool.and_eq_true, List.all_eq_true] at h
    exact fun c hc => by simpa using h.2 c hc
  | string => exact absurd rfl htype

theorem takeWhile_ne {quote : Char} {body : List Char} (h : quote ∉ body) (rest : List Char) :
    (body ++ quote :: rest).takeWhile (· != quote) = body := by
  have hall : ∀ c ∈ body, (c != quote) = true := by
    intro c hc
    rw [bne_iff_ne]
    rintro rfl
    exact h hc
  rw [List.takeWhile_append_of_pos hall]
  simp

theorem quoted_unique {first second rest other : List Char}
    (hfirst : ParameterType.string.admits first = true)
    (hsecond : ParameterType.string.admits second = true)
    (h : first ++ rest = second ++ other) : first = second := by
  have hquoted : ∀ {piece : List Char}, ParameterType.string.admits piece = true →
      ∃ quote body, piece = quote :: body ++ [quote] ∧ quote ∉ body := by
    intro piece hpiece
    rw [ParameterType.admits, Bool.or_eq_true, isQuoted_iff, isQuoted_iff] at hpiece
    rcases hpiece with hdouble | hsingle
    · exact ⟨'"', hdouble⟩
    · exact ⟨'\'', hsingle⟩
  obtain ⟨quote, body, rfl, hbody⟩ := hquoted hfirst
  obtain ⟨quote, otherBody, rfl, hotherBody⟩ := hquoted hsecond
  simp only [List.cons_append, List.append_assoc, List.nil_append, List.cons.injEq] at h
  obtain ⟨rfl, h⟩ := h
  obtain rfl : body = otherBody := by
    rw [← takeWhile_ne hbody rest, h, takeWhile_ne hotherBody other]
  rfl

theorem piece_unique {type : ParameterType} {first second rest other : List Char}
    (hfirst : type.admits first = true) (hsecond : type.admits second = true)
    (hrest : BlankFirst rest) (hother : BlankFirst other)
    (h : first ++ rest = second ++ other) : first = second := by
  by_cases htype : type = .string
  · subst htype
    exact quoted_unique hfirst hsecond h
  · exact noBlank_unique (noBlank_of_admits htype hfirst) (noBlank_of_admits htype hsecond) hrest
      hother h

end Expression

end Stepbook
