import Stepbook.Proofs.Source.Reach

/-! # Balanced brackets

The search for a closing bracket goes through gaps, literals and balanced tails, and changes its
depth by the brackets among them only.

* `Place.advance_append`: the place behind a text.
* `Crosses`: a text that the search goes through from one depth to another.
* `crosses_other`: one character, even in the middle of a word.
* `crosses_items`: a tail.
* `closing_arguments`: the closing bracket of a registration.
-/

namespace Stepbook.Source
set_option autoImplicit false

namespace Place

theorem advance_append (before text rest : List Char) :
    advance ⟨before, text ++ rest⟩ text.length = ⟨text.reverse ++ before, rest⟩ := by
  induction text generalizing before with
  | nil => rfl
  | cons c text ih =>
    rw [List.cons_append, List.length_cons, advance, ih, List.reverse_cons, List.append_assoc]
    rfl

theorem advance_eq (before rest : List Char) (count : Nat) :
    advance ⟨before, rest⟩ count = ⟨(rest.take count).reverse ++ before, rest.drop count⟩ := by
  induction count generalizing before rest with
  | zero => rw [advance]; rfl
  | succ count ih =>
    cases rest with
    | nil => rfl
    | cons c rest =>
      rw [advance, ih, List.take_succ_cons, List.drop_succ_cons, List.reverse_cons,
        List.append_assoc]
      rfl

theorem findings_append {before text rest : List Char} {found : List Finding} (hne : text ≠ [])
    (h : step ⟨before, text ++ rest⟩ = (found, text.length)) :
    findings ⟨before, text ++ rest⟩ = found ++ findings ⟨text.reverse ++ before, rest⟩ := by
  rw [findings, dif_neg (by simp [hne]), h]
  dsimp only
  rw [advance_append]

/-! ## One lexeme -/

section
variable {depth : Nat} {before text rest : List Char}

/-- A lexeme at the front of what is left, which is not empty. -/
def Starts (before text rest : List Char) (kind : Lexeme) : Prop :=
  text ≠ [] ∧ lexeme ⟨before, text ++ rest⟩ = (kind, text.length)

theorem closingFrom_skip {kind : Lexeme} (h : Starts before text rest kind)
    (hkind : kind = .comment ∨ kind = .literal ∨ kind = .word ∨ kind = .other) :
    closingFrom depth ⟨before, text ++ rest⟩ =
      (closingFrom depth ⟨text.reverse ++ before, rest⟩).map (· + text.length) := by
  have hne : (⟨before, text ++ rest⟩ : Place).rest ≠ [] := by
    simp [h.1]
  rw [closingFrom, dif_neg hne, h.2]
  simp only [advance_append]
  rcases hkind with rfl | rfl | rfl | rfl <;> rfl

theorem closingFrom_opening (h : Starts before text rest .opening) :
    closingFrom depth ⟨before, text ++ rest⟩ =
      (closingFrom (depth + 1) ⟨text.reverse ++ before, rest⟩).map (· + text.length) := by
  have hne : (⟨before, text ++ rest⟩ : Place).rest ≠ [] := by
    simp [h.1]
  rw [closingFrom, dif_neg hne, h.2]
  simp only [advance_append]

theorem closingFrom_closing (h : Starts before text rest .closing) :
    closingFrom (depth + 2) ⟨before, text ++ rest⟩ =
      (closingFrom (depth + 1) ⟨text.reverse ++ before, rest⟩).map (· + text.length) := by
  have hne : (⟨before, text ++ rest⟩ : Place).rest ≠ [] := by
    simp [h.1]
  rw [closingFrom, dif_neg hne, h.2]
  simp only [advance_append]

theorem closingFrom_last (h : Starts before text rest .closing) :
    closingFrom 1 ⟨before, text ++ rest⟩ = some text.length := by
  have hne : (⟨before, text ++ rest⟩ : Place).rest ≠ [] := by
    simp [h.1]
  rw [closingFrom, dif_neg hne, h.2]

end

end Place

open Place

/-! ## Texts that are gone through -/

theorem map_add_zero (length : Option Nat) : length.map (· + 0) = length := by
  cases length <;> rfl

theorem map_add_add (length : Option Nat) (first second : Nat) :
    (length.map (· + second)).map (· + first) = length.map (· + (first + second)) := by
  rw [Option.map_map]
  refine Option.map_congr fun count _ => ?_
  rw [Function.comp_apply]
  omega

/-- From one depth to another, wherever the text stands. -/
def Crosses (text : List Char) (depth next : Nat) : Prop :=
  ∀ before rest : List Char, closingFrom depth ⟨before, text ++ rest⟩ =
    (closingFrom next ⟨text.reverse ++ before, rest⟩).map (· + text.length)

theorem Crosses.nil (depth : Nat) : Crosses [] depth depth := by
  intro before rest
  exact (map_add_zero _).symm

theorem Crosses.append {first second : List Char} {depth next last : Nat}
    (hfirst : Crosses first depth next) (hsecond : Crosses second next last) :
    Crosses (first ++ second) depth last := by
  intro before rest
  rw [List.append_assoc, hfirst, hsecond, map_add_add, List.reverse_append, List.append_assoc,
    List.length_append]

theorem Crosses.flatMap {α : Type} {text : α → List Char} {depth : Nat} (parts : List α)
    (h : ∀ part ∈ parts, Crosses (text part) depth depth) :
    Crosses (parts.flatMap text) depth depth := by
  induction parts with
  | nil => exact Crosses.nil depth
  | cons part parts ih =>
    rw [List.flatMap_cons]
    exact (h part (List.mem_cons_self ..)).append
      (ih fun other hother => h other (List.mem_cons_of_mem _ hother))

/-! ## Characters -/

/-- What a character starts that is no quote and no slash. -/
theorem lexemeFrom_other {c : Char} (hquote : isQuote c = false) (hslash : c ≠ '/')
    (regexAllowed : Bool) (tail : List Char) :
    lexemeFrom regexAllowed c tail =
      if isWordStart c then (.word, (tail.takeWhile isWordPart).length + 1)
      else if c = '(' ∨ c = '[' ∨ c = '{' then (.opening, 1)
      else if c = ')' ∨ c = ']' ∨ c = '}' then (.closing, 1)
      else (.other, 1) := by
  rw [lexemeFrom, commentLength?_of_ne_slash hslash]
  simp only [hquote, Bool.false_eq_true, if_false, hslash, false_and]

theorem isWordStart_of_isWordPart {c : Char} (h : isWordStart c = true) : isWordPart c = true := by
  rw [isWordPart, h, Bool.true_or]

theorem ne_of_isWordPart {c : Char} (h : isWordPart c = true) :
    isQuote c = false ∧ c ∉ ['/', '(', '[', '{', ')', ']', '}'] := by
  refine ⟨?_, ?_⟩
  · cases hquote : isQuote c with
    | false => rfl
    | true =>
      rw [isQuote_iff] at hquote
      rcases hquote with rfl | rfl | rfl <;> cases h
  · intro hmem
    simp only [List.mem_cons, List.not_mem_nil, or_false] at hmem
    rcases hmem with rfl | rfl | rfl | rfl | rfl | rfl | rfl <;> cases h

theorem starts_of_lexemeFrom {c : Char} {tail : List Char} {kind : Lexeme} (before : List Char)
    (h : ∀ regexAllowed, lexemeFrom regexAllowed c tail = (kind, 1)) :
    Starts before [c] tail kind :=
  ⟨by simp, h _⟩

/-- A word is gone through as a whole. -/
theorem closingFrom_word {depth : Nat} {word rest : List Char}
    (hword : ∀ c ∈ word, isWordPart c = true) (hrest : rest.takeWhile isWordPart = [])
    (before : List Char) :
    closingFrom depth ⟨before, word ++ rest⟩ =
      (closingFrom depth ⟨word.reverse ++ before, rest⟩).map (· + word.length) := by
  induction word generalizing before with
  | nil => exact (map_add_zero _).symm
  | cons c word ih =>
    have htail : (word ++ rest).takeWhile isWordPart = word := by
      rw [List.takeWhile_append_of_pos fun d hd => hword d (List.mem_cons_of_mem _ hd), hrest,
        List.append_nil]
    obtain ⟨hquote, hne⟩ := ne_of_isWordPart (hword c (List.mem_cons_self ..))
    simp only [List.mem_cons, List.not_mem_nil, or_false, not_or] at hne
    have hlexeme := fun regexAllowed =>
      lexemeFrom_other hquote hne.1 regexAllowed (word ++ rest)
    cases hstart : isWordStart c with
    | true =>
      simp only [hstart, if_true, htail] at hlexeme
      exact closingFrom_skip ⟨by simp, hlexeme _⟩ (by simp)
    | false =>
      simp only [hstart, hne, Bool.false_eq_true, if_false, or_self] at hlexeme
      have hone : closingFrom depth ⟨before, [c] ++ (word ++ rest)⟩ = _ :=
        closingFrom_skip (starts_of_lexemeFrom before hlexeme) (by simp)
      rw [ih fun d hd => hword d (List.mem_cons_of_mem _ hd), map_add_add] at hone
      rw [List.reverse_cons, List.append_assoc, List.length_cons, Nat.add_comm]
      exact hone

theorem exists_word (text : List Char) :
    ∃ word rest, text = word ++ rest ∧ (∀ c ∈ word, isWordPart c = true) ∧
      rest.takeWhile isWordPart = [] := by
  induction text with
  | nil => exact ⟨[], [], rfl, by simp, rfl⟩
  | cons c text ih =>
    cases hc : isWordPart c with
    | false => exact ⟨[], c :: text, rfl, by simp, by rw [List.takeWhile_cons, hc]; rfl⟩
    | true =>
      obtain ⟨word, rest, rfl, hword, hrest⟩ := ih
      refine ⟨c :: word, rest, rfl, ?_, hrest⟩
      intro d hd
      rcases List.mem_cons.1 hd with rfl | hd
      · exact hc
      · exact hword d hd

/-- A single character of a word: from behind it the rest of the word is gone through, too. -/
theorem crosses_wordPart {c : Char} (h : isWordPart c = true) (depth : Nat) :
    Crosses [c] depth depth := by
  intro before text
  obtain ⟨word, rest, rfl, hword, hrest⟩ := exists_word text
  have hcons : ∀ d ∈ c :: word, isWordPart d = true := by
    intro d hd
    rcases List.mem_cons.1 hd with rfl | hd
    · exact h
    · exact hword d hd
  have hwhole := @closingFrom_word depth _ _ hcons hrest before
  have hlater := @closingFrom_word depth _ _ hword hrest (c :: before)
  rw [List.reverse_cons, List.append_assoc, List.length_cons, Nat.add_comm] at hwhole
  exact hwhole.trans ((map_add_add _ _ _).symm.trans (congrArg (·.map (· + 1)) hlater.symm))

/-- How deep brackets are nested behind a character that is no quote and no slash. -/
theorem crosses_other {c : Char} (hquote : isQuote c = false) (hslash : c ≠ '/')
    {depth next : Nat} (h : bracketLevel? depth c = some next) :
    Crosses [c] (depth + 1) (next + 1) := by
  have hlexeme := lexemeFrom_other hquote hslash
  unfold bracketLevel? at h
  by_cases hopening : c = '(' ∨ c = '[' ∨ c = '{'
  · rw [if_pos hopening] at h
    cases h
    have hstart : isWordStart c = false := by
      rcases hopening with rfl | rfl | rfl <;> rfl
    intro before rest
    refine closingFrom_opening (starts_of_lexemeFrom before fun regexAllowed => ?_)
    rw [hlexeme, hstart, if_neg Bool.false_ne_true, if_pos hopening]
  · rw [if_neg hopening] at h
    by_cases hclosing : c = ')' ∨ c = ']' ∨ c = '}'
    · rw [if_pos hclosing] at h
      have hstart : isWordStart c = false := by
        rcases hclosing with rfl | rfl | rfl <;> rfl
      cases depth with
      | zero => cases h
      | succ depth =>
        cases h
        intro before rest
        refine closingFrom_closing (starts_of_lexemeFrom before fun regexAllowed => ?_)
        rw [hlexeme, hstart, if_neg Bool.false_ne_true, if_neg hopening, if_pos hclosing]
    · rw [if_neg hclosing] at h
      cases h
      cases hpart : isWordPart c with
      | true => exact crosses_wordPart hpart _
      | false =>
        have hstart : isWordStart c = false := by
          rw [isWordPart, Bool.or_eq_false_iff] at hpart
          exact hpart.1
        intro before rest
        refine closingFrom_skip (starts_of_lexemeFrom before fun regexAllowed => ?_)
          (.inr (.inr (.inr rfl)))
        rw [hlexeme, hstart, if_neg Bool.false_ne_true, if_neg hopening, if_neg hclosing]

/-! ## Parts of a registration -/

theorem crosses_blank {c : Char} (h : Text.isAsciiBlank c = true) (depth : Nat) :
    Crosses [c] (depth + 1) (depth + 1) := by
  simp only [Text.isAsciiBlank, Bool.or_eq_true, beq_iff_eq] at h
  rcases h with (((rfl | rfl) | rfl) | rfl) | rfl <;>
    exact crosses_other rfl (by decide) rfl

theorem crosses_comment (comment : Comment) (depth : Nat) :
    Crosses comment.text (depth + 1) (depth + 1) := by
  intro before rest
  obtain ⟨core, after, htext, hafter, hlength⟩ := commentLength?_text comment rest
  rw [htext, List.append_assoc] at hlength
  have hne : core ≠ [] := by
    rintro rfl
    have hbound := two_le_of_commentLength? hlength
    exact absurd hbound.1 (by decide)
  have hstarts : Starts before core (after ++ rest) .comment := by
    obtain ⟨c, others, rfl⟩ := List.exists_cons_of_ne_nil hne
    refine ⟨hne, ?_⟩
    rw [List.cons_append] at hlength
    rw [lexeme, List.cons_append]
    dsimp only
    rw [lexemeFrom, hlength]
  have hcore := @closingFrom_skip (depth + 1) _ _ _ _ hstarts (.inl rfl)
  rw [htext, List.append_assoc, hcore]
  rcases hafter with rfl | rfl
  · rw [List.nil_append, List.append_nil]
  · have hblank : Crosses ['\n'] (depth + 1) (depth + 1) := crosses_blank rfl depth
    rw [hblank, map_add_add, List.reverse_append, List.append_assoc, List.length_append]

theorem crosses_quoted {quote : Char} (hquote : isQuote quote = true) {body : List Char}
    (h : Quotable quote body) (depth : Nat) : Crosses (quote :: body ++ [quote]) depth depth := by
  intro before rest
  refine closingFrom_skip ⟨by simp, ?_⟩ (.inr (.inl rfl))
  have hclosed := closedString_append h hquote rest
  have htext : quote :: body ++ [quote] ++ rest = quote :: (body ++ quote :: rest) := by
    simp
  rw [htext, lexeme]
  dsimp only
  rw [lexemeFrom, commentLength?_of_ne_slash (ne_slash_of_isQuote hquote)]
  simp [hquote, hclosed]

theorem crosses_items {items : List Item} {depth next : Nat}
    (h : Item.levels? depth items = some next) :
    Crosses (items.flatMap Item.text) (depth + 1) (next + 1) := by
  induction items generalizing depth with
  | nil =>
    cases h
    exact Crosses.nil _
  | cons item items ih =>
    rw [Item.levels?] at h
    cases hlevel : item.level? depth with
    | none =>
      rw [hlevel] at h
      cases h
    | some middle =>
      rw [hlevel] at h
      rw [List.flatMap_cons]
      refine Crosses.append ?_ (ih h)
      cases item with
      | quoted quote isQuote body quotable =>
        cases hlevel
        exact crosses_quoted isQuote quotable _
      | comment written =>
        cases hlevel
        exact crosses_comment written _
      | other c unquoted no_slash => exact crosses_other unquoted no_slash hlevel

theorem crosses_gaps (gaps : List Gap) (depth : Nat) :
    Crosses (gaps.flatMap Gap.text) (depth + 1) (depth + 1) := by
  refine Crosses.flatMap gaps fun gap _ => ?_
  cases gap with
  | blank c isBlank => exact crosses_blank isBlank depth
  | comment written => exact crosses_comment written depth

/-! ## Regular expressions -/

/-- Whether a slash starts a regular expression is told by the last character but for blanks. -/
theorem regexAllowed_last {blanks : List Char} (h : ∀ c ∈ blanks, Text.isAsciiBlank c = true)
    {c : Char} (hc : Text.isAsciiBlank c = false) (before rest : List Char) :
    regexAllowed ⟨blanks.reverse ++ c :: before, rest⟩ = regexAllowed ⟨[c], rest⟩ := by
  have hsame : (blanks.reverse ++ c :: before).find? (!Text.isAsciiBlank ·) =
      [c].find? (!Text.isAsciiBlank ·) := by
    rw [List.find?_append, List.find?_eq_none.2, Option.none_or, List.find?_cons, List.find?_cons,
      hc]
    · rfl
    · intro d hd
      rw [h d (List.mem_reverse.1 hd)]
      exact Bool.false_ne_true
  rw [regexAllowed, hsame]
  rfl

/-- Behind an opening bracket and blanks a slash starts a regular expression. -/
theorem regexAllowed_blanks {blanks : List Char}
    (h : ∀ c ∈ blanks, Text.isAsciiBlank c = true) (before rest : List Char) :
    regexAllowed ⟨blanks.reverse ++ '(' :: before, rest⟩ = true := by
  rw [regexAllowed_last h rfl]
  rfl

theorem isAsciiBlank_of_isBlank {gaps : List Gap} (h : ∀ gap ∈ gaps, gap.IsBlank) :
    ∀ c ∈ gaps.flatMap Gap.text, Text.isAsciiBlank c = true := by
  intro c hc
  obtain ⟨gap, hgap, hc⟩ := List.mem_flatMap.1 hc
  cases gap with
  | blank d isBlank =>
    rw [List.mem_singleton.1 hc]
    exact isBlank
  | comment written => exact absurd (h _ hgap) id

theorem regexAllowed_inside {gaps : List Gap} (h : ∀ gap ∈ gaps, gap.IsBlank)
    (before rest : List Char) :
    regexAllowed ⟨(gaps.flatMap Gap.text).reverse ++ '(' :: before, rest⟩ = true :=
  regexAllowed_blanks (isAsciiBlank_of_isBlank h) before rest

theorem closingFrom_literal {literal : Literal} {before rest : List Char}
    (h : literal.variant = .regex → regexAllowed ⟨before, literal.text ++ rest⟩ = true)
    (depth : Nat) :
    closingFrom depth ⟨before, literal.text ++ rest⟩ =
      (closingFrom depth ⟨literal.text.reverse ++ before, rest⟩).map (· + literal.text.length) := by
  cases literal with
  | quoted quote isQuote pattern =>
    exact crosses_quoted isQuote (quotable_escape isQuote pattern) depth before rest
  | regex pattern ne_nil no_star body =>
    have htext : (Literal.regex pattern ne_nil no_star body).text ++ rest =
        '/' :: (pattern ++ '/' :: rest) := by
      simp [Literal.text]
    have hallowed := h rfl
    have hcomment := commentLength?_regex ne_nil no_star body ('/' :: rest)
    refine closingFrom_skip ⟨by simp [Literal.text], ?_⟩ (.inr (.inl rfl))
    rw [htext] at hallowed ⊢
    rw [List.cons_append] at hcomment
    rw [lexeme]
    dsimp only
    rw [hallowed, lexemeFrom, hcomment]
    simp [closedRegex_append body, Literal.text, isQuote]

/-! ## Registrations -/

theorem closing_arguments (call : Registration) (before rest : List Char) :
    closing ⟨before, call.arguments ++ rest⟩ = some call.arguments.length := by
  have hopening : ∀ rest, Starts before ['('] rest .opening :=
    fun rest => ⟨by simp, rfl⟩
  have hgaps := crosses_gaps call.inside 0 ('(' :: before)
  have hliteral := @closingFrom_literal call.literal
  have htail := crosses_items call.balanced
  have hlast : ∀ before, Starts before [')'] rest .closing := fun before => ⟨by simp, rfl⟩
  have htext : call.arguments ++ rest = ['('] ++ (call.inside.flatMap Gap.text ++
      (call.literal.text ++ (call.tail.flatMap Item.text ++ ([')'] ++ rest)))) := by
    simp [Registration.arguments]
  have hallowed : ∀ rest, call.literal.variant = .regex →
      regexAllowed ⟨(call.inside.flatMap Gap.text).reverse ++ '(' :: before, rest⟩ = true :=
    fun rest hregex => regexAllowed_inside (call.inside_blank hregex) before rest
  rw [closing, htext, closingFrom_opening (hopening _), List.reverse_singleton,
    List.singleton_append, hgaps, hliteral (hallowed _), htail, closingFrom_last (hlast _),
    map_add_add, map_add_add, map_add_add, Option.map_some]
  simp only [Registration.arguments, List.length_cons, List.length_append, List.length_nil]
  congr 1
  omega

end Stepbook.Source
