import Stepbook.Proofs.Source.Script

/-! # How far literals and gaps reach

Whatever follows a written literal, comment or gap, reading it ends where it was written to end.

* `closedString_append`, `closedRegex_append`: literals.
* `unescape_escape`: what a string stands for.
* `commentLength?_text`, `triviaLength_append`: comments and gaps.
-/

namespace Stepbook.Source
set_option autoImplicit false

/-! ## Strings -/

theorem isQuote_iff {c : Char} : isQuote c = true ↔ c = '"' ∨ c = '\'' ∨ c = '`' := by
  simp only [isQuote, Bool.or_eq_true, beq_iff_eq, or_assoc]

theorem closedString_cons {quote c : Char} (h : c ≠ '\\') (rest : List Char) :
    closedString quote (c :: rest) =
      if c = quote then some 1
      else if c = '\n' ∧ quote ≠ '`' then none
      else (closedString quote rest).map (· + 1) := by
  rw [closedString]
  · exact fun heq _ => h heq
  · exact fun _ _ heq _ => h heq

theorem closedString_append {quote : Char} {body : List Char} (h : Quotable quote body)
    (hquote : isQuote quote = true) (rest : List Char) :
    closedString quote (body ++ quote :: rest) = some (body.length + 1) := by
  have hne : quote ≠ '\\' := by
    rintro rfl
    cases hquote
  induction h with
  | nil => rw [List.nil_append, closedString_cons hne, if_pos rfl, List.length_nil]
  | escaped c others ih =>
    rw [List.cons_append, List.cons_append, closedString, ih]
    rfl
  | plain unescaped unquoted oneLine others ih =>
    have hline : ∀ {c : Char}, (c = '\n' → quote = '`') → ¬ (c = '\n' ∧ quote ≠ '`') :=
      fun h both => both.2 (h both.1)
    rw [List.cons_append, closedString_cons unescaped, if_neg unquoted, if_neg (hline oneLine), ih]
    rfl

/-- A character is written with a backslash before it or before the letter for it, or as it is. -/
theorem escapeChar_cases {quote : Char} (hquote : isQuote quote = true) (c : Char) :
    (∃ d, escapeChar quote c = ['\\', d] ∧ d ≠ '$' ∧
        ∀ rest, unescape ('\\' :: d :: rest) = c :: unescape rest) ∨
      (escapeChar quote c = [c] ∧ c ≠ '\\' ∧ c ≠ quote ∧ c ≠ '\n' ∧ (quote = '`' → c ≠ '{')) := by
  unfold escapeChar
  by_cases hmeta : c = '\\' ∨ c = quote
  · rw [if_pos hmeta]
    rw [isQuote_iff] at hquote
    refine .inl ⟨c, rfl, ?_⟩
    rcases hmeta with rfl | rfl
    · exact ⟨by decide, fun _ => rfl⟩
    · rcases hquote with rfl | rfl | rfl <;> exact ⟨by decide, fun _ => rfl⟩
  · rw [if_neg hmeta]
    by_cases hline : c = '\n'
    · subst hline
      exact .inl ⟨'n', rfl, by decide, fun _ => rfl⟩
    · rw [if_neg hline]
      by_cases hreturn : c = '\r'
      · subst hreturn
        exact .inl ⟨'r', rfl, by decide, fun _ => rfl⟩
      · rw [if_neg hreturn]
        by_cases htab : c = '\t'
        · subst htab
          exact .inl ⟨'t', rfl, by decide, fun _ => rfl⟩
        · rw [if_neg htab]
          by_cases hbrace : c = '{' ∧ quote = '`'
          · rw [if_pos hbrace]
            obtain ⟨rfl, _⟩ := hbrace
            exact .inl ⟨'{', rfl, by decide, fun _ => rfl⟩
          · rw [if_neg hbrace]
            refine .inr ⟨rfl, fun heq => hmeta (.inl heq), fun heq => hmeta (.inr heq), hline, ?_⟩
            exact fun htemplate heq => hbrace ⟨heq, htemplate⟩

theorem escape_cons (quote c : Char) (text : List Char) :
    escape quote (c :: text) = escapeChar quote c ++ escape quote text :=
  List.flatMap_cons

section
variable {quote : Char} (hquote : isQuote quote = true) (text : List Char)
include hquote

theorem quotable_escape : Quotable quote (escape quote text) := by
  induction text with
  | nil => exact .nil
  | cons c text ih =>
    rw [escape_cons]
    rcases escapeChar_cases hquote c with ⟨d, hescape, _⟩ | ⟨hescape, hslash, hother, hline, _⟩
    · rw [hescape]
      exact .escaped d ih
    · rw [hescape]
      exact .plain hslash hother (fun heq => absurd heq hline) ih

theorem unescape_escape : unescape (escape quote text) = text := by
  induction text with
  | nil => rfl
  | cons c text ih =>
    rw [escape_cons]
    rcases escapeChar_cases hquote c with ⟨d, hescape, _, hback⟩ | ⟨hescape, hslash, _⟩
    · rw [hescape]
      exact (hback _).trans (congrArg (c :: ·) ih)
    · rw [hescape, List.singleton_append, unescape]
      · exact congrArg (c :: ·) ih
      · exact fun heq _ => hslash heq
      · exact fun _ _ heq _ => hslash heq

end

theorem hasInterpolation_cons {c : Char} {rest : List Char} (h : c = '$' → rest.head? ≠ some '{') :
    hasInterpolation (c :: rest) = hasInterpolation rest := by
  rw [hasInterpolation]
  rintro more rfl rfl
  exact h rfl rfl

theorem isQuote_template : isQuote '`' = true := rfl

theorem head?_escape_template (text : List Char) : (escape '`' text).head? ≠ some '{' := by
  cases text with
  | nil => simp [escape]
  | cons c text =>
    rw [escape_cons]
    rcases escapeChar_cases isQuote_template c with ⟨d, hescape, _⟩ | ⟨hescape, _, _, _, hbrace⟩
    · rw [hescape]
      simp
    · rw [hescape]
      simpa using hbrace rfl

/-- A string in a template computes nothing. -/
theorem hasInterpolation_escape (text : List Char) : hasInterpolation (escape '`' text) = false := by
  induction text with
  | nil => rfl
  | cons c text ih =>
    have hrest := head?_escape_template text
    rw [escape_cons]
    rcases escapeChar_cases isQuote_template c with ⟨d, hescape, hdollar, _⟩ | ⟨hescape, _⟩
    · rw [hescape, List.cons_append, List.cons_append, List.nil_append,
        hasInterpolation_cons (by simp), hasInterpolation_cons fun heq => absurd heq hdollar]
      exact ih
    · rw [hescape, List.singleton_append, hasInterpolation_cons fun _ => hrest]
      exact ih

/-! ## Regular expressions -/

theorem closedRegex_cons {inClass : Bool} {c : Char} (h : c ≠ '\\') (rest : List Char) :
    closedRegex inClass (c :: rest) =
      if c = '\n' then none
      else if c = '[' then (closedRegex true rest).map (· + 1)
      else if c = ']' then (closedRegex false rest).map (· + 1)
      else if c = '/' ∧ inClass = false then some 1
      else (closedRegex inClass rest).map (· + 1) := by
  rw [closedRegex]
  · exact fun heq _ => h heq
  · exact fun _ _ heq _ => h heq

theorem closedRegex_append {inClass : Bool} {body : List Char} (h : RegexBody inClass body)
    (rest : List Char) : closedRegex inClass (body ++ '/' :: rest) = some (body.length + 1) := by
  induction h with
  | nil => rfl
  | escaped oneLine others ih =>
    rw [List.cons_append, List.cons_append, closedRegex, ih]
    rfl
  | opening others ih =>
    rw [List.cons_append, closedRegex_cons (by decide), ih]
    rfl
  | closing others ih =>
    rw [List.cons_append, closedRegex_cons (by decide), ih]
    rfl
  | slash others ih =>
    rw [List.cons_append, closedRegex_cons (by decide), ih]
    rfl
  | plain isPlain others ih =>
    simp only [List.mem_cons, List.not_mem_nil, or_false, not_or] at isPlain
    obtain ⟨hslash, hline, hopening, hclosing, hend⟩ := isPlain
    rw [List.cons_append, closedRegex_cons hslash, if_neg hline, if_neg hopening, if_neg hclosing,
      if_neg fun both => hend both.1, ih]
    rfl

/-! ## Comments and gaps -/

theorem lineLength_append {body : List Char} (h : '\n' ∉ body) (rest : List Char) :
    lineLength (body ++ '\n' :: rest) = body.length := by
  induction body with
  | nil => rfl
  | cons c body ih =>
    rw [List.mem_cons, not_or] at h
    have hc : (c != '\n') = true := bne_iff_ne.2 fun heq => h.1 heq.symm
    rw [lineLength, List.cons_append, List.takeWhile_cons, if_pos hc, List.length_cons,
      List.length_cons]
    exact congrArg (· + 1) (ih h.2)

theorem blockLength_append {body : List Char} (h : ¬ ['*', '/'] <:+: body) (rest : List Char) :
    blockLength (body ++ '*' :: '/' :: rest) = body.length + 2 := by
  induction body with
  | nil => rfl
  | cons c body ih =>
    have hbody : ¬ ['*', '/'] <:+: body := fun hin => h (hin.trans (List.suffix_cons c body).isInfix)
    rw [List.cons_append, blockLength, ih hbody, List.length_cons]
    rintro more rfl heq
    cases body with
    | nil => cases heq
    | cons d body =>
      obtain ⟨rfl, _⟩ := List.cons.inj heq
      exact h ⟨[], body, rfl⟩

/-- The end of a line is not part of the comment before it. -/
theorem commentLength?_text (comment : Comment) (rest : List Char) :
    ∃ core after, comment.text = core ++ after ∧ (after = [] ∨ after = ['\n']) ∧
      commentLength? (comment.text ++ rest) = some core.length := by
  cases comment with
  | line body oneLine =>
    refine ⟨'/' :: '/' :: body, ['\n'], rfl, .inr rfl, ?_⟩
    have htext : (Comment.line body oneLine).text ++ rest =
        '/' :: '/' :: (body ++ '\n' :: rest) := by
      simp [Comment.text]
    rw [htext, commentLength?, lineLength_append oneLine]
    rfl
  | block body unclosed =>
    refine ⟨'/' :: '*' :: body ++ ['*', '/'], [], (List.append_nil _).symm, .inl rfl, ?_⟩
    have htext : (Comment.block body unclosed).text ++ rest =
        '/' :: '*' :: (body ++ '*' :: '/' :: rest) := by
      simp [Comment.text]
    rw [htext, commentLength?, blockLength_append unclosed]
    simp

theorem commentLength?_of_ne_slash {c : Char} (h : c ≠ '/') (rest : List Char) :
    commentLength? (c :: rest) = none := by
  unfold commentLength?
  split
  · next heq => exact absurd (List.cons.inj heq).1 h
  · next heq => exact absurd (List.cons.inj heq).1 h
  · rfl

theorem triviaLength_of_comment {rest : List Char} {length : Nat}
    (h : commentLength? rest = some length) :
    triviaLength rest = length + triviaLength (rest.drop length) := by
  rw [triviaLength]
  split
  · next other heq =>
    rw [h, Option.some.injEq] at heq
    rw [heq]
  · next heq =>
    rw [h] at heq
    cases heq

theorem triviaLength_of_blank {c : Char} (h : Text.isAsciiBlank c = true) (rest : List Char) :
    triviaLength (c :: rest) = 1 + triviaLength rest := by
  have hslash : c ≠ '/' := by
    rintro rfl
    cases h
  rw [triviaLength]
  split
  · next other heq =>
    rw [commentLength?_of_ne_slash hslash] at heq
    cases heq
  · exact if_pos h

theorem triviaLength_of_other {c : Char} {rest : List Char} (h : Text.isAsciiBlank c = false)
    (hcomment : commentLength? (c :: rest) = none) : triviaLength (c :: rest) = 0 := by
  rw [triviaLength]
  split
  · next other heq =>
    rw [hcomment] at heq
    cases heq
  · exact if_neg (by rw [h]; exact Bool.false_ne_true)

theorem triviaLength_gap (gap : Gap) (rest : List Char) :
    triviaLength (gap.text ++ rest) = gap.text.length + triviaLength rest := by
  cases gap with
  | blank c isBlank => exact triviaLength_of_blank isBlank rest
  | comment written =>
    obtain ⟨core, after, htext, hafter, hlength⟩ := commentLength?_text written rest
    rw [Gap.text, triviaLength_of_comment hlength, htext, List.append_assoc, List.drop_left,
      List.length_append, Nat.add_assoc]
    rcases hafter with rfl | rfl
    · rw [List.nil_append, List.length_nil, Nat.zero_add]
    · exact congrArg (core.length + ·) (triviaLength_of_blank rfl rest)

theorem triviaLength_append (gaps : List Gap) (rest : List Char) :
    triviaLength (gaps.flatMap Gap.text ++ rest) =
      (gaps.flatMap Gap.text).length + triviaLength rest := by
  induction gaps with
  | nil => exact (Nat.zero_add _).symm
  | cons gap gaps ih =>
    rw [List.flatMap_cons, List.append_assoc, triviaLength_gap, ih, List.length_append,
      Nat.add_assoc]

/-! ## Patterns -/

theorem ne_slash_of_isQuote {c : Char} (h : isQuote c = true) : c ≠ '/' := by
  rintro rfl
  cases h

theorem isAsciiBlank_of_isQuote {c : Char} (h : isQuote c = true) :
    Text.isAsciiBlank c = false := by
  rw [isQuote_iff] at h
  rcases h with rfl | rfl | rfl <;> rfl

/-- The slash before the body of a regular expression opens no comment. -/
theorem commentLength?_regex {body : List Char} (ne_nil : body ≠ [])
    (no_star : body.head? ≠ some '*') (h : RegexBody false body) (rest : List Char) :
    commentLength? ('/' :: body ++ rest) = none := by
  cases h with
  | nil => exact absurd rfl ne_nil
  | escaped oneLine others => rfl
  | opening others => rfl
  | closing others => rfl
  | plain isPlain others =>
    unfold commentLength?
    split
    · next heq =>
      rw [List.cons_append, List.cons_append, List.cons.injEq, List.cons.injEq] at heq
      obtain ⟨_, rfl, _⟩ := heq
      exact absurd (by decide) isPlain
    · next heq =>
      rw [List.cons_append, List.cons_append, List.cons.injEq, List.cons.injEq] at heq
      obtain ⟨_, rfl, _⟩ := heq
      exact absurd rfl no_star
    · rfl

/-- A literal is no gap. -/
theorem triviaLength_literal (literal : Literal) (rest : List Char) :
    triviaLength (literal.text ++ rest) = 0 := by
  cases literal with
  | quoted quote isQuote pattern =>
    exact triviaLength_of_other (isAsciiBlank_of_isQuote isQuote)
      (commentLength?_of_ne_slash (ne_slash_of_isQuote isQuote) _)
  | regex pattern ne_nil no_star body =>
    refine triviaLength_of_other rfl ?_
    have hcomment := commentLength?_regex ne_nil no_star body ('/' :: rest)
    simpa using hcomment

theorem literalPattern_text (literal : Literal) (rest : List Char) :
    literalPattern (literal.text ++ rest) = .ok (literal.pattern, literal.variant) := by
  cases literal with
  | quoted quote isQuote pattern =>
    have hclosed := closedString_append (quotable_escape isQuote pattern) isQuote rest
    have htext : (Literal.quoted quote isQuote pattern).text ++ rest =
        quote :: (escape quote pattern ++ quote :: rest) := by
      simp [Literal.text]
    have htake : (escape quote pattern ++ quote :: rest).take
        ((escape quote pattern).length + 1 - 1) = escape quote pattern := by
      rw [Nat.add_sub_cancel, List.take_left]
    have hplain : ¬ (quote = '`' ∧ hasInterpolation (escape quote pattern) = true) := by
      rintro ⟨rfl, hinterpolation⟩
      rw [hasInterpolation_escape] at hinterpolation
      cases hinterpolation
    rw [htext, literalPattern]
    simp only [if_neg (ne_slash_of_isQuote isQuote), if_pos isQuote, hclosed, htake, if_neg hplain,
      unescape_escape isQuote]
    rfl
  | regex pattern ne_nil no_star body =>
    have htext : (Literal.regex pattern ne_nil no_star body).text ++ rest =
        '/' :: (pattern ++ '/' :: rest) := by
      simp [Literal.text]
    have htake : (pattern ++ '/' :: rest).take (pattern.length + 1 - 1) = pattern := by
      rw [Nat.add_sub_cancel, List.take_left]
    rw [htext, literalPattern]
    simp only [if_true, closedRegex_append body, htake]
    rfl

end Stepbook.Source
