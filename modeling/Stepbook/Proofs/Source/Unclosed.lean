import Stepbook.Proofs.Source.Gaps
import Stepbook.Proofs.Text.Utf8

/-! # Literals that nothing closes

The search for the closing bracket comes before the first argument is read, and reads the argument
itself: a literal that nothing closes ends this search, and the call is reported as one that is not
closed. Only a regular expression whose slash was taken for a division is reported for itself.

* `closedLiteral`: how far a literal reaches.
* `closedLiteral_range`: a literal is closed in its line, or goes on behind a backslash.
* `closingFrom_unclosed`: the search ends at a literal that nothing closes.
* `IsMisread`: a regular expression that nothing closes, behind which a bracket closes the call.
* `exists_skipped`: what is reported of a call that is skipped.
* `exists_reported`: what is reported first of a script that starts with such a literal.
* `extract_unclosed`: what is reported of literals that nothing closes.
-/

namespace Stepbook.Source
set_option autoImplicit false

open Place

/-! ## Literals -/

/-- The number of characters behind the quote or slash that opens a literal, to its end. -/
def closedLiteral (c : Char) (tail : List Char) : Option Nat :=
  if c = '/' then closedRegex false tail else closedString c tail

/-- Where a literal has to be closed: in its line, unless it is a template. -/
def literalRange (c : Char) (tail : List Char) : List Char :=
  if c = '`' then tail else tail.takeWhile (· != '\n')

/-- A quote, or a slash that opens no comment. -/
def OpensLiteral (c : Char) (tail : List Char) : Prop :=
  isQuote c = true ∨ c = '/' ∧ commentLength? (c :: tail) = none

/-- A backslash takes the meaning from the end of the line, and the literal is closed behind it. -/
def IsContinued (c : Char) (tail : List Char) : Prop :=
  c ≠ '`' ∧ ∃ length, closedLiteral c tail = some length ∧ ['\\', '\n'] <:+: tail.take length

/-! ## Lines -/

section
variable {text : List Char} {length : Nat}

theorem infix_of_mem_escape {c : Char} (hlater : '\n' ∈ text → ['\\', '\n'] <:+: text)
    (h : '\n' ∈ '\\' :: c :: text) : ['\\', '\n'] <:+: '\\' :: c :: text := by
  rcases List.mem_cons.1 h with hslash | h
  · cases hslash
  rcases List.mem_cons.1 h with rfl | h
  · exact ⟨[], text, rfl⟩
  · exact List.infix_cons (List.infix_cons (hlater h))

/-- Only behind a backslash, a string other than a template goes on in the next line. -/
theorem closedString_escaped {quote : Char} (hquote : isQuote quote = true) (hne : quote ≠ '`')
    (h : closedString quote text = some length) (hline : '\n' ∈ text.take length) :
    ['\\', '\n'] <:+: text.take length := by
  fun_induction closedString quote text generalizing length with
  | case1 => cases h
  | case2 => cases h
  | case3 c text ih =>
    obtain ⟨count, hcount, rfl⟩ := Option.map_eq_some_iff.1 h
    rw [List.take_succ_cons, List.take_succ_cons] at hline ⊢
    exact infix_of_mem_escape (ih hcount) hline
  | case4 text hlone hescape =>
    cases h
    obtain rfl := List.mem_singleton.1 hline
    cases hquote
  | case5 c text hlone hescape hother hend => cases h
  | case6 c text hlone hescape hother hend ih =>
    obtain ⟨count, hcount, rfl⟩ := Option.map_eq_some_iff.1 h
    rw [List.take_succ_cons] at hline ⊢
    rcases List.mem_cons.1 hline with rfl | hline
    · exact absurd ⟨rfl, hne⟩ hend
    · exact List.infix_cons (ih hcount hline)

theorem closedRegex_escaped {inClass : Bool} (h : closedRegex inClass text = some length)
    (hline : '\n' ∈ text.take length) : ['\\', '\n'] <:+: text.take length := by
  fun_induction closedRegex inClass text generalizing length with
  | case1 => cases h
  | case2 => cases h
  | case3 inClass c text ih =>
    obtain ⟨count, hcount, rfl⟩ := Option.map_eq_some_iff.1 h
    rw [List.take_succ_cons, List.take_succ_cons] at hline ⊢
    exact infix_of_mem_escape (ih hcount) hline
  | case4 inClass text hlone hescape => cases h
  | case5 inClass text hlone hescape hend ih =>
    obtain ⟨count, hcount, rfl⟩ := Option.map_eq_some_iff.1 h
    rw [List.take_succ_cons] at hline ⊢
    exact List.infix_cons (ih hcount (List.mem_of_ne_of_mem (by decide) hline))
  | case6 inClass text hlone hescape hend hopening ih =>
    obtain ⟨count, hcount, rfl⟩ := Option.map_eq_some_iff.1 h
    rw [List.take_succ_cons] at hline ⊢
    exact List.infix_cons (ih hcount (List.mem_of_ne_of_mem (by decide) hline))
  | case7 inClass c text hlone hescape hend hopening hclosing hslash =>
    cases h
    exact absurd (List.mem_singleton.1 hline).symm hend
  | case8 inClass c text hlone hescape hend hopening hclosing hslash ih =>
    obtain ⟨count, hcount, rfl⟩ := Option.map_eq_some_iff.1 h
    rw [List.take_succ_cons] at hline ⊢
    exact List.infix_cons (ih hcount (List.mem_of_ne_of_mem (Ne.symm hend) hline))

end

section
variable {c : Char} {tail : List Char} {length : Nat}

theorem closedLiteral_take (h : closedLiteral c tail = some length) (rest : List Char) :
    closedLiteral c (tail.take length ++ rest) = some length := by
  unfold closedLiteral at h ⊢
  split at h
  · next hc => rw [if_pos hc, (closedRegex_take h).2]
  · next hc => rw [if_neg hc, (closedString_take h).2]

theorem closedLiteral_escaped (hopens : OpensLiteral c tail) (hne : c ≠ '`')
    (h : closedLiteral c tail = some length) (hline : '\n' ∈ tail.take length) :
    ['\\', '\n'] <:+: tail.take length := by
  unfold closedLiteral at h
  split at h
  · exact closedRegex_escaped h hline
  · next hc =>
    have hquote : isQuote c = true := hopens.resolve_right fun hslash => hc hslash.1
    exact closedString_escaped hquote hne h hline

/-- What is not closed in its line is closed nowhere, unless it is continued. -/
theorem closedLiteral_range (hopens : OpensLiteral c tail)
    (h : closedLiteral c (literalRange c tail) = none) :
    closedLiteral c tail = none ∨ IsContinued c tail := by
  cases hclosed : closedLiteral c tail with
  | none => exact .inl rfl
  | some length =>
    refine .inr ?_
    by_cases hne : c = '`'
    · rw [literalRange, if_pos hne, hclosed] at h
      cases h
    · refine ⟨hne, length, hclosed, closedLiteral_escaped hopens hne hclosed ?_⟩
      by_contra hline
      have hin : ∀ d ∈ tail.take length, (d != '\n') = true := by
        rintro d hd
        rw [bne_iff_ne]
        rintro rfl
        exact hline hd
      have hrange : literalRange c tail =
          tail.take length ++ (tail.drop length).takeWhile (· != '\n') := by
        rw [literalRange, if_neg hne, ← List.takeWhile_append_of_pos hin, List.take_append_drop]
      rw [hrange, closedLiteral_take hclosed] at h
      cases h

end

/-! ## Patterns -/

theorem isAsciiBlank_of_opensLiteral {c : Char} {tail : List Char} (h : OpensLiteral c tail) :
    Text.isAsciiBlank c = false ∧ commentLength? (c :: tail) = none := by
  rcases h with hquote | ⟨rfl, hcomment⟩
  · exact ⟨isAsciiBlank_of_isQuote hquote, commentLength?_of_ne_slash (ne_slash_of_isQuote hquote) _⟩
  · exact ⟨rfl, hcomment⟩

theorem literalPattern_unterminated_iff {c : Char} {tail : List Char} :
    literalPattern (c :: tail) = .error .unterminatedPattern ↔
      (isQuote c = true ∨ c = '/') ∧ closedLiteral c tail = none := by
  rw [literalPattern, closedLiteral]
  by_cases hslash : c = '/'
  · rw [if_pos hslash, if_pos hslash]
    cases closedRegex false tail <;> simp [hslash]
  · rw [if_neg hslash, if_neg hslash]
    cases hquote : isQuote c with
    | false => simp [hslash]
    | true =>
      cases closedString c tail with
      | none => simp
      | some length =>
        simp only [if_true]
        split <;> simp

section
variable {c : Char} {tail : List Char} (hopens : OpensLiteral c tail)
  (hunclosed : closedLiteral c tail = none)
include hopens hunclosed

theorem literalPattern_unclosed : literalPattern (c :: tail) = .error .unterminatedPattern :=
  literalPattern_unterminated_iff.2 ⟨hopens.imp id And.left, hunclosed⟩

/-! ## The search for the bracket -/

/-- The search ends at a literal that nothing closes, if it is taken for one. -/
theorem closingFrom_unclosed {gaps : List Gap} (h : ¬ TakenForDivision gaps (c :: tail))
    (depth : Nat) :
    closingFrom depth ⟨(gaps.flatMap Gap.text).reverse ++ ['('], c :: tail⟩ = none := by
  have hkind : (lexeme ⟨(gaps.flatMap Gap.text).reverse ++ ['('], c :: tail⟩).1 = .unclosed := by
    rw [lexeme_argument h, lexemeFrom, (isAsciiBlank_of_opensLiteral hopens).2]
    dsimp only
    rw [closedLiteral] at hunclosed
    rcases hopens with hquote | ⟨rfl, -⟩
    · rw [if_neg (ne_slash_of_isQuote hquote)] at hunclosed
      rw [if_pos hquote, hunclosed]
    · rw [if_pos rfl] at hunclosed
      rw [if_neg (by decide), if_pos ⟨rfl, rfl⟩, hunclosed]
  rw [closingFrom, dif_neg (List.cons_ne_nil c tail), hkind]

end

/-! ## Faults -/

/-- Behind gaps stands a regular expression that nothing closes; its slash is taken for a division,
behind which a bracket closes the call. -/
def IsMisread (rest : List Char) : Prop :=
  ∃ (gaps : List Gap) (tail : List Char), rest = gaps.flatMap Gap.text ++ '/' :: tail ∧
    commentLength? ('/' :: tail) = none ∧ closedRegex false tail = none ∧
    TakenForDivision gaps ('/' :: tail) ∧ (closingFrom 1 ⟨['/'], tail⟩).isSome

theorem IsMisread.closingFrom_ne_none (gaps : List Gap) {arguments : List Char}
    (h : IsMisread (gaps.flatMap Gap.text ++ arguments)) :
    closingFrom 1 ⟨(gaps.flatMap Gap.text).reverse ++ ['('], arguments⟩ ≠ none := by
  obtain ⟨others, tail, htext, hcomment, -, htaken, hcloses⟩ := h
  have hcrossed := crosses_gaps gaps 0 ['('] arguments
  have hothers := crosses_gaps others 0 ['('] ('/' :: tail)
  rw [htext, hothers, closingFrom_division hcomment htaken] at hcrossed
  intro hnone
  rw [hnone] at hcrossed
  obtain ⟨length, hlength⟩ := Option.isSome_iff_exists.1 hcloses
  rw [hlength] at hcrossed
  cases hcrossed

/-- Of a call that is closed, a literal that nothing closes is reported if it is misread. -/
theorem Call.unterminatedPattern_iff (call : Call) (more : List Char) :
    literalPattern (call.body ++ more) = .error .unterminatedPattern ↔
      IsMisread (call.inside.flatMap Gap.text ++ (call.body ++ more)) := by
  have hcloses := (call.closes.change more).closingFrom_eq
  constructor
  · intro hpattern
    have hno_gap := call.no_gap more
    obtain ⟨c, tail, htext⟩ := List.exists_cons_of_ne_nil
      (List.append_ne_nil_of_left_ne_nil call.closes.ne_nil more)
    rw [htext] at hpattern hno_gap hcloses ⊢
    obtain ⟨hfirst, hunclosed⟩ := literalPattern_unterminated_iff.1 hpattern
    obtain ⟨-, hcomment⟩ := of_triviaLength_eq_zero hno_gap
    have hopens : OpensLiteral c tail := hfirst.imp id fun hslash => ⟨hslash, hcomment⟩
    by_cases htaken : TakenForDivision call.inside (c :: tail)
    · obtain rfl : c = '/' := Option.some.inj htaken.1
      rw [closingFrom_division hcomment htaken] at hcloses
      refine ⟨call.inside, tail, rfl, hcomment, hunclosed, htaken, ?_⟩
      rw [← Option.isSome_map, hcloses]
      rfl
    · rw [closingFrom_unclosed hopens hunclosed htaken] at hcloses
      cases hcloses
  · rintro ⟨gaps, tail, htext, hcomment, hunclosed, -⟩
    have hlength := congrArg triviaLength htext
    rw [triviaLength_append, triviaLength_append, call.no_gap,
      triviaLength_of_other rfl hcomment] at hlength
    obtain ⟨-, hbody⟩ := List.append_inj htext hlength
    rw [hbody]
    exact literalPattern_unclosed (.inr ⟨rfl, hcomment⟩) hunclosed

/-- What is reported of a call that is skipped tells why it is skipped. -/
theorem exists_skipped {source : String} {call : SkippedCall} (h : call ∈ (extract source).skipped) :
    ∃ (before : List Char) (head : Head) (rest : List Char),
      source.toList = before ++ (head.text ++ '(' :: rest) ∧ call.type = head.type ∧
        call.offset = Text.byteLength before ∧
        (call.fault = .unterminatedCall ↔ closingFrom 1 ⟨['('], rest⟩ = none) ∧
        (call.fault = .unterminatedPattern ↔ IsMisread rest) := by
  obtain ⟨⟨before, whole⟩, hsource, hstep⟩ := exists_step (mem_skipped.1 h)
  obtain ⟨head, rest, hrest⟩ := exists_head (List.ne_nil_of_mem hstep)
  dsimp only at hrest
  subst hrest
  cases hclosing : closing ⟨head.text.reverse ++ before, '(' :: rest⟩ with
  | none =>
    rw [step_unclosed head hclosing, List.mem_singleton] at hstep
    cases hstep
    have hnone : closingFrom 1 ⟨['('], rest⟩ = none :=
      Option.map_eq_none_iff.1 ((closing_gaps [] _ rest).symm.trans hclosing)
    have hread : ¬ IsMisread rest := fun hmisread =>
      IsMisread.closingFrom_ne_none [] hmisread hnone
    exact ⟨before.reverse, head, rest, hsource.symm, rfl, (Text.byteLength_reverse _).symm,
      iff_of_true rfl hnone, iff_of_false (by simp) hread⟩
  | some length =>
    obtain ⟨written, more, htext⟩ := exists_call head hclosing
    rw [htext, written.step_text, List.mem_singleton] at hstep
    rw [Place.source, htext, written.text_append] at hsource
    have hcloses : closingFrom 1 ⟨['('], written.inside.flatMap Gap.text ++
        (written.body ++ more)⟩ ≠ none := by
      rw [crosses_gaps written.inside 0 ['('], (written.closes.change more).closingFrom_eq]
      exact Option.some_ne_none _
    cases hpattern : literalPattern (written.body ++ more) with
    | ok pattern =>
      rw [hpattern] at hstep
      cases hstep
    | error fault =>
      have hfault : fault ≠ .unterminatedCall := by
        rintro rfl
        exact literalPattern_ne_unterminatedCall _ hpattern
      rw [hpattern] at hstep
      cases hstep
      refine ⟨before.reverse, written.head, _, hsource.symm, rfl, (Text.byteLength_reverse _).symm,
        iff_of_false hfault hcloses, ?_⟩
      rw [← written.unterminatedPattern_iff, hpattern, Except.error.injEq]

section
variable (head : Head) (gaps : List Gap) {c : Char} {tail : List Char}
  (hopens : OpensLiteral c tail) (hunclosed : closedLiteral c tail = none)
include hopens hunclosed

/-- What is reported first of a script that starts with a call whose literal nothing closes. -/
theorem exists_reported :
    ∃ fault snippet, (extract (String.ofList (head.call gaps (c :: tail)))).skipped.head? =
        some ⟨head.type, fault, 0, 1, snippet⟩ ∧
      (fault = .unterminatedPattern ∧ IsMisread (gaps.flatMap Gap.text ++ c :: tail) ∨
        fault = .unterminatedCall ∧ ¬ IsMisread (gaps.flatMap Gap.text ++ c :: tail)) := by
  rw [Extraction.skipped, findings_extract]
  cases hclosing : closingFrom 1 ⟨(gaps.flatMap Gap.text).reverse ++ ['('], c :: tail⟩ with
  | none =>
    obtain ⟨later, hfound⟩ := exists_findings_unclosed head hclosing
    rw [hfound]
    exact ⟨_, _, rfl, .inr ⟨rfl, fun hmisread => hmisread.closingFrom_ne_none gaps hclosing⟩⟩
  | some length =>
    have hno_gap : triviaLength (c :: tail) = 0 := by
      obtain ⟨hblank, hcomment⟩ := isAsciiBlank_of_opensLiteral hopens
      exact triviaLength_of_other hblank hcomment
    obtain ⟨call, more, rfl, rfl, hbody, -⟩ := exists_call_body head gaps hno_gap hclosing
    obtain ⟨bytes, lines, hfound⟩ := exists_findings_call call more
    have hpattern := literalPattern_unclosed hopens hunclosed
    rw [hbody] at hpattern ⊢
    rw [call.head_call, hfound, hpattern]
    exact ⟨_, _, rfl, .inl ⟨rfl, (call.unterminatedPattern_iff more).1 hpattern⟩⟩

theorem not_isMisread_of_isBlank (hblanks : ∀ gap ∈ gaps, gap.IsBlank) :
    ¬ IsMisread (gaps.flatMap Gap.text ++ c :: tail) := by
  have hnone := closingFrom_unclosed hopens hunclosed
    (not_takenForDivision_of_isBlank hblanks (c :: tail)) 1
  exact fun hmisread => hmisread.closingFrom_ne_none gaps hnone

end

/-- A literal that nothing closes is reported first, as a pattern that nothing closes exactly if it
is misread; behind blanks the call is reported in its place, whatever follows. Of all calls, those
are reported as not closed whose bracket nothing closes, and for their pattern those whose first
argument is misread. -/
theorem extract_unclosed (source : String) :
    (∀ (head : Head) (gaps : List Gap) (c : Char) (tail : List Char),
      source.toList = head.call gaps (c :: tail) → OpensLiteral c tail →
        closedLiteral c (literalRange c tail) = none →
          IsContinued c tail ∨
            ∃ fault snippet, (extract source).skipped.head? =
                some ⟨head.type, fault, 0, 1, snippet⟩ ∧
              (fault = .unterminatedPattern ∧ IsMisread (gaps.flatMap Gap.text ++ c :: tail) ∨
                fault = .unterminatedCall ∧ ¬ IsMisread (gaps.flatMap Gap.text ++ c :: tail)) ∧
              ((∀ gap ∈ gaps, gap.IsBlank) → fault = .unterminatedCall)) ∧
    ∀ call ∈ (extract source).skipped,
      ∃ (before : List Char) (head : Head) (rest : List Char),
        source.toList = before ++ (head.text ++ '(' :: rest) ∧ call.type = head.type ∧
          call.offset = Text.byteLength before ∧
          (call.fault = .unterminatedCall ↔ closingFrom 1 ⟨['('], rest⟩ = none) ∧
          (call.fault = .unterminatedPattern ↔ IsMisread rest) := by
  refine ⟨fun head gaps c tail hsource hopens hrange => ?_, fun call => exists_skipped⟩
  rcases closedLiteral_range hopens hrange with hunclosed | hcontinued
  · obtain ⟨fault, snippet, hreported, hfault⟩ := exists_reported head gaps hopens hunclosed
    rw [← hsource, String.ofList_toList] at hreported
    refine .inr ⟨fault, snippet, hreported, hfault, fun hblanks => ?_⟩
    rcases hfault with ⟨-, hmisread⟩ | ⟨hcall, -⟩
    · exact absurd hmisread (not_isMisread_of_isBlank gaps hopens hunclosed hblanks)
    · exact hcall
  · exact .inl hcontinued

/-- A string that nothing closes is reported as a call that nothing closes, and a regular expression
that nothing closes is reported as such behind a comment. -/
theorem extract_unclosed_apostrophe :
    OpensLiteral '\'' "abc, f)".toList ∧
      closedLiteral '\'' (literalRange '\'' "abc, f)".toList) = none ∧
      (∃ snippet, (extract "Given( 'abc, f)").skipped.head? =
        some ⟨.context, .unterminatedCall, 0, 1, snippet⟩) ∧
      ⟨.context, .unterminatedPattern, 0, 1, "Given(/* c */ /abc, f)"⟩ ∈
        (extract "Given(/* c */ /abc, f)").skipped ∧
      ∃ rest, IsMisread rest := by
  have hopens : OpensLiteral '\'' "abc, f)".toList := .inl rfl
  have hrange : closedLiteral '\'' (literalRange '\'' "abc, f)".toList) = none := by decide +kernel
  have hmem : (⟨.context, .unterminatedPattern, 0, 1, "Given(/* c */ /abc, f)"⟩ : SkippedCall) ∈
      (extract "Given(/* c */ /abc, f)").skipped := by decide +kernel
  refine ⟨hopens, hrange, ?_, hmem, ?_⟩
  · rcases (extract_unclosed "Given( 'abc, f)").1 ⟨.context, "Given".toList, rfl, []⟩
      [.blank ' ' rfl] '\'' "abc, f)".toList rfl hopens hrange with
      ⟨-, length, hclosed, -⟩ | ⟨fault, snippet, hreported, -, hfault⟩
    · have hunclosed : closedLiteral '\'' "abc, f)".toList = none := by decide +kernel
      rw [hunclosed] at hclosed
      cases hclosed
    · obtain rfl := hfault (by simp [Gap.IsBlank])
      exact ⟨snippet, hreported⟩
  · obtain ⟨-, -, rest, -, -, -, -, hpattern⟩ :=
      (extract_unclosed "Given(/* c */ /abc, f)").2 _ hmem
    exact ⟨rest, hpattern.1 rfl⟩

/-- The pattern of this call is an unclosed string, and the call is reported, not the pattern. -/
theorem unterminatedCall_of_apostrophe :
    literalPattern "'abc, f)".toList = .error .unterminatedPattern ∧
      (extract "Given('abc, f)").skipped =
        [⟨.context, .unterminatedCall, 0, 1, "Given('abc, f)"⟩] := by
  decide +kernel

end Stepbook.Source
