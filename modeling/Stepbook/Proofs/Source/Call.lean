import Stepbook.Proofs.Source.Context
import Stepbook.Proofs.Source.Head

/-! # Whole calls

A call that is closed is found the same in any surroundings; only what its first argument writes is
read without regard to the closing bracket.

* `Closes.behind`, `Closes.of_behind`: the way to a closing bracket behind further text.
* `Call`: a call up to its closing bracket.
* `Call.step_text`: a call is found wherever it stands.
* `step_cases`: all that the search may find at a place.
* `literalPattern_change`: the pattern does not depend on what follows the call.
-/

namespace Stepbook.Source
set_option autoImplicit false

open Place

/-! ## Surroundings -/

section
variable {before : List Char} (hanchor : ∃ c ∈ before, Text.isAsciiBlank c = false)
  (earlier : List Char)
include hanchor

theorem starts_behind {text rest : List Char} {kind : Lexeme} :
    Starts (before ++ earlier) text rest kind ↔ Starts before text rest kind := by
  have hlexeme : lexeme ⟨before ++ earlier, text ++ rest⟩ = lexeme ⟨before, text ++ rest⟩ :=
    @lexeme_behind ⟨before, text ++ rest⟩ earlier (.inl hanchor)
  rw [Starts, Starts, hlexeme]

theorem Closes.behind {depth : Nat} {text rest : List Char} (h : Closes depth before text rest) :
    Closes depth (before ++ earlier) text rest := by
  induction h with
  | last starts => exact .last ((starts_behind hanchor earlier).2 starts)
  | @more _ _ before text _ _ _ starts goes_on others ih =>
    refine .more ((starts_behind hanchor earlier).2 starts) goes_on ?_
    rw [← List.append_assoc]
    obtain ⟨c, hc, hother⟩ := hanchor
    exact ih ⟨c, List.mem_append_right _ hc, hother⟩

theorem Closes.of_behind {depth : Nat} {text rest : List Char}
    (h : Closes depth (before ++ earlier) text rest) : Closes depth before text rest := by
  generalize hfull : before ++ earlier = full at h
  induction h generalizing before with
  | last starts =>
    subst hfull
    exact .last ((starts_behind hanchor earlier).1 starts)
  | @more _ _ _ text _ _ _ starts goes_on others ih =>
    subst hfull
    refine .more ((starts_behind hanchor earlier).1 starts) goes_on (ih ?_ ?_)
    · obtain ⟨c, hc, hother⟩ := hanchor
      exact ⟨c, List.mem_append_right _ hc, hother⟩
    · rw [List.append_assoc]

end

/-- A bracket is not blank, so that the text before it does not matter behind it. -/
theorem exists_bracket (gaps : List Char) :
    ∃ c ∈ gaps.reverse ++ ['('], Text.isAsciiBlank c = false :=
  ⟨'(', by simp, rfl⟩

theorem closing_bracket (before rest : List Char) :
    closing ⟨before, '(' :: rest⟩ = (closingFrom 1 ⟨'(' :: before, rest⟩).map (· + 1) :=
  closingFrom_opening (⟨by simp, rfl⟩ : Starts before ['('] rest .opening)

/-! ## Calls -/

/-- A call up to its closing bracket. -/
structure Call where
  head : Head
  inside : List Gap
  /-- The first argument, and all that follows it up to the closing bracket, with it. -/
  body : List Char
  closes : Closes 1 ((inside.flatMap Gap.text).reverse ++ ['(']) body []
  no_gap : ∀ rest, triviaLength (body ++ rest) = 0

namespace Call

def text (call : Call) : List Char :=
  call.head.text ++ '(' :: (call.inside.flatMap Gap.text ++ call.body)

/-- What is found if the first argument writes `pattern`. -/
def finding (call : Call) (offset line : Nat) (pattern : Except Fault (List Char × Variant)) :
    Finding :=
  match pattern with
  | .ok (pattern, variant) =>
    .definition ⟨call.head.type, String.ofList pattern, variant, String.ofList call.text⟩
  | .error fault => .skipped ⟨call.head.type, fault, offset, line, String.ofList call.text⟩

section
variable (call : Call) (before rest : List Char)

theorem text_ne_nil : call.text ≠ [] := by
  simp [text]

theorem text_append : call.text ++ rest =
    call.head.text ++ '(' :: (call.inside.flatMap Gap.text ++ (call.body ++ rest)) := by
  simp [text]

theorem commentLength?_body : commentLength? call.body = none := by
  cases hcomment : commentLength? call.body with
  | none => rfl
  | some length =>
    have htrivia := triviaLength_of_comment hcomment
    have hnone := call.no_gap []
    rw [List.append_nil] at hnone
    have := (two_le_of_commentLength? hcomment).1
    omega

theorem closes_within :
    Closes 1 ((call.inside.flatMap Gap.text).reverse ++ '(' :: before) call.body rest := by
  have hclosed := (call.closes.change rest).behind (exists_bracket _) before
  rwa [List.append_assoc] at hclosed

theorem closing_eq :
    closing ⟨before, '(' :: (call.inside.flatMap Gap.text ++ (call.body ++ rest))⟩ =
      some (1 + ((call.inside.flatMap Gap.text).length + call.body.length)) := by
  have hgaps := crosses_gaps call.inside 0 ('(' :: before) (call.body ++ rest)
  have hbody := (call.closes_within before rest).closingFrom_eq
  rw [closing_bracket, hgaps, hbody, Option.map_some, Option.map_some]
  congr 1
  omega

end

end Call

/-- A call is found wherever it stands. -/
theorem Call.step_text (call : Call) (before rest : List Char) :
    step ⟨before, call.text ++ rest⟩ =
      ([call.finding (Text.byteLength before) (before.count '\n' + 1)
        (literalPattern (call.body ++ rest))], call.text.length) := by
  have hclosing : (advance ⟨before, call.text ++ rest⟩ call.head.text.length).closing =
      some (1 + ((call.inside.flatMap Gap.text).length + call.body.length)) := by
    rw [call.text_append, advance_append, call.closing_eq]
  have hlength : call.head.text.length +
      (1 + ((call.inside.flatMap Gap.text).length + call.body.length)) = call.text.length := by
    simp only [Call.text, List.length_append, List.length_cons]
    omega
  have harguments : (call.text ++ rest).drop (call.head.text.length + 1) =
      call.inside.flatMap Gap.text ++ (call.body ++ rest) := by
    rw [call.text_append, ← List.drop_drop, List.drop_left]
    rfl
  have htrivia : triviaLength (call.inside.flatMap Gap.text ++ (call.body ++ rest)) =
      (call.inside.flatMap Gap.text).length := by
    rw [triviaLength_append, call.no_gap, Nat.add_zero]
  have hcall : Place.call ⟨before, call.text ++ rest⟩ call.head.type call.head.text.length =
      (call.finding (Text.byteLength before) (before.count '\n' + 1)
        (literalPattern (call.body ++ rest)), call.text.length) := by
    unfold Place.call Call.finding
    simp only [hclosing, harguments, htrivia, List.drop_left, hlength, List.take_left]
    cases literalPattern (call.body ++ rest) <;> rfl
  have hhead := step_head call.head before
    (call.inside.flatMap Gap.text ++ (call.body ++ rest))
  rw [← call.text_append, hcall] at hhead
  exact hhead

/-! ## What is found at a place -/

/-- A body that starts with no gap does so before any other text. -/
theorem triviaLength_of_closes {depth : Nat} {before body rest : List Char}
    (h : Closes depth before body rest) {c : Char} {tail : List Char} (hbody : body = c :: tail)
    (hblank : Text.isAsciiBlank c = false) (hcomment : commentLength? (body ++ rest) = none)
    (other : List Char) : triviaLength (body ++ other) = 0 := by
  obtain ⟨inside, last, hlast, hbrackets⟩ := h.exists_last
  subst hbody
  refine triviaLength_of_other hblank ?_
  cases inside with
  | nil =>
    obtain ⟨rfl, rfl⟩ := List.cons.inj hlast
    refine commentLength?_of_ne_slash ?_ _
    rintro rfl
    simp at hbrackets
  | cons d inside =>
    have hsplit : ∀ more, c :: tail ++ more = d :: inside ++ last :: more := fun more => by
      rw [hlast, List.append_assoc, List.singleton_append]
    rw [hsplit] at hcomment
    have hother := commentLength?_eq_none_change hcomment other
    rwa [← hsplit] at hother

/-- What the search for the closing bracket finds behind gaps is the end of a call. -/
theorem exists_call_body (head : Head) (gaps : List Gap) {before arguments : List Char}
    {length : Nat} (no_gap : triviaLength arguments = 0)
    (h : closingFrom 1 ⟨(gaps.flatMap Gap.text).reverse ++ '(' :: before, arguments⟩ =
      some length) :
    ∃ (call : Call) (more : List Char), call.head = head ∧ call.inside = gaps ∧
      arguments = call.body ++ more ∧ call.body.length = length := by
  obtain ⟨body, more, rfl, hlength, hcloses⟩ := exists_closes h
  obtain ⟨c, tail, hcons⟩ := List.exists_cons_of_ne_nil hcloses.ne_nil
  have hsplit : body ++ more = c :: (tail ++ more) := by
    rw [hcons, List.cons_append]
  obtain ⟨hblank, hcomment⟩ := of_triviaLength_eq_zero (hsplit ▸ no_gap)
  rw [← hsplit] at hcomment
  have hclosed : Closes 1 ((gaps.flatMap Gap.text).reverse ++ ['(']) body [] := by
    rw [List.append_cons] at hcloses
    exact (hcloses.of_behind (exists_bracket _) before).change []
  exact ⟨⟨head, gaps, body, hclosed, triviaLength_of_closes hcloses hcons hblank hcomment⟩, more,
    rfl, rfl, rfl, hlength⟩

/-- A bracket that is closed makes a call of what starts with it. -/
theorem exists_call (head : Head) {before rest : List Char} {length : Nat}
    (h : closing ⟨before, '(' :: rest⟩ = some length) :
    ∃ (call : Call) (more : List Char), head.text ++ '(' :: rest = call.text ++ more := by
  rw [closing_bracket, closingFrom_trivia, map_add_add, Option.map_eq_some_iff] at h
  obtain ⟨count, hcount, -⟩ := h
  have hsome : rest.drop (triviaLength rest) ≠ [] := by
    intro hnil
    rw [hnil, closingFrom_nil] at hcount
    cases hcount
  obtain ⟨c, tail, hfirst⟩ := List.exists_cons_of_ne_nil hsome
  obtain ⟨hblank, hcomment, gaps, hgaps⟩ := exists_gaps hfirst
  have hno_gap : triviaLength (c :: tail) = 0 := triviaLength_of_other hblank hcomment
  have hinside : rest.take (triviaLength rest) = gaps.flatMap Gap.text := by
    have htrivia : triviaLength rest = (gaps.flatMap Gap.text).length := by
      rw [congrArg triviaLength hgaps, triviaLength_append, hno_gap, Nat.add_zero]
    rw [htrivia, hgaps, List.take_left]
  rw [hinside, hfirst] at hcount
  obtain ⟨call, more, rfl, rfl, hbody, -⟩ := exists_call_body head gaps hno_gap hcount
  refine ⟨call, more, ?_⟩
  rw [Call.text_append, hgaps, hbody]

/-- What is found where nothing closes the bracket of a call: its first line. -/
def unclosedFinding (head : Head) (place : Place) : Finding :=
  .skipped ⟨head.type, .unterminatedCall, place.offset, place.line,
    String.ofList (place.rest.take (lineLength place.rest))⟩

theorem step_unclosed (head : Head) {before rest : List Char}
    (h : closing ⟨head.text.reverse ++ before, '(' :: rest⟩ = none) :
    step ⟨before, head.text ++ '(' :: rest⟩ =
      ([unclosedFinding head ⟨before, head.text ++ '(' :: rest⟩], head.text.length + 1) := by
  have hadvance : advance ⟨before, head.text ++ '(' :: rest⟩ head.text.length =
      ⟨head.text.reverse ++ before, '(' :: rest⟩ := advance_append ..
  rw [step_head, Place.call, hadvance, h]
  rfl

/-- At a place nothing is found, or the start of a call that is not closed, or a call. -/
theorem step_cases (place : Place) :
    place.step.1 = [] ∨
      (∃ (head : Head) (rest : List Char), place.rest = head.text ++ '(' :: rest ∧
        place.step = ([unclosedFinding head place], head.text.length + 1)) ∨
      ∃ (call : Call) (rest : List Char), place.rest = call.text ++ rest ∧
        place.step = ([call.finding place.offset place.line (literalPattern (call.body ++ rest))],
          call.text.length) := by
  by_cases hnone : place.step.1 = []
  · exact .inl hnone
  · refine .inr ?_
    obtain ⟨head, rest, hrest⟩ := exists_head hnone
    obtain ⟨before, whole⟩ := place
    dsimp only at hrest
    subst hrest
    cases hclosing : closing ⟨head.text.reverse ++ before, '(' :: rest⟩ with
    | none => exact .inl ⟨head, rest, rfl, step_unclosed head hclosing⟩
    | some length =>
      obtain ⟨call, more, htext⟩ := exists_call head hclosing
      refine .inr ⟨call, more, htext, ?_⟩
      rw [htext]
      exact call.step_text before more

/-! ## Patterns -/

section
variable {before rest : List Char} {c : Char} {body : List Char} {kind : Lexeme}

theorem closedString_of_starts (h : Starts before (c :: body) rest kind) (hkind : kind ≠ .unclosed)
    (hquote : isQuote c = true) : closedString c (body ++ rest) = some body.length := by
  have hlexeme := h.2
  rw [List.cons_append, lexeme] at hlexeme
  dsimp only at hlexeme
  rw [lexemeFrom, commentLength?_of_ne_slash (ne_slash_of_isQuote hquote)] at hlexeme
  simp only [hquote, if_true] at hlexeme
  split at hlexeme
  · next length hlength =>
    rw [hlength, Nat.add_right_cancel (Prod.mk.inj hlexeme).2]
  · exact absurd (Prod.mk.inj hlexeme).1.symm hkind

theorem closedRegex_of_starts (h : Starts before ('/' :: body) rest kind)
    (hkind : kind ≠ .unclosed) (hcomment : commentLength? ('/' :: body ++ rest) = none)
    (hallowed : regexAllowed ⟨before, '/' :: body ++ rest⟩ = true) :
    closedRegex false (body ++ rest) = some body.length := by
  have hlexeme := h.2
  have hquote : isQuote '/' = false := rfl
  rw [List.cons_append] at hlexeme hcomment hallowed
  rw [lexeme] at hlexeme
  dsimp only at hlexeme
  rw [hallowed, lexemeFrom, hcomment] at hlexeme
  simp only [hquote, Bool.false_eq_true, if_false, beq_self_eq_true, Bool.and_self, and_self,
    if_true] at hlexeme
  split at hlexeme
  · next length hlength =>
    rw [hlength, Nat.add_right_cancel (Prod.mk.inj hlexeme).2]
  · exact absurd (Prod.mk.inj hlexeme).1.symm hkind

end

theorem literalPattern_ne_unterminatedCall (text : List Char) :
    literalPattern text ≠ .error .unterminatedCall := by
  unfold literalPattern
  dsimp only
  repeat' split
  all_goals rintro ⟨⟩

/-- The pattern is told by the call alone, if a slash starts a regular expression for the search
for the closing bracket, too. -/
theorem literalPattern_change {before text rest : List Char} (h : Closes 1 before text rest)
    (hcomment : commentLength? (text ++ rest) = none)
    (hslash : text.head? = some '/' → regexAllowed ⟨before, text ++ rest⟩ = true)
    (other : List Char) : literalPattern (text ++ other) = literalPattern (text ++ rest) := by
  cases h with
  | last starts => rcases starts.eq_of_closing with rfl | rfl | rfl <;> rfl
  | @more _ _ _ first later _ kind starts goes_on others =>
    have hkind : kind ≠ .unclosed := by
      rintro rfl
      cases goes_on
    obtain ⟨c, body, rfl⟩ := List.exists_cons_of_ne_nil starts.1
    -- the literal ends with the lexeme, so that both texts are the same up to its end
    have htake : ∀ more, (body ++ more).take (body.length - 1) = body.take (body.length - 1) :=
      fun more => List.take_append_of_le_length (Nat.sub_le ..)
    rw [List.append_assoc, List.append_assoc, List.cons_append, List.cons_append, literalPattern,
      literalPattern]
    by_cases hc : c = '/'
    · subst hc
      rw [List.append_assoc] at hcomment hslash
      have hclosed := closedRegex_of_starts starts hkind hcomment (hslash rfl)
      have hlocal := (closedRegex_take hclosed).2 (later ++ other)
      rw [List.take_left] at hlocal
      simp only [if_true, hclosed, hlocal, htake]
    · rw [if_neg hc, if_neg hc]
      cases hquote : isQuote c with
      | true =>
        have hclosed := closedString_of_starts starts hkind hquote
        have hlocal := (closedString_take hclosed).2 (later ++ other)
        rw [List.take_left] at hlocal
        simp only [if_true, hclosed, hlocal, htake]
      | false => rfl

end Stepbook.Source
