import Stepbook.Proofs.Source.Call
import Stepbook.Proofs.Source.RoundTrip

/-! # Snippets

The source of a call that is recorded holds all that the call is: as a script of its own it gives
the same finding, and no other.

* `argumentsOf`, `OpensBlank`: what stands between the bracket of a call and its pattern.
* `findings_call`: what is found in a call on its own.
* `extract_snippet`: what is found in the snippet of a finding.
-/

namespace Stepbook.Source
set_option autoImplicit false

open Place

/-! ## Arguments -/

/-- A call from behind its bracket on. -/
def argumentsOf (snippet : List Char) : List Char :=
  let behind := snippet.dropWhile isWordPart
  (behind.drop (triviaLength behind)).drop 1

/-- There are no comments between the bracket and the first argument, only blanks. -/
def OpensBlank (snippet : List Char) : Prop :=
  triviaLength (argumentsOf snippet) =
    ((argumentsOf snippet).takeWhile Text.isAsciiBlank).length

instance (snippet : List Char) : Decidable (OpensBlank snippet) :=
  inferInstanceAs (Decidable (_ = _))

section
variable (call : Call)

theorem argumentsOf_text :
    argumentsOf call.text = call.inside.flatMap Gap.text ++ call.body := by
  have hbehind : call.text.dropWhile isWordPart = call.head.gaps.flatMap Gap.text ++
      '(' :: (call.inside.flatMap Gap.text ++ call.body) := by
    have hnone := takeWhile_gaps call.head.gaps (call.inside.flatMap Gap.text ++ call.body)
    have hsplit := List.takeWhile_append_dropWhile (p := isWordPart)
      (l := call.head.gaps.flatMap Gap.text ++ '(' :: (call.inside.flatMap Gap.text ++ call.body))
    rw [hnone, List.nil_append] at hsplit
    rw [Call.text, Head.text, List.append_assoc,
      List.dropWhile_append_of_pos call.head.isWordPart_of_mem, hsplit]
  rw [argumentsOf, hbehind, triviaLength_gaps, List.drop_left]
  rfl

theorem isAsciiBlank_of_opensBlank (h : OpensBlank call.text) :
    ∀ c ∈ call.inside.flatMap Gap.text, Text.isAsciiBlank c = true := by
  rw [OpensBlank, argumentsOf_text, triviaLength_append] at h
  have hbody := call.no_gap []
  rw [List.append_nil] at hbody
  rw [hbody, Nat.add_zero] at h
  have hblanks : call.inside.flatMap Gap.text <+:
      (call.inside.flatMap Gap.text ++ call.body).takeWhile Text.isAsciiBlank := by
    apply List.prefix_of_prefix_length_le (List.prefix_append ..) (List.takeWhile_prefix _)
    exact h.le
  intro c hc
  exact List.all_eq_true.1 List.all_takeWhile c (hblanks.subset hc)

end

/-! ## Calls on their own -/

section
variable (call : Call)

theorem findings_call :
    findings ⟨[], call.text⟩ = [call.finding 0 1 (literalPattern call.body)] := by
  have hstep := call.step_text [] []
  have hend : findings ⟨call.text.reverse ++ [], []⟩ = [] := by
    rw [findings]
    rfl
  have hfound := findings_append call.text_ne_nil hstep
  rw [hend, List.append_nil, List.append_nil, List.append_nil] at hfound
  exact hfound

/-- The pattern of a call is the same on its own, but for a regular expression behind a comment. -/
theorem literalPattern_body (rest : List Char)
    (hslash : call.body.head? = some '/' → OpensBlank call.text) :
    literalPattern (call.body ++ rest) = literalPattern call.body := by
  have hcomment : commentLength? (call.body ++ []) = none := by
    rw [List.append_nil, call.commentLength?_body]
  have hallowed : call.body.head? = some '/' → regexAllowed
      ⟨(call.inside.flatMap Gap.text).reverse ++ ['('], call.body ++ []⟩ = true :=
    fun hhead => regexAllowed_blanks (isAsciiBlank_of_opensBlank call (hslash hhead)) [] _
  have hsame := literalPattern_change call.closes hcomment hallowed rest
  rwa [List.append_nil] at hsame

end

/-- What a slash starts is a regular expression, or one that nothing terminates. -/
theorem literalPattern_of_slash {text : List Char} (h : text.head? = some '/') :
    (∃ pattern, literalPattern text = .ok (pattern, .regex)) ∨
      literalPattern text = .error .unterminatedPattern := by
  obtain ⟨tail, rfl⟩ := List.head?_eq_some_iff.1 h
  rw [literalPattern, if_pos rfl]
  split
  · exact .inl ⟨_, rfl⟩
  · exact .inr rfl

/-! ## Findings -/

theorem exists_step {place : Place} {finding : Finding} (h : finding ∈ place.findings) :
    ∃ later : Place, later.source = place.source ∧ finding ∈ later.step.1 := by
  fun_induction findings place with
  | case1 place hend => cases h
  | case2 place hrest ih =>
    rcases List.mem_append.1 h with hstep | hlater
    · exact ⟨place, rfl, hstep⟩
    · obtain ⟨later, hsource, hstep⟩ := ih hlater
      exact ⟨later, hsource.trans (source_advance ..), hstep⟩

/-- What is found is a call that is not closed, or what a call says. -/
theorem mem_findings {place : Place} {finding : Finding} (h : finding ∈ place.findings) :
    (∃ (head : Head) (later : Place), finding = unclosedFinding head later) ∨
      ∃ (call : Call) (rest : List Char) (offset line : Nat),
        finding = call.finding offset line (literalPattern (call.body ++ rest)) := by
  obtain ⟨later, -, hstep⟩ := exists_step h
  rcases step_cases later with hnone | ⟨head, rest, -, hunclosed⟩ | ⟨call, rest, -, hcall⟩
  · rw [hnone] at hstep
    cases hstep
  · rw [hunclosed, List.mem_singleton] at hstep
    exact .inl ⟨head, later, hstep⟩
  · rw [hcall, List.mem_singleton] at hstep
    exact .inr ⟨call, rest, _, _, hstep⟩

/-- A call on its own gives the same finding, at the start of the script. -/
theorem extract_call (call : Call) (rest : List Char)
    (hregex : ∀ pattern, literalPattern (call.body ++ rest) = .ok (pattern, .regex) →
      OpensBlank call.text)
    (hterminated : literalPattern (call.body ++ rest) ≠ .error .unterminatedPattern) :
    (extract (String.ofList call.text)).findings =
      [call.finding 0 1 (literalPattern (call.body ++ rest))] := by
  have hslash : call.body.head? = some '/' → OpensBlank call.text := by
    intro hhead
    have hfirst : (call.body ++ rest).head? = some '/' := by
      rw [List.head?_append, hhead, Option.some_or]
    rcases literalPattern_of_slash hfirst with ⟨pattern, hwritten⟩ | hunterminated
    · exact hregex pattern hwritten
    · exact absurd hunterminated hterminated
  rw [extract, String.toList_ofList, literalPattern_body call rest hslash]
  exact findings_call call

/-- A definition is a closed call whose first argument writes its pattern. -/
theorem exists_call_of_definition {source : String} {found : Definition}
    (h : found ∈ (extract source).definitions) :
    ∃ (call : Call) (rest pattern : List Char),
      literalPattern (call.body ++ rest) = .ok (pattern, found.variant) ∧
        found.snippet = String.ofList call.text ∧
        ∀ offset line, call.finding offset line (.ok (pattern, found.variant)) =
          .definition found := by
  rcases mem_findings (mem_definitions.1 h) with
    ⟨head, later, hunclosed⟩ | ⟨call, rest, offset, line, hcall⟩
  · cases hunclosed
  · cases hpattern : literalPattern (call.body ++ rest) with
    | ok written =>
      rw [hpattern] at hcall
      cases hcall
      exact ⟨call, rest, written.1, hpattern, rfl, fun _ _ => rfl⟩
    | error fault =>
      rw [hpattern] at hcall
      cases hcall

/-- A call with an ambiguous pattern is closed. -/
theorem exists_call_of_ambiguous {source : String} {skipped : SkippedCall}
    (h : skipped ∈ (extract source).skipped) (hfault : skipped.fault = .ambiguousPattern) :
    ∃ (call : Call) (rest : List Char),
      literalPattern (call.body ++ rest) = .error .ambiguousPattern ∧
        skipped.snippet = String.ofList call.text ∧
        ∀ offset line, call.finding offset line (.error .ambiguousPattern) =
          .skipped { skipped with offset := offset, line := line } := by
  rcases mem_findings (mem_skipped.1 h) with
    ⟨head, later, hunclosed⟩ | ⟨call, rest, offset, line, hcall⟩
  · cases hunclosed
    cases hfault
  · cases hpattern : literalPattern (call.body ++ rest) with
    | ok written =>
      rw [hpattern] at hcall
      cases hcall
    | error fault =>
      rw [hpattern] at hcall
      cases hcall
      cases hfault
      exact ⟨call, rest, hpattern, rfl, fun _ _ => rfl⟩

/-- The snippet of a definition holds this definition, and the snippet of a call with an ambiguous
pattern holds this call; neither holds anything else. A regular expression must not stand behind a
comment: the search for the closing bracket takes its first slash for a division there, so that the
snippet may end within it. -/
theorem extract_snippet (source : String) :
    (∀ found ∈ (extract source).definitions,
      (found.variant = .regex → OpensBlank found.snippet.toList) →
        (extract found.snippet).definitions = [found] ∧ (extract found.snippet).skipped = []) ∧
    ∀ call ∈ (extract source).skipped, call.fault = .ambiguousPattern →
      (extract call.snippet).definitions = [] ∧
        (extract call.snippet).skipped = [{ call with offset := 0, line := 1 }] := by
  refine ⟨fun found hfound hblank => ?_, fun skipped hskipped hfault => ?_⟩
  · obtain ⟨call, rest, pattern, hpattern, hsnippet, hfinding⟩ := exists_call_of_definition hfound
    rw [hsnippet, String.toList_ofList] at hblank
    have hregex : ∀ written, literalPattern (call.body ++ rest) = .ok (written, .regex) →
        OpensBlank call.text := by
      intro written hwritten
      rw [hpattern] at hwritten
      exact hblank (Prod.mk.inj (Except.ok.inj hwritten)).2
    have halone := extract_call call rest hregex (by simp [hpattern])
    rw [hpattern, hfinding, ← hsnippet] at halone
    rw [Extraction.definitions, Extraction.skipped, halone]
    exact ⟨rfl, rfl⟩
  · obtain ⟨call, rest, hpattern, hsnippet, hfinding⟩ := exists_call_of_ambiguous hskipped hfault
    have halone := extract_call call rest (by simp [hpattern]) (by simp [hpattern])
    rw [hpattern, hfinding, ← hsnippet] at halone
    rw [Extraction.definitions, Extraction.skipped, halone]
    exact ⟨rfl, rfl⟩

/-- A regular expression and a pattern that is no literal, among other text. -/
def mixedCalls : String :=
  "x = '' / 2; when( /a\\/)/i, é => [f])\nthen /* b */ (p /q/ 2) \x7d"

theorem extract_snippet_mixed :
    ⟨.action, "a\\/)", .regex, "when( /a\\/)/i, é => [f])"⟩ ∈ (extract mixedCalls).definitions ∧
      ⟨.outcome, .ambiguousPattern, 38, 2, "then /* b */ (p /q/ 2)"⟩ ∈
        (extract mixedCalls).skipped ∧
      (extract "when( /a\\/)/i, é => [f])").definitions =
        [⟨.action, "a\\/)", .regex, "when( /a\\/)/i, é => [f])"⟩] ∧
      (extract "then /* b */ (p /q/ 2)").skipped =
        [⟨.outcome, .ambiguousPattern, 0, 1, "then /* b */ (p /q/ 2)"⟩] := by
  have hdefinitions : (extract mixedCalls).definitions =
      [⟨.action, "a\\/)", .regex, "when( /a\\/)/i, é => [f])"⟩] := by decide +kernel
  have hskipped : (extract mixedCalls).skipped =
      [⟨.outcome, .ambiguousPattern, 38, 2, "then /* b */ (p /q/ 2)"⟩] := by decide +kernel
  have hdefinition := List.mem_singleton_self
    (⟨.action, "a\\/)", .regex, "when( /a\\/)/i, é => [f])"⟩ : Definition)
  have hcall := List.mem_singleton_self
    (⟨.outcome, .ambiguousPattern, 38, 2, "then /* b */ (p /q/ 2)"⟩ : SkippedCall)
  rw [← hdefinitions] at hdefinition
  rw [← hskipped] at hcall
  have hblank : OpensBlank "when( /a\\/)/i, é => [f])".toList := by decide +kernel
  obtain ⟨hfound, hambiguous⟩ := extract_snippet mixedCalls
  exact ⟨hdefinition, hcall, (hfound _ hdefinition fun _ => hblank).1, (hambiguous _ hcall rfl).2⟩

end Stepbook.Source
