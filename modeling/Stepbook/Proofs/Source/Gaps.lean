import Stepbook.Proofs.Source.Snippet

/-! # Gaps before the first argument

Blanks and comments between the bracket of a call and its first argument are passed over when the
argument is read. The search for the closing bracket looks at the character before a slash, which
may be the last of a comment, and then takes the slash of a regular expression for a division.

* `Head.call`: a script that starts with a call.
* `TakenForDivision`: where the slash of a first argument is not taken for a regular expression.
* `closingFrom_gaps`, `closingFrom_division`: the search for the bracket behind gaps.
* `exists_findings_unclosed`, `exists_findings_call`: what is found in a script that starts with a
  call.
* `extract_gaps`: gaps change nothing but the snippet, unless they change where the call ends.
-/

namespace Stepbook.Source
set_option autoImplicit false

open Place

/-- A script that starts with a call, from the keyword of the call on. -/
def Head.call (head : Head) (gaps : List Gap) (arguments : List Char) : List Char :=
  head.text ++ '(' :: (gaps.flatMap Gap.text ++ arguments)

/-! ## Divisions -/

/-- The search for the closing bracket takes the slash behind the gaps for a division: no value
starts behind the last character before it, be it that of a comment. -/
def TakenForDivision (gaps : List Gap) (arguments : List Char) : Prop :=
  arguments.head? = some '/' ∧
    regexAllowed ⟨(gaps.flatMap Gap.text).reverse ++ ['('], arguments⟩ = false

instance (gaps : List Gap) (arguments : List Char) : Decidable (TakenForDivision gaps arguments) :=
  inferInstanceAs (Decidable (_ ∧ _))

section
variable {blanks : List Gap} (hblanks : ∀ gap ∈ blanks, gap.IsBlank)
include hblanks

theorem not_takenForDivision_of_isBlank (arguments : List Char) :
    ¬ TakenForDivision blanks arguments := by
  rintro ⟨-, hforbidden⟩
  rw [regexAllowed_inside hblanks] at hforbidden
  cases hforbidden

end

/-! ## The search for the bracket -/

/-- From behind the bracket on, it does not matter what stands before it. -/
theorem closing_gaps (gaps : List Gap) (before arguments : List Char) :
    closing ⟨before, '(' :: (gaps.flatMap Gap.text ++ arguments)⟩ =
      (closingFrom 1 ⟨(gaps.flatMap Gap.text).reverse ++ ['('], arguments⟩).map
        (· + (1 + (gaps.flatMap Gap.text).length)) := by
  have hcrossed := crosses_gaps gaps 0 ('(' :: before) arguments
  have hbehind := @closingFrom_behind ⟨(gaps.flatMap Gap.text).reverse ++ ['('], arguments⟩
    before 1 (.inl (exists_bracket _))
  rw [behind, List.append_assoc] at hbehind
  rw [closing_bracket, hcrossed, map_add_add]
  exact congrArg (Option.map _) hbehind

/-- The search depends on the text before it only through its first lexeme. -/
theorem closingFrom_of_lexeme {before other : List Char} {c : Char} {tail : List Char}
    (hblank : Text.isAsciiBlank c = false)
    (h : lexeme ⟨before, c :: tail⟩ = lexeme ⟨other, c :: tail⟩) (depth : Nat) :
    closingFrom depth ⟨before, c :: tail⟩ = closingFrom depth ⟨other, c :: tail⟩ := by
  obtain ⟨text, more, hsplit, hbefore, hlength⟩ := exists_starts before (List.cons_ne_nil c tail)
  have hother : Starts other text more (lexeme ⟨before, c :: tail⟩).1 := by
    refine ⟨hbefore.1, ?_⟩
    rw [← hsplit, ← h, hlength]
  obtain ⟨d, later, rfl⟩ := List.exists_cons_of_ne_nil hbefore.1
  obtain ⟨rfl, -⟩ := List.cons.inj hsplit
  have hanchored : Anchored ⟨(c :: later).reverse, more⟩ := .inl ⟨c, by simp, hblank⟩
  rw [hsplit]
  cases hnext : (lexeme ⟨before, c :: tail⟩).1.depthAfter? depth with
  | none => rw [closingFrom_stop hbefore hnext, closingFrom_stop hother hnext]
  | some next =>
    rw [closingFrom_more hbefore hnext, closingFrom_more hother hnext]
    exact congrArg (Option.map _) ((closingFrom_behind before next hanchored).trans
      (closingFrom_behind other next hanchored).symm)

section
variable {gaps : List Gap} {c : Char} {tail : List Char}

/-- Where no slash is taken for a division, every slash starts a regular expression. -/
theorem lexeme_argument (h : ¬ TakenForDivision gaps (c :: tail)) :
    lexeme ⟨(gaps.flatMap Gap.text).reverse ++ ['('], c :: tail⟩ = lexemeFrom (c == '/') c tail := by
  rw [lexeme]
  dsimp only
  by_cases hc : c = '/'
  · subst hc
    have hallowed :
        regexAllowed ⟨(gaps.flatMap Gap.text).reverse ++ ['('], '/' :: tail⟩ = true := by
      rw [← Bool.not_eq_false]
      exact fun hforbidden => h ⟨rfl, hforbidden⟩
    rw [hallowed, Bool.and_true]
  · rw [beq_false_of_ne hc, Bool.false_and]

theorem closingFrom_gaps (hblank : Text.isAsciiBlank c = false)
    (h : ¬ TakenForDivision gaps (c :: tail)) (depth : Nat) :
    closingFrom depth ⟨(gaps.flatMap Gap.text).reverse ++ ['('], c :: tail⟩ =
      closingFrom depth ⟨['('], c :: tail⟩ := by
  refine closingFrom_of_lexeme hblank ?_ depth
  have hnone := lexeme_argument (not_takenForDivision_of_isBlank (by simp) (c :: tail) :
    ¬ TakenForDivision [] (c :: tail))
  rw [lexeme_argument h]
  exact hnone.symm

/-- What follows a division is not the body of a regular expression. -/
theorem closingFrom_division (hcomment : commentLength? ('/' :: tail) = none)
    (h : TakenForDivision gaps ('/' :: tail)) (depth : Nat) :
    closingFrom depth ⟨(gaps.flatMap Gap.text).reverse ++ ['('], '/' :: tail⟩ =
      (closingFrom depth ⟨['/'], tail⟩).map (· + 1) := by
  have hlexeme : lexeme ⟨(gaps.flatMap Gap.text).reverse ++ ['('], '/' :: tail⟩ = (.other, 1) := by
    rw [lexeme]
    dsimp only
    rw [h.2, Bool.and_false, lexemeFrom, hcomment]
    rfl
  have hskip := @closingFrom_skip depth _ ['/'] tail .other ⟨by simp, hlexeme⟩ (by simp)
  have hanchored : Anchored ⟨['/'], tail⟩ := .inl ⟨'/', by simp, rfl⟩
  rw [List.singleton_append] at hskip
  rw [hskip]
  exact congrArg (Option.map _) (closingFrom_behind _ depth hanchored)

/-- The same bracket is found behind gaps, unless a slash is taken for a division and what follows
it leads elsewhere. -/
theorem closingFrom_gaps_iff {arguments : List Char} (no_gap : triviaLength arguments = 0)
    {length : Nat} (h : closingFrom 1 ⟨['('], arguments⟩ = some length) :
    closingFrom 1 ⟨(gaps.flatMap Gap.text).reverse ++ ['('], arguments⟩ = some length ↔
      (TakenForDivision gaps arguments →
        closingFrom 1 ⟨['/'], arguments.tail⟩ = some (length - 1)) := by
  obtain ⟨c, tail, rfl⟩ : ∃ c tail, arguments = c :: tail := by
    refine List.exists_cons_of_ne_nil ?_
    rintro rfl
    rw [closingFrom_nil] at h
    cases h
  obtain ⟨hblank, hcomment⟩ := of_triviaLength_eq_zero no_gap
  by_cases htaken : TakenForDivision gaps (c :: tail)
  · obtain rfl : c = '/' := Option.some.inj htaken.1
    have hpos : 0 < length := by
      obtain ⟨text, more, -, rfl, hcloses⟩ := exists_closes h
      exact List.length_pos_iff.2 hcloses.ne_nil
    rw [closingFrom_division hcomment htaken, Option.map_eq_some_iff, List.tail_cons]
    constructor
    · rintro ⟨count, hcount, rfl⟩ -
      exact hcount
    · exact fun hcount => ⟨length - 1, hcount htaken, Nat.sub_add_cancel hpos⟩
  · rw [closingFrom_gaps hblank htaken, h]
    exact iff_of_true rfl fun hdivision => absurd hdivision htaken

end

/-! ## Scripts that start with a call -/

theorem Call.head_call (call : Call) (more : List Char) :
    call.head.call call.inside (call.body ++ more) = call.text ++ more :=
  (call.text_append more).symm

/-- Nothing is found but definitions. -/
theorem findings_eq_iff {extraction : Extraction} {found : List Definition} :
    extraction.definitions = found ∧ extraction.skipped = [] ↔
      extraction.findings = found.map .definition := by
  obtain ⟨findings⟩ := extraction
  show findings.filterMap Finding.definition? = found ∧ findings.filterMap Finding.skipped? = [] ↔
    findings = found.map .definition
  induction findings generalizing found with
  | nil => cases found <;> simp
  | cons finding findings ih =>
    cases finding with
    | skipped call => cases found <;> simp [Finding.skipped?]
    | definition first =>
      cases found with
      | nil => simp [Finding.definition?]
      | cons second found =>
        simp only [List.filterMap_cons, Finding.definition?, Finding.skipped?, List.map_cons,
          List.cons.injEq, Finding.definition.injEq, ← ih]
        exact and_assoc

theorem findings_extract (text : List Char) :
    (extract (String.ofList text)).findings = findings ⟨[], text⟩ := by
  rw [extract, String.toList_ofList]
  rfl

theorem exists_findings_unclosed (head : Head) {gaps : List Gap} {arguments : List Char}
    (h : closingFrom 1 ⟨(gaps.flatMap Gap.text).reverse ++ ['('], arguments⟩ = none) :
    ∃ later, findings ⟨[], head.call gaps arguments⟩ =
      unclosedFinding head ⟨[], head.call gaps arguments⟩ :: later := by
  have hnone : closing ⟨head.text.reverse ++ [], '(' :: (gaps.flatMap Gap.text ++ arguments)⟩ =
      none := by
    rw [closing_gaps, h]
    rfl
  have hstep : step ⟨[], head.call gaps arguments⟩ = _ := step_unclosed head hnone
  have hfound : findings ⟨[], head.call gaps arguments⟩ =
      [unclosedFinding head ⟨[], head.call gaps arguments⟩] ++
        findings (advance ⟨[], head.call gaps arguments⟩ (head.text.length + 1)) := by
    rw [findings, dif_neg (by simp [Head.call]), hstep]
    rfl
  exact ⟨_, hfound⟩

/-- What follows a call is found whatever the call is. -/
theorem exists_findings_call (call : Call) (more : List Char) :
    ∃ bytes lines, findings ⟨[], call.text ++ more⟩ =
      call.finding 0 1 (literalPattern (call.body ++ more)) ::
        (findings ⟨call.body.reverse, more⟩).map (Finding.shift bytes lines) := by
  obtain ⟨inside, last, hbody, hbracket⟩ := call.closes.exists_last
  have hanchored : Anchored ⟨call.body.reverse, more⟩ := by
    refine .inl ⟨last, by simp [hbody], ?_⟩
    rcases hbracket with rfl | rfl | rfl <;> rfl
  have htext : call.text.reverse ++ [] = call.body.reverse ++
      (call.head.text ++ '(' :: call.inside.flatMap Gap.text).reverse := by
    simp [Call.text]
  have hfound := findings_append call.text_ne_nil (call.step_text [] more)
  rw [htext] at hfound
  rw [hfound]
  exact ⟨_, _, congrArg _ (findings_behind _ hanchored)⟩

/-- If a definition is found at its start, the script starts with a call that is closed. -/
theorem exists_call_of_findings {head : Head} {gaps : List Gap} {arguments : List Char}
    (no_gap : triviaLength arguments = 0) {found : Definition}
    (h : findings ⟨[], head.call gaps arguments⟩ = [.definition found]) :
    ∃ (call : Call) (more : List Char), call.head = head ∧ call.inside = gaps ∧
      arguments = call.body ++ more ∧
      closingFrom 1 ⟨(gaps.flatMap Gap.text).reverse ++ ['('], arguments⟩ =
        some call.body.length := by
  cases hclosing : closingFrom 1 ⟨(gaps.flatMap Gap.text).reverse ++ ['('], arguments⟩ with
  | none =>
    obtain ⟨later, hunclosed⟩ := exists_findings_unclosed head hclosing
    rw [hunclosed] at h
    cases h
  | some length =>
    obtain ⟨call, more, hhead, hinside, hbody, rfl⟩ := exists_call_body head gaps no_gap hclosing
    exact ⟨call, more, hhead, hinside, hbody, rfl⟩

/-- Of the call, a definition holds its kind and its text only. -/
theorem Call.finding_exchange {call : Call} {offset line : Nat}
    {pattern : Except Fault (List Char × Variant)} {found : Definition}
    (h : call.finding offset line pattern = .definition found) {other : Call}
    (hhead : other.head = call.head) :
    other.finding offset line pattern =
      .definition { found with snippet := String.ofList other.text } := by
  cases pattern with
  | error fault => cases h
  | ok written =>
    cases h
    rw [← hhead]
    rfl

section
variable {call : Call} {more : List Char} {found : Definition}
  (h : findings ⟨[], call.text ++ more⟩ = [.definition found])
include h

theorem findings_exchange {other : Call} (hhead : other.head = call.head)
    (hbody : other.body = call.body) :
    findings ⟨[], other.text ++ more⟩ =
      [.definition { found with snippet := String.ofList other.text }] := by
  obtain ⟨bytes, lines, hcall⟩ := exists_findings_call call more
  obtain ⟨moreBytes, moreLines, hother⟩ := exists_findings_call other more
  obtain ⟨hfound, hlater⟩ := List.cons.inj (hcall.symm.trans h)
  rw [hother, hbody, Call.finding_exchange hfound hhead, List.map_eq_nil_iff.1 hlater]
  rfl

theorem snippet_eq_text : found.snippet = String.ofList call.text := by
  have hself := findings_exchange h (rfl : call.head = call.head) rfl
  have hfound := (List.cons.inj (h.symm.trans hself)).1
  exact congrArg Definition.snippet (Finding.definition.inj hfound)

end

/-- Gaps before the first argument change nothing but the snippet, unless its slash is taken for a
division. Then the same is found exactly if the search, which reads on behind the slash, still comes
to the bracket that closes the call. -/
theorem extract_gaps (head : Head) (gaps : List Gap) {arguments : List Char}
    (no_gap : triviaLength arguments = 0) {found : Definition}
    (definitions_eq :
      (extract (String.ofList (head.call [] arguments))).definitions = [found])
    (skipped_eq : (extract (String.ofList (head.call [] arguments))).skipped = []) :
    ∃ body, found.snippet = String.ofList (head.call [] body) ∧
      ((extract (String.ofList (head.call gaps arguments))).definitions =
            [{ found with snippet := String.ofList (head.call gaps body) }] ∧
          (extract (String.ofList (head.call gaps arguments))).skipped = [] ↔
        (TakenForDivision gaps arguments →
          closingFrom 1 ⟨['/'], arguments.tail⟩ = some (body.length - 1))) := by
  have hplain := findings_eq_iff.1 ⟨definitions_eq, skipped_eq⟩
  rw [findings_extract] at hplain
  obtain ⟨call, more, rfl, hinside, rfl, hclosing⟩ := exists_call_of_findings no_gap hplain
  rw [← hinside, call.head_call] at hplain
  refine ⟨call.body, ?_, ?_⟩
  · rw [snippet_eq_text hplain, ← hinside]
    rfl
  rw [← closingFrom_gaps_iff no_gap hclosing, findings_eq_iff, findings_extract]
  constructor
  · intro hsame
    obtain ⟨other, rest, hhead, rfl, hbody, hother⟩ := exists_call_of_findings no_gap hsame
    rw [hbody, ← hhead, other.head_call] at hsame
    have htext : other.head.call other.inside call.body = other.text :=
      String.ofList_injective (snippet_eq_text hsame)
    have hend : call.body = other.body := by
      simpa [Head.call, Call.text] using htext
    rw [← hend] at hother
    exact hother
  · intro hother
    obtain ⟨other, rest, hhead, rfl, hbody, hlength⟩ :=
      exists_call_body call.head gaps no_gap hother
    obtain ⟨hsame, rfl⟩ := List.append_inj hbody hlength.symm
    rw [hsame, ← hhead, other.head_call]
    exact findings_exchange hplain hhead hsame.symm

/-- The brackets of this pattern balance, so that it may stand behind a comment. -/
theorem extract_gaps_balanced :
    triviaLength "/a (\\d+)/, f)".toList = 0 ∧
      (extract "Then(/a (\\d+)/, f)").definitions =
        [⟨.outcome, "a (\\d+)", .regex, "Then(/a (\\d+)/, f)"⟩] ∧
      (extract "Then(/a (\\d+)/, f)").skipped = [] ∧
      (extract "Then(/* n */ /a (\\d+)/, f)").definitions =
        [⟨.outcome, "a (\\d+)", .regex, "Then(/* n */ /a (\\d+)/, f)"⟩] ∧
      (extract "Then(/* n */ /a (\\d+)/, f)").skipped = [] := by
  have hno_gap : triviaLength "/a (\\d+)/, f)".toList = 0 :=
    triviaLength_of_other rfl rfl
  have hdefinitions : (extract "Then(/a (\\d+)/, f)").definitions =
      [⟨.outcome, "a (\\d+)", .regex, "Then(/a (\\d+)/, f)"⟩] := by decide +kernel
  have hskipped : (extract "Then(/a (\\d+)/, f)").skipped = [] := by decide +kernel
  refine ⟨hno_gap, hdefinitions, hskipped, ?_⟩
  obtain ⟨body, hsnippet, hsame⟩ := extract_gaps ⟨.outcome, "Then".toList, rfl, []⟩
    [.comment (.block " n ".toList (by decide)), .blank ' ' rfl] hno_gap hdefinitions hskipped
  obtain rfl : "/a (\\d+)/, f)".toList = body := by
    simpa [Head.call, Head.text] using String.ofList_injective hsnippet
  exact hsame.2 fun _ => by decide +kernel

/-- The apostrophe of this pattern is read as a quote behind a comment. -/
theorem extract_apostrophe_behind_comment :
    (extract "Given(/it's (\\w+)/, f)").definitions =
        [⟨.context, "it's (\\w+)", .regex, "Given(/it's (\\w+)/, f)"⟩] ∧
      (extract "Given(/it's (\\w+)/, f)").skipped = [] ∧
      (extract "Given(/* who */ /it's (\\w+)/, f)").definitions = [] ∧
      (extract "Given(/* who */ /it's (\\w+)/, f)").skipped =
        [⟨.context, .unterminatedCall, 0, 1, "Given(/* who */ /it's (\\w+)/, f)"⟩] := by
  decide +kernel

end Stepbook.Source
