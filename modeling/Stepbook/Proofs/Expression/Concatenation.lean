import Stepbook.Proofs.Expression.Offset
import Stepbook.Proofs.Expression.Position
import Stepbook.Proofs.Expression.RunRegex

/-! # Expressions in a row

Blanks divide an expression into expressions that are compiled on their own: the pattern of the
whole holds the patterns of both, and an error of the second one is the same at a later position.

* `bodyOf`: the pattern of tokens without its anchors.
* `bodyOf_append`: the pattern of tokens with blanks between them.
* `Joined`: tokens behind blanks, which join the blanks that they start with.
* `exists_lexes_blanks`: an expression with blanks behind it.
* `ofExpression_append`: the pattern of two expressions in a row.
-/

namespace Stepbook.Expression
set_option autoImplicit false

/-! ## Escaped blanks -/

theorem escape_append (first second : List Char) :
    Regex.escape (first ++ second) = Regex.escape first ++ Regex.escape second :=
  List.flatMap_append

/-- A blank stands for itself in a pattern. -/
theorem isMeta_eq_false_of_isBlank {c : Char} (h : Text.isBlank c = true) :
    Regex.isMeta c = false := by
  have hplain : ("\\.+*?()|[]\x7b\x7d^$#&-~".toList.all fun d => !Text.isBlank d) = true := by
    decide
  rw [Bool.eq_false_iff]
  intro hmeta
  have hc := List.all_eq_true.1 hplain c (List.contains_iff_mem.1 hmeta)
  rw [h] at hc
  cases hc

theorem escape_blanks {blanks : List Char} (h : ∀ c ∈ blanks, Text.isBlank c = true) :
    Regex.escape blanks = blanks := by
  induction blanks with
  | nil => rfl
  | cons c blanks ih =>
    obtain ⟨hc, hblanks⟩ := List.forall_mem_cons.1 h
    rw [Regex.escape, List.flatMap_cons, isMeta_eq_false_of_isBlank hc, ← Regex.escape, ih hblanks]
    rfl

/-! ## Patterns of tokens -/

/-- The pattern of parts without its anchors, and the types of its placeholders. -/
def Part.body (parts : List Part) : List Char × List ParameterType :=
  (parts.flatMap Part.pattern, Part.parameters parts)

/-- The pattern of tokens without its anchors, if they are well formed. -/
def bodyOf (tokens : List Token) : Except SyntaxError (List Char × List ParameterType) :=
  (parts tokens).map Part.body

/-- Patterns in a row. -/
def adjoin (first second : List Char × List ParameterType) : List Char × List ParameterType :=
  (first.1 ++ second.1, first.2 ++ second.2)

theorem body_append (first second : List Part) :
    Part.body (first ++ second) = adjoin (Part.body first) (Part.body second) := by
  simp only [Part.body, Part.parameters, adjoin, List.flatMap_append, List.filterMap_append]

theorem bodyOf_shift (base : Nat) (tokens : List Token) :
    bodyOf (tokens.map (Token.shift base)) = shifted base id (bodyOf tokens) := by
  have hbody : ∀ made : List Part, Part.body (made.map (Part.shift base)) = Part.body made := by
    intro made
    simp only [Part.body, Part.parameters, List.flatMap_map, List.filterMap_map,
      Function.comp_def, pattern_shift, parameter?_shift]
  have hparts := partsAfter_shift base .empty tokens
  rw [show Segment.empty.shift base = .empty from rfl] at hparts
  rw [bodyOf, bodyOf, parts, parts, hparts]
  cases partsAfter .empty tokens with
  | error error => rfl
  | ok made => exact congrArg Except.ok (hbody made)

/-- Blanks divide tokens into those before and those behind them. -/
theorem partsAfter_append (segment : Segment) (before after : List Token) (blanks : List Char) :
    partsAfter segment (before ++ .blank blanks :: after) = do
      let first ← partsAfter segment before
      let second ← parts after
      return first ++ .blank blanks :: second := by
  induction before generalizing segment with
  | nil =>
    simp only [List.nil_append, partsAfter, parts, bind_assoc, pure_bind, List.cons_append]
  | cons token before ih =>
    cases token with
    | text chars => exact ih _
    | «optional» start chars => exact ih _
    | separator offset => exact ih _
    | blank chars =>
      simp only [List.cons_append, partsAfter, ih, bind_assoc, pure_bind]
    | parameter start name =>
      simp only [List.cons_append, partsAfter, ih, bind_assoc, pure_bind]

theorem bodyOf_nil : bodyOf [] = .ok ([], []) := rfl

theorem bodyOf_append (before after : List Token) (blanks : List Char) :
    bodyOf (before ++ .blank blanks :: after) = do
      let first ← bodyOf before
      let second ← bodyOf after
      return adjoin first (adjoin (Regex.escape blanks, []) second) := by
  have hbody : ∀ first second : List Part, Part.body (first ++ .blank blanks :: second) =
      adjoin (Part.body first) (adjoin (Regex.escape blanks, []) (Part.body second)) :=
    fun first second => body_append first (.blank blanks :: second)
  rw [bodyOf, bodyOf, bodyOf, parts, partsAfter_append, ← parts]
  cases parts before with
  | error error => rfl
  | ok first =>
    cases parts after with
    | error error => rfl
    | ok second => exact congrArg Except.ok (hbody first second)

theorem adjoin_assoc (first second third : List Char × List ParameterType) :
    adjoin (adjoin first second) third = adjoin first (adjoin second third) := by
  simp only [adjoin, List.append_assoc]

theorem adjoin_escape (first second : List Char) :
    adjoin (Regex.escape first, []) (Regex.escape second, []) =
      (Regex.escape (first ++ second), []) := by
  rw [adjoin, escape_append]
  rfl

/-! ## Tokens behind blanks -/

/-- Tokens, and those that are read with blanks before them: these join the blanks that the tokens
start with. -/
inductive Joined (blanks : List Char) :
    Except SyntaxError (List Token) → Except SyntaxError (List Token) → Prop where
  | failed (error : SyntaxError) : Joined blanks (.error error) (.error error)
  | merged (more : List Char) (tokens : List Token) :
      Joined blanks (.ok (.blank more :: tokens)) (.ok (.blank (blanks ++ more) :: tokens))
  | behind (tokens : List Token) : Joined blanks (.ok tokens) (.ok (.blank blanks :: tokens))

/-- A character that is no blank completes the blanks before it. -/
theorem stepOutside_behind {c : Char} (h : Text.isBlank c = false) (blanks : List Char)
    (offset : Nat) :
    (Mode.blank blanks).stepOutside offset c =
      (Mode.between.stepOutside offset c).map fun (complete, next) =>
        (.blank blanks :: complete, next) := by
  unfold Mode.stepOutside
  split
  case h_7 =>
    rw [if_neg (Bool.eq_false_iff.1 h), if_neg (Bool.eq_false_iff.1 h)]
    rfl
  all_goals rfl

theorem run_behind {c : Char} (h : Text.isBlank c = false) (blanks : List Char) (offset : Nat)
    (rest : List Char) :
    (Mode.blank blanks).run offset (c :: rest) =
      (Mode.between.run offset (c :: rest)).map (.blank blanks :: ·) := by
  have hstep : (Mode.blank blanks).step offset c = _ := stepOutside_behind h blanks offset
  have hbetween : Mode.between.step offset c = Mode.between.stepOutside offset c := rfl
  rw [Mode.run, Mode.run, hstep, hbetween]
  cases Mode.between.stepOutside offset c with
  | error error => rfl
  | ok both =>
    obtain ⟨complete, next⟩ := both
    dsimp only [Except.map]
    cases next.run (offset + c.utf8Size) rest <;> rfl

theorem run_of_step {mode next : Mode} {offset : Nat} {c : Char}
    (h : mode.step offset c = .ok ([], next)) (rest : List Char) :
    mode.run offset (c :: rest) = next.run (offset + c.utf8Size) rest := by
  rw [Mode.run, h]
  dsimp only
  cases next.run (offset + c.utf8Size) rest <;> rfl

section
variable {c : Char} (h : Text.isBlank c = true) (offset : Nat) (rest : List Char)
include h

theorem run_firstBlank :
    Mode.between.run offset (c :: rest) = (Mode.blank [c]).run (offset + c.utf8Size) rest := by
  have hstep : Mode.between.step offset c = .ok ([], .blank [c]) := stepOutside_blank h
  exact run_of_step hstep rest

theorem run_furtherBlank (done : List Char) :
    (Mode.blank done).run offset (c :: rest) =
      (Mode.blank (done ++ [c])).run (offset + c.utf8Size) rest := by
  have hstep : (Mode.blank done).step offset c = .ok ([], .blank (done ++ [c])) :=
    stepOutside_blank h
  exact run_of_step hstep rest

end

theorem joined_furtherBlanks (blanks more : List Char) (offset : Nat) (rest : List Char) :
    Joined blanks ((Mode.blank more).run offset rest)
      ((Mode.blank (blanks ++ more)).run offset rest) := by
  induction rest generalizing more offset with
  | nil => exact .merged more []
  | cons c rest ih =>
    cases hblank : Text.isBlank c with
    | true =>
      rw [run_furtherBlank hblank, run_furtherBlank hblank, List.append_assoc]
      exact ih _ _
    | false =>
      rw [run_behind hblank, run_behind hblank]
      cases Mode.between.run offset (c :: rest) with
      | error error => exact .failed error
      | ok tokens => exact .merged more tokens

theorem joined_blanks (blanks : List Char) (offset : Nat) (rest : List Char) :
    Joined blanks (Mode.between.run offset rest) ((Mode.blank blanks).run offset rest) := by
  cases rest with
  | nil => exact .behind []
  | cons c rest =>
    cases hblank : Text.isBlank c with
    | true =>
      rw [run_firstBlank hblank, run_furtherBlank hblank]
      exact joined_furtherBlanks blanks [c] _ rest
    | false =>
      rw [run_behind hblank]
      cases Mode.between.run offset (c :: rest) with
      | error error => exact .failed error
      | ok tokens => exact .behind tokens

/-- Behind other tokens, joined or not, blanks stand between two patterns. -/
theorem Joined.body_eq {blanks : List Char} {alone behind : Except SyntaxError (List Token)}
    (h : Joined blanks alone behind) (before : List Token) :
    (behind >>= fun tokens => bodyOf (before ++ tokens)) = alone >>= fun tokens => do
      let first ← bodyOf before
      let second ← bodyOf tokens
      return adjoin first (adjoin (Regex.escape blanks, []) second) := by
  cases h with
  | failed error => rfl
  | behind tokens => exact bodyOf_append before tokens blanks
  | merged more tokens =>
    have hmore := bodyOf_append [] tokens more
    rw [List.nil_append, bodyOf_nil] at hmore
    show bodyOf (before ++ .blank (blanks ++ more) :: tokens) = _
    rw [bodyOf_append, ← adjoin_escape]
    show _ = (do
      let first ← bodyOf before
      let second ← bodyOf (.blank more :: tokens)
      return adjoin first (adjoin (Regex.escape blanks, []) second))
    rw [hmore]
    cases bodyOf before with
    | error error => rfl
    | ok first =>
      cases bodyOf tokens with
      | error error => rfl
      | ok second =>
        refine congrArg (fun later => Except.ok (adjoin first later)) ?_
        rw [adjoin_assoc]
        rfl

/-! ## Blanks behind an expression -/

/-- Reading a part of an expression leads to a mode, with the tokens that are complete then. -/
theorem exists_lexes {past text : List Char} {mode : Mode} {read : List Token}
    (hmode : mode.After past) (h : mode.run (Text.byteLength past) text = .ok read) :
    ∃ complete next last, Lexes mode (Text.byteLength past) text complete next ∧
      next.After (past ++ text) ∧ next.finish = .ok last ∧ read = complete ++ last := by
  induction text generalizing past mode read with
  | nil =>
    refine ⟨[], mode, read, Lexes.nil _ _, ?_, h, rfl⟩
    rwa [List.append_nil]
  | cons c text ih =>
    have hstep := stepPoints hmode c
    unfold Mode.run at h
    split at h
    · cases h
    · next complete middle hmiddle =>
      rw [hmiddle] at hstep
      have hlength : Text.byteLength past + c.utf8Size = Text.byteLength (past ++ [c]) := by simp
      split at h
      · cases h
      · next others hothers =>
        cases h
        rw [hlength] at hothers
        obtain ⟨further, next, last, hlexes, hafter, hfinish, rfl⟩ := ih hstep.2 hothers
        refine ⟨complete ++ further, next, last, ?_, ?_, hfinish, by rw [List.append_assoc]⟩
        · rw [← List.singleton_append]
          rw [Text.byteLength_append] at hlexes
          exact (Lexes.single hmiddle).append hlexes
        · rwa [← List.append_cons] at hafter

/-- Where no backslash is left open, an expression ends outside of placeholders and of optional
texts. -/
theorem isOutside_of_finish {past : List Char} {mode : Mode} {last : List Token}
    (hmode : mode.After past) (hpast : Unescaped past) (h : mode.finish = .ok last) :
    mode.IsOutside ∧ last = mode.pending := by
  cases mode with
  | between => exact ⟨trivial, (Except.ok.inj h).symm⟩
  | text chars => exact ⟨trivial, (Except.ok.inj h).symm⟩
  | blank chars => exact ⟨trivial, (Except.ok.inj h).symm⟩
  | escape chars => exact absurd hmode hpast
  | parameter start name => cases h
  | «optional» start chars => cases h
  | optionalEscape start chars => cases h

theorem bodyOf_concat (before : List Token) (blanks : List Char) :
    bodyOf (before ++ [.blank blanks]) =
      (bodyOf before).map (adjoin · (Regex.escape blanks, [])) := by
  rw [bodyOf_append, bodyOf_nil]
  cases bodyOf before with
  | error error => rfl
  | ok first =>
    refine congrArg (fun later => Except.ok (adjoin first later)) ?_
    simp only [adjoin, List.append_nil]

/-- Blanks behind an expression join those at its end. -/
theorem exists_lexes_blanks {first blanks : List Char} {read : List Token}
    (hread : tokens first = .ok read) (hfirst : Unescaped first) (hblanks : AreBlanks blanks)
    {body : List Char × List ParameterType} (hbody : bodyOf read = .ok body) :
    ∃ before joined front, Lexes .between 0 (first ++ blanks) before (.blank joined) ∧
      bodyOf before = .ok front ∧
      adjoin front (Regex.escape joined, []) = adjoin body (Regex.escape blanks, []) := by
  have hstart : Mode.between.After [] := rfl
  obtain ⟨complete, next, last, hlexes, hafter, hfinish, rfl⟩ := exists_lexes hstart hread
  obtain ⟨houtside, rfl⟩ := isOutside_of_finish hafter hfirst hfinish
  by_cases hend : ∃ done, next = .blank done
  · obtain ⟨done, rfl⟩ := hend
    have hmore := hlexes.append (lexes_furtherBlanks hblanks.2 _ done)
    rw [List.append_nil] at hmore
    rw [Mode.pending, bodyOf_concat] at hbody
    cases hfront : bodyOf complete with
    | error error =>
      rw [hfront] at hbody
      cases hbody
    | ok front =>
      rw [hfront] at hbody
      cases hbody
      refine ⟨complete, _, front, hmore, hfront, ?_⟩
      rw [adjoin_assoc, adjoin_escape]
  · have hother : ∀ done, next ≠ .blank done := fun done heq => hend ⟨done, heq⟩
    have hmore := hlexes.append (lexes_blanks houtside hother hblanks _)
    exact ⟨_, _, body, hmore, hbody, rfl⟩

/-! ## Expressions -/

/-- The pattern of a whole text. -/
def Pattern.ofBody (body : List Char × List ParameterType) : Pattern :=
  ⟨'^' :: body.1 ++ ['$'], body.2⟩

/-- The source of a pattern without the anchors. -/
def Pattern.body (pattern : Pattern) : List Char :=
  pattern.source.tail.dropLast

theorem body_ofBody (body : List Char × List ParameterType) :
    (Pattern.ofBody body).body = body.1 := by
  rw [Pattern.body, Pattern.ofBody, List.cons_append, List.tail_cons, List.dropLast_concat]

theorem ofExpression_eq (expression : List Char) :
    Pattern.ofExpression expression =
      (tokens expression >>= bodyOf).map Pattern.ofBody := by
  unfold Pattern.ofExpression
  cases tokens expression with
  | error error => rfl
  | ok read =>
    show (parts read >>= _) = ((parts read).map Part.body).map Pattern.ofBody
    cases parts read <;> rfl

theorem exists_body {expression : List Char} {pattern : Pattern}
    (h : Pattern.ofExpression expression = .ok pattern) :
    ∃ body, tokens expression >>= bodyOf = .ok body ∧ pattern = .ofBody body := by
  rw [ofExpression_eq] at h
  cases hbody : tokens expression >>= bodyOf with
  | error error =>
    rw [hbody] at h
    cases h
  | ok body =>
    rw [hbody] at h
    cases h
    exact ⟨body, rfl, rfl⟩

/-- What the tokens of two expressions in a row come to. -/
theorem bodyOf_tokens_append {first blanks : List Char} {read : List Token}
    (hread : tokens first = .ok read) (hfirst : Unescaped first) (hblanks : AreBlanks blanks)
    {body : List Char × List ParameterType} (hbody : bodyOf read = .ok body)
    (second : List Char) :
    (tokens (first ++ blanks ++ second) >>= bodyOf) =
      (shifted (Text.byteLength (first ++ blanks)) id (tokens second >>= bodyOf)).map
        fun later => adjoin body (adjoin (blanks, []) later) := by
  obtain ⟨before, joined, front, hlexes, hfront, hadjoin⟩ :=
    exists_lexes_blanks hread hfirst hblanks hbody
  have hbehind := (joined_blanks joined (0 + Text.byteLength (first ++ blanks)) second).body_eq
    before
  have hshift := run_shift .between (Text.byteLength (first ++ blanks)) 0 second
  rw [Nat.add_zero, ← tokens] at hshift
  have hbetween : ∀ base, Mode.between.shift base = .between := fun _ => rfl
  rw [hbetween] at hshift
  rw [Nat.zero_add, hshift, hfront] at hbehind
  have hmap : ∀ result : Except SyntaxError (List Token),
      (result.map (before ++ ·) >>= bodyOf) = result >>= fun tokens => bodyOf (before ++ tokens) :=
    fun result => by cases result <;> rfl
  rw [tokens, hlexes second, hmap, Nat.zero_add, hbehind]
  cases tokens second with
  | error error => rfl
  | ok others =>
    show (do
      let later ← bodyOf (others.map (Token.shift (Text.byteLength (first ++ blanks))))
      return adjoin front (adjoin (Regex.escape joined, []) later)) = _
    rw [bodyOf_shift]
    show _ = (shifted _ id (bodyOf others)).map _
    cases bodyOf others with
    | error error => rfl
    | ok later =>
      refine congrArg Except.ok ?_
      show adjoin front (adjoin (Regex.escape joined, []) later) = _
      rw [← adjoin_assoc, hadjoin, adjoin_assoc, escape_blanks hblanks.2]
      rfl

/-- Two expressions with blanks between them are compiled each on its own: the pattern is that of
the first, the blanks and that of the second, and an error of the second is the same, as many bytes
further on as stand before it. -/
theorem ofExpression_append {first blanks : List Char} {pattern : Pattern}
    (h : Pattern.ofExpression first = .ok pattern) (hfirst : Unescaped first)
    (hblanks : AreBlanks blanks) (second : List Char) :
    pattern.source = '^' :: pattern.body ++ ['$'] ∧
      (∀ other, Pattern.ofExpression second = .ok other →
        other.source = '^' :: other.body ++ ['$'] ∧
          Pattern.ofExpression (first ++ blanks ++ second) =
            .ok ⟨'^' :: (pattern.body ++ blanks ++ other.body) ++ ['$'],
              pattern.parameters ++ other.parameters⟩) ∧
      ∀ error, Pattern.ofExpression second = .error error →
        Pattern.ofExpression (first ++ blanks ++ second) =
          .error ⟨error.kind, error.position + Text.byteLength (first ++ blanks),
            error.fragment⟩ := by
  obtain ⟨body, hbody, rfl⟩ := exists_body h
  obtain ⟨read, hread, hmade⟩ := bind_eq_ok.1 hbody
  have hall := bodyOf_tokens_append hread hfirst hblanks hmade second
  have hsource : ∀ made : List Char × List ParameterType,
      (Pattern.ofBody made).source = '^' :: (Pattern.ofBody made).body ++ ['$'] := fun made => by
    rw [body_ofBody]
    rfl
  refine ⟨hsource body, fun other hother => ?_, fun error herror => ?_⟩
  · obtain ⟨later, hlater, rfl⟩ := exists_body hother
    refine ⟨hsource later, ?_⟩
    rw [ofExpression_eq, hall, hlater, body_ofBody, body_ofBody, List.append_assoc body.1]
    rfl
  · rw [ofExpression_eq] at herror
    have hlater : (tokens second >>= bodyOf) = .error error := by
      cases hresult : tokens second >>= bodyOf with
      | error other =>
        rw [hresult] at herror
        cases herror
        rfl
      | ok later =>
        rw [hresult] at herror
        cases herror
    rw [ofExpression_eq, hall, hlater, Nat.add_comm]
    rfl

/-- Blanks on both sides of the seam, and a missing branch at the end of the second expression. -/
theorem ofExpression_append_missingBranch :
    Pattern.ofExpression "é {int} \t a/ b".toList =
      .error ⟨.emptyAlternative, 13, none⟩ := by
  have hfirst : Pattern.ofExpression "é {int} ".toList =
      .ok ⟨"^é ([+-]?[0-9]+) $".toList, [.int]⟩ := by decide
  have hsecond : Pattern.ofExpression " a/ b".toList = .error ⟨.emptyAlternative, 3, none⟩ := by
    decide
  have hblanks : AreBlanks ['\t'] := ⟨by simp, List.forall_mem_singleton.2 (by decide)⟩
  exact (ofExpression_append hfirst (by decide) hblanks " a/ b".toList).2.2 _ hsecond

end Stepbook.Expression
