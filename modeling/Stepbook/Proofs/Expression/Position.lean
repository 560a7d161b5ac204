import Stepbook.Expression.Pattern
import Stepbook.Proofs.Expression.Escape
import Stepbook.Proofs.Expression.Print

/-! # Where errors point

The position of an error is that of the character which is at fault, and its fragment is the part of
the expression that is in question. No backslash takes the meaning from such a character.

* `StandsFree`, `Quotes`, `SyntaxError.PointsInto`: what an error says of an expression.
* `Mode.After`: what has been read before a mode.
* `run_points`, `partsAfter_points`: the errors of reading, and those of the parts.
* `error_points`: the errors of an expression.
-/

namespace Stepbook.Expression
set_option autoImplicit false

/-! ## What errors say -/

/-- The character stands in the text at the offset in bytes, and no backslash escapes it. -/
def StandsFree (text : List Char) (mark : Nat × Char) : Prop :=
  ∃ before after, text = before ++ mark.2 :: after ∧ Text.byteLength before = mark.1 ∧
    Unescaped before

/-- A character of the text starts at the offset in bytes, or the text ends there. -/
def IsBoundary (text : List Char) (offset : Nat) : Prop :=
  ∃ before after, text = before ++ after ∧ Text.byteLength before = offset

/-- The character at fault. -/
def SyntaxError.Kind.mark : SyntaxError.Kind → Char
  | .unknownParameterType | .unterminatedParameter | .nestedParameterBrace
  | .optionalParameter => '{'
  | .unmatchedBrace => '}'
  | .unmatchedParenthesis => ')'
  | .unterminatedOptional | .emptyOptional | .nestedOptional | .optionalOnlyAlternative => '('
  | .emptyAlternative => '/'

/-- The fragment of an error is the name after a brace, or the optional text after a parenthesis, up
to the character that ends it. -/
inductive Quotes : List Char → SyntaxError → Prop where
  | unknownParameterType {before name after : List Char} (named : IsName name) :
      Quotes (before ++ '{' :: (name ++ '}' :: after))
        ⟨.unknownParameterType, Text.byteLength before, some name⟩
  | unterminatedParameter {before name : List Char} (named : IsName name) :
      Quotes (before ++ '{' :: name)
        ⟨.unterminatedParameter, Text.byteLength before, some name⟩
  | nestedParameterBrace {before name after : List Char} (free : Unescaped before)
      (named : IsName name) :
      Quotes (before ++ '{' :: (name ++ '{' :: after))
        ⟨.nestedParameterBrace, Text.byteLength (before ++ '{' :: name), some name⟩
  | unterminatedOptional {before raw : List Char} (free : Unescaped before)
      (inside : IsOptionalText raw) :
      Quotes (before ++ '(' :: raw)
        ⟨.unterminatedOptional, Text.byteLength before, some (resolved raw)⟩
  | nestedOptional {before raw after : List Char} (free : Unescaped before)
      (inside : IsOptionalText raw) :
      Quotes (before ++ '(' :: (raw ++ '(' :: after))
        ⟨.nestedOptional, Text.byteLength (before ++ '(' :: raw), some (resolved raw)⟩
  | optionalParameter {before raw after : List Char} (free : Unescaped before)
      (inside : IsOptionalText raw) :
      Quotes (before ++ '(' :: (raw ++ '{' :: after))
        ⟨.optionalParameter, Text.byteLength (before ++ '(' :: raw), some (resolved raw)⟩
  | nothing {text : List Char} {kind : SyntaxError.Kind} (position : Nat)
      (silent : kind ∈ [.unmatchedBrace, .unmatchedParenthesis, .emptyOptional, .emptyAlternative,
        .optionalOnlyAlternative]) :
      Quotes text ⟨kind, position, none⟩

/-- The error is at the character at fault; a branch that is missing may be behind its separator. -/
structure SyntaxError.PointsInto (error : SyntaxError) (text : List Char) : Prop where
  mark : StandsFree text (error.position, error.kind.mark) ∨
    error.kind = .emptyAlternative ∧
      ∃ offset, error.position = offset + 1 ∧ StandsFree text (offset, '/')
  fragment : Quotes text error

namespace StandsFree

variable {text : List Char} {mark : Nat × Char}

theorem append (h : StandsFree text mark) (more : List Char) : StandsFree (text ++ more) mark := by
  obtain ⟨before, after, rfl, hoffset, hfree⟩ := h
  exact ⟨before, after ++ more, by simp, hoffset, hfree⟩

theorem of_after {before : List Char} (h : Unescaped before) (c : Char) (after : List Char) :
    StandsFree (before ++ c :: after) (Text.byteLength before, c) :=
  ⟨before, after, rfl, rfl, h⟩

theorem isBoundary (h : StandsFree text mark) : IsBoundary text mark.1 := by
  obtain ⟨before, after, rfl, hoffset, -⟩ := h
  exact ⟨before, mark.2 :: after, rfl, hoffset⟩

/-- A slash is one byte, so that a character starts behind it. -/
theorem isBoundary_behind {offset : Nat} (h : StandsFree text (offset, '/')) :
    IsBoundary text (offset + 1) := by
  obtain ⟨before, after, rfl, hoffset, -⟩ := h
  refine ⟨before ++ ['/'], after, by simp, ?_⟩
  rw [Text.byteLength_append, hoffset]
  rfl

end StandsFree

theorem IsBoundary.le {text : List Char} {offset : Nat} (h : IsBoundary text offset) :
    offset ≤ Text.byteLength text := by
  obtain ⟨before, after, rfl, rfl⟩ := h
  rw [Text.byteLength_append]
  exact Nat.le_add_right _ _

theorem SyntaxError.PointsInto.isBoundary {error : SyntaxError} {text : List Char}
    (h : error.PointsInto text) : IsBoundary text error.position := by
  rcases h.mark with hmark | ⟨-, offset, hposition, hslash⟩
  · exact hmark.isBoundary
  · rw [hposition]
    exact hslash.isBoundary_behind

/-! ## What has been read -/

/-- The text ends in the beginning of a name, whose brace is at `start`. -/
def EndsInName (text : List Char) (start : Nat) (name : List Char) : Prop :=
  ∃ before, text = before ++ '{' :: name ∧ Text.byteLength before = start ∧
    escapingAfter before = .plain ∧ IsName name

/-- The text ends in the beginning of an optional text, whose parenthesis is at `start`. -/
def EndsInOptional (text : List Char) (start : Nat) (chars : List Char) : Prop :=
  ∃ before raw, text = before ++ '(' :: raw ∧ Text.byteLength before = start ∧
    escapingAfter before = .plain ∧ Spells raw chars

/-- The characters that lead to a mode. -/
def Mode.After (past : List Char) : Mode → Prop
  | .between | .text _ | .blank _ => escapingAfter past = .plain
  | .escape _ => escapingAfter past = .escaped
  | .parameter start name => EndsInName past start name
  | .optional start chars => EndsInOptional past start chars
  | .optionalEscape start chars =>
    ∃ before, past = before ++ ['\\'] ∧ EndsInOptional before start chars

/-- What opens the token stands at its offset; the whole of a placeholder is there. -/
def Token.StandsIn (text : List Char) : Token → Prop
  | .parameter start name =>
    ∃ before after, text = before ++ '{' :: (name ++ '}' :: after) ∧
      Text.byteLength before = start ∧ Unescaped before ∧ IsName name
  | .optional start _ => StandsFree text (start, '(')
  | .separator offset => StandsFree text (offset, '/')
  | _ => True

theorem Token.StandsIn.append {text : List Char} {token : Token} (h : token.StandsIn text)
    (more : List Char) : token.StandsIn (text ++ more) := by
  cases token with
  | parameter start name =>
    obtain ⟨before, after, rfl, hstart, hfree, hname⟩ := h
    exact ⟨before, after ++ more, by simp, hstart, hfree, hname⟩
  | «optional» start chars => exact StandsFree.append h more
  | separator offset => exact StandsFree.append h more
  | text chars => trivial
  | blank chars => trivial

/-! ## Reading one character -/

/-- What holds of a step: of the tokens that it completes and of the next mode, or of its error,
whatever follows. -/
def StepPoints (past : List Char) (c : Char) : Except SyntaxError (List Token × Mode) → Prop
  | .ok (complete, next) =>
    (∀ token ∈ complete, token.StandsIn (past ++ [c])) ∧ next.After (past ++ [c])
  | .error error => ∀ after, error.PointsInto (past ++ c :: after)

section
variable {past : List Char} {mode : Mode}

theorem standsIn_pending (mode : Mode) (text : List Char) :
    ∀ token ∈ mode.pending, token.StandsIn text := by
  cases mode with
  | text chars => exact List.forall_mem_singleton.2 trivial
  | blank chars => exact List.forall_mem_singleton.2 trivial
  | _ => exact nofun

theorem standsIn_beforeLiteral (mode : Mode) (text : List Char) :
    ∀ token ∈ mode.beforeLiteral, token.StandsIn text := by
  cases mode with
  | blank chars => exact List.forall_mem_singleton.2 trivial
  | _ => exact nofun

theorem pointsInto_next {kind : SyntaxError.Kind} (h : escapingAfter past = .plain)
    (hkind : kind = .unmatchedBrace ∨ kind = .unmatchedParenthesis) (after : List Char) :
    SyntaxError.PointsInto ⟨kind, Text.byteLength past, none⟩ (past ++ kind.mark :: after) where
  mark := .inl (.of_after (unescaped_of_plain h) _ after)
  fragment := .nothing _ (by rcases hkind with rfl | rfl <;> simp)

theorem stepPoints_outside (h : escapingAfter past = .plain) (c : Char) :
    StepPoints past c (mode.stepOutside (Text.byteLength past) c) := by
  have hescaping := escapingAfter_concat past c
  rw [h] at hescaping
  unfold Mode.stepOutside
  split
  · exact ⟨standsIn_beforeLiteral mode _, hescaping⟩
  · exact ⟨standsIn_pending mode _, past, rfl, rfl, h, nofun, nofun⟩
  · exact ⟨standsIn_pending mode _, past, [], rfl, rfl, h, .nil⟩
  · refine ⟨List.forall_mem_append.2 ⟨standsIn_pending mode _, ?_⟩, hescaping⟩
    exact List.forall_mem_singleton.2 (.of_after (unescaped_of_plain h) _ [])
  · exact pointsInto_next h (.inl rfl)
  · exact pointsInto_next h (.inr rfl)
  · next hslash hbrace _ _ _ _ =>
    rw [next_plain (fun heq => hslash heq) (fun heq => hbrace heq)] at hescaping
    split
    · split
      · exact ⟨nofun, hescaping⟩
      · exact ⟨standsIn_pending mode _, hescaping⟩
    · exact ⟨standsIn_beforeLiteral mode _, hescaping⟩

theorem stepPoints_parameter {start : Nat} {name : List Char} (h : EndsInName past start name)
    (c : Char) :
    StepPoints past c ((Mode.parameter start name).step (Text.byteLength past) c) := by
  obtain ⟨before, rfl, rfl, hescaping, hname⟩ := h
  unfold Mode.step
  dsimp only
  split
  · have hplaceholder : (Token.parameter (Text.byteLength before) name).StandsIn
        (before ++ '{' :: name ++ ['}']) :=
      ⟨before, [], by simp, rfl, unescaped_of_plain hescaping, hname⟩
    refine ⟨List.forall_mem_singleton.2 hplaceholder, ?_⟩
    show escapingAfter (before ++ '{' :: name ++ ['}']) = .plain
    rw [escapingAfter_concat, escapingAfter, List.foldl_append, ← escapingAfter, hescaping]
    show (name.foldl Escaping.next .name).next '}' = .plain
    rw [foldl_next_name hname]
    rfl
  · intro after
    refine ⟨.inl (.of_after (unescaped_name hescaping hname) _ after), ?_⟩
    rw [List.append_assoc, List.cons_append]
    exact .nestedParameterBrace (unescaped_of_plain hescaping) hname
  · next hclosing hopening =>
    refine ⟨List.forall_mem_nil _, before, by simp, rfl, hescaping, ?_⟩
    simp only [IsName, List.mem_append, List.mem_singleton, not_or]
    exact ⟨⟨hname.1, fun heq => hopening heq.symm⟩, hname.2, fun heq => hclosing heq.symm⟩

theorem stepPoints_optional {start : Nat} {chars : List Char}
    (h : EndsInOptional past start chars) (c : Char) :
    StepPoints past c ((Mode.optional start chars).step (Text.byteLength past) c) := by
  have hends := h
  obtain ⟨before, raw, rfl, rfl, hescaping, hspells⟩ := h
  have hfree := unescaped_of_plain hescaping
  have hinside := unescaped_of_plain (escapingAfter_optional hescaping hspells)
  have hopen : ∀ after, StandsFree (before ++ '(' :: raw ++ after) (Text.byteLength before, '(') :=
    fun after => (StandsFree.of_after hfree '(' raw).append after
  unfold Mode.step
  dsimp only
  split
  · exact ⟨nofun, _, rfl, hends⟩
  · split
    · exact fun after => ⟨.inl (hopen _), .nothing _ (by simp)⟩
    · refine ⟨List.forall_mem_singleton.2 (hopen _), ?_⟩
      show escapingAfter (before ++ '(' :: raw ++ [')']) = .plain
      rw [escapingAfter_concat, escapingAfter_optional hescaping hspells]
      rfl
  · intro after
    refine ⟨.inl (.of_after hinside _ after), ?_⟩
    rw [List.append_assoc, List.cons_append, ← hspells.resolved_eq]
    exact .optionalParameter hfree hspells.isOptionalText
  · intro after
    refine ⟨.inl (.of_after hinside _ after), ?_⟩
    rw [List.append_assoc, List.cons_append, ← hspells.resolved_eq]
    exact .nestedOptional hfree hspells.isOptionalText
  · next hslash hclosing hbrace hopening =>
    refine ⟨nofun, before, raw ++ [c], by simp, rfl, hescaping, hspells.plain ?_⟩
    simp only [List.mem_cons, List.not_mem_nil, or_false, not_or]
    exact ⟨hslash, hopening, hclosing, hbrace⟩

theorem stepPoints (h : mode.After past) (c : Char) :
    StepPoints past c (mode.step (Text.byteLength past) c) := by
  cases mode with
  | between => exact stepPoints_outside h c
  | text chars => exact stepPoints_outside h c
  | blank chars => exact stepPoints_outside h c
  | escape chars =>
    refine ⟨nofun, ?_⟩
    show escapingAfter (past ++ [c]) = .plain
    rw [escapingAfter_concat, show escapingAfter past = .escaped from h]
    rfl
  | parameter start name => exact stepPoints_parameter h c
  | «optional» start chars => exact stepPoints_optional h c
  | optionalEscape start chars =>
    obtain ⟨_, rfl, before, raw, rfl, hstart, hescaping, hspells⟩ := h
    exact ⟨nofun, before, raw ++ ['\\'] ++ [c], by simp, hstart, hescaping, hspells.escaped c⟩

end

/-! ## Reading to the end -/

/-- The tokens of a text stand in it, or its error points into it. -/
def RunPoints (text : List Char) : Except SyntaxError (List Token) → Prop
  | .ok tokens => ∀ token ∈ tokens, token.StandsIn text
  | .error error => error.PointsInto text

section
variable {past : List Char} {mode : Mode}

theorem finish_points (h : mode.After past) : RunPoints past mode.finish := by
  cases mode with
  | between => exact standsIn_pending _ _
  | text chars => exact standsIn_pending _ _
  | blank chars => exact standsIn_pending _ _
  | escape chars => exact List.forall_mem_singleton.2 trivial
  | parameter start name =>
    obtain ⟨before, rfl, rfl, hescaping, hname⟩ := h
    exact ⟨.inl (.of_after (unescaped_of_plain hescaping) _ _), .unterminatedParameter hname⟩
  | «optional» start chars =>
    obtain ⟨before, raw, rfl, rfl, hescaping, hspells⟩ := h
    have hfree := unescaped_of_plain hescaping
    refine ⟨.inl (.of_after hfree _ _), ?_⟩
    rw [← hspells.resolved_eq]
    exact .unterminatedOptional hfree hspells.isOptionalText
  | optionalEscape start chars =>
    obtain ⟨_, rfl, before, raw, rfl, rfl, hescaping, hspells⟩ := h
    have hfree := unescaped_of_plain hescaping
    have hresolved : resolved (raw ++ ['\\']) = chars ++ ['\\'] := hspells.resolved_append _
    have hinside : IsOptionalText (raw ++ ['\\']) :=
      hspells.isOptionalText_append (List.forall_mem_singleton.2 (by decide))
    rw [List.append_assoc, List.cons_append]
    refine ⟨.inl (.of_after hfree _ _), ?_⟩
    rw [← hresolved]
    exact .unterminatedOptional hfree hinside

/-- What has been read stays in place while the rest is read. -/
theorem run_points (h : mode.After past) (rest : List Char) :
    RunPoints (past ++ rest) (mode.run (Text.byteLength past) rest) := by
  induction rest generalizing past mode with
  | nil =>
    rw [List.append_nil]
    exact finish_points h
  | cons c rest ih =>
    have hstep := stepPoints h c
    have hlength : Text.byteLength past + c.utf8Size = Text.byteLength (past ++ [c]) := by simp
    have htext : past ++ c :: rest = past ++ [c] ++ rest := by simp
    unfold Mode.run
    split
    · next error herror =>
      rw [herror] at hstep
      exact hstep rest
    · next complete next hnext =>
      rw [hnext] at hstep
      have hrest := ih hstep.2
      rw [← hlength, ← htext] at hrest
      split
      · next error herror =>
        rw [herror] at hrest
        exact hrest
      · next others hothers =>
        rw [hothers] at hrest
        refine List.forall_mem_append.2 ⟨fun token htoken => ?_, hrest⟩
        rw [htext]
        exact (hstep.1 token htoken).append rest

end

theorem tokens_points (expression : List Char) : RunPoints expression (tokens expression) := by
  have hstart : Mode.between.After [] := rfl
  exact run_points hstart expression

/-! ## Parts -/

theorem bind_eq_error {ε α β : Type} {first : Except ε α} {next : α → Except ε β} {error : ε} :
    first >>= next = .error error ↔
      first = .error error ∨ ∃ middle, first = .ok middle ∧ next middle = .error error := by
  cases first with
  | error other =>
    constructor
    · intro h
      cases h
      exact .inl rfl
    · rintro (h | ⟨_, h, -⟩)
      · cases h
        rfl
      · cases h
  | ok middle =>
    constructor
    · exact fun h => .inr ⟨middle, rfl, h⟩
    · rintro (h | ⟨_, heq, h⟩)
      · cases h
      · cases heq
        exact h

def Piece.StandsIn (text : List Char) : Piece → Prop
  | .text _ => True
  | .optional start _ => StandsFree text (start, '(')

/-- The optional texts and the separators of a segment stand in the text. -/
structure Segment.StandsIn (text : List Char) (segment : Segment) : Prop where
  branches : ∀ closed ∈ segment.closed, ∀ piece ∈ closed.1, piece.StandsIn text
  separators : ∀ closed ∈ segment.closed, StandsFree text (closed.2, '/')
  last : ∀ piece ∈ segment.last, piece.StandsIn text

namespace Segment.StandsIn

variable {text : List Char} {segment : Segment}

theorem empty (text : List Char) : Segment.empty.StandsIn text :=
  ⟨nofun, nofun, nofun⟩

theorem addPiece (h : segment.StandsIn text) {piece : Piece} (hpiece : piece.StandsIn text) :
    (segment.addPiece piece).StandsIn text :=
  ⟨h.branches, h.separators,
    List.forall_mem_append.2 ⟨h.last, List.forall_mem_singleton.2 hpiece⟩⟩

theorem separate (h : segment.StandsIn text) {offset : Nat}
    (hslash : StandsFree text (offset, '/')) : (segment.separate offset).StandsIn text :=
  ⟨List.forall_mem_append.2 ⟨h.branches, List.forall_mem_singleton.2 h.last⟩,
    List.forall_mem_append.2 ⟨h.separators, List.forall_mem_singleton.2 hslash⟩, nofun⟩

end Segment.StandsIn

section
variable {text : List Char} {error : SyntaxError}

/-- A branch that is missing is at its separator, or behind the one before it. -/
theorem checkBranch_points {branch : Branch} {position : Nat}
    (hpieces : ∀ piece ∈ branch, piece.StandsIn text)
    (hposition : StandsFree text (position, '/') ∨
      ∃ offset, position = offset + 1 ∧ StandsFree text (offset, '/'))
    (h : Segment.checkBranch branch position = .error error) : error.PointsInto text := by
  unfold Segment.checkBranch at h
  split at h
  · cases h
    exact ⟨hposition.imp_right fun hbehind => ⟨rfl, hbehind⟩, .nothing _ (by simp)⟩
  · next start chars rest =>
    split at h
    · cases h
      exact ⟨.inl (hpieces (.optional start chars) (List.mem_cons_self ..)), .nothing _ (by simp)⟩
    · cases h
  · cases h

theorem checkClosed_points {closed : List (Branch × Nat)}
    (hbranches : ∀ branch ∈ closed, ∀ piece ∈ branch.1, piece.StandsIn text)
    (hseparators : ∀ branch ∈ closed, StandsFree text (branch.2, '/'))
    (h : Segment.checkClosed closed = .error error) : error.PointsInto text := by
  induction closed with
  | nil => cases h
  | cons branch closed ih =>
    obtain ⟨hbranch, hbranches⟩ := List.forall_mem_cons.1 hbranches
    obtain ⟨hseparator, hseparators⟩ := List.forall_mem_cons.1 hseparators
    rw [Segment.checkClosed, bind_eq_error] at h
    rcases h with hfirst | ⟨-, -, hrest⟩
    · exact checkBranch_points hbranch (.inl hseparator) hfirst
    · exact ih hbranches hseparators hrest

theorem check_points {segment : Segment} (hsegment : segment.StandsIn text)
    (h : segment.check = .error error) : error.PointsInto text := by
  unfold Segment.check at h
  split at h
  · cases h
  · next branch offset hlast =>
    rw [bind_eq_error] at h
    rcases h with hclosed | ⟨-, -, hlastBranch⟩
    · exact checkClosed_points hsegment.branches hsegment.separators hclosed
    · have hslash := hsegment.separators _ (List.mem_of_getLast? hlast)
      exact checkBranch_points hsegment.last (.inr ⟨offset, rfl, hslash⟩) hlastBranch

theorem parameterType_points {start : Nat} {name : List Char}
    (hplaceholder : (Token.parameter start name).StandsIn text)
    (h : parameterType start name = .error error) : error.PointsInto text := by
  obtain ⟨before, after, rfl, rfl, hfree, hname⟩ := hplaceholder
  unfold parameterType at h
  split at h
  · cases h
  · cases h
    exact ⟨.inl (.of_after hfree _ _), .unknownParameterType hname⟩

theorem partsAfter_points {segment : Segment} {tokens : List Token}
    (hsegment : segment.StandsIn text) (htokens : ∀ token ∈ tokens, token.StandsIn text)
    (h : partsAfter segment tokens = .error error) : error.PointsInto text := by
  induction tokens generalizing segment with
  | nil =>
    rw [partsAfter, bind_eq_error] at h
    rcases h with hcheck | ⟨_, -, h⟩
    · exact check_points hsegment hcheck
    · cases h
  | cons token tokens ih =>
    obtain ⟨htoken, hothers⟩ := List.forall_mem_cons.1 htokens
    clear htokens
    cases token with
    | text chars =>
      have hpiece : (Piece.text chars).StandsIn text := trivial
      exact ih (hsegment.addPiece hpiece) hothers h
    | «optional» start chars =>
      have hpiece : (Piece.optional start chars).StandsIn text := htoken
      exact ih (hsegment.addPiece hpiece) hothers h
    | separator offset => exact ih (hsegment.separate htoken) hothers h
    | blank chars =>
      rw [partsAfter, bind_eq_error] at h
      rcases h with hcheck | ⟨-, -, h⟩
      · exact check_points hsegment hcheck
      · rcases bind_eq_error.1 h with hrest | ⟨_, -, h⟩
        · exact ih (.empty text) hothers hrest
        · cases h
    | parameter start name =>
      rw [partsAfter, bind_eq_error] at h
      rcases h with hcheck | ⟨-, -, h⟩
      · exact check_points hsegment hcheck
      · rcases bind_eq_error.1 h with htype | ⟨_, -, h⟩
        · exact parameterType_points htoken htype
        · rcases bind_eq_error.1 h with hrest | ⟨_, -, h⟩
          · exact ih (.empty text) hothers hrest
          · cases h

end

/-! ## Expressions -/

/-- The error of an expression is at a character of the expression, which is the one at fault and is
not escaped, and its fragment is the part of the expression that is in question. -/
theorem error_points {expression : List Char} {error : SyntaxError}
    (h : Pattern.ofExpression expression = .error error) :
    error.position ≤ Text.byteLength expression ∧ IsBoundary expression error.position ∧
      error.PointsInto expression := by
  have hpoints : error.PointsInto expression := by
    have htokens := tokens_points expression
    rcases bind_eq_error.1 h with hread | ⟨read, hread, hrest⟩
    · rw [hread] at htokens
      exact htokens
    · rw [hread] at htokens
      rcases bind_eq_error.1 hrest with hparts | ⟨_, -, hmade⟩
      · exact partsAfter_points (.empty expression) htokens hparts
      · cases hmade
  exact ⟨hpoints.isBoundary.le, hpoints.isBoundary, hpoints⟩

/-- The escaped parenthesis does not end the optional text, so that a placeholder is in it; the
character in front takes two bytes. -/
theorem error_points_optionalParameter :
    Pattern.ofExpression "é (a\\) {int})".toList =
        .error ⟨.optionalParameter, 8, some "a) ".toList⟩ ∧
      StandsFree "é (a\\) {int})".toList (8, '{') := by
  have herror : Pattern.ofExpression "é (a\\) {int})".toList =
      .error ⟨.optionalParameter, 8, some "a) ".toList⟩ := by decide
  refine ⟨herror, ?_⟩
  rcases (error_points herror).2.2.mark with hmark | ⟨hkind, -⟩
  · exact hmark
  · cases hkind

end Stepbook.Expression
