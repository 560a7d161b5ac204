import Mathlib.Data.List.Basic
import Stepbook.Proofs.Expression.Tokens

/-! # Printed tokens

Tokens are printed as an expression, with a backslash before each character that would not stand
for itself. Reading the print gives the tokens back, each with the offset at which it is printed.

* `Token.Canonical`, `Token.Separate`, `Canonical`: what the tokens of an expression are like.
* `Token.print`, `print`: tokens as an expression.
* `Token.move`, `located`: tokens with the offsets that they have in their print.
* `Lexes`: what reading makes of a text, whatever follows it.
* `tokens_print`: what is read from a print.
-/

namespace Stepbook.Expression
set_option autoImplicit false

/-! ## Canonical tokens -/

def Token.Canonical : Token → Prop
  | .text chars => chars ≠ []
  | .blank chars => AreBlanks chars
  | .parameter _ name => '{' ∉ name ∧ '}' ∉ name
  | .optional _ chars => chars ≠ []
  | .separator _ => True

/-- Two literal texts in a row would be read as one, and so would two runs of blanks. -/
def Token.Separate : Token → Token → Prop
  | .text _, .text _ => False
  | .blank _, .blank _ => False
  | _, _ => True

structure Canonical (tokens : List Token) : Prop where
  each : ∀ token ∈ tokens, token.Canonical
  separate : tokens.IsChain Token.Separate

/-! ## Printing -/

/-- A character of a literal text. -/
def escapeLiteral (c : Char) : List Char :=
  if c ∈ ['\\', '(', ')', '{', '}', '/'] ∨ Text.isBlank c = true then ['\\', c] else [c]

/-- A character of an optional text, in which blanks and slashes stand for themselves. -/
def escapeOptional (c : Char) : List Char :=
  if c ∈ ['\\', '(', ')', '{'] then ['\\', c] else [c]

def Token.print : Token → List Char
  | .text chars => chars.flatMap escapeLiteral
  | .blank chars => chars
  | .parameter _ name => '{' :: name ++ ['}']
  | .optional _ chars => '(' :: chars.flatMap escapeOptional ++ [')']
  | .separator _ => ['/']

def print (tokens : List Token) : List Char :=
  tokens.flatMap Token.print

/-- The same token at another offset; literal texts and blanks have none. -/
def Token.move (offset : Nat) : Token → Token
  | .parameter _ name => .parameter offset name
  | .optional _ chars => .optional offset chars
  | .separator _ => .separator offset
  | token => token

/-- Each token at the offset at which it is printed, the first one at `offset`. -/
def located (offset : Nat) : List Token → List Token
  | [] => []
  | token :: tokens =>
    token.move offset :: located (offset + Text.byteLength token.print) tokens

/-- Only offsets change. -/
theorem map_move_located (tokens : List Token) (offset any : Nat) :
    (located offset tokens).map (Token.move any) = tokens.map (Token.move any) := by
  induction tokens generalizing offset with
  | nil => rfl
  | cons token tokens ih =>
    rw [located, List.map_cons, List.map_cons, ih]
    cases token <;> rfl

/-! ## Reading a part of an expression -/

/-- Reading the text completes tokens and leaves another mode, whatever follows. -/
def Lexes (mode : Mode) (offset : Nat) (text : List Char) (complete : List Token)
    (next : Mode) : Prop :=
  ∀ rest, mode.run offset (text ++ rest) =
    (next.run (offset + Text.byteLength text) rest).map (complete ++ ·)

theorem except_map_nil {ε α : Type} (result : Except ε (List α)) :
    result.map ([] ++ ·) = result := by
  cases result <;> rfl

theorem except_map_append {ε α : Type} (result : Except ε (List α)) (first second : List α) :
    (result.map (second ++ ·)).map (first ++ ·) = result.map (first ++ second ++ ·) := by
  cases result with
  | error error => rfl
  | ok read => simp [Except.map]

namespace Lexes

section
variable {mode middle next : Mode} {offset : Nat} {first second : List Char}
  {complete further : List Token}

theorem nil (mode : Mode) (offset : Nat) : Lexes mode offset [] [] mode := by
  intro rest
  exact (except_map_nil _).symm

theorem single {c : Char} (h : mode.step offset c = .ok (complete, next)) :
    Lexes mode offset [c] complete next := by
  intro rest
  show mode.run offset (c :: rest) = _
  rw [Mode.run, h]
  simp only [Text.byteLength_cons, Text.byteLength_nil, Nat.add_zero]
  cases next.run (offset + c.utf8Size) rest <;> rfl

theorem append (hfirst : Lexes mode offset first complete middle)
    (hsecond : Lexes middle (offset + Text.byteLength first) second further next) :
    Lexes mode offset (first ++ second) (complete ++ further) next := by
  intro rest
  rw [List.append_assoc, hfirst, hsecond, except_map_append, Text.byteLength_append,
    Nat.add_assoc]

/-- A further character that completes nothing. -/
theorem cons {c : Char} (hc : mode.step offset c = .ok ([], middle))
    (hsecond : Lexes middle (offset + c.utf8Size) second further next) :
    Lexes mode offset (c :: second) further next :=
  (single hc).append hsecond

end

end Lexes

/-! ## Literal texts -/

/-- Neither in a placeholder nor in an optional text, nor behind a backslash. -/
def Mode.IsOutside : Mode → Prop
  | .between | .text _ | .blank _ => True
  | _ => False

section
variable {mode : Mode} {offset : Nat}

theorem step_of_isOutside (h : mode.IsOutside) (c : Char) :
    mode.step offset c = mode.stepOutside offset c := by
  cases mode <;> first | rfl | exact absurd h id

theorem stepOutside_plain {c : Char} (hspecial : c ∉ ['\\', '(', ')', '{', '}', '/'])
    (hblank : Text.isBlank c = false) :
    mode.stepOutside offset c = .ok (mode.beforeLiteral, .text (mode.literal ++ [c])) := by
  simp only [List.mem_cons, List.not_mem_nil, or_false, not_or] at hspecial
  unfold Mode.stepOutside
  split <;> simp_all

theorem lexes_escapeLiteral (h : mode.IsOutside) (offset : Nat) (c : Char) :
    Lexes mode offset (escapeLiteral c) mode.beforeLiteral (.text (mode.literal ++ [c])) := by
  unfold escapeLiteral
  by_cases hescape : c ∈ ['\\', '(', ')', '{', '}', '/'] ∨ Text.isBlank c = true
  · rw [if_pos hescape]
    have hslash : mode.step offset '\\' = .ok (mode.beforeLiteral, .escape mode.literal) :=
      step_of_isOutside h '\\'
    have hescaped : (Mode.escape mode.literal).step (offset + Text.byteLength ['\\']) c =
        .ok ([], .text (mode.literal ++ [c])) := rfl
    have hboth := (Lexes.single hslash).append (Lexes.single hescaped)
    rwa [List.append_nil] at hboth
  · rw [if_neg hescape]
    rw [not_or, Bool.not_eq_true] at hescape
    apply Lexes.single
    rw [step_of_isOutside h, stepOutside_plain hescape.1 hescape.2]

/-- A literal text completes the blanks before it, and continues the text before it. -/
theorem lexes_literal (h : mode.IsOutside) {chars : List Char} (hne : chars ≠ [])
    (offset : Nat) :
    Lexes mode offset (chars.flatMap escapeLiteral) mode.beforeLiteral
      (.text (mode.literal ++ chars)) := by
  induction chars generalizing mode offset with
  | nil => exact absurd rfl hne
  | cons c chars ih =>
    have hfirst := lexes_escapeLiteral h offset c
    rw [List.flatMap_cons]
    by_cases hmore : chars = []
    · subst hmore
      rwa [List.flatMap_nil, List.append_nil]
    · have houtside : (Mode.text (mode.literal ++ [c])).IsOutside := trivial
      have hrest := hfirst.append (ih houtside hmore _)
      have hcomplete : mode.beforeLiteral ++ (Mode.text (mode.literal ++ [c])).beforeLiteral =
          mode.beforeLiteral := List.append_nil _
      have hread : (Mode.text (mode.literal ++ [c])).literal ++ chars =
          mode.literal ++ (c :: chars) := by
        simp [Mode.literal]
      rwa [hcomplete, hread] at hrest

/-! ## Blanks -/

theorem stepOutside_blank {c : Char} (hblank : Text.isBlank c = true) :
    mode.stepOutside offset c =
      match mode with
      | .blank chars => .ok ([], .blank (chars ++ [c]))
      | mode => .ok (mode.pending, .blank [c]) := by
  unfold Mode.stepOutside
  split
  case h_7 =>
    refine (if_pos hblank).trans ?_
    cases mode <;> rfl
  all_goals exact absurd hblank (by decide)

theorem lexes_furtherBlanks {chars : List Char} (h : ∀ c ∈ chars, Text.isBlank c = true)
    (offset : Nat) (done : List Char) :
    Lexes (.blank done) offset chars [] (.blank (done ++ chars)) := by
  induction chars generalizing done offset with
  | nil =>
    rw [List.append_nil]
    exact Lexes.nil _ _
  | cons c chars ih =>
    have hc : (Mode.blank done).step offset c = .ok ([], .blank (done ++ [c])) :=
      stepOutside_blank (h c (by simp))
    have hrest := ih (fun d hd => h d (by simp [hd])) (offset + c.utf8Size) (done ++ [c])
    rw [List.append_assoc, List.singleton_append] at hrest
    exact Lexes.cons hc hrest

theorem lexes_blanks (h : mode.IsOutside) (hother : ∀ done, mode ≠ .blank done)
    {chars : List Char} (hblanks : AreBlanks chars) (offset : Nat) :
    Lexes mode offset chars mode.pending (.blank chars) := by
  obtain ⟨c, more, rfl⟩ := List.exists_cons_of_ne_nil hblanks.1
  have hfirst : mode.step offset c = .ok (mode.pending, .blank [c]) := by
    rw [step_of_isOutside h, stepOutside_blank (hblanks.2 c (by simp))]
    cases mode with
    | blank done => exact absurd rfl (hother done)
    | _ => rfl
  have hmore := lexes_furtherBlanks (fun d hd => hblanks.2 d (List.mem_cons_of_mem c hd))
    (offset + Text.byteLength [c]) [c]
  have hall := (Lexes.single hfirst).append hmore
  rwa [List.append_nil] at hall

/-! ## Placeholders and optional texts -/

theorem lexes_name (start : Nat) {name : List Char} (h : '{' ∉ name ∧ '}' ∉ name)
    (offset : Nat) (done : List Char) :
    Lexes (.parameter start done) offset name [] (.parameter start (done ++ name)) := by
  induction name generalizing done offset with
  | nil =>
    rw [List.append_nil]
    exact Lexes.nil _ _
  | cons c name ih =>
    simp only [List.mem_cons, not_or] at h
    have hc : (Mode.parameter start done).step offset c =
        .ok ([], .parameter start (done ++ [c])) := by
      unfold Mode.step
      dsimp only
      split <;> simp_all
    have hrest := ih ⟨h.1.2, h.2.2⟩ (offset + c.utf8Size) (done ++ [c])
    rw [List.append_assoc, List.singleton_append] at hrest
    exact Lexes.cons hc hrest

theorem lexes_escapeOptional (start offset : Nat) (done : List Char) (c : Char) :
    Lexes (.optional start done) offset (escapeOptional c) [] (.optional start (done ++ [c])) := by
  unfold escapeOptional
  by_cases hescape : c ∈ ['\\', '(', ')', '{']
  · rw [if_pos hescape]
    have hslash : (Mode.optional start done).step offset '\\' =
        .ok ([], .optionalEscape start done) := rfl
    have hescaped : (Mode.optionalEscape start done).step (offset + '\\'.utf8Size) c =
        .ok ([], .optional start (done ++ [c])) := rfl
    exact Lexes.cons hslash (Lexes.single hescaped)
  · rw [if_neg hescape]
    simp only [List.mem_cons, List.not_mem_nil, or_false, not_or] at hescape
    apply Lexes.single
    unfold Mode.step
    dsimp only
    split <;> simp_all

theorem lexes_optionalText (start offset : Nat) (done chars : List Char) :
    Lexes (.optional start done) offset (chars.flatMap escapeOptional) []
      (.optional start (done ++ chars)) := by
  induction chars generalizing done offset with
  | nil =>
    rw [List.append_nil]
    exact Lexes.nil _ _
  | cons c chars ih =>
    have hrest := (lexes_escapeOptional start offset done c).append (ih _ (done ++ [c]))
    rw [List.append_assoc, List.singleton_append] at hrest
    exact hrest

/-! ## Tokens -/

theorem lexes_parameter (h : mode.IsOutside) {name : List Char} (hname : '{' ∉ name ∧ '}' ∉ name)
    (offset : Nat) :
    Lexes mode offset ('{' :: name ++ ['}']) (mode.pending ++ [.parameter offset name])
      .between := by
  have hopen : mode.step offset '{' = .ok (mode.pending, .parameter offset []) :=
    step_of_isOutside h '{'
  have hbody := lexes_name offset hname (offset + Text.byteLength ['{']) []
  have hclose : (Mode.parameter offset ([] ++ name)).step
      (offset + Text.byteLength ['{'] + Text.byteLength name) '}' =
        .ok ([.parameter offset name], .between) := rfl
  exact (Lexes.single hopen).append (hbody.append (Lexes.single hclose))

theorem lexes_optional (h : mode.IsOutside) {chars : List Char} (hne : chars ≠ [])
    (offset : Nat) :
    Lexes mode offset ('(' :: chars.flatMap escapeOptional ++ [')'])
      (mode.pending ++ [.optional offset chars]) .between := by
  have hopen : mode.step offset '(' = .ok (mode.pending, .optional offset []) :=
    step_of_isOutside h '('
  have hbody := lexes_optionalText offset (offset + Text.byteLength ['(']) [] chars
  have hclose : (Mode.optional offset ([] ++ chars)).step (offset + Text.byteLength ['('] +
      Text.byteLength (chars.flatMap escapeOptional)) ')' =
        .ok ([.optional offset chars], .between) := by
    have hsome : chars.isEmpty = false := List.isEmpty_eq_false_iff.2 hne
    show (if chars.isEmpty = true then _ else _) = _
    rw [hsome, if_neg Bool.false_ne_true]
    rfl
  exact (Lexes.single hopen).append (hbody.append (Lexes.single hclose))

/-- The print of a token completes what is pending, and then the token or leaves it pending. -/
theorem lexes_print (h : mode.IsOutside) {token : Token} (hcanonical : token.Canonical)
    (hseparate : ∀ held ∈ mode.pending, held.Separate token) (offset : Nat) :
    ∃ complete next, next.IsOutside ∧ Lexes mode offset token.print complete next ∧
      complete ++ next.pending = mode.pending ++ [token.move offset] := by
  cases token with
  | text chars =>
    refine ⟨_, .text _, trivial, lexes_literal h hcanonical offset, ?_⟩
    cases mode with
    | text done => exact absurd (hseparate _ (List.mem_singleton.2 rfl)) id
    | _ => rfl
  | blank chars =>
    have hother : ∀ done, mode ≠ .blank done := by
      rintro done rfl
      exact hseparate _ (List.mem_singleton.2 rfl)
    exact ⟨_, .blank _, trivial, lexes_blanks h hother hcanonical offset, rfl⟩
  | parameter start name =>
    exact ⟨_, .between, trivial, lexes_parameter h hcanonical offset, List.append_nil _⟩
  | «optional» start chars =>
    exact ⟨_, .between, trivial, lexes_optional h hcanonical offset, List.append_nil _⟩
  | separator start =>
    have hslash : mode.step offset '/' =
        .ok (mode.pending ++ [.separator offset], .between) := step_of_isOutside h '/'
    exact ⟨_, .between, trivial, Lexes.single hslash, List.append_nil _⟩

end

/-! ## Prints -/

namespace Canonical

theorem nil : Canonical [] :=
  ⟨nofun, List.isChain_nil⟩

theorem right {first second : List Token} (h : Canonical (first ++ second)) : Canonical second :=
  ⟨fun token htoken => h.each token (List.mem_append_right _ htoken),
    h.separate.right_of_append⟩

end Canonical

theorem Token.Canonical.move {token : Token} (h : token.Canonical) (offset : Nat) :
    (token.move offset).Canonical := by
  cases token <;> exact h

theorem Token.separate_move_iff (offset : Nat) {first second : Token} :
    (first.Separate (second.move offset) ↔ first.Separate second) ∧
      ((first.move offset).Separate second ↔ first.Separate second) := by
  cases first <;> cases second <;> exact ⟨Iff.rfl, Iff.rfl⟩

/-- What is pending is told apart from the tokens that follow, and so is a token that moved. -/
theorem Canonical.move {pending tokens : List Token} {token : Token}
    (h : Canonical (pending ++ token :: tokens)) (offset : Nat) :
    Canonical (pending ++ [token.move offset] ++ tokens) := by
  refine ⟨?_, ?_⟩
  · intro other hother
    simp only [List.mem_append, List.mem_singleton] at hother
    rcases hother with (hother | rfl) | hother
    · exact h.each other (by simp [hother])
    · exact (h.each token (by simp)).move offset
    · exact h.each other (by simp [hother])
  · have hseparate := h.separate
    rw [List.append_assoc, List.singleton_append]
    rw [List.isChain_append, List.isChain_cons] at hseparate ⊢
    obtain ⟨hpending, ⟨hnext, htokens⟩, hlast⟩ := hseparate
    refine ⟨hpending, ⟨fun other hother => ?_, htokens⟩, fun last hmem first hfirst => ?_⟩
    · exact (Token.separate_move_iff offset).2.2 (hnext other hother)
    · obtain rfl : token.move offset = first := by simpa using hfirst
      exact (Token.separate_move_iff offset).1.2 (hlast last hmem token (by simp))

/-- Tokens that are printed behind what is pending are read with it. -/
theorem run_print {mode : Mode} {tokens : List Token} (h : mode.IsOutside)
    (hcanonical : Canonical (mode.pending ++ tokens)) (offset : Nat) :
    mode.run offset (print tokens) = .ok (mode.pending ++ located offset tokens) := by
  induction tokens generalizing mode offset with
  | nil =>
    have hfinish : mode.finish = .ok mode.pending := by
      cases mode <;> first | rfl | exact absurd h id
    rw [print, List.flatMap_nil, Mode.run, hfinish, located, List.append_nil]
  | cons token tokens ih =>
    have htoken : token.Canonical := hcanonical.each token (by simp)
    have hseparate : ∀ held ∈ mode.pending, held.Separate token := by
      intro held hheld
      have hsingle : mode.pending = [held] := by
        cases mode <;> simp_all [Mode.pending]
      have hchain := hcanonical.separate
      rw [hsingle, List.singleton_append, List.isChain_cons_cons] at hchain
      exact hchain.1
    obtain ⟨complete, next, hnext, hlexes, hpending⟩ :=
      lexes_print h htoken hseparate offset
    have hmoved := hcanonical.move offset
    rw [← hpending, List.append_assoc] at hmoved
    have hrest := ih hnext hmoved.right (offset + Text.byteLength token.print)
    have hprint : print (token :: tokens) = token.print ++ print tokens := List.flatMap_cons
    rw [hprint, hlexes, hrest, located]
    show Except.ok (complete ++ (next.pending ++ _)) = _
    rw [← List.append_assoc, hpending, List.append_assoc, List.singleton_append]

/-- Each token is read as it was, with the offset at which it is printed. -/
theorem tokens_print {read : List Token} (h : Canonical read) :
    tokens (print read) = .ok (located 0 read) := by
  have houtside : Mode.between.IsOutside := trivial
  have hstart : Canonical (Mode.between.pending ++ read) := h
  exact run_print houtside hstart 0

end Stepbook.Expression
